import Drachtio.Controller.ContactAlias
import Drachtio.Lib.Fields
import Drachtio.Lib.Run

/-! The table of contact aliases keeps the connection on which every peer was last heard. -/

namespace Drachtio.Controller
open Client (lower)

/-! ### Keys -/

/-- A peer as the table tells it apart. The name of a protocol and a numeric address have no '|', and a port no ':'. -/
structure Peer where
  proto : String
  srcAddress : String
  advertisedHost : String
  advertisedPort : Option String
  proto_bar : '|' ∉ proto.toList
  srcAddress_bar : '|' ∉ srcAddress.toList
  port_colon : ∀ p ∈ advertisedPort, ':' ∉ p.toList

namespace Peer

def key (p : Peer) : String := makeContactAliasKey p.proto p.srcAddress p.advertisedHost p.advertisedPort

/-- The same peer up to the case of letters. -/
structure Same (p q : Peer) : Prop where
  proto : lower p.proto = lower q.proto
  srcAddress : lower p.srcAddress = lower q.srcAddress
  advertisedHost : lower p.advertisedHost = lower q.advertisedHost
  advertisedPort : lower (portOr0 p.advertisedPort) = lower (portOr0 q.advertisedPort)

theorem toList_key (p : Peer) : p.key.toList =
    (lower p.proto).toList ++ '|' :: ((lower p.srcAddress).toList ++ '|' ::
      ((lower p.advertisedHost).toList ++ ':' :: (lower (portOr0 p.advertisedPort)).toList)) := by
  simp only [key, makeContactAliasKey, lower, String.toList_ofList, String.toList_append, List.map_append, List.append_assoc]
  rfl

theorem portOr0_colon (p : Peer) : ':' ∉ (portOr0 p.advertisedPort).toList := by
  have hport := p.port_colon
  cases hp : p.advertisedPort with
  | none => decide
  | some port =>
    rw [portOr0]
    split
    · decide
    · exact hport port hp

theorem lower_sep {sep : Char} (hsep : ¬ (97 ≤ sep.val.toNat ∧ sep.val.toNat ≤ 122)) {s : String} (h : sep ∉ s.toList) :
    sep ∉ (lower s).toList := by
  rw [lower, String.toList_ofList]
  exact Fields.notMem_map_toLower hsep h

/-- Two peers share a key only if they are the same up to the case of letters. -/
theorem same_of_key {p q : Peer} (h : p.key = q.key) : p.Same q := by
  have hlist := congrArg String.toList h
  rw [toList_key, toList_key] at hlist
  obtain ⟨hproto, hrest⟩ :=
    Fields.append_sep_inj (lower_sep (by decide) p.proto_bar) (lower_sep (by decide) q.proto_bar) hlist
  obtain ⟨hsrc, hrest⟩ :=
    Fields.append_sep_inj (lower_sep (by decide) p.srcAddress_bar) (lower_sep (by decide) q.srcAddress_bar) hrest
  obtain ⟨hhost, hport⟩ :=
    Fields.append_sep_inj_last (lower_sep (by decide) p.portOr0_colon) (lower_sep (by decide) q.portOr0_colon) hrest
  exact ⟨String.toList_inj.mp hproto, String.toList_inj.mp hsrc, String.toList_inj.mp hhost, String.toList_inj.mp hport⟩

end Peer

/-! ### Runs -/

/-- The table, and for every key the connections on which messages of the peer came, oldest first, since its entry was
    last dropped. -/
structure Followed where
  table : ContactAliases
  heard : String → List ContactAliasTarget

namespace Followed
open ContactAliases

def empty : Followed := ⟨∅, fun _ => []⟩

/-- The connections under a key after a message, while aliases are tracked at all. -/
def hear (b : Bool) (op : Op) (key : String) (heard : List ContactAliasTarget) : List ContactAliasTarget :=
  match b, op with
  | true, .message tp sip =>
    match tracked tp sip with
    | some (k, target) => if k = key then heard ++ [target] else heard
    | none => heard
  | _, _ => heard

def step (b : Bool) (s : Followed) (op : Op) : Followed :=
  let table := s.table.step b op
  ⟨table, fun key => if key ∈ table then hear b op key (s.heard key) else []⟩

/-- The table is within its bounds after the operation, and a lookup returns nothing, or an open connection of the pinned
    transport's own interface, whose remote host and port are those of the last message of the peer. -/
structure Right (b : Bool) (s : Followed) (op : Op) : Prop where
  bounded : (s.step b op).table.entries.length ≤ capacity
  latest : match op with
    | .message _ _ => True
    | .lookup net pinned proto srcAddress advertisedHost advertisedPort =>
      ∀ tp ∈ (s.table.getTportForContactAlias b net pinned proto srcAddress advertisedHost advertisedPort).2,
        net.isOpen tp ∧ tp.isSecondary = true ∧ (∃ p ∈ pinned, tp.parent = p.parent) ∧
        ∃ src ∈ srcAddress, ∃ host ∈ advertisedHost, ∃ pr ∈ proto,
          ∃ target ∈ (s.heard (makeContactAliasKey pr src host advertisedPort)).getLast?,
            tp.name.host = some target.host ∧ tp.name.port = some target.port

/-- The entry of a peer is the connection on which it was last heard. -/
structure Tracks (s : Followed) : Prop where
  bounded : s.table.entries.length ≤ capacity
  latest : ∀ key target, s.table.lookup key = some target → (s.heard key).getLast? = some target

theorem Tracks.empty : Followed.empty.Tracks where
  bounded := Nat.zero_le _
  latest := by simp [Followed.empty]

section
variable {m : ContactAliases} {key : String} {target : ContactAliasTarget} {tp : Option Tport} {sip : Option Heard} {b : Bool}

theorem length_entries (m : ContactAliases) : m.entries.length = m.keys.length := (List.length_map _).symm

theorem length_insert_of_mem (h : key ∈ m) : (m.insert key target).entries.length = m.entries.length := by
  have hpos : 0 < m.keys.length := List.length_pos_of_mem (AList.mem_keys.mp h)
  rw [length_entries, length_entries, AList.keys_insert, List.length_cons, List.length_erase_of_mem (AList.mem_keys.mp h)]
  omega

theorem length_insert_of_notMem (h : key ∉ m) : (m.insert key target).entries.length = m.entries.length + 1 := by
  rw [length_entries, length_entries, AList.keys_insert, List.length_cons, List.erase_of_not_mem h]

theorem length_erase_le : (m.erase key).entries.length ≤ m.entries.length := by
  rw [length_entries, length_entries, AList.keys_erase]
  exact List.length_erase_le

/-- A message that is not tracked leaves the table as it is. -/
theorem cache_untracked (h : b = false ∨ tracked tp sip = none) : m.cacheContactAlias b tp sip = m := by
  rw [cacheContactAlias]
  split
  · rfl
  · rename_i hb
    rw [h.resolve_left hb]

/-- After a message that is tracked the peer has the connection of the message, and any other peer the one it had, or
    none. -/
theorem cache_tracked (h : tracked tp sip = some (key, target)) (hlen : m.entries.length ≤ capacity) :
    (m.cacheContactAlias true tp sip).lookup key = some target ∧
    (∀ k x, k ≠ key → (m.cacheContactAlias true tp sip).lookup k = some x → m.lookup k = some x) ∧
    (m.cacheContactAlias true tp sip).entries.length ≤ capacity := by
  have hcapacity : 0 < capacity := by decide
  rw [cacheContactAlias, if_neg (by simp), h]
  dsimp only
  cases hold : m.lookup key with
  | some old =>
    dsimp only
    split
    · rename_i heq
      exact ⟨heq ▸ hold, fun k x _ hk => hk, hlen⟩
    · refine ⟨AList.lookup_insert m, fun k x hne hk => ?_, ?_⟩
      · rwa [AList.lookup_insert_ne hne] at hk
      · rw [length_insert_of_mem (AList.mem_of_lookup hold)]
        exact hlen
  | none =>
    have hnew : key ∉ m := AList.lookup_eq_none.mp hold
    dsimp only
    split
    · refine ⟨AList.lookup_insert _, fun k x hne hk => ?_, ?_⟩
      · rw [AList.lookup_insert_ne hne] at hk
        cases hk
      · rw [length_insert_of_notMem (AList.notMem_empty key)]
        exact hcapacity
    · rename_i hroom
      refine ⟨AList.lookup_insert _, fun k x hne hk => ?_, ?_⟩
      · rwa [AList.lookup_insert_ne hne] at hk
      · rw [length_insert_of_notMem hnew]
        omega

end

variable {s : Followed} {b : Bool} {op : Op} {net : Transports} {pinned : Option Tport}
  {proto srcAddress advertisedHost advertisedPort : Option String}

theorem heard_of_lookup {key : String} {target : ContactAliasTarget} (h : (s.table.step b op).lookup key = some target) :
    (s.step b op).heard key = hear b op key (s.heard key) := if_pos (AList.mem_of_lookup h)

/-- An operation on another key leaves what is known of a peer, or drops it. -/
theorem Tracks.of_table (h : s.Tracks) (hlen : (s.table.step b op).entries.length ≤ s.table.entries.length)
    (htable : ∀ key target, (s.table.step b op).lookup key = some target →
      s.table.lookup key = some target ∧ hear b op key (s.heard key) = s.heard key) : (s.step b op).Tracks := by
  refine ⟨hlen.trans h.bounded, fun key target hlookup => ?_⟩
  obtain ⟨hold, hheard⟩ := htable key target hlookup
  rw [heard_of_lookup hlookup, hheard]
  exact h.latest key target hold

theorem Tracks.message {tp : Option Tport} {sip : Option Heard} (h : s.Tracks) : (s.step b (.message tp sip)).Tracks := by
  cases b with
  | false =>
    have hsame : s.table.step false (.message tp sip) = s.table := cache_untracked (.inl rfl)
    exact h.of_table (by rw [hsame]) fun key target hlookup => ⟨hsame ▸ hlookup, rfl⟩
  | true =>
    cases htracked : tracked tp sip with
    | none =>
      have hsame : s.table.step true (.message tp sip) = s.table := cache_untracked (.inr htracked)
      refine h.of_table (by rw [hsame]) fun key target hlookup => ⟨hsame ▸ hlookup, ?_⟩
      simp only [hear, htracked]
    | some x =>
      obtain ⟨key, target⟩ := x
      obtain ⟨hself, hother, hlen⟩ := cache_tracked htracked h.bounded
      refine ⟨hlen, fun k t hlookup => ?_⟩
      have hstep : (s.table.cacheContactAlias true tp sip).lookup k = some t := hlookup
      rw [heard_of_lookup hlookup]
      simp only [hear, htracked]
      by_cases hk : key = k
      · subst hk
        rw [hself, Option.some.injEq] at hstep
        rw [if_pos rfl, hstep]
        exact List.getLast?_concat
      · rw [if_neg hk]
        exact h.latest k t (hother k t (Ne.symm hk) hstep)

/-- A lookup leaves the table as it is or drops an entry. -/
theorem lookup_table (b : Bool) (net : Transports) (pinned : Option Tport)
    (proto srcAddress advertisedHost advertisedPort : Option String) (m : ContactAliases) :
    (m.getTportForContactAlias b net pinned proto srcAddress advertisedHost advertisedPort).1 = m ∨
    ∃ key, (m.getTportForContactAlias b net pinned proto srcAddress advertisedHost advertisedPort).1 = m.erase key := by
  unfold getTportForContactAlias
  split
  · exact .inl rfl
  · split
    · dsimp only
      split
      · exact .inl rfl
      · split
        · exact .inr ⟨_, rfl⟩
        · split
          · exact .inr ⟨_, rfl⟩
          · split
            · exact .inl rfl
            · exact .inl rfl
    · exact .inl rfl

theorem Tracks.lookup (h : s.Tracks) :
    (s.step b (.lookup net pinned proto srcAddress advertisedHost advertisedPort)).Tracks := by
  have hear_eq : ∀ key heard,
      hear b (.lookup net pinned proto srcAddress advertisedHost advertisedPort) key heard = heard := by
    intro key heard
    cases b <;> rfl
  rcases lookup_table b net pinned proto srcAddress advertisedHost advertisedPort s.table with hsame | ⟨key', herase⟩
  · have htable : s.table.step b (.lookup net pinned proto srcAddress advertisedHost advertisedPort) = s.table := hsame
    exact h.of_table (by rw [htable]) fun key target hlookup => ⟨htable ▸ hlookup, hear_eq key _⟩
  · have htable : s.table.step b (.lookup net pinned proto srcAddress advertisedHost advertisedPort) =
        s.table.erase key' := herase
    refine h.of_table (by rw [htable]; exact length_erase_le) fun key target hlookup => ⟨?_, hear_eq key _⟩
    rw [htable] at hlookup
    exact (AList.lookup_erase_eq_some.mp hlookup).2

theorem Tracks.step (h : s.Tracks) : (s.step b op).Tracks := by
  cases op with
  | message tp sip => exact h.message
  | lookup net pinned proto srcAddress advertisedHost advertisedPort => exact h.lookup

/-- A lookup that returns a connection has found an entry for the key, and sofia the connection with that name. -/
theorem lookup_some {m : ContactAliases} {tp : Tport}
    (h : (m.getTportForContactAlias b net pinned proto srcAddress advertisedHost advertisedPort).2 = some tp) :
    ∃ p ∈ pinned, ∃ src ∈ srcAddress, ∃ host ∈ advertisedHost, ∃ pr ∈ proto,
      ∃ target ∈ m.lookup (makeContactAliasKey pr src host advertisedPort),
        net.tportByName p ⟨p.name.proto, some target.host, some target.port⟩ = some tp ∧ tp.isSecondary = true ∧
        tp.parent = p.parent := by
  unfold getTportForContactAlias at h
  split at h
  · cases h
  · split at h
    · rename_i p pr src host
      dsimp only at h
      split at h
      · cases h
      · rename_i target hlookup
        split at h
        · cases h
        · rename_i found hfound
          split at h
          · cases h
          · rename_i hsecondary
            split at h
            · rename_i hparent
              obtain rfl := Option.some.inj h
              exact ⟨p, rfl, src, rfl, host, rfl, pr, rfl, target, hlookup, hfound, by simpa using hsecondary, hparent⟩
            · cases h
    · cases h

theorem Tracks.right (h : s.Tracks) : s.Right b op := by
  refine ⟨h.step.bounded, ?_⟩
  cases op with
  | message tp sip => exact trivial
  | lookup net pinned proto srcAddress advertisedHost advertisedPort =>
    intro tp htp
    obtain ⟨p, hp, src, hsrc, host, hhost, pr, hpr, target, htarget, hfound, hsecondary, hparent⟩ := lookup_some htp
    obtain ⟨hopen, hname, hport⟩ := net.byName _ _ _ hfound hsecondary
    exact ⟨hopen, hsecondary, ⟨p, hp, hparent⟩, src, hsrc, host, hhost, pr, hpr, target, h.latest _ _ htarget, hname, hport⟩

end Followed

/-- A request in a dialog goes over the transport of the dialog, or over the connection that the lookup of its remote
    target returns. -/
theorem currentTportForDialog_cases (b : Bool) (net : Transports) (remoteTarget : Option ContactUrl) (dlg : DialogTransport)
    (m : ContactAliases) :
    (currentTportForDialog b net remoteTarget dlg m).2 = dlg.tp ∨
    ∃ target ∈ remoteTarget, (currentTportForDialog b net remoteTarget dlg m).2 =
      (m.getTportForContactAlias b net dlg.tp (some dlg.protocol) (some dlg.transportAddress) target.host target.port).2 := by
  unfold currentTportForDialog
  split
  · rename_i tp host port htp
    split
    · exact .inl htp.symm
    · dsimp only
      cases hfound : (m.getTportForContactAlias b net (some tp) (some dlg.protocol) (some dlg.transportAddress) (some host)
        port).2 with
      | none => exact .inl htp.symm
      | some found => exact .inr ⟨_, rfl, by rw [htp, hfound, Option.getD_some]⟩
  · exact .inl rfl

open Machine

/-- In every run the table has at most 10000 entries, and a lookup returns nothing, or an open connection on the interface
    of the pinned transport, whose remote host and port are those of the last tracked message with the same key since the
    entry was dropped; and two peers have one key only if they are the same up to the case of letters, a missing port
    counted as 0. -/
theorem contact_alias_latest (bContactAlias : Bool) (ops : List ContactAliases.Op) :
    Meets (Followed.step bContactAlias) (Followed.Right bContactAlias) Followed.empty ops ∧
      ∀ p q : Peer, p.key = q.key → p.Same q :=
  ⟨meets_invariant (fun _ _ h => ⟨h.step, h.right⟩) Followed.Tracks.empty, fun _ _ h => Peer.same_of_key h⟩

/-- Only one connection is open. -/
def Transports.single (t : Tport) : Transports where
  isOpen tp := tp = t
  tportByName _ tpn := if t.name.host = tpn.host ∧ t.name.port = tpn.port then some t else none
  byName tp tpn found h _ := by
    split at h
    · rename_i hname
      obtain rfl := Option.some.inj h
      exact ⟨rfl, hname⟩
    · cases h

/-- A peer that advertises 10.0.0.1 behind 192.0.2.7 calls over one connection, and later over another. The dialog on the
    first one follows it; the protocol has the other case in the dialog. -/
theorem contact_alias_followed :
    let connection (id : Nat) (port : String) : Tport := ⟨id, true, false, ⟨some "tcp", some "192.0.2.7", some port⟩, 0⟩
    let invite : Heard := ⟨false, some ⟨some "10.0.0.1", none⟩⟩
    let ops : List ContactAliases.Op := [.message (connection 1 "4001") invite, .message (connection 2 "4002") invite,
      .lookup (.single (connection 2 "4002")) (connection 1 "4001") (some "TCP") (some "192.0.2.7") (some "10.0.0.1")
      (some "0")]
    Meets (Followed.step true) (Followed.Right true) Followed.empty ops ∧
      (currentTportForDialog true (.single (connection 2 "4002")) (some ⟨some "10.0.0.1", none⟩)
        ⟨connection 1 "4001", "TCP", "192.0.2.7"⟩ (run (Followed.step true) Followed.empty ops).table).2 =
      some (connection 2 "4002") :=
  ⟨(contact_alias_latest true _).1, by decide⟩

end Drachtio.Controller
