import Drachtio.Theorems.Controller.ContactAlias
import Drachtio.Theorems.Dialog.Connection

/-! Requests inside a dialog stay with the peer: whatever Contact anybody advertises, the connection that a dialog is
    moved to has the remote host and the interface of the one it had. And the route that they carry is that of the last
    response that decided it. -/

namespace Drachtio.Dialog

open Controller (Tport ContactAliases ContactUrl ContactAliasTarget Peer makeContactAliasKey)
open Client (lower)
open Machine

/-- The remote host in the name of a transport -/
def host (tp : Tport) : String := tp.name.host.getD ""

/-- Two connections of one interface with one remote host, up to the case of letters -/
def Near (tp tp' : Tport) : Prop := tp.parent = tp'.parent ∧ lower (host tp) = lower (host tp')

theorem Near.trans {a b c : Tport} (h : Near a b) (h' : Near b c) : Near a c := ⟨h.1.trans h'.1, h.2.trans h'.2⟩

/-! ### Aliases -/

/-- Every entry is kept under the source address that its connection has. -/
def Tracked (m : ContactAliases) : Prop :=
  ∀ key target, m.lookup key = some target → ∃ proto advertisedHost advertisedPort,
    '|' ∉ proto.toList ∧ '|' ∉ target.host.toList ∧ key = makeContactAliasKey proto target.host advertisedHost advertisedPort

theorem toList_key (proto src advertisedHost : String) (advertisedPort : Option String) :
    ∃ rest, (makeContactAliasKey proto src advertisedHost advertisedPort).toList =
      (lower proto).toList ++ '|' :: ((lower src).toList ++ '|' :: rest) := by
  refine ⟨(advertisedHost ++ ":" ++ Controller.portOr0 advertisedPort).toList.map Char.toLower, ?_⟩
  simp only [makeContactAliasKey, lower, String.toList_ofList, String.toList_append, List.map_append, List.append_assoc]
  rfl

/-- Keys are the same only for one source address. -/
theorem source_of_key {proto src advertisedHost proto' src' advertisedHost' : String} {port port' : Option String}
    (h : makeContactAliasKey proto src advertisedHost port = makeContactAliasKey proto' src' advertisedHost' port')
    (hproto : '|' ∉ proto.toList) (hproto' : '|' ∉ proto'.toList) (hsrc : '|' ∉ src.toList) (hsrc' : '|' ∉ src'.toList) :
    lower src = lower src' := by
  obtain ⟨rest, hkey⟩ := toList_key proto src advertisedHost port
  obtain ⟨rest', hkey'⟩ := toList_key proto' src' advertisedHost' port'
  rw [h, hkey'] at hkey
  obtain ⟨-, hrest⟩ := Fields.append_sep_inj (Peer.lower_sep (by decide) hproto') (Peer.lower_sep (by decide) hproto) hkey
  obtain ⟨hhost, -⟩ := Fields.append_sep_inj (Peer.lower_sep (by decide) hsrc') (Peer.lower_sep (by decide) hsrc) hrest
  exact String.toList_inj.mp hhost.symm

section
variable {m : ContactAliases} {b : Bool} {tp : Option Tport} {sip : Option Controller.Heard} {key : String}

theorem Tracked.erase (h : Tracked m) : Tracked (m.erase key) := fun k target hlookup =>
  h k target (AList.lookup_erase_eq_some.mp hlookup).2

theorem Tracked.insert {target : ContactAliasTarget} (h : Tracked m) (hkey : ∃ proto advertisedHost advertisedPort,
    '|' ∉ proto.toList ∧ '|' ∉ target.host.toList ∧ key = makeContactAliasKey proto target.host advertisedHost
    advertisedPort) :
    Tracked (m.insert key target) := by
  intro k t hlookup
  rcases AList.lookup_insert_eq_some.mp hlookup with ⟨rfl, rfl⟩ | ⟨-, hlookup⟩
  · exact hkey
  · exact h k t hlookup

theorem tracked_key {target : ContactAliasTarget} (hnamed : ∀ t ∈ tp, Named t)
    (h : ContactAliases.tracked tp sip = some (key, target)) :
    ∃ proto advertisedHost advertisedPort,
      '|' ∉ proto.toList ∧ '|' ∉ target.host.toList ∧ key = makeContactAliasKey proto target.host advertisedHost
      advertisedPort := by
  unfold ContactAliases.tracked at h
  split at h
  · rename_i tp sip
    split at h
    · cases h
    · split at h
      · split at h
        · cases h
        · split at h
          · rename_i tpnProto tpnHost tpnPort hname
            obtain ⟨rfl, rfl⟩ := Prod.mk.inj (Option.some.inj h)
            obtain ⟨hproto, hhost⟩ := hnamed tp rfl
            exact ⟨tpnProto, _, _, hproto tpnProto (by rw [hname]; rfl), hhost tpnHost (by rw [hname]; rfl), rfl⟩
          · cases h
      · cases h
  · cases h

theorem Tracked.cache (h : Tracked m) (hnamed : ∀ t ∈ tp, Named t) : Tracked (m.cacheContactAlias b tp sip) := by
  unfold ContactAliases.cacheContactAlias
  split
  · exact h
  · split
    · exact h
    · rename_i key target htracked
      have hkey := tracked_key hnamed htracked
      split
      · split
        · exact h
        · exact h.insert hkey
      · split
        · exact Tracked.insert (fun k t hlookup => nomatch hlookup) hkey
        · exact h.insert hkey

end

/-! ### Where a dialog is pinned -/

namespace Connection

/-- The transport of a dialog has the names that are kept of it, and is near the one that was chosen for the dialog. -/
structure Placed (d : Connection) : Prop where
  named : ∀ tp ∈ d.pin.tp, Named tp
  protocol : ∀ tp ∈ d.pin.tp, '|' ∉ d.pin.protocol.toList
  address : ∀ tp ∈ d.pin.tp, d.pin.transportAddress = host tp
  home : ∀ tp ∈ d.pin.tp, ∃ h ∈ d.home, Near tp h

section
variable {d : Connection} {c : NatSetup} {env : NetEnv} {remoteTarget : Option ContactUrl} {aliases : ContactAliases}
  {tp : Tport}

theorem protocol_bar {tp : Tport} (h : Named tp) : '|' ∉ (tp.name.proto.getD "").toList := by
  cases hproto : tp.name.proto with
  | none => exact List.not_mem_nil
  | some proto => exact h.1 proto hproto

theorem host_bar {tp : Tport} (h : Named tp) : '|' ∉ (host tp).toList := by
  unfold host
  cases hhost : tp.name.host with
  | none => exact List.not_mem_nil
  | some src => exact h.2 src hhost

/-- A dialog that is pinned to a transport, near the one that was chosen for it -/
theorem Placed.of_pinned (hpin : d.pin = pinned tp) (hnamed : Named tp) (hhome : ∃ h ∈ d.home, Near tp h) : d.Placed := by
  refine ⟨fun t ht => ?_, fun t ht => ?_, fun t ht => ?_, fun t ht => ?_⟩ <;>
    (rw [hpin] at ht; obtain rfl : tp = t := Option.some.inj ht)
  · exact hnamed
  · rw [hpin]
    exact protocol_bar hnamed
  · rw [hpin]
    rfl
  · exact hhome

/-- A dialog that is pinned to nothing -/
theorem Placed.of_none (hpin : d.pin.tp = none) : d.Placed := by
  refine ⟨fun t ht => ?_, fun t ht => ?_, fun t ht => ?_, fun t ht => ?_⟩ <;> (rw [hpin] at ht; exact nomatch ht)

theorem Placed.unpin : d.unpin.Placed := .of_none (unpin_tp d)

theorem Placed.checkTportState (h : d.Placed) : (d.checkTportState env).Placed := by
  unfold Connection.checkTportState
  split
  · exact .unpin
  · exact h

theorem Placed.getTport (h : d.Placed) : (d.getTport env).Placed := by
  have hcheck : (d.checkTportState env).Placed := h.checkTportState
  unfold Connection.getTport
  dsimp only
  split
  · rename_i orq hpin hack
    split
    · exact hcheck
    · rename_i tp htp
      split
      · exact .of_none hpin
      · exact .of_pinned rfl (env.transport_named orq tp htp) ⟨tp, rfl, rfl, rfl⟩
  · exact hcheck

theorem Placed.sendAck {orq : Orq} (h : d.Placed) : (d.sendAck env orq).Placed := by
  cases hknown : env.transport orq with
  | none =>
    rw [sendAck_delayed hknown]
    exact ⟨h.named, h.protocol, h.address, h.home⟩
  | some tp =>
    unfold Connection.sendAck
    rw [hknown]
    exact .of_pinned rfl (env.transport_named orq tp hknown) ⟨tp, rfl, rfl, rfl⟩

theorem setTport_home (tp : Tport) (d : Connection) : (d.setTport tp).home = d.home := by
  unfold Connection.setTport Connection.unpin
  cases d.pin.tp <;> rfl

/-- A connection that a dialog is moved to is open, and near the one it had. -/
theorem Placed.moved (h : d.Placed) (haliases : Tracked aliases) {current : Tport}
    (hcurrent : (Controller.currentTportForDialog c.contactAlias env.net remoteTarget d.pin aliases).2 = some current)
    (hmoved : d.pin.tp ≠ some current) : ∃ tp ∈ d.pin.tp, Near current tp ∧ Named current ∧ env.closed current = false := by
  rcases Controller.currentTportForDialog_cases c.contactAlias env.net remoteTarget d.pin aliases with heq | ⟨target, -, heq⟩
  · exact absurd (heq.symm.trans hcurrent) hmoved
  · obtain ⟨tp, htp, src, hsrc, advertised, -, proto, hproto, entry, hentry, hfound, hsecondary, hparent⟩ :=
      Controller.Followed.lookup_some (heq.symm.trans hcurrent)
    obtain rfl : d.pin.transportAddress = src := Option.some.inj hsrc
    obtain rfl : d.pin.protocol = proto := Option.some.inj hproto
    obtain ⟨hopen, hhost, -⟩ := env.net.byName _ _ _ hfound hsecondary
    obtain ⟨proto', advertised', port', hproto', hentry', hkey⟩ := haliases _ _ hentry
    have haddress : d.pin.transportAddress = host tp := h.address tp htp
    have hsource : lower d.pin.transportAddress = lower entry.host :=
      source_of_key hkey (h.protocol tp htp) hproto' (by rw [haddress]; exact host_bar (h.named tp htp)) hentry'
    refine ⟨tp, htp, ⟨hparent, ?_⟩, env.found_named _ _ _ hfound, env.open_closed _ hopen⟩
    rw [host, hhost, Option.getD_some, ← haddress]
    exact hsource.symm

theorem Placed.currentTport (h : d.Placed) (haliases : Tracked aliases) :
    (d.currentTport c env remoteTarget aliases).2.Placed := by
  unfold Connection.currentTport
  dsimp only
  split
  · exact h.getTport
  · rename_i current hcurrent
    dsimp only
    split
    · exact h.getTport
    · rename_i hmoved
      obtain ⟨tp, htp, hnear, hnamed, -⟩ := h.getTport.moved haliases hcurrent hmoved
      obtain ⟨home, hhome, hnear'⟩ := h.getTport.home tp htp
      exact .of_pinned rfl hnamed ⟨home, by rw [setTport_home]; exact hhome, hnear.trans hnear'⟩

theorem placed_kept (c : NatSetup) : Calls.Kept c Tracked Placed where
  incoming m := by
    refine ⟨fun t ht => ?_, fun t ht => m.protocol_bar, fun t ht => ?_, fun t ht => ?_⟩ <;>
      obtain rfl : m.tp = t := Option.some.inj ht
    · exact m.named
    · rfl
    · exact ⟨m.tp, rfl, rfl, rfl⟩
  outgoing m := by
    cases htp : m.tp with
    | none => exact .of_none ((Calls.ofOutgoing_tp m).trans htp)
    | some tp =>
      have hpin : (ofOutgoing m).pin = pinned tp := by
        unfold ofOutgoing
        rw [htp]
      exact .of_pinned hpin (m.named tp htp) ⟨tp, htp, rfl, rfl⟩
  response r d _ _ h := by
    rw [processResponse_eq]
    exact ⟨h.named, h.protocol, h.address, h.home⟩
  getTport env d _ h := h.getTport
  currentTport env target aliases d haliases _ h := h.currentTport haliases
  sendAck env orq d _ h := h.sendAck
  destroy d _ h := by
    unfold Connection.destroy
    dsimp only
    split
    · exact .of_none (unpin_tp d)
    · split <;> exact .of_none (unpin_tp d)

/-- The dialog may be pinned to this transport now: it is open, and near the one that was chosen for it. -/
def Reaches (env : NetEnv) (d : Connection) (tp : Tport) : Prop := env.closed tp = false ∧ ∃ h ∈ d.home, Near tp h

theorem Placed.reaches (h : d.Placed) : ∀ tp ∈ (d.getTport env).pin.tp, (d.getTport env).Reaches env tp := fun tp htp =>
  ⟨(looked_getTport env d).closed tp htp, h.getTport.home tp htp⟩

/-- What a request in the dialog is forced onto while it stays with the peer: an open connection, near the one that was
    chosen for the dialog, and nothing just when the dialog is pinned to nothing. -/
structure StaysOn (env : NetEnv) (d : Connection) (tport : Option Tport) : Prop where
  none_iff : tport = none ↔ d.pin.tp = none
  reaches : ∀ tp ∈ tport, d.Reaches env tp

theorem Placed.staysOn (h : d.Placed) : (d.getTport env).StaysOn env (d.getTport env).pin.tp := ⟨Iff.rfl, h.reaches⟩

theorem Placed.currentTport_staysOn (h : d.Placed) (haliases : Tracked aliases) :
    (d.getTport env).StaysOn env ((d.getTport env).currentTport c env remoteTarget aliases).2.pin.tp := by
  unfold Connection.currentTport
  rw [getTport_of_looked (looked_getTport env d)]
  dsimp only
  split
  · exact h.staysOn
  · rename_i current hcurrent
    dsimp only
    split
    · exact h.staysOn
    · rename_i hmoved
      obtain ⟨old, hold, hnear, -, hopen⟩ := h.getTport.moved haliases hcurrent hmoved
      obtain ⟨home, hhome, hnear'⟩ := h.getTport.home old hold
      refine ⟨iff_of_false (Option.some_ne_none current) fun hnone => ?_, fun tp htp => ?_⟩
      · rw [hnone] at hold
        cases hold
      · obtain rfl : current = tp := Option.some.inj htp
        exact ⟨hopen, home, hhome, hnear.trans hnear'⟩

end

end Connection

namespace Calls
open Connection

section
variable {c : NatSetup} {s : Calls} {e : Event} {env : NetEnv} {target : Option Target} {d : Connection}

theorem Tracked.currentTport {m : ContactAliases} {remoteTarget : Option ContactUrl} (h : Tracked m) :
    Tracked (d.currentTport c env remoteTarget m).1 := by
  have hlookup : ∀ {net pinned proto src advertisedHost port},
      Tracked (m.getTportForContactAlias c.contactAlias net pinned proto src advertisedHost port).1 := by
    intro net pinned proto src advertisedHost port
    rcases Controller.Followed.lookup_table c.contactAlias net pinned proto src advertisedHost port
      m with heq | ⟨key, heq⟩ <;> rw [heq]
    · exact h
    · exact h.erase
  have hfollow : ∀ dlg, Tracked (Controller.currentTportForDialog c.contactAlias env.net remoteTarget dlg m).1 := by
    intro dlg
    unfold Controller.currentTportForDialog
    split
    · split
      · exact h
      · exact hlookup
    · exact h
  unfold Connection.currentTport
  dsimp only
  split <;> exact hfollow _

theorem Tracked.follow (h : Tracked s.aliases) : Tracked (s.follow c env target d).1.aliases := by
  rcases follow_cases c env target d s with heq | ⟨-, heq⟩ <;> rw [heq]
  · exact h
  · exact Tracked.currentTport h

theorem sendInside_aliases (c : NatSetup) (env : NetEnv) (i : Nat) (r : InDialogRequest) (d : Connection) (s : Calls) :
    (s.sendInside c env i r d).1.aliases = (s.follow c env r.remoteTarget (d.getTport env)).1.aliases := by
  unfold Calls.sendInside
  dsimp only
  split
  · rfl
  · split
    · split <;> rfl
    · split <;> rfl

theorem Tracked.next (h : Tracked s.aliases) : Tracked (s.next c e).aliases := by
  unfold Calls.next
  cases e with
  | message tp named sip => exact h.cache named
  | binding op => exact h
  | incoming m => exact h
  | outgoing m => exact h
  | response i r =>
    unfold step
    dsimp only
    split
    · exact h
    · split <;> exact h
  | send i env r =>
    unfold step
    dsimp only
    split
    · exact h
    · rw [sendInside_aliases]
      exact Tracked.follow h
  | own i env =>
    unfold step
    dsimp only
    split <;> exact h
  | byeForCancel i env target =>
    unfold step
    dsimp only
    split
    · exact h
    · unfold Calls.byeForCancel
      dsimp only
      split
      · exact Tracked.follow h
      · exact h
  | destroy i =>
    unfold step
    dsimp only
    split <;> exact h

/-! ### Requests -/

/-- What a request of an application carries: a PRACK is not forced onto any transport. -/
theorem sendInside_out (c : NatSetup) (env : NetEnv) (i : Nat) (r : InDialogRequest) (d : Connection) (s : Calls) :
    ∀ o ∈ (s.sendInside c env i r d).2, o.dialog = i ∧ o.route = (s.followed c env r.remoteTarget d).getRouteUri ∧
      o.tport = if r.method = .prack then none else s.forced r (s.followed c env r.remoteTarget d) := by
  have hforced : (s.follow c env r.remoteTarget (d.getTport env)).1.forced r (s.followed c env r.remoteTarget d) =
      s.forced r (s.followed c env r.remoteTarget d) := by
    unfold forced regBinding
    rw [(follow_table _ _ _ _ _).1]
  intro o ho
  unfold Calls.sendInside at ho
  dsimp only at ho
  split at ho
  · exact nomatch ho
  · split at ho
    · rename_i hack
      split at ho
      · obtain rfl := Option.some.inj ho
        exact ⟨rfl, rfl, hforced.trans (if_neg (by simp [hack])).symm⟩
      · exact nomatch ho
    · split at ho
      · rename_i hprack
        dsimp only at ho
        split at ho
        · obtain rfl := Option.some.inj ho
          exact ⟨rfl, rfl, (if_pos hprack).symm⟩
        · exact nomatch ho
      · rename_i hprack
        obtain rfl := Option.some.inj ho
        exact ⟨rfl, rfl, hforced.trans (if_neg hprack).symm⟩

theorem followed_staysOn (haliases : Tracked s.aliases) (h : d.Placed) :
    (d.getTport env).StaysOn env (s.followed c env target d).pin.tp := by
  unfold followed
  rcases follow_cases c env target (d.getTport env) s with heq | ⟨-, heq⟩ <;> rw [heq]
  · exact h.staysOn
  · exact h.currentTport_staysOn haliases

/-- The binding of the remote target that decides where a request of an application is sent: it goes to the remote
    target, whatever its uri says. -/
def binding (r : InDialogRequest) (s : Calls) : Option (Controller.UaInvalidData Tport) :=
  if r.defaultsUri = true then s.regBinding r.remoteTarget else none

/-- A PRACK is not forced onto a transport. Another request of an application is forced onto that of the binding that
    decides, and when there is none it goes with the dialog, which has followed its peer, and stays with that. So does a
    request of the server, which follows the peer only for the BYE after a CANCEL. -/
def Stays (c : NatSetup) (s : Calls) : Event → Prop
  | .send i env r => ∀ o ∈ (step c s (.send i env r)).2, ∃ d ∈ s.dialog i,
      if r.method = .prack then o.tport = none
      else
        match s.binding r with
        | some ua => o.tport = some ua.tp
        | none => o.tport = (s.followed c env r.remoteTarget d).pin.tp ∧ (d.getTport env).StaysOn env o.tport
  | .own i env => ∀ o ∈ (step c s (.own i env)).2, ∃ d ∈ s.dialog i,
      o.tport = (d.getTport env).pin.tp ∧ (d.getTport env).StaysOn env o.tport
  | .byeForCancel i env target => ∀ o ∈ (step c s (.byeForCancel i env target)).2, ∃ d ∈ s.dialog i,
      o.tport = (if (target.bind (·.address)).isSome = true then s.followed c env target d else d.getTport env).pin.tp ∧
        (d.getTport env).StaysOn env o.tport
  | _ => True

theorem forced_eq (r : InDialogRequest) (d : Connection) (s : Calls) :
    s.forced r d = match s.binding r with
      | some ua => some ua.tp
      | none => d.pin.tp := by
  unfold forced binding
  cases s.regBinding r.remoteTarget with
  | none => simp
  | some ua => cases r.defaultsUri <;> rfl

theorem stays (haliases : Tracked s.aliases) (hs : ∀ d ∈ s.dialogs, d.Placed) : s.Stays c e := by
  have hplaced : ∀ {i d}, s.dialog i = some d → d.Placed := fun hd => hs _ (List.mem_of_getElem? (dialog_eq_some.mp hd).1)
  cases e with
  | send i env r =>
    unfold Stays step
    dsimp only
    cases hd : s.dialog i with
    | none => exact fun o ho => nomatch ho
    | some d =>
      intro o ho
      obtain ⟨-, -, htport⟩ := sendInside_out c env i r d s o ho
      refine ⟨d, rfl, ?_⟩
      split
      · rename_i hprack
        exact htport.trans (if_pos hprack)
      · rename_i hprack
        rw [if_neg hprack, forced_eq] at htport
        cases hbinding : s.binding r with
        | some ua => exact htport.trans (by rw [hbinding])
        | none =>
          rw [hbinding] at htport
          exact ⟨htport, htport ▸ followed_staysOn haliases (hplaced hd)⟩
  | own i env =>
    unfold Stays step
    dsimp only
    cases hd : s.dialog i with
    | none => exact fun o ho => nomatch ho
    | some d =>
      intro o ho
      obtain rfl := Option.some.inj ho
      exact ⟨d, rfl, rfl, (hplaced hd).staysOn⟩
  | byeForCancel i env target =>
    unfold Stays step
    dsimp only
    cases hd : s.dialog i with
    | none => exact fun o ho => nomatch ho
    | some d =>
      intro o ho
      refine ⟨d, rfl, ?_⟩
      unfold Calls.byeForCancel at ho
      dsimp only at ho
      obtain rfl := Option.some.inj ho
      by_cases htarget : (target.bind (·.address)).isSome = true
      · rw [if_pos htarget, if_pos htarget]
        exact ⟨rfl, followed_staysOn haliases (hplaced hd)⟩
      · rw [if_neg htarget, if_neg htarget]
        exact ⟨rfl, (hplaced hd).staysOn⟩
  | _ => exact trivial

/-- In every run, whatever Contact anybody advertises, a request inside a dialog is forced onto an open connection with
    the remote host and the interface of the one that sofia chose last for the dialog (when it was made, or for an ACK),
    or onto nothing when the dialog is pinned to nothing that is open; except a PRACK, which is forced onto nothing, and
    a request of an application that goes to the remote target whatever its uri says, which is forced onto the transport
    of the registered binding of the remote target if there is one. -/
theorem requests_stay (c : NatSetup) (es : List Event) : Meets (next c) (Stays c) empty es := by
  have hstep : ∀ s e, (Tracked s.aliases ∧ ∀ d ∈ s.dialogs, d.Placed) →
      (Tracked (next c s e).aliases ∧ ∀ d ∈ (next c s e).dialogs, d.Placed) ∧ Stays c s e := fun s e h =>
    ⟨⟨Tracked.next h.1, (placed_kept c).step h.1 h.2⟩, stays h.1 h.2⟩
  exact meets_invariant hstep ⟨(fun _ _ hlookup => nomatch hlookup), fun _ hd => absurd hd List.not_mem_nil⟩

/-- A connection from a host and port -/
def connection (id : Nat) (host port : String) : Tport := ⟨id, true, false, ⟨some "tcp", some host, some port⟩, 0⟩

/-- One connection is found by its name, and none is known to be closed. -/
def reachable (tp : Tport) (h : Named tp) : NetEnv where
  net := .single tp
  closed _ := false
  transport _ := none
  open_closed _ _ := rfl
  found_named _ _ found hfound := by
    unfold Controller.Transports.single at hfound
    dsimp only at hfound
    split at hfound
    · exact Option.some.inj hfound ▸ h
    · exact nomatch hfound
  transport_named _ _ h := nomatch h

/-- A peer moves to a second connection, and somebody else advertises the same Contact. -/
def moving : List Event :=
  let invite : Controller.Heard := ⟨false, some ⟨some "10.0.0.1", none⟩⟩
  [.incoming ⟨connection 1 "192.0.2.7" "4001", "TCP", false, "192.0.2.7", "4001", none, [], "sip", by decide, by decide⟩,
    .message (connection 2 "192.0.2.7" "4002") (by decide) invite,
    .message (connection 3 "198.51.100.9" "4003") (by decide) invite]

def bye : InDialogRequest :=
  ⟨.bye, "sip:10.0.0.1", some (some ⟨some (Controller.Address.parse "10.0.0.1"), none, "sip:10.0.0.1"⟩), 200, false, false, 0⟩

-- The BYE follows the peer.
example : (step ⟨true, false, false⟩ (run (next ⟨true, false, false⟩) empty moving)
    (.send 0 (reachable (connection 2 "192.0.2.7" "4002") (by decide)) bye)).2 =
      some ⟨0, some (connection 2 "192.0.2.7" "4002"), none⟩ := by decide

/-! ### Routes -/

end

end Calls

/-- A response decides the route of a dialog: it establishes the dialog, and does not come from a natted feature server. -/
def InviteResponse.decides (c : NatSetup) (r : InviteResponse) : Bool :=
  r.establishes && !(r.isNatted c && r.requestHost == some "feature-server")

namespace Connection

/-- The route of the last response that decided it, and before that the one that the dialog was made with -/
def lastRoute (c : NatSetup) (d : Connection) : Option String :=
  match (d.responses.filter (·.decides c)).getLast? with
  | none => if d.first = "" then none else some d.first
  | some r => if r.isNatted c = true then some r.natRoute else none

structure Routed (c : NatSetup) (d : Connection) : Prop where
  route : d.getRouteUri = d.lastRoute c
  uas : d.uac = false → d.responses = []

theorem natRoute_ne (r : InviteResponse) : r.natRoute ≠ "" := by
  intro h
  have hlist := congrArg String.toList h
  unfold InviteResponse.natRoute at hlist
  split at hlist <;> simp [String.toList_append] at hlist

section
variable {c : NatSetup} {d d' : Connection} {r : InviteResponse}

theorem lastRoute_decided (hresponses : d'.responses = d.responses ++ [r]) (hdecides : r.decides c = true) :
    d'.lastRoute c = if r.isNatted c = true then some r.natRoute else none := by
  unfold lastRoute
  rw [hresponses, List.filter_append, List.filter_cons_of_pos hdecides, List.filter_nil, List.getLast?_concat]

theorem lastRoute_ignored (hresponses : d'.responses = d.responses ++ [r]) (hfirst : d'.first = d.first)
    (hdecides : r.decides c = false) : d'.lastRoute c = d.lastRoute c := by
  unfold lastRoute
  rw [hresponses, hfirst, List.filter_append, List.filter_cons_of_neg (by simp [hdecides]), List.filter_nil, List.append_nil]

theorem Routed.processResponse (h : d.Routed c) (huac : d.uac = true) : (d.processResponse c r).Routed c := by
  refine ⟨?_, fun hfalse => ?_⟩
  · unfold Connection.processResponse
    dsimp only
    split
    · rename_i hestablishes
      have hdecides : r.decides c = false := by simp [InviteResponse.decides, hestablishes]
      refine h.route.trans ?_
      symm
      exact lastRoute_ignored rfl rfl hdecides
    · rename_i hestablishes
      split
      · rename_i hnatted
        have hdecides : r.decides c = true := by simp [InviteResponse.decides, hestablishes, hnatted]
        rw [lastRoute_decided rfl hdecides, hnatted]
        rfl
      · rename_i hnatted
        split
        · rename_i hfeature
          have hdecides : r.decides c = false := by simp [InviteResponse.decides, hnatted, hfeature]
          refine h.route.trans ?_
          symm
          exact lastRoute_ignored rfl rfl hdecides
        · rename_i hfeature
          have hdecides : r.decides c = true := by simp [InviteResponse.decides, hestablishes, hfeature]
          rw [lastRoute_decided rfl hdecides, if_pos (by simpa using hnatted)]
          exact if_neg (natRoute_ne r)
  · rw [processResponse_eq] at hfalse
    exact absurd (hfalse.symm.trans huac) Bool.false_ne_true

/-- The operations on the transport leave the route. -/
theorem Routed.of_rest (h : d.Routed c) (hrest : d'.rest = d.rest) : d'.Routed c := by
  have hroute : d'.getRouteUri = d.getRouteUri := eq_of_rest getRouteUri (fun _ => rfl) hrest
  have hlast : d'.lastRoute c = d.lastRoute c := eq_of_rest (lastRoute c) (fun _ => rfl) hrest
  have huac : d'.uac = d.uac := eq_of_rest Connection.uac (fun _ => rfl) hrest
  have hresponses : d'.responses = d.responses := eq_of_rest Connection.responses (fun _ => rfl) hrest
  exact ⟨hroute.trans (h.route.trans hlast.symm), fun hfalse => hresponses.trans (h.uas (huac.symm.trans hfalse))⟩

theorem routed_kept (c : NatSetup) : Calls.Kept c (fun _ => True) (Routed c) where
  incoming m := ⟨rfl, fun _ => rfl⟩
  outgoing m := ⟨rfl, fun _ => rfl⟩
  response r d huac _ h := h.processResponse huac
  getTport env d _ h := h.of_rest (getTport_rest env d)
  currentTport env target aliases d _ _ h := h.of_rest (currentTport_rest c env target aliases d)
  sendAck env orq d _ h := by
    cases hknown : env.transport orq with
    | none =>
      rw [sendAck_delayed hknown]
      exact ⟨h.route, h.uas⟩
    | some tp => exact h.of_rest (sendAck_known hknown).2
  destroy d _ h := by
    have hunpin : d.unpin.Routed c := h.of_rest (unpin_rest d)
    unfold Connection.destroy
    dsimp only
    split
    · exact ⟨hunpin.route, hunpin.uas⟩
    · split <;> exact ⟨hunpin.route, hunpin.uas⟩

end

end Connection

namespace Calls
open Connection

section
variable {c : NatSetup} {s : Calls} {e : Event} {d : Connection}

/-- Every request inside a dialog carries the last route of its dialog, but the BYE after a CANCEL for an INVITE that was
    answered carries none. -/
def Carries (c : NatSetup) (s : Calls) (e : Event) : Prop :=
  ∀ o ∈ (step c s e).2, ∃ d ∈ s.dialog o.dialog, (d.uac = false → d.responses = []) ∧
    o.route = match e with
      | .byeForCancel _ _ _ => none
      | _ => d.lastRoute c

theorem carries (hs : ∀ d ∈ s.dialogs, d.Routed c) : s.Carries c e := by
  have hrouted : ∀ {i d}, s.dialog i = some d → d.Routed c := fun hd => hs _ (List.mem_of_getElem? (dialog_eq_some.mp hd).1)
  intro o ho
  cases e with
  | send i env r =>
    unfold step at ho
    dsimp only at ho
    cases hd : s.dialog i with
    | none => rw [hd] at ho; exact nomatch ho
    | some d =>
      rw [hd] at ho
      obtain ⟨hdialog, hroute, -⟩ := sendInside_out c env i r d s o ho
      have hrest : (s.followed c env r.remoteTarget d).rest = d.rest := (follow_rest _ _ _ _ _).trans (getTport_rest env d)
      have hsame : (s.followed c env r.remoteTarget d).getRouteUri = d.getRouteUri :=
        eq_of_rest getRouteUri (fun _ => rfl) hrest
      exact ⟨d, hdialog ▸ hd, (hrouted hd).uas, hroute.trans (hsame.trans (hrouted hd).route)⟩
  | own i env =>
    unfold step at ho
    dsimp only at ho
    cases hd : s.dialog i with
    | none => rw [hd] at ho; exact nomatch ho
    | some d =>
      rw [hd] at ho
      obtain rfl := Option.some.inj ho
      have hsame : (d.getTport env).getRouteUri = d.getRouteUri := eq_of_rest getRouteUri (fun _ => rfl) (getTport_rest env d)
      exact ⟨d, hd, (hrouted hd).uas, hsame.trans (hrouted hd).route⟩
  | byeForCancel i env target =>
    unfold step at ho
    dsimp only at ho
    cases hd : s.dialog i with
    | none => rw [hd] at ho; exact nomatch ho
    | some d =>
      rw [hd] at ho
      obtain rfl := Option.some.inj ho
      exact ⟨d, hd, (hrouted hd).uas, rfl⟩
  | response i r =>
    unfold step at ho
    dsimp only at ho
    split at ho <;> exact nomatch ho
  | destroy i =>
    unfold step at ho
    dsimp only at ho
    split at ho <;> exact nomatch ho
  | _ => exact nomatch ho

/-- In every run each request inside a dialog carries the route of the last response that decided it (one that establishes
    the dialog and does not come from a natted feature server): the address the response came from if the peer is natted, and
    none otherwise; before that, and always in a dialog that came in, the route that the dialog was made with. Only the BYE
    after a CANCEL for an answered INVITE leaves it out. -/
theorem requests_carry_route (c : NatSetup) (es : List Event) : Meets (next c) (Carries c) empty es := by
  have hstep : ∀ s e, (∀ d ∈ s.dialogs, d.Routed c) → (∀ d ∈ (next c s e).dialogs, d.Routed c) ∧ Carries c s e := fun s e h =>
    ⟨(routed_kept c).step trivial h, carries h⟩
  exact meets_invariant hstep fun _ hd => absurd hd List.not_mem_nil

end

end Calls

end Drachtio.Dialog
