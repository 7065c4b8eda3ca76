import Drachtio.Lib.Walk
import Drachtio.Proxy.Controller
import Drachtio.Theorems.Proxy.Registry

/-! A PRACK is handed to the core that is found by its Call-ID. The identifiers of other calls can have that text
    in them, and a call can have several cores. -/

namespace Drachtio.Proxy

open Sip (Message Token)
open Machine

section
variable {Core : Type} (request : Core → Registry.Proxied) (prack : Prack)

/-- A core is added under the request that it is made of. -/
def Issued (_ : Registry Core) : Registry.Op Core → Prop
  | .add sip p => request p = sip
  | .remove _ => True

/-- The core is of the call of the PRACK. -/
def SameCall (c : Core) : Prop := (request c).val.callId = prack.sip.callId

/-- The core is that of the INVITE which the PRACK names. -/
def Acknowledges (c : Core) : Prop :=
  SameCall request prack c ∧ (request c).val.request = some .invite ∧ (request c).val.cseq.seq = prack.cseq

/-- What is to hold of the core that a PRACK gets: it is of the same call, and it is that of the INVITE which the
    PRACK names, if there is one. -/
structure Reaches (m : Registry Core) : Prop where
  call : ∀ c ∈ m.getProxyByCallId prack.sip, SameCall request prack c
  invite : (∃ k, ∃ c ∈ m.lookup k, Acknowledges request prack c) →
    ∃ c ∈ m.getProxyByCallId prack.sip, Acknowledges request prack c

/-- The Call-ID is in no identifier of another call, and where a core of the call is that of the INVITE which the
    PRACK names, the others of the call are, too. -/
structure Unambiguous (m : Registry Core) : Prop where
  call : ∀ k, ∀ c ∈ m.lookup k, prack.sip.callId.val.toList <:+: k.toList → SameCall request prack c
  invite : (∃ k, ∃ c ∈ m.lookup k, Acknowledges request prack c) →
    ∀ k, ∀ c ∈ m.lookup k, SameCall request prack c → Acknowledges request prack c

/-- The cores are kept by the identifiers of their requests. -/
def Identified (m : Registry Core) : Prop := ∀ k, ∀ c ∈ m.lookup k, k = (transactionOf (request c).val).id

end

section
variable {Core : Type} {request : Core → Registry.Proxied} {prack : Prack} {m m' : Registry Core}

theorem Identified.step (h : Identified request m) {op : Registry.Op Core} (hop : Issued request m op) :
    Identified request (m.step op) := by
  intro k c hc
  cases op with
  | add sip p =>
    obtain rfl : request p = sip := hop
    simp only [Registry.step, Registry.addProxy, identifier_proxied] at hc
    by_cases hk : k = (transactionOf (request p).val).id
    · rw [hk, AList.lookup_insertNew_self] at hc
      obtain rfl := Option.some.inj hc
      cases hold : m.lookup (transactionOf (request p).val).id with
      | none => exact hk
      | some c => exact hk.trans (h _ c hold)
    · rw [AList.lookup_insertNew_ne hk] at hc
      exact h k c hc
  | remove sip => exact h k c (AList.lookup_erase_eq_some.mp hc).2

theorem identified_run {ops : List (Registry.Op Core)} (hops : Meets Registry.step (Issued request) ∅ ops) :
    Identified request (run Registry.step ∅ ops) :=
  run_induction (fun _ _ h hop => h.step hop) (fun _ _ hc => nomatch hc) hops

/-- The identifiers of a call have its Call-ID in them. -/
theorem Identified.contains (h : Identified request m) {k : String} {c : Core} (hc : c ∈ m.lookup k)
    (hcall : SameCall request prack c) : prack.sip.callId.val.toList <:+: k.toList := by
  rw [h k c hc, Transaction.id, toList_identifier]
  refine List.IsPrefix.isInfix ⟨_, congrArg (· ++ _) ?_⟩
  rw [← show (request c).val.callId = prack.sip.callId from hcall]
  rfl

/-- The order in which the table is walked does not change what is in it. -/
theorem lookup_perm (hm : m'.entries.Perm m.entries) (k : String) : m'.lookup k = m.lookup k :=
  List.perm_dlookup k m'.nodupKeys hm

/-- What a PRACK gets whatever the order: any core in whose identifier the Call-ID is. -/
theorem forall_getProxyByCallId {P : Option Core → Prop} :
    (∀ m' : Registry Core, m'.entries.Perm m.entries → P (m'.getProxyByCallId prack.sip)) ↔
      (∀ k, ∀ c ∈ m.lookup k, prack.sip.callId.val.toList <:+: k.toList → P (some c)) ∧
        ((∀ k, ∀ c ∈ m.lookup k, ¬ prack.sip.callId.val.toList <:+: k.toList) → P none) := by
  have hwalk := Walk.forall_first_iff (l := m.entries) (p := fun e => decide (prack.sip.callId.val.toList <:+: e.1.toList))
    (q := fun e => P (e.map Sigma.snd))
  have hentry : ∀ {Q : String → Core → Prop}, (∀ e ∈ m.entries, Q e.1 e.2) ↔ ∀ k, ∀ c ∈ m.lookup k, Q k c := by
    intro Q
    constructor
    · exact fun hall k c hc => hall ⟨k, c⟩ (AList.mem_lookup_iff.mp hc)
    · rintro hall ⟨k, c⟩ he
      exact hall k c (AList.mem_lookup_iff.mpr he)
  rw [← hentry, ← hentry]
  refine AList.forall_perm_iff.trans (hwalk.trans ?_)
  simp only [decide_eq_true_eq, decide_eq_false_iff_not, Option.map_some, Option.map_none]

end

/-- A PRACK gets the right core in every order in which the table can be walked just when its Call-ID is
    unambiguous. -/
theorem pracks_reach_iff (Core : Type) (request : Core → Registry.Proxied) (ops : List (Registry.Op Core))
    (hops : Meets Registry.step (Issued request) ∅ ops) (prack : Prack) :
    (∀ m : Registry Core, m.entries.Perm (run Registry.step ∅ ops).entries → Reaches request prack m) ↔
      Unambiguous request prack (run Registry.step ∅ ops) := by
  have hid := identified_run hops
  generalize run Registry.step ∅ ops = m at hid ⊢
  have hreaches : ∀ m' : Registry Core, m'.entries.Perm m.entries → (Reaches request prack m' ↔
      (∀ c ∈ m'.getProxyByCallId prack.sip, SameCall request prack c) ∧
        ((∃ k, ∃ c ∈ m.lookup k, Acknowledges request prack c) →
          ∃ c ∈ m'.getProxyByCallId prack.sip, Acknowledges request prack c)) := by
    intro m' hm'
    simp only [← lookup_perm hm']
    exact ⟨fun h => ⟨h.call, h.invite⟩, fun h => ⟨h.1, h.2⟩⟩
  rw [forall₂_congr hreaches, forall_getProxyByCallId (P := fun found => (∀ c ∈ found, SameCall request prack c) ∧
    ((∃ k, ∃ c ∈ m.lookup k, Acknowledges request prack c) → ∃ c ∈ found, Acknowledges request prack c))]
  simp only [Option.mem_some, forall_eq', exists_eq_left', Option.not_mem_none, false_and, exists_false, imp_false]
  constructor
  · rintro ⟨hfound, -⟩
    refine ⟨fun k c hc hpart => (hfound k c hc hpart).1, fun hinvite k c hc hcall => ?_⟩
    exact (hfound k c hc (hid.contains hc hcall)).2 hinvite
  · rintro ⟨hcall, hinvite⟩
    refine ⟨fun k c hc hpart => ⟨hcall k c hc hpart, fun h => hinvite h k c hc (hcall k c hc hpart)⟩,
      fun hnone => ⟨nofun, ?_⟩⟩
    rintro ⟨k, c, hc, hack⟩
    exact hnone k c hc (hid.contains hc hack.1)

/-- An INVITE of the call `ab`, and the PRACKs of the calls `ab` and `b`. -/
def proxiedInvite : Registry.Proxied :=
  ⟨.ofMethod .invite (.ofString "ab") 1 [⟨some (.ofString "z")⟩], .invite, rfl, nofun⟩

def prackOf (callId : Token) : Prack where
  sip := .ofMethod .prack callId 2 [⟨some (.ofString "y")⟩]
  cseq := 1

theorem pracks_reach_invite :
    let prack := prackOf ⟨"ab", by decide⟩
    let ops : List (Registry.Op Registry.Proxied) := [.add proxiedInvite proxiedInvite]
    Meets Registry.step (Issued id) ∅ ops ∧
      ∀ m : Registry Registry.Proxied, m.entries.Perm (run Registry.step ∅ ops).entries → Reaches id prack m := by
  intro prack ops
  have hops : Meets Registry.step (Issued id) ∅ ops := ⟨rfl, trivial⟩
  have honly : ∀ k, ∀ c ∈ (run Registry.step ∅ ops).lookup k, c = proxiedInvite := by
    intro k c hc
    rcases AList.lookup_insert_eq_some.mp hc with ⟨-, rfl⟩ | ⟨-, hnone⟩
    · rfl
    · exact nomatch hnone
  refine ⟨hops, (pracks_reach_iff Registry.Proxied id ops hops prack).mpr ⟨fun k c hc _ => ?_, fun _ k c hc _ => ?_⟩⟩
  · rw [honly k c hc]
    rfl
  · rw [honly k c hc]
    exact ⟨rfl, rfl, rfl⟩

/-- The PRACK of the call `b` is handed to the core of the call `ab`. -/
theorem prack_misdirected :
    let ops : List (Registry.Op Registry.Proxied) := [.add proxiedInvite proxiedInvite]
    Meets Registry.step (Issued id) ∅ ops ∧ ¬ Reaches id (prackOf ⟨"b", by decide⟩) (run Registry.step ∅ ops) := by
  intro ops
  have hpart : (prackOf ⟨"b", by decide⟩).sip.callId.val.toList <:+: (transactionOf proxiedInvite.val).id.toList := by
    rw [Transaction.id, toList_identifier]
    exact ⟨['a'], _, rfl⟩
  have hentries : (run Registry.step ∅ ops).entries = [⟨(transactionOf proxiedInvite.val).id, proxiedInvite⟩] := by
    show (Registry.addProxy proxiedInvite.val proxiedInvite ∅).entries = _
    rw [Registry.addProxy, identifier_proxied, AList.insertNew_of_notMem (AList.notMem_empty _),
      AList.entries_insert_of_notMem (AList.notMem_empty _), AList.empty_entries]
  have hfound : (run Registry.step ∅ ops).getProxyByCallId (prackOf ⟨"b", by decide⟩).sip = some proxiedInvite := by
    rw [Registry.getProxyByCallId, hentries, List.find?_cons]
    simp only [decide_eq_true hpart, Option.map_some]
  refine ⟨⟨rfl, trivial⟩, fun hreaches => ?_⟩
  have hcall := hreaches.call proxiedInvite hfound
  exact absurd (congrArg (·.val.toList) hcall) (by decide)

end Drachtio.Proxy
