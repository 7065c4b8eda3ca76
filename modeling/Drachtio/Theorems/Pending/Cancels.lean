import Drachtio.Lib.Walk
import Drachtio.Pending.Disposal
import Drachtio.Theorems.Pending.Tables
import Mathlib.Data.List.Find

/-! Which pending INVITE a CANCEL is for. It is looked up by its Call-ID alone when it has no leg, and by the Call-ID
    and the branch when it has one, while a fork upstream or a second attempt makes several INVITEs with one Call-ID. -/

namespace Drachtio.Pending

open Machine PendingRequests
open Sip (Message identifiedMethod)

namespace Disposal

/-- The INVITE that a CANCEL is for: it has the Call-ID, the number of the CSeq and the top branch of the CANCEL. -/
structure Cancels (sip : Message) (p : PendingRequest) : Prop where
  invite : p.sip.request = some .invite
  callId : p.sip.callId = sip.callId
  cseq : p.sip.cseq.seq = sip.cseq.seq
  branch : p.sip.branch = sip.branch

/-- A CANCEL hits the pending INVITE that it is for, in both ways it can come, and is answered with 481 when there is
    none. -/
structure CancelsOwn (logsInfo : Bool) (sip : Message) (s : Disposal) : Prop where
  found : ∀ p ∈ s.pending.requests, Cancels sip p → ∀ client, s.cancel sip.callId.val client = s.cancelFound p client
  none : (∀ p ∈ s.pending.requests, ¬ Cancels sip p) → ∀ client, s.cancel sip.callId.val client = s.emit [.toCancel 481]
  inside : s.pending.findInviteByCallIdAndBranch logsInfo sip = some (s.pending.findInviteByCallId sip.callId.val)

/-- No pending INVITE with the Call-ID is for another CANCEL. -/
def Only (sip : Message) (s : Disposal) : Prop :=
  ∀ p ∈ s.pending.requests, p.sip.request = some .invite → p.sip.callId = sip.callId → Cancels sip p

/-- No branch is missing that is read for a CANCEL in a dialog: its own, and those that are logged. -/
structure Branched (logsInfo : Bool) (sip : Message) (s : Disposal) : Prop where
  own : sip.branch.isSome = true
  logged : logsInfo = true → ∀ p ∈ s.pending.requests, p.sip.branch.isSome = true

/-- The same requests, walked in the order of another table. -/
def walked (m : AList fun _ : String => PendingRequest) (s : Disposal) : Disposal :=
  { s with pending := { s.pending with callId2Invite := m } }

section
variable {s : Disposal} {sip : Message} {p q : PendingRequest} {client : Option Client.ClientId}
  {m : AList fun _ : String => PendingRequest} {logsInfo : Bool}

theorem mem_requests : p ∈ s.pending.requests ↔ ∃ k, s.pending.callId2Invite.lookup k = some p := by
  constructor
  · intro hp
    obtain ⟨e, he, rfl⟩ := List.mem_map.mp hp
    exact ⟨e.1, AList.mem_lookup_iff.mpr he⟩
  · rintro ⟨k, hk⟩
    exact List.mem_map.mpr ⟨⟨k, p⟩, AList.mem_lookup_iff.mp hk, rfl⟩

/-- The identifier of an INVITE says which CANCEL is for it. -/
theorem Cancels.identifier_eq (hp : Cancels sip p) (hq : Cancels sip q) : p.identifier = q.identifier := by
  have hmethod : ∀ {r : PendingRequest}, r.sip.request = some .invite → identifiedMethod r.sip = "INVITE" := by
    intro r hr
    rw [Sip.identifiedMethod_of_ne (by simp [hr])]
    exact r.sip.sane _ hr _ rfl
  unfold PendingRequest.identifier Sip.makeUniqueSipTransactionIdentifier
  rw [hp.callId, hq.callId, hp.cseq, hq.cseq, hp.branch, hq.branch, hmethod hp.invite, hmethod hq.invite]

/-- A CANCEL is for one pending INVITE at most. -/
theorem Cancels.unique (h : s.pending.Paired) (hp : Cancels sip p) (hq : Cancels sip q) (hpm : p ∈ s.pending.requests)
    (hqm : q ∈ s.pending.requests) : p = q := by
  obtain ⟨k, hk⟩ := mem_requests.mp hpm
  obtain ⟨k', hk'⟩ := mem_requests.mp hqm
  have hkey := (h.callId k p hk).1
  have hkey' := (h.callId k' q hk').1
  rw [← hkey, hp.identifier_eq hq, hkey'] at hk
  exact Option.some.inj (hk.symm.trans hk')

/-- Two different INVITEs are not canceled alike. -/
theorem cancelFound_inj (h : s.pending.Paired) (hpm : p ∈ s.pending.requests) (hqm : q ∈ s.pending.requests)
    (heq : s.cancelFound p none = s.cancelFound q none) : p = q := by
  obtain ⟨k, hk⟩ := mem_requests.mp hpm
  obtain ⟨k', hk'⟩ := mem_requests.mp hqm
  have hlog := List.append_cancel_left (congrArg Disposal.log heq)
  have htxn : p.transactionId = q.transactionId := by
    simpa only [Option.toList_none, List.map_nil, List.nil_append, List.cons.injEq, Event.terminate.injEq, true_and, and_true]
      using hlog
  have hp := (h.callId k p hk).2
  rw [htxn, (h.callId k' q hk').2] at hp
  exact (Option.some.inj hp).symm

theorem cancelFound_ne_emit : s.cancelFound p none ≠ s.emit [.toCancel 481] := by
  intro heq
  have hlen := congrArg List.length (List.append_cancel_left (congrArg Disposal.log heq))
  exact absurd hlen (by simp)

/-- The order in which the requests are walked changes neither which they are nor the tables. -/
theorem perm_walked (hm : m.entries.Perm s.pending.callId2Invite.entries) :
    (s.walked m).pending.requests.Perm s.pending.requests :=
  List.Perm.map (fun e : Sigma fun _ : String => PendingRequest => e.2) hm

theorem paired_walked (h : s.pending.Paired) (hm : m.entries.Perm s.pending.callId2Invite.entries) :
    (s.walked m).pending.Paired := by
  have hlookup : ∀ k, m.lookup k = s.pending.callId2Invite.lookup k := fun k => List.perm_dlookup k m.nodupKeys hm
  exact ⟨fun k p hk => (hlookup p.identifier).symm ▸ h.txn k p hk, fun k p hk => h.callId k p (hlookup k ▸ hk), h.timeout,
    h.faults⟩

theorem Only.walked (h : s.Only sip) (hm : m.entries.Perm s.pending.callId2Invite.entries) : (s.walked m).Only sip :=
  fun p hp => h p ((perm_walked hm).mem_iff.mp hp)

theorem Branched.walked (h : s.Branched logsInfo sip) (hm : m.entries.Perm s.pending.callId2Invite.entries) :
    (s.walked m).Branched logsInfo sip :=
  ⟨h.own, fun hlogs p hp => h.logged hlogs p ((perm_walked hm).mem_iff.mp hp)⟩

theorem findInviteByCallId_spec (hfound : s.pending.findInviteByCallId sip.callId.val = some p) :
    p ∈ s.pending.requests ∧ p.sip.callId = sip.callId ∧ p.sip.request = some .invite := by
  unfold findInviteByCallId at hfound
  obtain ⟨hcall, hinvite⟩ : p.sip.callId.val = sip.callId.val ∧ p.sip.request = some .invite := by
    simpa only [decide_eq_true_eq] using List.find?_some hfound
  exact ⟨List.mem_of_find?_eq_some hfound, Subtype.ext hcall, hinvite⟩

theorem exists_findInviteByCallId (hp : p ∈ s.pending.requests) (hinvite : p.sip.request = some .invite)
    (hcall : p.sip.callId = sip.callId) : ∃ q, s.pending.findInviteByCallId sip.callId.val = some q :=
  Option.isSome_iff_exists.mp
    (List.find?_isSome.mpr ⟨p, hp, decide_eq_true ⟨congrArg Subtype.val hcall, hinvite⟩⟩)

/-- When every INVITE with the Call-ID has the branch, comparing the branches changes nothing. -/
theorem findByBranch_eq {callId : String} {branch : Sip.Token} {l : List PendingRequest}
    (hlogged : logsInfo = true → ∀ p ∈ l, p.sip.branch.isSome = true)
    (hbranch : ∀ p ∈ l, p.sip.callId.val = callId ∧ p.sip.request = some .invite → p.sip.branch = some branch) :
    findByBranch logsInfo callId branch.val l =
      some (l.find? fun p => decide (p.sip.callId.val = callId ∧ p.sip.request = some .invite)) := by
  induction l with
  | nil => rfl
  | cons p l ih =>
    have hrest := ih (fun hlogs q hq => hlogged hlogs q (List.mem_cons_of_mem _ hq))
      fun q hq => hbranch q (List.mem_cons_of_mem _ hq)
    have hread : ¬ (logsInfo = true ∧ p.sip.branch = none) := fun hnone =>
      absurd (hlogged hnone.1 p List.mem_cons_self) (by simp [hnone.2])
    unfold findByBranch
    rw [if_neg hread]
    by_cases hfor : p.sip.callId.val = callId ∧ p.sip.request = some .invite
    · rw [if_pos hfor, hbranch p List.mem_cons_self hfor]
      simp only [if_true, List.find?_cons, decide_eq_true hfor]
    · rw [if_neg hfor, hrest]
      simp only [List.find?_cons, decide_eq_false hfor]

/-- When no INVITE is for another CANCEL, the one that is found is the right one. -/
theorem Only.cancelsOwn (h : s.Only sip) (hbranched : s.Branched logsInfo sip) (hpaired : s.pending.Paired) :
    CancelsOwn logsInfo sip s := by
  constructor
  · intro p hp hcancels client
    obtain ⟨q, hq⟩ := exists_findInviteByCallId hp hcancels.invite hcancels.callId
    obtain ⟨hqm, hcall, hinvite⟩ := findInviteByCallId_spec hq
    obtain rfl := hcancels.unique hpaired (h q hqm hinvite hcall) hp hqm
    rw [cancel, hq]
  · intro hnone client
    cases hq : s.pending.findInviteByCallId sip.callId.val with
    | none => rw [cancel, hq]
    | some q =>
      obtain ⟨hqm, hcall, hinvite⟩ := findInviteByCallId_spec hq
      exact absurd (h q hqm hinvite hcall) (hnone q hqm)
  · obtain ⟨branch, hbranch⟩ := Option.isSome_iff_exists.mp hbranched.own
    unfold findInviteByCallIdAndBranch findInviteByCallId
    rw [hbranch]
    refine findByBranch_eq hbranched.logged fun p hp hfor => ?_
    exact (h p hp hfor.2 (Subtype.ext hfor.1)).branch.trans hbranch

/-- In some order any request is the first one. -/
theorem exists_walked_head (hq : q ∈ s.pending.requests) :
    ∃ m : AList fun _ : String => PendingRequest, m.entries.Perm s.pending.callId2Invite.entries ∧
      ∃ rest, (s.walked m).pending.requests = q :: rest := by
  obtain ⟨e, he, rfl⟩ := List.mem_map.mp hq
  obtain ⟨rest, hrest⟩ := Walk.exists_head he
  exact ⟨⟨e :: rest, (List.perm_nodupKeys hrest).mpr s.pending.callId2Invite.nodupKeys⟩, hrest, rest.map Sigma.snd, rfl⟩

/-- What is canceled in every order is the CANCEL's own. -/
theorem only_of_cancelsOwn (hpaired : s.pending.Paired)
    (hall : ∀ m : AList fun _ : String => PendingRequest, m.entries.Perm s.pending.callId2Invite.entries →
      CancelsOwn logsInfo sip (s.walked m)) : s.Only sip := by
  intro q hq hinvite hcall
  obtain ⟨m, hm, rest, hrequests⟩ := exists_walked_head hq
  have hfirst : (s.walked m).pending.findInviteByCallId sip.callId.val = some q := by
    rw [findInviteByCallId, hrequests]
    exact List.find?_cons_of_pos (decide_eq_true ⟨congrArg Subtype.val hcall, hinvite⟩)
  have hown := hall m hm
  have hcancel : (s.walked m).cancel sip.callId.val none = (s.walked m).cancelFound q none := by rw [cancel, hfirst]
  by_contra hnot
  by_cases hsome : ∃ p ∈ (s.walked m).pending.requests, Cancels sip p
  · obtain ⟨p, hp, hcancels⟩ := hsome
    have hpq := cancelFound_inj (paired_walked hpaired hm) hp ((perm_walked hm).mem_iff.mpr hq)
      ((hown.found p hp hcancels none).symm.trans hcancel)
    exact hnot (hpq ▸ hcancels)
  · have hnone := hown.none (fun p hp hcancels => hsome ⟨p, hp, hcancels⟩) none
    exact cancelFound_ne_emit (hcancel.symm.trans hnone)

/-- What is read in every order is there. -/
theorem branched_of_cancelsOwn
    (hall : ∀ m : AList fun _ : String => PendingRequest, m.entries.Perm s.pending.callId2Invite.entries →
      CancelsOwn logsInfo sip (s.walked m)) : s.Branched logsInfo sip := by
  constructor
  · have hinside := (hall s.pending.callId2Invite (List.Perm.refl _)).inside
    unfold findInviteByCallIdAndBranch at hinside
    split at hinside
    · cases hinside
    · rename_i hbranch
      exact Option.isSome_of_eq_some hbranch
  · intro hlogs q hq
    obtain ⟨m, hm, rest, hrequests⟩ := exists_walked_head hq
    have hinside := (hall m hm).inside
    unfold findInviteByCallIdAndBranch at hinside
    split at hinside
    · cases hinside
    · rename_i branch _
      rw [hrequests] at hinside
      by_contra hnone
      have hread : findByBranch logsInfo sip.callId.val branch.val (q :: rest) = none :=
        if_pos ⟨hlogs, Option.not_isSome_iff_eq_none.mp hnone⟩
      exact nomatch hread.symm.trans hinside

end

/-- A CANCEL cancels its own INVITE, and in both ways the same one, in every order in which the requests can be walked
    just when every pending INVITE with its Call-ID is its own, and no branch that is read is missing. -/
theorem cancels_own_iff (ops : List PendingRequests.Op)
    (hops : Meets PendingRequests.step PendingRequests.Fresh PendingRequests.empty ops)
    (s : Disposal) (hs : s.pending = run PendingRequests.step PendingRequests.empty ops) (logsInfo : Bool) (sip : Message) :
    (∀ m : AList fun _ : String => PendingRequest, m.entries.Perm s.pending.callId2Invite.entries →
      CancelsOwn logsInfo sip (s.walked m)) ↔ s.Only sip ∧ s.Branched logsInfo sip := by
  have hpaired : s.pending.Paired := hs ▸ run_induction (fun _ _ i hfresh => i.step hfresh) paired_empty hops
  constructor
  · exact fun hall => ⟨only_of_cancelsOwn hpaired hall, branched_of_cancelsOwn hall⟩
  · exact fun h m hm => (h.1.walked hm).cancelsOwn (h.2.walked hm) (paired_walked hpaired hm)

/-- An INVITE of the call `a`, a fork of it with another branch, and the CANCEL of the first. -/
def firstInvite : Arrival := inviteArrival (.ofString "a") 0 "t0" 4

def forkedInvite : Arrival where
  __ := inviteArrival (.ofString "a") 1 "t1" 5
  sip := .ofMethod .invite (.ofString "a") 1 [⟨some (.ofString "y")⟩]

def cancelOfFirst : Message :=
  .ofMethod .cancel (.ofString "a") 1 [⟨some (.ofString "z")⟩]

def received (ops : List PendingRequests.Op) : Disposal :=
  { Disposal.empty with pending := run PendingRequests.step PendingRequests.empty ops }

/-- At log level info, with the branches of all requests there -/
theorem cancels_own_single :
    Meets PendingRequests.step PendingRequests.Fresh PendingRequests.empty [.arrive firstInvite] ∧
      ∀ m : AList fun _ : String => PendingRequest,
        m.entries.Perm (received [.arrive firstInvite]).pending.callId2Invite.entries →
        CancelsOwn true cancelOfFirst ((received [.arrive firstInvite]).walked m) := by
  have hfresh : Meets PendingRequests.step PendingRequests.Fresh PendingRequests.empty [.arrive firstInvite] := by decide
  have hone : ∀ p ∈ (received [.arrive firstInvite]).pending.requests, p = .of firstInvite := by
    intro p hp
    obtain ⟨k, hk⟩ := mem_requests.mp hp
    rcases AList.lookup_insert_eq_some.mp hk with ⟨-, rfl⟩ | ⟨-, hnone⟩
    · rfl
    · exact nomatch hnone
  refine ⟨hfresh, (cancels_own_iff [.arrive firstInvite] hfresh (received [.arrive firstInvite]) rfl true
    cancelOfFirst).mpr ?_⟩
  refine ⟨fun p hp _ _ => ?_, rfl, fun _ p hp => ?_⟩
  · rw [hone p hp]
    exact ⟨rfl, rfl, rfl, rfl⟩
  · rw [hone p hp]
    rfl

/-- The CANCEL of the first INVITE cancels the fork. -/
theorem cancel_hits_fork :
    let ops : List PendingRequests.Op := [.arrive firstInvite, .arrive forkedInvite]
    Meets PendingRequests.step PendingRequests.Fresh PendingRequests.empty ops ∧
      ∀ logsInfo, ¬ CancelsOwn logsInfo cancelOfFirst (received ops) := by
  intro ops
  refine ⟨by decide, fun logsInfo hown => ?_⟩
  have hfirst : PendingRequest.of firstInvite ∈ (received ops).pending.requests :=
    List.mem_cons_of_mem _ List.mem_cons_self
  have hcancel := congrArg Disposal.log (hown.found _ hfirst ⟨rfl, rfl, rfl, rfl⟩ none)
  exact absurd hcancel (by decide)

end Disposal

end Drachtio.Pending
