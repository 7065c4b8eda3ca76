import Drachtio.Theorems.Dialog.Outcomes

/-! What a response that the stack refuses leaves of the INVITE or SUBSCRIBE that it was for. The dialog is told of the
    response before it is sent, and is not told that it was not. -/

namespace Drachtio.Dialog.Answering

open Machine Registries
open Client (RespondError)

variable {s : Answering} {c : Call} {leg : Leg} {d : SipDialog} {t : String}

/-- The stack refuses the response. -/
def Refuses (s : Answering) (c : Call) : Prop :=
  (s.answer c).2.error = some .sendError ∨ (s.answer c).2.error = some .no100rel

/-- The dialog has the same status and keeps the same as before, and another response is sent as it would have been. -/
structure Unchanged (leg : Leg) (d : SipDialog) (s u : Answering) : Prop where
  status : ∃ d', u.registries.legs.lookup leg = some d' ∧ d'.status = d.status
  recorded : u.recorded leg = s.recorded leg
  retry : ∀ c : Call, c.transactionId = d.transactionId → (u.answer c).2 = (s.answer c).2

/-- The response says nothing that the dialog does not have on record. -/
def OnRecord (d : SipDialog) (r : Recorded) (c : Call) : Prop :=
  c.answer.code = d.status ∧ c.answer.contact c.env = r.localContact ∧
    (c.answer.body ≠ "" → c.answer.body = r.localSdp ∧ ∀ type ∈ c.answer.bodyType, type = r.localContentType)

/-! ### A refused response -/

/-- The dialog accepts a response that the stack refuses. -/
theorem accepts_of_refuses (hirq : s.registries.irqs.lookup c.transactionId = none)
    (hfind : (s.enter c).registries.findInviteByTransactionId c.transactionId = some (leg, d)) (hupdate : updateOf d c = none)
    (h : s.Refuses c) : (s.enter c).Accepts d c ∧
      (Attempt.send d.isInvite c.answer c.env ((s.enter c).lastResponse d)).failure.isSome = true := by
  have heq : (s.answer c).2.error = ((s.enter c).attempt d c).1.error := by
    rw [answer_of_invite hirq hfind, answerInvite, hupdate]
  unfold Refuses at h
  rw [heq] at h
  rcases attempt_cases d c (s.enter c) with ⟨-, hattempt⟩ | hfailure | ⟨haccepts, hattempt⟩
  · rw [hattempt] at h
    unfold Attempt.error at h
    cases hlast : (s.enter c).lastResponse d <;> simp [hlast] at h
  · unfold Attempt.error at h
    rcases hfailure with hfailure | hfailure <;> simp [hfailure] at h
  · refine ⟨haccepts, ?_⟩
    rw [hattempt] at h
    unfold Attempt.error at h
    cases hfailure : (Attempt.send d.isInvite c.answer c.env ((s.enter c).lastResponse d)).failure with
    | some e => rfl
    | none =>
      rw [hfailure, Option.none_or] at h
      split at h
      · rcases h with h | h <;> cases h
      · rcases h with h | h <;> cases h

theorem response_of_failure {isInvite : Bool} {a : Answer} {env : AnswerEnv} {last : Option Nat}
    (h : (Attempt.send isInvite a env last).failure.isSome = true) : (Attempt.send isInvite a env last).response = last := by
  unfold Attempt.send at h ⊢
  dsimp only at h ⊢
  split
  · rename_i hreliable
    rw [if_pos hreliable] at h
    cases hrel : env.rel with
    | none => rfl
    | some rel =>
      rw [hrel] at h
      dsimp only at h
      split at h <;> cases h
  · rename_i hreliable
    rw [if_neg hreliable] at h
    cases htreply : env.treply with
    | refused => rfl
    | sent =>
      rw [htreply] at h
      cases h
    | lost =>
      rw [htreply] at h
      cases h

/-- The tables are told of nothing but the status. -/
theorem sendResponse_of_failure (haccepts : s.Accepts d c) {last : Option Nat}
    (h : (Attempt.send d.isInvite c.answer c.env last).failure.isSome = true) :
    s.registries.sendResponse leg d c.answer.code (c.answer.respondEnv c.env) =
      (s.registries.modify leg fun d => { d with status := c.answer.code }, false) := by
  obtain ⟨hstatus, hgone, hout, hfree⟩ := haccepts
  have hopen : ¬((c.answer.respondEnv c.env).transportGone = true ∨ d.invite.any (·.orq.isSome) = true) := by
    rintro (h | h)
    · exact nomatch hgone.symm.trans h
    · exact nomatch hout.symm.trans h
  unfold sendResponse
  rw [if_neg (Nat.not_le.mpr hstatus), if_neg hopen, if_neg (Bool.eq_false_iff.mp hfree)]
  dsimp only
  unfold Attempt.send at h
  dsimp only at h
  have hreliable : c.answer.reliable d.isInvite = true ↔ 100 < c.answer.code ∧ c.answer.code < 200 ∧ d.isInvite = true ∧
      (c.answer.respondEnv c.env).requires100rel = true := by
    unfold Answer.reliable Answer.respondEnv
    simp [and_assoc]
  split at h
  · rename_i hrel
    rw [if_pos (hreliable.mp hrel)]
    split at h
    · rename_i hnone
      rw [show (c.answer.respondEnv c.env).rel = none from hnone]
    · split at h <;> cases h
  · rename_i hrel
    rw [if_neg (hrel ∘ hreliable.mpr)]
    cases htreply : c.env.treply with
    | refused =>
      refine if_pos ?_
      unfold Answer.respondEnv
      rw [htreply]
      rfl
    | sent =>
      rw [htreply] at h
      cases h
    | lost =>
      rw [htreply] at h
      cases h

/-- The state after a refused response: the status is that of the response, and the dialog has recorded it. -/
theorem step_of_refuses (hirq : s.registries.irqs.lookup c.transactionId = none)
    (hfind : (s.enter c).registries.findInviteByTransactionId c.transactionId = some (leg, d)) (hupdate : updateOf d c = none)
    (h : s.Refuses c) : s.step c =
      { registries := (((s.enter c).registries.modify leg fun d => { d with status := c.answer.code }).flushTransaction
          d.transactionId c.answer.code (inviteMethod d) false).collect
        recorded := Function.update (s.enter c).recorded leg (c.answer.record d.isInvite c.env ((s.enter c).recorded leg))
        responses := (s.enter c).responses } := by
  obtain ⟨haccepts, hfailure⟩ := accepts_of_refuses hirq hfind hupdate h
  have hout := haccepts.2.2.1
  have hlast : (s.enter c).lastResponse d = (s.enter c).responses d.transactionId := by
    rw [lastResponse, hout, if_neg Bool.false_ne_true]
  have hregistries : (s.enter c).registries.respondToInvite leg d c.answer.code (c.answer.respondEnv c.env) =
      ((s.enter c).registries.modify leg fun d => { d with status := c.answer.code }).flushTransaction
        d.transactionId c.answer.code (inviteMethod d) false := by
    unfold respondToInvite
    rw [show (if (c.answer.respondEnv c.env).cseqUpdate = true then d.update else none) = updateOf d c from rfl, hupdate]
    dsimp only
    rw [sendResponse_of_failure haccepts hfailure, if_neg Bool.false_ne_true]
  unfold step
  rw [answer_of_invite hirq hfind, answerInvite, hupdate]
  dsimp only
  rw [attempt_of_accepts haccepts, if_pos rfl, hout, if_neg Bool.false_ne_true, hregistries, response_of_failure
    hfailure, hlast, Function.update_eq_self]

/-! ### What is left of it -/

theorem irqs_enter (hirq : s.registries.irqs.lookup c.transactionId = none)
    (hfind : (s.enter c).registries.findInviteByTransactionId c.transactionId = some (leg, d)) :
    (s.enter c).registries.irqs.lookup c.transactionId = none := by
  rcases enter_cases s c with ⟨-, -, -, henter⟩ | ⟨hnone, henter⟩
  · rwa [henter]
  · rw [henter] at hfind ⊢
    have hregistries : (s.setUp c).registries =
      s.registries.setupLegForIncomingRequest c.transactionId (c.answer.respondEnv c.env) := rfl
    rcases @setupLegForIncomingRequest_cases s.registries c.transactionId (c.answer.respondEnv c.env) hnone with
      ⟨-, irqs, heq, -⟩ | ⟨d', -, hsetup⟩
    · rw [hregistries, heq] at hfind
      have hnone' : Registries.findInviteByTransactionId c.transactionId
          { s.registries with pending := (s.registries.pending.findAndRemove c.transactionId false).1, irqs := irqs } =
          none :=
        (found_congr rfl).trans hnone
      rw [hnone'] at hfind
      cases hfind
    · rw [hregistries, hsetup.irqs]
      exact hirq

/-- What a call comes to depends on the responses and on the stable dialogs only, once its dialog is found. -/
theorem outcome_congr {u : Answering} (hresponses : u.responses = s.responses)
    (hfree : (u.registries.findDialogById d.dialogId).isSome = (s.registries.findDialogById d.dialogId).isSome) :
    (u.answerInvite leg d c).2 = (s.answerInvite leg d c).2 := by
  have hlast : u.lastResponse d = s.lastResponse d := by
    unfold lastResponse
    rw [hresponses]
  have hattempt : u.attempt d c = s.attempt d c := by
    unfold attempt
    rw [hlast, hfree]
  unfold answerInvite
  cases updateOf d c with
  | some u' =>
    unfold answerUpdate
    dsimp only
    rw [hresponses]
  | none =>
    dsimp only
    rw [hattempt]

theorem record_of_onRecord {r : Recorded} (hstatus : d.status < 200) (h : OnRecord d r c) :
    c.answer.record d.isInvite c.env r = r := by
  obtain ⟨hcode, hcontact, hbody⟩ := h
  have htimer : c.answer.sessionTimer d.isInvite c.env = none := if_neg fun h => by omega
  unfold Answer.record
  rw [hcontact, htimer]
  by_cases hempty : c.answer.body = ""
  · rw [if_pos hempty, if_pos hempty]
    rfl
  · obtain ⟨hsdp, htype⟩ := hbody hempty
    rw [if_neg hempty, if_neg hempty, hsdp]
    have hsame : c.answer.bodyType.getD r.localContentType = r.localContentType := by
      cases hbodyType : c.answer.bodyType with
      | none => rfl
      | some type => exact htype type hbodyType
    rw [hsame]
    rfl

theorem onRecord_of_record {r : Recorded} (hcode : c.answer.code = d.status) (h : c.answer.record d.isInvite c.env r = r) :
    OnRecord d r c := by
  refine ⟨hcode, congrArg Recorded.localContact h, fun hbody => ⟨?_, fun type htype => ?_⟩⟩
  · have hsdp : (if c.answer.body = "" then r.localSdp else c.answer.body) = r.localSdp := congrArg Recorded.localSdp h
    rwa [if_neg hbody] at hsdp
  · have hsame : (if c.answer.body = "" then r.localContentType else c.answer.bodyType.getD r.localContentType) =
      r.localContentType :=
      congrArg Recorded.localContentType h
    rwa [if_neg hbody, htype] at hsame

/-- A response that the stack refuses changes nothing if and only if it says nothing that is not on record. -/
theorem unchanged_iff (hirq : s.registries.irqs.lookup c.transactionId = none)
    (hfind : (s.enter c).registries.findInviteByTransactionId c.transactionId = some (leg, d)) (hupdate : updateOf d c = none)
    (h : s.Refuses c) : Unchanged leg d (s.enter c) (s.step c) ↔ OnRecord d ((s.enter c).recorded leg) c := by
  obtain ⟨⟨hstatus, -⟩, -⟩ := accepts_of_refuses hirq hfind hupdate h
  obtain ⟨-, -, htxn⟩ := findInviteByTransactionId_eq_some hfind
  have hstep := step_of_refuses hirq hfind hupdate h
  have hfound : (s.step c).registries.findInviteByTransactionId c.transactionId =
      some (leg, { d with status := c.answer.code }) := by
    rw [hstep]
    refine findInvite_collect.trans ((found_congr routed_flushTransaction.legs).trans ?_)
    exact found_modify hfind ⟨rfl, rfl, rfl, rfl, .inl rfl⟩
  constructor
  · intro hunchanged
    obtain ⟨d', hd', hsame⟩ := hunchanged.status
    rw [(findInviteByTransactionId_eq_some hfound).1] at hd'
    cases hd'
    refine onRecord_of_record hsame ?_
    have hrecorded := hunchanged.recorded
    rw [hstep] at hrecorded
    dsimp only at hrecorded
    rwa [Function.update_self] at hrecorded
  · intro honRecord
    have hcode : c.answer.code = d.status := honRecord.1
    have hself : { d with status := c.answer.code } = d := by rw [hcode]
    rw [hself] at hfound
    refine ⟨⟨d, (findInviteByTransactionId_eq_some hfound).1, rfl⟩, ?_, fun c' hc' => ?_⟩
    · rw [hstep]
      dsimp only
      rw [Function.update_self, record_of_onRecord hstatus honRecord]
    · have hid : c'.transactionId = c.transactionId := hc'.trans htxn
      have hirqs := irqs_enter hirq hfind
      have hirqs' : (s.step c).registries.irqs.lookup c.transactionId = none := by
        refine AList.lookup_eq_none.mpr fun hmem => AList.lookup_eq_none.mp hirqs ?_
        have hgrows : Grows (fun _ => False) (fun _ => False) (s.enter c).registries (s.step c).registries := by
          rw [hstep]
          have hstatus : Grows (fun _ => False) (fun _ => False) (s.enter c).registries
              ((s.enter c).registries.modify leg fun d => { d with status := c.answer.code }) := Grows.modify fun _ => rfl
          exact (hstatus.trans routed_flushTransaction.grows).trans Grows.collect
        exact (hgrows.irqs _ hmem).elim id False.elim
      have hafter : (s.step c).enter c' = s.step c := enter_of_invite (hid ▸ hfound)
      have hbefore : (s.enter c).enter c' = s.enter c := enter_of_invite (hid ▸ hfind)
      rw [answer_of_invite (hid ▸ hirqs') (hafter.symm ▸ hid ▸ hfound), answer_of_invite (hid ▸ hirqs)
        (hbefore.symm ▸ hid ▸ hfind),
        hafter, hbefore]
      refine outcome_congr (by rw [hstep]) ?_
      rw [Bool.eq_iff_iff, findDialogById_isSome, findDialogById_isSome, hstep]
      dsimp only
      rw [view_collect]
      have hview : view (((s.enter c).registries.modify leg fun d => { d with status := c.answer.code }).flushTransaction
          d.transactionId c.answer.code (inviteMethod d) false) = view (s.enter c).registries := by
        rw [view_flushTransaction]
        exact view_modify_of_eq (fun _ => rfl) fun _ => rfl
      rw [hview]

/-- A peer that has been told that it rings -/
def ringing : Answering := offered.step (plainCall 180 .sent)

/-- Another 180 is refused: that one, too, is on record. -/
theorem ringing_unchanged : ∃ leg d, ringing.registries.findInviteByTransactionId "t1" = some (leg, d) ∧
    Unchanged leg d (ringing.enter (plainCall 180 .refused)) (ringing.step (plainCall 180 .refused)) := by
  let d : SipDialog := { SipDialog.new "call" "tag" "t1" true (some 7) 180 with invite := some ⟨none, [], false⟩ }
  have hfind : ringing.registries.findInviteByTransactionId "t1" = some (4, d) := rfl
  have henter : ringing.enter (plainCall 180 .refused) = ringing := enter_of_invite hfind
  have hfound : (ringing.enter (plainCall 180 .refused)).registries.findInviteByTransactionId "t1" = some (4, d) := by
    rw [henter]
    exact hfind
  refine ⟨4, d, hfind, (unchanged_iff (by decide) hfound rfl (.inl (by decide))).mpr ?_⟩
  rw [henter]
  exact ⟨rfl, by decide, fun h => absurd rfl h⟩

/-- A 486 is refused, and the dialog has the final status that was never sent. -/
theorem refused_is_recorded : ¬ ∀ (s : Answering) (c : Call) (leg : Leg) (d : SipDialog),
    s.registries.irqs.lookup c.transactionId = none →
    (s.enter c).registries.findInviteByTransactionId c.transactionId = some (leg, d) → updateOf d c = none → s.Refuses c →
    Unchanged leg d (s.enter c) (s.step c) := by
  intro h
  let d : SipDialog := { SipDialog.new "call" "tag" "t1" true (some 7) 100 with invite := some ⟨none, [], false⟩ }
  have hfind : (offered.enter (plainCall 486 .refused)).registries.findInviteByTransactionId "t1" = some (4, d) := rfl
  obtain ⟨d', hd', hsame⟩ := (h offered (plainCall 486 .refused) 4 d (by decide) hfind rfl (.inl (by decide))).status
  have hstatus : ((offered.step (plainCall 486 .refused)).registries.legs.lookup 4).map (·.status) = some 486 := by decide
  rw [hd'] at hstatus
  have hrecorded : d'.status = 486 := Option.some.inj hstatus
  rw [hrecorded] at hsame
  cases hsame

end Drachtio.Dialog.Answering
