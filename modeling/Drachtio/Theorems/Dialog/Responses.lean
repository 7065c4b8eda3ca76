import Drachtio.Dialog.Respond
import Drachtio.Theorems.Dialog.Transactions

/-! Responses of an application: the handler with all that it shows does to the tables what the handler of the tables
    does; what a response that the stack refuses leaves of the dialog; and when OK means that a response was sent. -/

namespace Drachtio.Dialog

open Proxy (Method)
open Client (RespondError)

/-! ### Search -/

namespace Registries

variable {s : Registries} {leg : Leg} {d : SipDialog} {p : SipDialog → Bool} {g : SipDialog → SipDialog}

/-- An object that was found is found again after a change that does not matter to the search. -/
theorem find_modify (h : s.find p = some (leg, d)) (hp : p (g d) = true) : (s.modify leg g).find p = some (leg, g d) := by
  rw [modify_of_lookup g (find_eq_some h).1]
  unfold find
  rw [show (s.legs.insert leg (g d)).entries = ⟨leg, g d⟩ :: s.legs.entries.kerase leg from AList.entries_insert ..]
  exact congrArg (Option.map _) (List.find?_cons_of_pos (p := fun e : Sigma fun _ : Leg => SipDialog => p e.2) hp)

theorem find_modify_none (h : s.find p = none) (hp : ∀ d, p d = false → p (g d) = false) :
    (s.modify leg g).find p = none := by
  cases hfind : (s.modify leg g).find p with
  | none => rfl
  | some e =>
    obtain ⟨l, d'⟩ := e
    obtain ⟨hlookup, he⟩ := find_eq_some hfind
    rw [lookup_modify] at hlookup
    split at hlookup
    · obtain ⟨d, hd, hgd⟩ := Option.map_eq_some_iff.mp hlookup
      rw [← hgd, hp d (find_eq_none h hd)] at he
      cases he
    · rw [find_eq_none h hlookup] at he
      cases he

/-- The end of a handler leaves what is in a container. -/
theorem find_collect (hp : ∀ d, d.stable = false → d.invite = none → p d = false) : s.collect.find p = s.find p := by
  refine collect_induction (P := fun s' => s'.find p = s.find p) rfl fun s' leg d hs' hd _ _ href => ?_
  obtain ⟨hstable, hinvite, -, -⟩ := referenced_eq_false href
  rw [← hs', destroy_eq]
  unfold find
  refine congrArg (Option.map _) (AList.find?_kerase fun b hb => ?_)
  have hb : s'.legs.lookup leg = some b := mem_entries.mp hb
  rw [hd] at hb
  cases hb
  exact hp d hstable hinvite

theorem findInvite_collect {t : String} : s.collect.findInviteByTransactionId t = s.findInviteByTransactionId t :=
  find_collect fun d _ hinvite => by rw [hinvite]; rfl

end Registries

namespace Answering

open Registries Machine

variable {s : Answering} {c : Call} {leg : Leg} {d : SipDialog} {t : String} {irq : Irq}

/-! ### The tables -/

theorem registries_answerInvite :
    (s.answerInvite leg d c).1.registries = s.registries.respondToInvite leg d c.answer.code (c.answer.respondEnv c.env) := by
  have hupdate : (if (c.answer.respondEnv c.env).cseqUpdate = true then d.update else none) = updateOf d c := rfl
  unfold answerInvite Registries.respondToInvite
  rw [hupdate]
  cases updateOf d c <;> rfl

/-- The handler does to the tables what the handler of the tables does. -/
theorem registries_answer (s : Answering) (c : Call) : (s.answer c).1.registries =
    s.registries.doRespondToSipRequest c.transactionId c.answer.code (c.answer.respondEnv c.env) := by
  unfold answer Registries.doRespondToSipRequest
  cases hirq : s.registries.irqs.lookup c.transactionId with
  | some irq => rfl
  | none =>
    dsimp only
    unfold enter
    cases hfind : s.registries.findInviteByTransactionId c.transactionId with
    | some e =>
      dsimp only
      rw [hfind]
      exact registries_answerInvite
    | none =>
      dsimp only
      have hsetUp : (s.setUp c).registries =
        s.registries.setupLegForIncomingRequest c.transactionId (c.answer.respondEnv c.env) := rfl
      rw [← hsetUp]
      cases (s.setUp c).registries.findInviteByTransactionId c.transactionId with
      | some e => exact registries_answerInvite
      | none =>
        dsimp only
        cases (s.setUp c).registries.irqs.lookup c.transactionId <;> rfl

theorem registries_step (s : Answering) (c : Call) : (s.step c).registries =
    s.registries.step (.doRespondToSipRequest c.transactionId c.answer.code (c.answer.respondEnv c.env)) :=
  congrArg Registries.collect (registries_answer s c)

/-- A run of calls is a run of the system. -/
theorem registries_run (s : Answering) (cs : List Call) : (run step s cs).registries =
    run Registries.step s.registries
      (cs.map fun c => .doRespondToSipRequest c.transactionId c.answer.code (c.answer.respondEnv c.env)) := by
  induction cs generalizing s with
  | nil => rfl
  | cons c cs ih =>
    rw [run_cons, List.map_cons, run_cons, ← registries_step]
    exact ih (s.step c)

/-! ### The branches of the handler -/

theorem answer_of_irq (h : s.registries.irqs.lookup c.transactionId = some irq) : s.answer c = s.answerIrq irq true c := by
  rw [answer, h]

theorem answer_of_invite (hirq : s.registries.irqs.lookup c.transactionId = none)
    (h : (s.enter c).registries.findInviteByTransactionId c.transactionId = some (leg, d)) :
    s.answer c = (s.enter c).answerInvite leg d c := by
  rw [answer, hirq]
  dsimp only
  rw [h]

theorem enter_of_invite (h : s.registries.findInviteByTransactionId c.transactionId = some (leg, d)) : s.enter c = s := by
  rw [enter, h]

theorem answerInvite_of_update {u : String} (h : updateOf d c = some u) :
    s.answerInvite leg d c = s.answerUpdate leg u c := by
  rw [answerInvite, h]

/-- What happens to the call: it answers a request, an INVITE or SUBSCRIBE, or nothing that is known. -/
theorem answer_cases (s : Answering) (c : Call) :
    (∃ irq, s.registries.irqs.lookup c.transactionId = some irq ∧ s.answer c = s.answerIrq irq true c) ∨
    s.registries.irqs.lookup c.transactionId = none ∧
      ((∃ leg d, (s.enter c).registries.findInviteByTransactionId c.transactionId = some (leg, d) ∧
          s.answer c = (s.enter c).answerInvite leg d c) ∨
        (s.enter c).registries.findInviteByTransactionId c.transactionId = none ∧
          ((∃ irq, s.answer c = (s.enter c).answerIrq irq false c) ∨ s.answer c = (s.enter c).answerUnknown c)) := by
  cases hirq : s.registries.irqs.lookup c.transactionId with
  | some irq => exact .inl ⟨irq, rfl, answer_of_irq hirq⟩
  | none =>
    refine .inr ⟨rfl, ?_⟩
    cases hfind : (s.enter c).registries.findInviteByTransactionId c.transactionId with
    | some e => exact .inl ⟨e.1, e.2, rfl, answer_of_invite hirq hfind⟩
    | none =>
      refine .inr ⟨rfl, ?_⟩
      unfold answer
      rw [hirq]
      dsimp only
      rw [hfind]
      dsimp only
      cases (s.enter c).registries.irqs.lookup c.transactionId with
      | some irq => exact .inl ⟨irq, rfl⟩
      | none => exact .inr rfl

/-! ### What goes out -/

theorem error_eq_none {attempt : Attempt} :
    attempt.error = none ↔ attempt.failure = none ∧ attempt.response.isSome = true := by
  unfold Attempt.error
  cases attempt.failure <;> cases attempt.response <;> simp

/-- An attempt that seems to have been successful put a response on the wire. -/
def Sound (attempt : Attempt) : Prop := attempt.error = none → attempt.sent.isSome = true

theorem sound_of_failure {attempt : Attempt} (h : attempt.failure.isSome = true) : Sound attempt := by
  intro herror
  rw [(error_eq_none.mp herror).1] at h
  cases h

theorem sound_treply (m : WireResponse) (last : Option Nat) (r : Treply) : Sound (.treply m last r) := by
  intro herror
  obtain ⟨hfailure, hresponse⟩ := error_eq_none.mp herror
  cases r with
  | refused => cases hfailure
  | sent => rfl
  | lost => cases hresponse

theorem sound_onIrq (irq : Irq) (a : Answer) (env : AnswerEnv) (last : Option Nat) : Sound (.onIrq irq a env last) := by
  unfold Attempt.onIrq
  split
  · exact sound_of_failure rfl
  · split
    · exact sound_of_failure rfl
    · dsimp only
      split
      · exact sound_of_failure rfl
      · exact sound_treply _ _ _

theorem sound_onUpdate (a : Answer) (env : AnswerEnv) (last : Option Nat) : Sound (.onUpdate a env last) := by
  unfold Attempt.onUpdate
  split
  · exact sound_of_failure rfl
  · exact sound_treply _ _ _

theorem sound_send (isInvite : Bool) (a : Answer) (env : AnswerEnv) (last : Option Nat) :
    Sound (.send isInvite a env last) := by
  unfold Attempt.send
  dsimp only
  split
  · split
    · exact sound_of_failure rfl
    · split <;> exact sound_treply _ _ _
  · exact sound_treply _ _ _

/-- The dialog accepts the response: no final one has been tried, the transport is there and the INVITE is not forked. -/
def Accepts (d : SipDialog) (c : Call) (s : Answering) : Prop :=
  d.status < 200 ∧ c.env.transportGone = false ∧ outgoing d = false ∧ (s.registries.findDialogById d.dialogId).isSome = false

theorem attempt_cases (d : SipDialog) (c : Call) (s : Answering) :
    (200 ≤ d.status ∧ s.attempt d c = (⟨none, none, s.lastResponse d⟩, false)) ∨
    ((s.attempt d c).1.failure = some .transportClosed ∨ (s.attempt d c).1.failure = some .dialogExists) ∨
    (s.Accepts d c ∧ s.attempt d c = (.send d.isInvite c.answer c.env (s.lastResponse d), true)) := by
  unfold attempt
  dsimp only
  split
  · rename_i h
    exact .inl ⟨h, rfl⟩
  · rename_i hstatus
    split
    · exact .inr (.inl (.inl rfl))
    · rename_i hopen
      obtain ⟨hgone, hout⟩ := not_or.mp hopen
      split
      · exact .inr (.inl (.inr rfl))
      · rename_i hforked
        exact .inr (.inr ⟨⟨Nat.lt_of_not_le hstatus, Bool.eq_false_iff.mpr hgone, Bool.eq_false_iff.mpr hout,
          Bool.eq_false_iff.mpr hforked⟩, rfl⟩)

theorem attempt_of_accepts (h : s.Accepts d c) :
    s.attempt d c = (.send d.isInvite c.answer c.env (s.lastResponse d), true) := by
  obtain ⟨hstatus, hgone, hout, hfree⟩ := h
  rw [attempt, if_neg (Nat.not_le.mpr hstatus), hgone, hout, hfree]
  rfl

/-! ### The invite in progress -/

/-- The dialog that a response leaves is the one that it found, but for what a response changes. -/
structure Kin (d d' : SipDialog) : Prop where
  transactionId : d'.transactionId = d.transactionId
  isInvite : d'.isInvite = d.isInvite
  invite : d'.invite.isSome = d.invite.isSome
  outgoing : outgoing d' = outgoing d
  update : d'.update = d.update ∨ d'.update = none

theorem Kin.refl : Kin d d := ⟨rfl, rfl, rfl, rfl, .inl rfl⟩

variable {r r' : Registries} {code : Nat} {env : RespondEnv} {g : SipDialog → SipDialog}

theorem found_modify (h : r.findInviteByTransactionId t = some (leg, d)) (hk : Kin d (g d)) :
    (r.modify leg g).findInviteByTransactionId t = some (leg, g d) := by
  obtain ⟨-, hinvite, htxn⟩ := findInviteByTransactionId_eq_some h
  refine find_modify h ?_
  rw [hk.invite, hk.transactionId, hinvite, htxn]
  simp

theorem found_congr (h : r'.legs = r.legs) : r'.findInviteByTransactionId t = r.findInviteByTransactionId t := by
  unfold findInviteByTransactionId find
  rw [h]

/-- An invite in progress is still found when its dialog has been made. -/
theorem found_addDialog (h : r.findInviteByTransactionId t = some (leg, d)) :
    (r.addDialog leg d).findInviteByTransactionId t = some (leg, d) ∨
      (r.addDialog leg d).findInviteByTransactionId t = some (leg, { d with stable := true }) := by
  unfold addDialog
  rw [found_congr (by rw [addDialogForTransaction_eq])]
  rcases insertStable_cases leg r with heq | heq
  · rw [heq]
    exact .inl h
  · rw [heq]
    exact .inr (found_modify h ⟨rfl, rfl, rfl, rfl, .inl rfl⟩)

theorem found_replyToInvite (code : Nat) (hinvite : d.isInvite = true) {e : SipDialog}
    (h : r.findInviteByTransactionId t = some (leg, e))
    (he : r.addDialog leg d = r.addDialog leg e) :
    ∃ d', (r.replyToInvite leg d code).findInviteByTransactionId t = some (leg, d') ∧
      Kin e d' ∧ d'.status = e.status := by
  unfold replyToInvite
  rw [if_pos hinvite, he]
  split
  · rcases found_addDialog h with hadd | hadd
    · exact ⟨_, found_modify hadd ⟨rfl, rfl, rfl, rfl, .inl rfl⟩, ⟨rfl, rfl, rfl, rfl, .inl rfl⟩, rfl⟩
    · exact ⟨_, found_modify hadd ⟨rfl, rfl, rfl, rfl, .inl rfl⟩, ⟨rfl, rfl, rfl, rfl, .inl rfl⟩, rfl⟩
  · exact ⟨e, h, .refl, rfl⟩

theorem Kin.trans {d' d'' : SipDialog} (h : Kin d d') (h' : Kin d' d'') : Kin d d'' where
  transactionId := h'.transactionId.trans h.transactionId
  isInvite := h'.isInvite.trans h.isInvite
  invite := h'.invite.trans h.invite
  outgoing := h'.outgoing.trans h.outgoing
  update := h'.update.elim (fun h' => h' ▸ h.update) .inr

/-- A response to an INVITE leaves it in progress. The dialog gets the status of a response that it accepts. -/
theorem found_sendResponse (hinvite : d.isInvite = true) (h : s.registries.findInviteByTransactionId t = some (leg, d)) :
    ∃ d', (s.registries.sendResponse leg d c.answer.code (c.answer.respondEnv c.env)).1.findInviteByTransactionId t =
    some (leg, d') ∧
      Kin d d' ∧ (s.Accepts d c → d'.status = c.answer.code) ∧ (200 ≤ d.status → d'.status = d.status) := by
  unfold sendResponse
  split
  · rename_i hstatus
    exact ⟨d, h, .refl, fun haccepts => absurd haccepts.1 (Nat.not_lt.mpr hstatus), fun _ => rfl⟩
  · rename_i hstatus
    split
    · rename_i hclosed
      refine ⟨d, h, .refl, fun haccepts => ?_, fun _ => rfl⟩
      obtain ⟨-, hgone, hout, -⟩ := haccepts
      rcases hclosed with hclosed | hclosed
      · exact nomatch hgone.symm.trans hclosed
      · exact nomatch hout.symm.trans hclosed
    · split
      · rename_i hforked
        refine ⟨d, h, .refl, fun haccepts => ?_, fun _ => rfl⟩
        exact nomatch haccepts.2.2.2.symm.trans hforked
      · have hfound : (s.registries.modify leg fun d => { d with status := c.answer.code }).findInviteByTransactionId t =
            some (leg, { d with status := c.answer.code }) := found_modify h ⟨rfl, rfl, rfl, rfl, .inl rfl⟩
        have hkin : Kin d { d with status := c.answer.code } := ⟨rfl, rfl, rfl, rfl, .inl rfl⟩
        dsimp only
        generalize (s.registries.modify leg fun d => { d with status := c.answer.code }) = r at hfound ⊢
        split
        · split
          · refine ⟨_, found_modify hfound ⟨rfl, rfl, ?_, ?_, .inl rfl⟩, ⟨rfl, rfl, ?_, ?_, .inl rfl⟩, fun _ => rfl,
              fun hfinal => absurd hfinal hstatus⟩
            · exact Option.isSome_map
            · show (Option.map _ d.invite).any _ = d.invite.any _
              cases d.invite <;> rfl
            · exact Option.isSome_map
            · show (Option.map _ d.invite).any _ = d.invite.any _
              cases d.invite <;> rfl
          · exact ⟨_, hfound, hkin, fun _ => rfl, fun hfinal => absurd hfinal hstatus⟩
        · split
          · exact ⟨_, hfound, hkin, fun _ => rfl, fun hfinal => absurd hfinal hstatus⟩
          · obtain ⟨d', hd', hkin', hs⟩ := found_replyToInvite c.answer.code hinvite hfound rfl
            exact ⟨d', hd', hkin.trans hkin', fun _ => hs, fun hfinal => absurd hfinal hstatus⟩

theorem found_answerInvite (hinvite : d.isInvite = true) (h : s.registries.findInviteByTransactionId t = some (leg, d)) :
    ∃ d', (s.answerInvite leg d c).1.registries.findInviteByTransactionId t = some (leg, d') ∧
      Kin d d' ∧ (updateOf d c = none → s.Accepts d c → d'.status = c.answer.code) ∧
      (200 ≤ d.status → d'.status = d.status) := by
  rw [registries_answerInvite]
  unfold respondToInvite
  rw [show (if (c.answer.respondEnv c.env).cseqUpdate = true then d.update else none) = updateOf d c from rfl]
  cases hupdate : updateOf d c with
  | some u =>
    unfold respondToUpdate
    have hfirst :
      ((s.registries.removeIrq u).modify leg fun d => { d with incoming := d.incoming.erase u }).findInviteByTransactionId t =
        some (leg, { d with incoming := d.incoming.erase u }) :=
      found_modify ((found_congr rfl).trans h) ⟨rfl, rfl, rfl, rfl, .inl rfl⟩
    refine ⟨_, found_modify ((found_congr rfl).trans hfirst) ⟨rfl, rfl, rfl, rfl, .inr rfl⟩,
      ⟨rfl, rfl, rfl, rfl, .inr rfl⟩, nofun,
      fun _ => rfl⟩
  | none =>
    obtain ⟨d', hd', hkin, haccepts, hfinal⟩ := found_sendResponse (c := c) hinvite h
    have hstays : (s.registries.sendResponse leg d c.answer.code (c.answer.respondEnv c.env)).2 = false := by
      unfold sendResponse
      split
      · rfl
      · split
        · rfl
        · split
          · rfl
          · dsimp only
            split
            · split <;> rfl
            · split
              · rfl
              · rw [hinvite]
                rfl
    dsimp only
    rw [hstays, if_neg Bool.false_ne_true, found_congr routed_flushTransaction.legs]
    exact ⟨d', hd', hkin, fun _ => haccepts, hfinal⟩

end Answering

end Drachtio.Dialog
