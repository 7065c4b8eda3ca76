import Drachtio.Theorems.Dialog.Responses

/-! What the application is told of its responses to one INVITE, and how often the call is recorded. A final response
    that comes after another one is discarded, and the code then answers, and records, by what the stack sent last. -/

namespace Drachtio.Dialog.Answering

open Machine Registries
open Client (RespondError)

variable {s : Answering} {c : Call} {cs : List Call} {leg : Leg} {d : SipDialog} {t : String}

/-- OK means that the call put a response on the wire, and a call is recorded once. -/
structure Honest (os : List Outcome) : Prop where
  sent : ∀ o ∈ os, o.error = none → o.sent.isSome = true
  starts : os.countP (fun o => o.cdr == some .start) ≤ 1
  stops : os.countP (fun o => o.cdr == some .stop) ≤ 1

/-- The response comes after a final one has been tried, and the stack has sent something for the INVITE. -/
def Discards (s : Answering) (c : Call) : Prop :=
  s.registries.irqs.lookup c.transactionId = none ∧
    ∃ leg d, s.registries.findInviteByTransactionId c.transactionId = some (leg, d) ∧ updateOf d c = none ∧ 200 ≤ d.status ∧
      (s.lastResponse d).isSome = true

instance : Decidable (s.Discards c) :=
  decidable_of_iff (s.registries.irqs.lookup c.transactionId = none ∧
    (s.registries.findInviteByTransactionId c.transactionId).any
      (fun e => decide (updateOf e.2 c = none ∧ 200 ≤ e.2.status ∧ (s.lastResponse e.2).isSome = true)) = true) <|
    and_congr_right fun _ => by simp [Option.any_eq_true]

/-! ### One call -/

theorem enter_cases (s : Answering) (c : Call) :
    (∃ leg d, s.registries.findInviteByTransactionId c.transactionId = some (leg, d) ∧ s.enter c = s) ∨
      (s.registries.findInviteByTransactionId c.transactionId = none ∧ s.enter c = s.setUp c) := by
  unfold enter
  cases s.registries.findInviteByTransactionId c.transactionId with
  | some e => exact .inl ⟨e.1, e.2, rfl, rfl⟩
  | none => exact .inr ⟨rfl, rfl⟩

/-- A transaction that was just set up has sent nothing. -/
theorem lastResponse_setUp (hd : d.transactionId = c.transactionId) : (s.setUp c).lastResponse d = none := by
  unfold lastResponse
  split
  · rfl
  · rw [hd]
    exact Function.update_self ..

/-- A response that is discarded is answered with OK. -/
theorem outcome_of_discards (h : s.Discards c) : (s.answer c).2.error = none ∧ (s.answer c).2.sent = none := by
  obtain ⟨hirq, leg, d, hfind, hupdate, hstatus, hlast⟩ := h
  have henter := enter_of_invite hfind
  have hanswer : s.answer c = s.answerInvite leg d c := by
    rw [answer_of_invite hirq (henter.symm ▸ hfind), henter]
  have hattempt : s.attempt d c = (⟨none, none, s.lastResponse d⟩, false) := by
    rw [attempt, if_pos hstatus]
  rw [hanswer, answerInvite, hupdate]
  dsimp only
  rw [hattempt]
  exact ⟨error_eq_none.mpr ⟨rfl, hlast⟩, rfl⟩

/-- What the branch for an INVITE comes to, unless the response is discarded -/
theorem sound_attempt (hirq : s.registries.irqs.lookup c.transactionId = none)
    (hfind : (s.enter c).registries.findInviteByTransactionId c.transactionId = some (leg, d)) (hupdate : updateOf d c = none)
    (h : ¬s.Discards c) : ((s.enter c).attempt d c).1.error = none → (s.enter c).Accepts d c ∧
    ((s.enter c).attempt d c).1.sent.isSome = true := by
  intro hok
  rcases attempt_cases d c (s.enter c) with ⟨hfinal, heq⟩ | hfailure | ⟨haccepts, heq⟩
  · rw [heq] at hok
    have hlast : ((s.enter c).lastResponse d).isSome = true := (error_eq_none.mp hok).2
    exfalso
    rcases enter_cases s c with ⟨-, -, -, henter⟩ | ⟨-, henter⟩
    · rw [henter] at hfind hlast
      exact h ⟨hirq, leg, d, hfind, hupdate, hfinal, hlast⟩
    · rw [henter] at hfind hlast
      rw [lastResponse_setUp (findInviteByTransactionId_eq_some hfind).2.2] at hlast
      cases hlast
  · rw [(error_eq_none.mp hok).1] at hfailure
    exact hfailure.elim nofun nofun
  · refine ⟨haccepts, ?_⟩
    rw [heq] at hok ⊢
    exact sound_send _ _ _ _ hok

theorem sent_of_ok (h : ¬s.Discards c) (hok : (s.answer c).2.error = none) : (s.answer c).2.sent.isSome = true := by
  rcases answer_cases s c with ⟨irq, -, heq⟩ | ⟨hirq, ⟨leg, d, hfind, heq⟩ | ⟨-, ⟨irq, heq⟩ | heq⟩⟩
  · rw [heq] at hok ⊢
    exact sound_onIrq _ _ _ _ hok
  · rw [heq] at hok ⊢
    cases hupdate : updateOf d c with
    | some u =>
      rw [answerInvite_of_update hupdate] at hok ⊢
      exact sound_onUpdate _ _ _ hok
    | none =>
      rw [answerInvite, hupdate] at hok ⊢
      exact (sound_attempt hirq hfind hupdate h hok).2
  · rw [heq] at hok ⊢
    exact sound_onIrq _ _ _ _ hok
  · rw [heq] at hok
    cases hok

/-! ### The INVITE -/

/-- The transaction is that of an INVITE outside a dialog, which is pending or in progress, or of a request that has an
    irq and is neither. -/
structure Incoming (t : String) (s : Answering) : Prop where
  apart : t ∈ s.registries.irqs → s.registries.findInviteByTransactionId t = none ∧ t ∉ s.registries.pending.txnId2Invite
  pending : ∀ p, s.registries.pending.txnId2Invite.lookup t = some p → p.sip.request = some .invite
  invite : ∀ leg d, s.registries.findInviteByTransactionId t = some (leg, d) → d.isInvite = true ∧ d.update ≠ some t

/-- A final response has been tried, and the stack has sent something. -/
def Closed (t : String) (s : Answering) : Prop :=
  ∃ leg d, s.registries.findInviteByTransactionId t = some (leg, d) ∧ 200 ≤ d.status ∧ (s.lastResponse d).isSome = true

/-- The transaction is not pending any more, or there is nothing to be seen of it. -/
theorem Incoming.enter (h : Incoming c.transactionId s) (hirq : s.registries.irqs.lookup c.transactionId = none) :
    Incoming c.transactionId (s.enter c) := by
  rcases enter_cases s c with ⟨-, -, -, henter⟩ | ⟨hnone, henter⟩
  · rwa [henter]
  rw [henter]
  have hregistries : (s.setUp c).registries =
    s.registries.setupLegForIncomingRequest c.transactionId (c.answer.respondEnv c.env) := rfl
  have htaken : c.transactionId ∉ (s.registries.pending.findAndRemove c.transactionId false).1.txnId2Invite := by
    rw [findAndRemove_txnId2Invite]
    exact fun hmem => (AList.mem_erase.mp hmem).1 rfl
  rcases @setupLegForIncomingRequest_cases s.registries c.transactionId (c.answer.respondEnv c.env)
    hnone with ⟨-, irqs, heq, -⟩ | ⟨d, hnew, hsetup⟩
  · rw [heq] at hregistries
    have hfind : (s.setUp c).registries.findInviteByTransactionId c.transactionId = none :=
      (found_congr (by rw [hregistries])).trans hnone
    have hpending : c.transactionId ∉ (s.setUp c).registries.pending.txnId2Invite := by rwa [hregistries]
    refine ⟨fun _ => ⟨hfind, hpending⟩, fun p hp => absurd (AList.mem_of_lookup hp) hpending, fun leg d hd => ?_⟩
    rw [hfind] at hd
    cases hd
  · rw [← hregistries] at hsetup
    have hpending : c.transactionId ∉ (s.setUp c).registries.pending.txnId2Invite := by rwa [hsetup.pending]
    refine ⟨fun hmem => ?_, fun p hp => absurd (AList.mem_of_lookup hp) hpending, fun leg d' hd' => ?_⟩
    · rw [hsetup.irqs] at hmem
      exact absurd hmem (AList.lookup_eq_none.mp hirq)
    · rw [hsetup.found hnone] at hd'
      cases hd'
      unfold newInvite at hnew
      split at hnew
      · cases hnew
      · rename_i p hp
        split at hnew
        · cases hnew
        · dsimp only at hnew
          split at hnew
          · cases hnew
            refine ⟨?_, nofun⟩
            show (p.sip.request.getD .unknown == .invite) = true
            rw [h.pending p hp]
            rfl
          · cases hnew

/-- The branches of the handler keep the transaction that of an INVITE. -/
theorem Incoming.of_found {u : Answering} (h : Incoming t s) (hapart : t ∉ s.registries.irqs)
    (hirqs : t ∈ u.registries.irqs → t ∈ s.registries.irqs) (hpending : u.registries.pending = s.registries.pending)
    (hinvite : ∀ leg d, u.registries.findInviteByTransactionId t = some (leg, d) → d.isInvite = true ∧ d.update ≠ some t) :
    Incoming t u :=
  ⟨fun hmem => absurd (hirqs hmem) hapart, fun p hp => h.pending p (hpending ▸ hp), hinvite⟩

theorem irqs_respondToIrq {code : Nat} {irq : Irq} {existing : Bool} {env : RespondEnv} {r : Registries} :
    t ∉ (r.respondToIrq t code irq existing env).irqs := by
  have herased : t ∉ (r.removeIrq t).irqs := fun hmem => (AList.mem_erase.mp hmem).1 rfl
  unfold respondToIrq
  rw [routed_flushTransaction.irqs]
  split
  · split
    · rw [modify_eq]
      exact herased
    · exact herased
  · exact herased

theorem found_respondToIrq {code : Nat} {irq : Irq} {existing : Bool} {env : RespondEnv} {r : Registries}
    (h : r.findInviteByTransactionId t = none) :
    (r.respondToIrq t code irq existing env).findInviteByTransactionId t = none := by
  unfold respondToIrq
  rw [found_congr routed_flushTransaction.legs]
  have hremoved : (r.removeIrq t).findInviteByTransactionId t = none := (found_congr rfl).trans h
  split
  · split
    · exact find_modify_none hremoved fun d hd => hd
    · exact hremoved
  · exact hremoved

/-- An answer to a request leaves nothing of it. -/
theorem Incoming.answerIrq {irq : Irq} {existing : Bool} (h : Incoming c.transactionId s)
    (hfind : s.registries.findInviteByTransactionId c.transactionId = none) :
    Incoming c.transactionId (s.answerIrq irq existing c).1 := by
  have hframe : Frame (fun _ => True) (fun _ => True) s.registries (s.answerIrq irq existing c).1.registries :=
    frame_respondToIrq trivial
  refine ⟨fun hmem => absurd hmem irqs_respondToIrq, fun p hp => h.pending p (hframe.pending ▸ hp), fun leg d hd => ?_⟩
  have hnone : (s.answerIrq irq existing c).1.registries.findInviteByTransactionId c.transactionId = none :=
    found_respondToIrq hfind
  rw [hnone] at hd
  cases hd

theorem Incoming.answerInvite (h : Incoming t s) (hirq : t ∉ s.registries.irqs)
    (hfind : s.registries.findInviteByTransactionId t = some (leg, d)) : Incoming t (s.answerInvite leg d c).1 := by
  obtain ⟨hinvite, hupdate⟩ := h.invite leg d hfind
  obtain ⟨d', hfound, hkin, -⟩ := @found_answerInvite s c leg d t hinvite hfind
  refine h.of_found hirq (fun hmem => ?_) ?_ fun leg' e he => ?_
  · rw [registries_answerInvite] at hmem
    have hgrows : Grows (fun _ => False) (fun _ => False) s.registries
        (s.registries.respondToInvite leg d c.answer.code (c.answer.respondEnv c.env)) := Grows.respondToInvite
    exact (hgrows.irqs t hmem).elim id False.elim
  · rw [registries_answerInvite]
    exact pending_respondToInvite
  · rw [hfound] at he
    cases he
    refine ⟨hkin.isInvite.trans hinvite, ?_⟩
    rcases hkin.update with heq | heq
    · rwa [heq]
    · rw [heq]
      exact nofun

/-- The end of a handler does not matter to an INVITE. -/
theorem Incoming.collect (h : Incoming t s) : Incoming t { s with registries := s.registries.collect } := by
  have hgrows : Grows (fun _ => False) (fun _ => False) s.registries s.registries.collect := Grows.collect
  refine ⟨fun hmem => ?_, fun p hp => h.pending p (pending_collect (s := s.registries) ▸ hp), fun leg d hd => h.invite
    leg d (findInvite_collect ▸ hd)⟩
  have hold := (hgrows.irqs t hmem).elim id False.elim
  refine ⟨findInvite_collect.trans (h.apart hold).1, fun hpending => (h.apart hold).2 ?_⟩
  rwa [pending_collect] at hpending

theorem Incoming.step (h : Incoming c.transactionId s) : Incoming c.transactionId (s.step c) := by
  refine Incoming.collect (s := (s.answer c).1) ?_
  rcases answer_cases s c with ⟨irq, hirq, heq⟩ | ⟨hirq, ⟨leg, d, hfind, heq⟩ | ⟨hnone, ⟨irq, heq⟩ | heq⟩⟩
  · rw [heq]
    exact h.answerIrq (h.apart (AList.mem_of_lookup hirq)).1
  · rw [heq]
    refine (h.enter hirq).answerInvite (fun hmem => ?_) hfind
    rw [((h.enter hirq).apart hmem).1] at hfind
    cases hfind
  · rw [heq]
    exact (h.enter hirq).answerIrq hnone
  · rw [heq]
    have hentered := h.enter hirq
    have hrouted : Routed (s.enter c).registries ((s.enter c).answerUnknown c).1.registries := routed_flushTransaction
    have hfind : ((s.enter c).answerUnknown c).1.registries.findInviteByTransactionId c.transactionId = none :=
      (found_congr hrouted.legs).trans hnone
    refine ⟨fun hmem => ⟨hfind, ?_⟩, fun p hp => hentered.pending p (hrouted.pending ▸ hp), fun leg d hd => ?_⟩
    · rw [hrouted.pending]
      exact (hentered.apart (hrouted.irqs ▸ hmem)).2
    · rw [hfind] at hd
      cases hd

/-! ### CDRs -/

theorem cdr_cases {code : Nat} {attempt : Attempt} (h : cdr code attempt ≠ none) : attempt.error = none ∧ 200 ≤ code := by
  unfold cdr at h
  cases herror : attempt.error with
  | some e => simp [herror] at h
  | none =>
    refine ⟨rfl, ?_⟩
    by_contra hcode
    have hstop : ¬300 ≤ code := by omega
    have hstart : ¬code = 200 := by omega
    simp [herror, hstop, hstart] at h

/-- Once a final response has been tried and something was sent, the INVITE is recorded by discarded responses only. -/
theorem Closed.quiet (hclosed : Closed c.transactionId s) (h : ¬s.Discards c) : (s.answer c).2.cdr = none := by
  obtain ⟨leg, d, hfind, hstatus, hlast⟩ := hclosed
  have henter := enter_of_invite hfind
  rcases answer_cases s c with ⟨irq, -, heq⟩ | ⟨hirq, ⟨leg', d', hfind', heq⟩ | ⟨hnone, -⟩⟩
  · rw [heq]
    rfl
  · rw [henter, hfind] at hfind'
    cases hfind'
    rw [heq, henter]
    cases hupdate : updateOf d c with
    | some u =>
      rw [answerInvite_of_update hupdate]
      rfl
    | none => exact absurd ⟨hirq, leg, d, hfind, hupdate, hstatus, hlast⟩ h
  · rw [henter, hfind] at hnone
    cases hnone

/-- A closed INVITE stays closed. -/
theorem Closed.step (hclosed : Closed c.transactionId s) (hin : Incoming c.transactionId s) :
    Closed c.transactionId (s.step c) := by
  obtain ⟨leg, d, hfind, hstatus, hlast⟩ := hclosed
  obtain ⟨-, -, htxn⟩ := findInviteByTransactionId_eq_some hfind
  obtain ⟨hinvite, hother⟩ := hin.invite leg d hfind
  have hirq : s.registries.irqs.lookup c.transactionId = none := by
    refine AList.lookup_eq_none.mpr fun hmem => ?_
    rw [(hin.apart hmem).1] at hfind
    cases hfind
  have henter := enter_of_invite hfind
  have heq : s.answer c = s.answerInvite leg d c := by
    rw [answer_of_invite hirq (henter.symm ▸ hfind), henter]
  obtain ⟨d', hfound, hkin, -, hfinal⟩ := @found_answerInvite s c leg d _ hinvite hfind
  refine ⟨leg, d', ?_, (hfinal hstatus).symm ▸ hstatus, ?_⟩
  · refine findInvite_collect.trans ?_
    rw [heq]
    exact hfound
  · have hresponses : (s.answer c).1.responses c.transactionId = s.responses c.transactionId := by
      rw [heq]
      cases hupdate : updateOf d c with
      | some u =>
        rw [answerInvite_of_update hupdate]
        have hu : d.update = some u := by
          unfold updateOf at hupdate
          split at hupdate
          · exact hupdate
          · cases hupdate
        refine Function.update_of_ne ?_ _ _
        rintro rfl
        exact hother hu
      | none =>
        rw [answerInvite, hupdate]
        dsimp only
        have hattempt : s.attempt d c = (⟨none, none, s.lastResponse d⟩, false) := by
          rw [attempt, if_pos hstatus]
        rw [hattempt]
        split
        · rfl
        · rename_i hout
          rw [htxn, Function.update_self, lastResponse, if_neg hout, htxn]
    unfold lastResponse at hlast ⊢
    show (if outgoing d' = true then none else (s.answer c).1.responses d'.transactionId).isSome = true
    rw [hkin.outgoing, hkin.transactionId, htxn, hresponses]
    rwa [htxn] at hlast

/-- A call that is recorded closes the INVITE, unless it is discarded. -/
theorem closed_of_cdr (hin : Incoming c.transactionId s) (hcdr : (s.answer c).2.cdr ≠ none) (h : ¬s.Discards c) :
    Closed c.transactionId (s.step c) := by
  rcases answer_cases s c with ⟨irq, -, heq⟩ | ⟨hirq, ⟨leg, d, hfind, heq⟩ | ⟨-, ⟨irq, heq⟩ | heq⟩⟩
  · rw [heq] at hcdr
    exact absurd rfl hcdr
  · obtain ⟨-, -, htxn⟩ := findInviteByTransactionId_eq_some hfind
    obtain ⟨hinvite, -⟩ := (hin.enter hirq).invite leg d hfind
    obtain ⟨d', hfound, hkin, hstatus, -⟩ := @found_answerInvite (s.enter c) c leg d _ hinvite hfind
    rw [heq] at hcdr
    cases hupdate : updateOf d c with
    | some u =>
      rw [answerInvite_of_update hupdate] at hcdr
      exact absurd rfl hcdr
    | none =>
      rw [answerInvite, hupdate] at hcdr
      obtain ⟨hok, hcode⟩ := cdr_cases hcdr
      obtain ⟨haccepts, -⟩ := sound_attempt hirq hfind hupdate h hok
      have hresponse := (error_eq_none.mp hok).2
      refine ⟨leg, d', ?_, (hstatus hupdate haccepts).symm ▸ hcode, ?_⟩
      · refine findInvite_collect.trans ?_
        rw [heq]
        exact hfound
      · unfold lastResponse
        show (if outgoing d' = true then none else (s.answer c).1.responses d'.transactionId).isSome = true
        have hout := haccepts.2.2.1
        rw [hkin.outgoing, hkin.transactionId, hout, if_neg Bool.false_ne_true, heq, answerInvite, hupdate]
        dsimp only
        rw [hout, if_neg Bool.false_ne_true, Function.update_self]
        exact hresponse
  · rw [heq] at hcdr
    exact absurd rfl hcdr
  · rw [heq] at hcdr
    exact absurd rfl hcdr

/-! ### All the responses to an INVITE -/

/-- A call is recorded once at most when no response is discarded, and not at all once the INVITE is closed. -/
theorem countP_cdr (hin : Incoming t s) (hcs : ∀ c ∈ cs, c.transactionId = t)
    (h : Meets step (fun s c => ¬s.Discards c) s cs) :
    (s.outcomes cs).countP (·.cdr.isSome) ≤ 1 ∧ (Closed t s → (s.outcomes cs).countP (·.cdr.isSome) = 0) := by
  induction cs generalizing s with
  | nil => exact ⟨Nat.zero_le _, fun _ => rfl⟩
  | cons c cs ih =>
    obtain rfl := hcs c List.mem_cons_self
    obtain ⟨ihone, ihzero⟩ := ih hin.step (fun c hc => hcs c (List.mem_cons_of_mem _ hc)) h.2
    unfold outcomes
    rw [List.countP_cons]
    refine ⟨?_, fun hclosed => ?_⟩
    · by_cases hcdr : (s.answer c).2.cdr = none
      · simpa [hcdr] using ihone
      · have hzero := ihzero (closed_of_cdr hin hcdr h.1)
        rw [hzero]
        split <;> omega
    · rw [ihzero (hclosed.step hin), hclosed.quiet h.1]
      rfl

theorem countP_le {os : List Outcome} {cdr : Cdr} : os.countP (fun o => o.cdr == some cdr) ≤ os.countP (·.cdr.isSome) := by
  refine List.countP_mono_left fun o _ ho => ?_
  rw [eq_of_beq ho]
  rfl

/-- OK means sent and calls are recorded once, for any responses to an INVITE, if and only if none of them is
    discarded after something was sent. -/
theorem honest_iff (hin : Incoming t s) (hcs : ∀ c ∈ cs, c.transactionId = t) :
    Honest (s.outcomes cs) ↔ Meets step (fun s c => ¬s.Discards c) s cs := by
  constructor
  · intro h
    have hsent := h.sent
    clear h hin hcs
    induction cs generalizing s with
    | nil => trivial
    | cons c cs ih =>
      refine ⟨fun hdiscards => ?_, ih fun o ho => hsent o (List.mem_cons_of_mem _ ho)⟩
      obtain ⟨hok, hnone⟩ := outcome_of_discards hdiscards
      have hsome := hsent _ List.mem_cons_self hok
      rw [hnone] at hsome
      cases hsome
  · intro h
    have hcount := (countP_cdr hin hcs h).1
    refine ⟨?_, countP_le.trans hcount, countP_le.trans hcount⟩
    clear hcount hin hcs
    induction cs generalizing s with
    | nil => exact fun o ho => absurd ho List.not_mem_nil
    | cons c cs ih =>
      intro o ho hok
      rcases List.mem_cons.mp ho with rfl | ho
      · exact sent_of_ok h.1 hok
      · exact ih h.2 o ho hok

/-- An INVITE has come in, and nobody has answered it yet. -/
def offered : Answering where
  registries := Registries.empty.step (.processMessageStatelessly (arrivalOf (inviteSip 1) false 7 1 "t1"))
  recorded := fun _ => .new
  responses := fun _ => none

/-- A response without headers or a body, over a connection that is there -/
def plainEnv (treply : Treply) : AnswerEnv where
  leg := 4
  fromTag := "tag"
  tportShutdown := false
  createFails := false
  found := none
  transportGone := false
  transportFound := true
  contactUri := "sip:192.0.2.1"
  bestEffortTls := false
  sessionExpires := none
  supportsTimer := false
  cachesTport := false
  makeSessionExpires := fun _ => ⟨90, none⟩
  defaultRefresher := "uac"
  rel := none
  treply := treply

def plainCall (code : Nat) (treply : Treply) : Call := ⟨"t1", ⟨code, [], "", false, none⟩, plainEnv treply⟩

theorem incoming_offered : Incoming "t1" offered where
  apart := fun h => absurd h (by decide)
  pending := by
    intro p hp
    have hrequest : (offered.registries.pending.txnId2Invite.lookup "t1").map (·.sip.request) =
      some (some .invite) := by decide
    rw [hp] at hrequest
    exact Option.some.inj hrequest
  invite := by
    intro leg d hd
    have hnone : (offered.registries.findInviteByTransactionId "t1").isSome = false := by decide
    rw [hd] at hnone
    cases hnone

/-- Ringing, and then answered -/
theorem answered_honest : Honest (offered.outcomes [plainCall 180 .sent, plainCall 200 .sent]) :=
  (honest_iff incoming_offered (by decide)).mpr (by decide)

/-- Answered twice: the second 200 goes nowhere, and is reported and recorded like the first. -/
theorem answered_twice : ¬ ∀ (t : String) (s : Answering) (cs : List Call), Incoming t s → (∀ c ∈ cs, c.transactionId = t) →
    Honest (s.outcomes cs) := by
  intro h
  have hhonest := h "t1" offered [plainCall 200 .sent, plainCall 200 .sent] incoming_offered (by decide)
  have hstarts :
      (offered.outcomes [plainCall 200 .sent, plainCall 200 .sent]).countP (fun o => o.cdr == some .start) = 2 := by decide
  exact absurd hhonest.starts (by rw [hstarts]; decide)

end Drachtio.Dialog.Answering
