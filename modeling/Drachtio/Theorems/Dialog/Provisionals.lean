import Drachtio.Theorems.Dialog.Outcomes

/-! Provisional responses in a dialog: whether a transaction outlives them. Outside a dialog the status is looked at
    before the request in progress goes; inside one it is not, and neither is the code of an application's response. -/

namespace Drachtio.Dialog

open Machine Registries

/-- A transaction in a dialog, with the provisional responses to it and the final one: those that come in for a request of
    an application, or the calls by which an application answers a request from the network. -/
inductive Exchange where
  | sent (orq : Orq) (rip : RequestInProgress) (provisional : List Response) (final : Response)
  | received (transactionId : String) (irq : Irq) (provisional : List Call) (final : Call)

namespace Exchange

/-- The responses that come in for a request -/
def receive (orq : Orq) (s : Registries) (resps : List Response) : Registries :=
  run (fun s resp => s.step (.processResponseInsideDialog orq resp)) s resps

/-- The call is for the request: it has the transaction id of it, or it is for an UPDATE under that of the INVITE. -/
def Addresses (s : Answering) (transactionId : String) (c : Call) : Prop :=
  c.transactionId = transactionId ∨ s.registries.irqs.lookup c.transactionId = none ∧
    ∃ leg d, s.registries.findInviteByTransactionId c.transactionId = some (leg, d) ∧
    Answering.updateOf d c = some transactionId

/-- The stack can send the response, and does. -/
def Sendable (c : Call) : Prop := c.env.transportGone = false ∧ c.env.transportFound = true ∧ c.env.treply = .sent

/-- The transaction is there, and the responses are what they are said to be. -/
def Ready (s : Answering) : Exchange → Prop
  | sent orq rip provisional final =>
    s.registries.rips.lookup orq = some rip ∧ (∀ resp ∈ provisional, resp.status < 200) ∧ 200 ≤ final.status
  | received t irq provisional final =>
    s.registries.irqs.lookup t = some irq ∧ (∀ c ∈ provisional, c.answer.code < 200 ∧ Addresses s t c) ∧
      200 ≤ final.answer.code ∧ Addresses s t final

/-- The transaction and its dialog outlive the provisional responses: each response gets to the application, and the final
    response of an application is sent. -/
def Kept (s : Answering) : Exchange → Prop
  | sent orq rip provisional final =>
    (∀ before, before <+: provisional →
      (receive orq s.registries before).rips.lookup orq = some rip ∧
      (receive orq s.registries before).findDialogById rip.dialogId = s.registries.findDialogById rip.dialogId ∧
      (receive orq s.registries before).dialogs.lookup rip.dialogId = s.registries.dialogs.lookup rip.dialogId) ∧
    ∀ client, s.registries.findClientForAppTransaction rip.transactionId = some client →
      (receive orq s.registries (provisional ++ [final])).log =
        s.registries.log ++ List.replicate (provisional.length + 1) ⟨client, rip.transactionId, rip.dialogId⟩
  | received t irq provisional final =>
    (∀ before, before <+: provisional → (run Answering.step s before).registries.irqs.lookup t = some irq) ∧
    (∀ o ∈ s.outcomes provisional, o.destroyed = false) ∧
    ((run Answering.step s provisional).answer final).2.transaction = some t ∧
    (Sendable final → ((run Answering.step s provisional).answer final).2.sent.map (·.code) = some final.answer.code)

/-- The number of provisional responses -/
def provisionals : Exchange → Nat
  | sent _ _ provisional _ => provisional.length
  | received _ _ provisional _ => provisional.length

variable {s : Answering} {r : Registries} {orq : Orq} {rip : RequestInProgress} {t : String} {irq : Irq} {c : Call}
  {resp : Response}

/-! ### Requests of an application -/

theorem rips_collect : r.collect.rips = r.rips := by
  refine collect_induction (P := fun s' => s'.rips = r.rips) rfl fun s' leg d h _ _ _ _ => ?_
  rw [destroy_eq]
  exact h

/-- A response, of any status, takes the request in progress away. -/
theorem rips_receive (orq : Orq) (r : Registries) (resp : Response) :
    (r.step (.processResponseInsideDialog orq resp)).rips.lookup orq = none := by
  unfold Registries.step
  rw [rips_collect, handle, processResponseInsideDialog]
  cases hrip : r.rips.lookup orq with
  | none => exact hrip
  | some rip => exact AList.lookup_erase ..

/-- A response gets to the client that has the transaction. -/
theorem log_receive {client : Client.ClientId} (hrip : r.rips.lookup orq = some rip)
    (hclient : r.findClientForAppTransaction rip.transactionId = some client) :
    (r.step (.processResponseInsideDialog orq resp)).log = r.log ++ [⟨client, rip.transactionId, rip.dialogId⟩] := by
  unfold Registries.step
  rw [log_collect, handle, processResponseInsideDialog, hrip]
  dsimp only
  have hroute : (r.routeResponseInsideTransaction rip.transactionId rip.dialogId resp.method resp.status).log =
      r.log ++ [⟨client, rip.transactionId, rip.dialogId⟩] := by
    unfold routeResponseInsideTransaction
    rw [hclient]
    dsimp only
    split <;> split <;> rfl
  rw [← hroute]
  generalize r.routeResponseInsideTransaction rip.transactionId rip.dialogId resp.method resp.status = r'
  split
  · rcases clearStableById_cases rip.dialogId r' with ⟨heq, -⟩ | ⟨leg, d, -, heq⟩
    · rw [heq]
      rfl
    · rw [heq, clearStable, modify_eq]
      rfl
  · rfl

/-! ### Requests from the network -/

/-- A call for the request, of any code, destroys the irq. -/
theorem destroyed_answer (hirq : s.registries.irqs.lookup t = some irq) (h : Addresses s t c) :
    (s.answer c).2.destroyed = true ∧ (s.answer c).2.transaction = some t := by
  rcases h with rfl | ⟨hnone, leg, d, hfind, hupdate⟩
  · rw [Answering.answer_of_irq hirq]
    exact ⟨rfl, rfl⟩
  · have henter := Answering.enter_of_invite hfind
    rw [Answering.answer_of_invite hnone (henter.symm ▸ hfind), Answering.answerInvite_of_update hupdate]
    exact ⟨rfl, rfl⟩

theorem sent_answer (hirq : s.registries.irqs.lookup t = some irq) (h : Addresses s t c) (hsendable : Sendable c) :
    (s.answer c).2.sent.map (·.code) = some c.answer.code := by
  obtain ⟨hgone, hfound, hsent⟩ := hsendable
  rcases h with rfl | ⟨hnone, leg, d, hfind, hupdate⟩
  · rw [Answering.answer_of_irq hirq]
    unfold Answering.answerIrq Attempt.onIrq
    rw [hgone, hfound, hsent]
    rfl
  · have henter := Answering.enter_of_invite hfind
    rw [Answering.answer_of_invite hnone (henter.symm ▸ hfind), Answering.answerInvite_of_update hupdate]
    unfold Answering.answerUpdate Attempt.onUpdate
    rw [hgone, hsent]
    rfl

/-! ### Both -/

/-- A transaction in a dialog outlives the provisional responses to it if and only if there are none. -/
theorem kept_iff {x : Exchange} (h : x.Ready s) : x.Kept s ↔ x.provisionals = 0 := by
  cases x with
  | sent orq rip provisional final =>
    obtain ⟨hrip, -, -⟩ := h
    refine ⟨fun ⟨hheld, _⟩ => ?_, fun hnone => ?_⟩
    · cases provisional with
      | nil => rfl
      | cons resp resps =>
        obtain ⟨hkept, -, -⟩ := hheld [resp] ⟨resps, rfl⟩
        have hgone := rips_receive orq s.registries resp
        exact nomatch hgone.symm.trans hkept
    · obtain rfl := List.length_eq_zero_iff.mp hnone
      refine ⟨fun before hbefore => ?_, fun client hclient => log_receive hrip hclient⟩
      obtain rfl := List.prefix_nil.mp hbefore
      exact ⟨hrip, rfl, rfl⟩
  | received t irq provisional final =>
    obtain ⟨hirq, haddresses, -, hfinal⟩ := h
    refine ⟨fun ⟨_, halive, _⟩ => ?_, fun hnone => ?_⟩
    · cases provisional with
      | nil => rfl
      | cons c cs =>
        have hdestroyed := (destroyed_answer hirq (haddresses c List.mem_cons_self).2).1
        exact nomatch hdestroyed.symm.trans (halive _ List.mem_cons_self)
    · obtain rfl := List.length_eq_zero_iff.mp hnone
      refine ⟨fun before hbefore => ?_, fun o ho => absurd ho List.not_mem_nil, (destroyed_answer hirq hfinal).2,
        sent_answer hirq hfinal⟩
      obtain rfl := List.prefix_nil.mp hbefore
      exact hirq

/-- An INFO has come in for a call that was answered. -/
def informed : Answering where
  registries := run Registries.step Registries.empty ((answeredCall 200).take 4)
  recorded := fun _ => .new
  responses := fun _ => none

def infoCall (code : Nat) : Call := { Answering.plainCall code .sent with transactionId := "t5" }

/-- It is answered at once. -/
theorem answered_kept : ∃ irq, (received "t5" irq [] (infoCall 200)).Kept informed := by
  have hirq : (informed.registries.irqs.lookup "t5").isSome = true := by decide
  obtain ⟨irq, hirq⟩ := Option.isSome_iff_exists.mp hirq
  have hready : (received "t5" irq [] (infoCall 200)).Ready informed :=
    ⟨hirq, fun c hc => absurd hc List.not_mem_nil, Nat.le_refl 200, .inl rfl⟩
  exact ⟨irq, (kept_iff hready).mpr rfl⟩

/-- It is answered with a 183 first, after which the 200 is not sent. -/
theorem provisional_ends : ¬ ∀ (s : Answering) (x : Exchange), x.Ready s → x.Kept s := by
  intro h
  have hirq : (informed.registries.irqs.lookup "t5").isSome = true := by decide
  obtain ⟨irq, hirq⟩ := Option.isSome_iff_exists.mp hirq
  have hready : (received "t5" irq [infoCall 183] (infoCall 200)).Ready informed := by
    refine ⟨hirq, fun c hc => ?_, Nat.le_refl 200, .inl rfl⟩
    rw [List.mem_singleton.mp hc]
    exact ⟨by decide, .inl rfl⟩
  obtain ⟨-, -, htransaction, -⟩ := h informed _ hready
  have hunknown : ((run Answering.step informed [infoCall 183]).answer (infoCall 200)).2.transaction = none := by decide
  exact nomatch hunknown.symm.trans htransaction

end Exchange

end Drachtio.Dialog
