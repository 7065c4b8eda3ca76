import Drachtio.Theorems.Dialog.Ids

/-! What the handlers leave alone in the tables of transactions: the net transactions and incoming requests but for
    some ids, the invites in progress but for those of some transactions, and the pending requests. -/

namespace Drachtio.Dialog.Registries

open Proxy (Method)
open Client (ClientId)

variable {s s' s'' : Registries} {leg : Leg} {d : SipDialog} {g : SipDialog → SipDialog} {t u id : String}
  {X Y : String → Prop}

/-- The transaction that an invite in progress is for, with its orq if we sent it. -/
def shownTransaction (d : SipDialog) : Option (String × Option Orq) := d.invite.map fun i => (d.transactionId, i.orq)

/-- Only the ids of `X` may change among the net transactions and incoming requests, and only those of `Y` among the
    invites in progress. -/
structure Frame (X Y : String → Prop) (s s' : Registries) : Prop where
  gone : s'.gone = s.gone
  pending : s'.pending = s.pending
  net : ∀ t, ¬X t → s'.netTransactions.lookup t = s.netTransactions.lookup t
  irqs : ∀ t, ¬X t → s'.irqs.lookup t = s.irqs.lookup t
  invites : ∀ l t o, ¬Y t → (obs shownTransaction s' l = some (t, o) ↔ obs shownTransaction s l = some (t, o))

namespace Frame

theorem refl : Frame X Y s s := ⟨rfl, rfl, fun _ _ => rfl, fun _ _ => rfl, fun _ _ _ _ => Iff.rfl⟩

theorem trans (h : Frame X Y s s') (h' : Frame X Y s' s'') : Frame X Y s s'' := by
  refine ⟨h'.gone.trans h.gone, h'.pending.trans h.pending, fun t ht => ?_, fun t ht => ?_, fun l t o ht => ?_⟩
  · exact (h'.net t ht).trans (h.net t ht)
  · exact (h'.irqs t ht).trans (h.irqs t ht)
  · exact (h'.invites l t o ht).trans (h.invites l t o ht)

/-- Nothing changes in the tables of transactions. -/
theorem of_eq (hgone : s'.gone = s.gone) (hpending : s'.pending = s.pending) (hnet : s'.netTransactions = s.netTransactions)
    (hirqs : s'.irqs = s.irqs) (hlegs : s'.legs = s.legs) : Frame X Y s s' := by
  refine ⟨hgone, hpending, fun t _ => ?_, fun t _ => ?_, fun l t o _ => ?_⟩
  · rw [hnet]
  · rw [hirqs]
  · rw [obs_congr hlegs]

theorem of_routed (h : Routed s s') (hnet : s'.netTransactions = s.netTransactions) : Frame X Y s s' :=
  of_eq h.gone h.pending hnet h.irqs h.legs

/-! ### Elementary changes -/

theorem modify (h : ∀ d, shownTransaction (g d) = shownTransaction d) : Frame X Y s (s.modify leg g) := by
  refine ⟨by rw [modify_eq], by rw [modify_eq], fun t _ => by rw [modify_eq], fun t _ => by rw [modify_eq], fun l t o _ => ?_⟩
  rw [obs_modify_of_eq h]

theorem clearInvite (hY : ∀ d, s.legs.lookup leg = some d → Y d.transactionId) : Frame X Y s (s.clearInvite leg) := by
  have hnone : obs shownTransaction (s.clearInvite leg) = Function.update (obs shownTransaction s) leg none :=
    obs_modify_none fun _ => rfl
  refine ⟨by rw [Registries.clearInvite, modify_eq], by rw [Registries.clearInvite, modify_eq],
    fun t _ => by rw [Registries.clearInvite, modify_eq], fun t _ => by rw [Registries.clearInvite, modify_eq],
    fun l t o ht => ?_⟩
  rw [hnone]
  by_cases hl : l = leg
  · subst hl
    rw [Function.update_self]
    refine iff_of_false (by simp) fun hshown => ht ?_
    obtain ⟨d, hd, hd'⟩ := obs_eq_some.mp hshown
    obtain ⟨i, -, hpair⟩ := Option.map_eq_some_iff.mp hd'
    cases hpair
    exact hY d hd
  · rw [Function.update_of_ne hl]

theorem removeNetTransaction (hX : X t) : Frame X Y s (s.removeNetTransaction t) :=
  ⟨rfl, rfl, fun _ ht => AList.lookup_erase_ne fun he => ht (he ▸ hX), fun _ _ => rfl, fun _ _ _ _ => Iff.rfl⟩

theorem addNetTransaction {client : ClientId} (hX : X t) : Frame X Y s (s.addNetTransaction client t) :=
  ⟨rfl, rfl, fun _ ht => AList.lookup_insertNew_ne fun he => ht (he ▸ hX), fun _ _ => rfl, fun _ _ _ _ => Iff.rfl⟩

theorem removeIrq (hX : X t) : Frame X Y s (s.removeIrq t) :=
  ⟨rfl, rfl, fun _ _ => rfl, fun _ ht => AList.lookup_erase_ne fun he => ht (he ▸ hX), fun _ _ _ _ => Iff.rfl⟩

theorem addIncomingRequestTransaction {irq : Irq} (hX : X t) : Frame X Y s (s.addIncomingRequestTransaction t irq) :=
  ⟨rfl, rfl, fun _ _ => rfl, fun _ ht => AList.lookup_insertNew_ne fun he => ht (he ▸ hX), fun _ _ _ _ => Iff.rfl⟩

theorem clearStable : Frame X Y s (s.clearStable leg) := modify fun _ => rfl

theorem clearSipTimers : Frame X Y s (s.clearSipTimers leg) := modify fun _ => rfl

theorem insertStable : Frame X Y s (s.insertStable leg) := by
  rcases insertStable_cases leg s with h | h
  · rw [h]
    exact refl
  · rw [h]
    exact modify fun _ => rfl

theorem clearStableById : Frame X Y s (s.clearStableById id) := by
  rcases clearStableById_cases id s with ⟨h, -⟩ | ⟨l, -, -, h⟩
  · rw [h]
    exact refl
  · rw [h]
    exact clearStable

theorem addDialogForTransaction : Frame X Y s (s.addDialogForTransaction t id) := by
  refine of_eq ?_ ?_ ?_ ?_ ?_ <;> rw [addDialogForTransaction_eq]

theorem addDialog : Frame X Y s (s.addDialog leg d) := insertStable.trans addDialogForTransaction

/-! ### Routing -/

theorem routeAckRequestInsideDialog (hX : X t) : Frame X Y s (s.routeAckRequestInsideDialog u t id) := by
  unfold Registries.routeAckRequestInsideDialog
  split
  · rename_i c _
    have hsend : Frame X Y s (s.send c u id) := of_eq rfl rfl rfl rfl rfl
    exact hsend.trans (removeNetTransaction hX)
  · exact refl

theorem routeRequestInsideInvite : Frame X Y s (s.routeRequestInsideInvite t id) := by
  unfold Registries.routeRequestInsideInvite
  split
  · exact of_eq rfl rfl rfl rfl rfl
  · exact refl

theorem routeRequestInsideDialog {r : Request} (hX : X r.transactionId) :
    Frame X Y s (s.routeRequestInsideDialog r id).1 := by
  have hdialog : ∀ s' : Registries, Frame X Y s' (s'.removeDialog id) := fun _ => of_eq rfl rfl rfl rfl rfl
  unfold Registries.routeRequestInsideDialog
  cases s.clientForRequest r id with
  | none =>
    dsimp only
    split
    · exact hdialog s
    · exact refl
  | some c =>
    have hsent : Frame X Y s ((s.addNetTransaction c r.transactionId).send c r.transactionId id) :=
      Frame.trans (addNetTransaction hX) (of_eq rfl rfl rfl rfl rfl)
    dsimp only
    split
    · exact hsent.trans (hdialog _)
    · exact hsent

theorem routeUnsolicitedBye : Frame X Y s (s.routeUnsolicitedBye id) := by
  refine of_routed routed_routeUnsolicitedBye ?_
  unfold Registries.routeUnsolicitedBye
  cases s.findClientForDialog id <;> rfl

theorem routeResponseInsideTransaction {m : Method} {status : Nat} :
    Frame X Y s (s.routeResponseInsideTransaction t id m status) := by
  refine of_routed routed_routeResponseInsideTransaction ?_
  unfold Registries.routeResponseInsideTransaction
  cases s.findClientForAppTransaction t with
  | none => rfl
  | some c =>
    dsimp only
    split <;> split <;> rfl

theorem notifyTerminateStaleDialog : Frame X Y s (s.notifyTerminateStaleDialog leg d) := routeUnsolicitedBye.trans clearStable

theorem clearReinvite (hY : Y d.transactionId) : Frame X Y s (s.clearReinvite d) := by
  unfold Registries.clearReinvite
  split
  · exact refl
  · rename_i l e hfound
    obtain ⟨he, -, htxn⟩ := findInviteByTransactionId_eq_some hfound
    have hclear : Frame X Y s (s.clearInvite l) := clearInvite fun e' he' => by
      cases he.symm.trans he'
      exact htxn ▸ hY
    refine hclear.trans ?_
    dsimp only
    split
    · exact refl
    · split
      · exact of_eq rfl rfl rfl rfl rfl
      · exact refl

theorem endDialog {r : Request} {routed : Bool} (hX : X r.transactionId) (hY : Y d.transactionId) :
    Frame X Y s (s.endDialog leg d r routed) := by
  unfold Registries.endDialog
  have hclear : Frame X Y s ((s.clearSipTimers leg).clearStable leg) := clearSipTimers.trans clearStable
  refine hclear.trans ?_
  dsimp only
  generalize (s.clearSipTimers leg).clearStable leg = s1
  have htimer : Frame X Y s1 { s1 with byeTimers := r.transactionId :: s1.byeTimers } := of_eq rfl rfl rfl rfl rfl
  split
  · exact Frame.trans (removeIrq hX) (clearReinvite hY)
  · split
    · exact htimer.trans (clearReinvite hY)
    · exact clearReinvite hY

theorem admitRequest {r : Request} {routed : Bool} (hX : X r.transactionId) (hY : r.ends d = true → Y d.transactionId) :
    Frame X Y s (s.admitRequest leg d r routed) := by
  unfold Registries.admitRequest
  dsimp only
  split
  · rename_i hends
    exact Frame.trans (addIncomingRequestTransaction hX) (endDialog hX (hY hends))
  · exact addIncomingRequestTransaction hX

/-! ### Handlers -/

theorem responseToInvite {resp : Response} (hY : ∀ d, s.legs.lookup leg = some d → Y d.transactionId) :
    Frame X Y s (s.responseToInvite leg d resp) := by
  unfold Registries.responseToInvite
  dsimp only
  have hstatus : Frame X Y s (s.modify leg fun d => { d with status := resp.status }) := modify fun _ => rfl
  have hY1 : ∀ d, (s.modify leg fun d => { d with status := resp.status }).legs.lookup leg = some d → Y d.transactionId := by
    intro e he
    rw [lookup_modify_self] at he
    obtain ⟨e', he', rfl⟩ := Option.map_eq_some_iff.mp he
    exact hY e' he'
  refine hstatus.trans ?_
  generalize (s.modify leg fun d => { d with status := resp.status }) = s1 at hY1
  obtain ⟨s2, hs2, hf2, hY2⟩ : ∃ s2, (if Establishes resp then
      (s1.modify leg fun d => { d with ackBye := d.ackBye || d.invite.any (·.canceled) }).addDialog leg d else s1) = s2 ∧
      Frame X Y s1 s2 ∧ ∀ d, s2.legs.lookup leg = some d → Y d.transactionId := by
    by_cases hest : Establishes resp
    · have hack : Frame X Y s1 (s1.modify leg fun d => { d with ackBye := d.ackBye || d.invite.any (·.canceled) }) :=
        modify fun _ => rfl
      refine ⟨_, if_pos hest, hack.trans addDialog, fun e he => ?_⟩
      have hgrows : Grows (fun _ => False) (fun _ => False) s1
          (s1.modify leg fun d => { d with ackBye := d.ackBye || d.invite.any (·.canceled) }) := Grows.modify fun _ => rfl
      obtain ⟨e', he', heq⟩ := (hgrows.trans Grows.addDialog).legs leg e he
      exact heq ▸ hY1 e' he'
    · exact ⟨s1, if_neg hest, refl, hY1⟩
  rw [hs2]
  refine hf2.trans ?_
  obtain ⟨s3, hs3, hf3⟩ : ∃ s3, (if 200 < resp.status then s2.clearInvite leg else s2) = s3 ∧ Frame X Y s2 s3 := by
    by_cases hlate : 200 < resp.status
    · exact ⟨_, if_pos hlate, clearInvite hY2⟩
    · exact ⟨s2, if_neg hlate, refl⟩
  rw [hs3]
  refine hf3.trans ?_
  split
  · exact routeResponseInsideTransaction.trans (of_eq rfl rfl rfl rfl rfl)
  · exact routeResponseInsideTransaction

theorem processResponseInsideDialog {orq : Orq} {resp : Response} : Frame X Y s (s.processResponseInsideDialog orq resp) := by
  unfold Registries.processResponseInsideDialog
  split
  · exact refl
  · rename_i rip _
    have hroute : Frame X Y s (s.routeResponseInsideTransaction rip.transactionId rip.dialogId resp.method resp.status) :=
      routeResponseInsideTransaction
    refine hroute.trans ?_
    dsimp only
    split
    · exact clearStableById.trans (of_eq rfl rfl rfl rfl rfl)
    · exact of_eq rfl rfl rfl rfl rfl

theorem processResponseToRefreshingReinvite {orq : Orq} {status : Option Nat} :
    Frame X Y s (s.processResponseToRefreshingReinvite orq status) := by
  unfold Registries.processResponseToRefreshingReinvite
  have hclear : ∀ s' : Registries, Frame X Y s' (s'.clearRIP orq) := fun _ => of_eq rfl rfl rfl rfl rfl
  split
  · exact refl
  · split
    · exact refl
    · split
      · exact hclear s
      · split
        · exact hclear s
        · exact notifyTerminateStaleDialog.trans (hclear _)

theorem doSessionTimerHandling {refresh : Option (String × Option Orq)} :
    Frame X Y s (s.doSessionTimerHandling leg refresh) := by
  unfold Registries.doSessionTimerHandling
  split
  · exact refl
  · split
    · exact notifyTerminateStaleDialog
    · unfold notifyRefreshDialog
      split
      · exact notifyTerminateStaleDialog
      · exact of_eq rfl rfl rfl rfl rfl

end Frame

end Drachtio.Dialog.Registries
