import Drachtio.Lib.Run
import Drachtio.Theorems.Dialog.View

/-! The ids of transactions: a dialog object, a pending request and an incoming request never have the same one, as
    long as new ids are new (`generateUuid`). -/

namespace Drachtio.Dialog.Registries

open Proxy (Method)
open Client (ClientId)
open Pending (PendingRequests PendingRequest Arrival)

variable {s s' s'' : Registries} {leg : Leg} {d : SipDialog} {g : SipDialog → SipDialog} {t u : String} {U W : String → Prop}

structure Distinct (s : Registries) : Prop where
  once : ∀ l l' d d', s.legs.lookup l = some d → s.legs.lookup l' = some d' → d.transactionId = d'.transactionId → l = l'
  irqs : ∀ l d, s.legs.lookup l = some d → d.transactionId ∉ s.irqs
  pending : ∀ l d, s.legs.lookup l = some d → d.transactionId ∉ s.pending.txnId2Invite
  apart : ∀ t, t ∈ s.pending.txnId2Invite → t ∉ s.irqs

/-- No object, pending request or incoming request has the id. -/
def Unused (t : String) (s : Registries) : Prop :=
  t ∉ s.irqs ∧ t ∉ s.pending.txnId2Invite ∧ ∀ e ∈ s.legs.entries, e.2.transactionId ≠ t

instance (t : String) (s : Registries) : Decidable (s.Unused t) := inferInstanceAs (Decidable (_ ∧ _ ∧ _))

theorem Unused.legs (h : s.Unused t) (hd : s.legs.lookup leg = some d) : d.transactionId ≠ t := h.2.2 _ (mem_entries.mpr hd)

/-- What the stack and the uuids give: ids are new when they are made, so is the leg of a new object, and a PRACK
    is a PRACK. -/
def Fresh (s : Registries) : Op → Prop
  | .processMessageStatelessly a => s.Unused a.uuid
  | .processRequestInsideDialog _ r => s.Unused r.transactionId ∧ s.Unused r.arrival.uuid ∧ r.transactionId ≠ r.arrival.uuid
  | .processPrack _ r => s.Unused r.transactionId ∧ r.method = .prack
  | .doRespondToSipRequest _ _ env => env.leg ∉ s.legs
  | .doSendRequestOutsideDialog _ t _ env => s.Unused t ∧ env.leg ∉ s.legs
  | _ => True

instance instDecidableFresh : ∀ op, Decidable (s.Fresh op)
  | .processMessageStatelessly _ => inferInstanceAs (Decidable (Unused _ _))
  | .processRequestInsideDialog _ _ => inferInstanceAs (Decidable (Unused _ _ ∧ Unused _ _ ∧ _ ≠ _))
  | .processPrack _ _ => inferInstanceAs (Decidable (Unused _ _ ∧ _ = _))
  | .doRespondToSipRequest _ _ _ => inferInstanceAs (Decidable (_ ∉ _))
  | .doSendRequestOutsideDialog _ _ _ _ => inferInstanceAs (Decidable (Unused _ _ ∧ _ ∉ _))
  | .cancelPending _ | .routeNewRequestToClient _ _ | .timeout _ | .proxyRequest _ | .doProxy _
  | .doSendRequestInsideDialog _ _ _ _ _
  | .doSendCancelRequest _ | .processCancelOrAck _ _ | .processResponseOutsideDialog _ _ | .processResponseInsideDialog _ _
  | .processResponseToRefreshingReinvite _ _ | .doSessionTimerHandling _ _ | .notifyCancelTimeoutReachedIIP _
  | .endRetransmitFinalResponse _ _ | .retransmitFinalResponse _ | .timeoutBye _ | .disconnect _ => isTrue trivial

/-! ### Handlers that make no object -/

/-- From one state to another no object is made, and no pending or incoming request but with the given ids. -/
structure Grows (U W : String → Prop) (s s' : Registries) : Prop where
  irqs : ∀ t, t ∈ s'.irqs → t ∈ s.irqs ∨ U t
  pending : ∀ t, t ∈ s'.pending.txnId2Invite → t ∈ s.pending.txnId2Invite ∨ W t
  legs : ∀ l d', s'.legs.lookup l = some d' → ∃ d, s.legs.lookup l = some d ∧ d.transactionId = d'.transactionId

namespace Grows

theorem refl : Grows U W s s := ⟨fun _ => .inl, fun _ => .inl, fun _ d h => ⟨d, h, rfl⟩⟩

theorem trans (h : Grows U W s s') (h' : Grows U W s' s'') : Grows U W s s'' := by
  refine ⟨fun t ht => ?_, fun t ht => ?_, fun l d'' hd'' => ?_⟩
  · exact (h'.irqs t ht).elim (h.irqs t) .inr
  · exact (h'.pending t ht).elim (h.pending t) .inr
  · obtain ⟨d', hd', heq'⟩ := h'.legs l d'' hd''
    obtain ⟨d, hd, heq⟩ := h.legs l d' hd'
    exact ⟨d, hd, heq.trans heq'⟩

/-- Nothing of what matters changes. -/
theorem of_eq (hirqs : s'.irqs = s.irqs) (hpending : s'.pending = s.pending) (hlegs : s'.legs = s.legs) : Grows U W s s' := by
  refine ⟨fun t ht => ?_, fun t ht => ?_, fun l d hd => ?_⟩
  · exact .inl (hirqs ▸ ht)
  · exact .inl (hpending ▸ ht)
  · exact ⟨d, hlegs ▸ hd, rfl⟩

theorem modify (h : ∀ d, (g d).transactionId = d.transactionId) : Grows U W s (s.modify leg g) := by
  have hirqs : (s.modify leg g).irqs = s.irqs := by rw [modify_eq]
  have hpending : (s.modify leg g).pending = s.pending := by rw [modify_eq]
  refine ⟨fun t ht => .inl (hirqs ▸ ht), fun t ht => .inl (hpending ▸ ht), fun l d' hd' => ?_⟩
  rw [lookup_modify] at hd'
  split at hd'
  · rename_i hl
    obtain ⟨d, hd, rfl⟩ := Option.map_eq_some_iff.mp hd'
    exact ⟨d, hl ▸ hd, (h d).symm⟩
  · exact ⟨d', hd', rfl⟩

theorem removeNetTransaction : Grows U W s (s.removeNetTransaction t) := of_eq rfl rfl rfl

theorem clearRIP {orq : Orq} : Grows U W s (s.clearRIP orq) := of_eq rfl rfl rfl

theorem addRIP {orq : Orq} {rip : RequestInProgress} : Grows U W s (s.addRIP orq rip) := of_eq rfl rfl rfl

theorem clearInvite : Grows U W s (s.clearInvite leg) := modify fun _ => rfl

theorem clearStable : Grows U W s (s.clearStable leg) := modify fun _ => rfl

theorem clearSipTimers : Grows U W s (s.clearSipTimers leg) := modify fun _ => rfl

theorem insertInvite {i : InviteInProgress} : Grows U W s (s.insertInvite leg i) := by
  rcases insertInvite_cases leg i s with h | h
  · rw [h]
    exact refl
  · rw [h]
    exact modify fun _ => rfl

theorem insertStable : Grows U W s (s.insertStable leg) := by
  rcases insertStable_cases leg s with h | h
  · rw [h]
    exact refl
  · rw [h]
    exact modify fun _ => rfl

theorem clearStableById {id : String} : Grows U W s (s.clearStableById id) := by
  rcases clearStableById_cases id s with ⟨h, -⟩ | ⟨l, -, -, h⟩
  · rw [h]
    exact refl
  · rw [h]
    exact clearStable

theorem addDialogForTransaction {id : String} : Grows U W s (s.addDialogForTransaction t id) := by
  have hirqs : (s.addDialogForTransaction t id).irqs = s.irqs := by rw [addDialogForTransaction_eq]
  have hpending : (s.addDialogForTransaction t id).pending = s.pending := by rw [addDialogForTransaction_eq]
  have hlegs : (s.addDialogForTransaction t id).legs = s.legs := by rw [addDialogForTransaction_eq]
  exact of_eq hirqs hpending hlegs

theorem addDialog : Grows U W s (s.addDialog leg d) := insertStable.trans addDialogForTransaction

theorem removeIrq : Grows U W s (s.removeIrq t) := by
  refine ⟨fun t' ht' => .inl ?_, fun _ => .inl, fun _ d h => ⟨d, h, rfl⟩⟩
  exact ((AList.mem_erase).mp ht').2

theorem addIncomingRequestTransaction {irq : Irq} (h : U u) : Grows U W s (s.addIncomingRequestTransaction u irq) := by
  refine ⟨fun t ht => ?_, fun _ => .inl, fun _ d h => ⟨d, h, rfl⟩⟩
  by_cases hu : u ∈ s.irqs
  · exact .inl (AList.insertNew_of_mem hu ▸ ht : t ∈ s.irqs)
  · have hins : t ∈ s.irqs.insert u irq := AList.insertNew_of_notMem hu ▸ ht
    exact ((AList.mem_insert _).mp hins).elim (fun he => .inr (he ▸ h)) .inl

end Grows

theorem Grows.clearDanglingIncomingRequests {ts : List String} : Grows U W s (s.clearDanglingIncomingRequests ts) := by
  induction ts generalizing s with
  | nil => exact refl
  | cons t ts ih =>
    have hremove : Grows U W s ((s.removeIrq t).removeNetTransaction t) := removeIrq.trans removeNetTransaction
    exact hremove.trans ih

theorem Grows.destroy : Grows U W s (s.destroy leg d) := by
  have herase : Grows U W s { s with legs := s.legs.erase leg } :=
    ⟨fun _ => .inl, fun _ => .inl, fun _ d' hd' => ⟨d', (AList.lookup_erase_eq_some.mp hd').2, rfl⟩⟩
  exact (herase.trans clearDanglingIncomingRequests).trans removeNetTransaction

theorem Grows.collect : Grows U W s s.collect :=
  collect_induction (P := Grows U W s) refl fun _ _ _ h _ _ _ _ => h.trans destroy

/-- New ids that nothing has keep the ids distinct. -/
theorem Distinct.grows (h : s.Distinct) (hg : Grows U W s s') (hU : ∀ t, U t → s.Unused t) (hW : ∀ t, W t → s.Unused t)
    (hUW : ∀ t, U t → ¬W t) : s'.Distinct := by
  refine ⟨fun l l' d d' hd hd' heq => ?_, fun l d hd hmem => ?_, fun l d hd hmem => ?_, fun t ht hmem => ?_⟩
  · obtain ⟨e, he, hee⟩ := hg.legs l d hd
    obtain ⟨e', he', hee'⟩ := hg.legs l' d' hd'
    exact h.once l l' e e' he he' (by rw [hee, hee', heq])
  · obtain ⟨e, he, hee⟩ := hg.legs l d hd
    rcases hg.irqs _ hmem with hold | hnew
    · exact h.irqs l e he (hee ▸ hold)
    · exact (hU _ hnew).legs he hee
  · obtain ⟨e, he, hee⟩ := hg.legs l d hd
    rcases hg.pending _ hmem with hold | hnew
    · exact h.pending l e he (hee ▸ hold)
    · exact (hW _ hnew).legs he hee
  · rcases hg.pending t ht with hpending | hpending
    · rcases hg.irqs t hmem with hirq | hirq
      · exact h.apart t hpending hirq
      · exact (hU t hirq).2.1 hpending
    · rcases hg.irqs t hmem with hirq | hirq
      · exact (hW t hpending).1 hirq
      · exact hUW t hirq hpending

/-- Without new ids they stay distinct. -/
theorem Distinct.shrinks (h : s.Distinct) (hg : Grows (fun _ => False) (fun _ => False) s s') : s'.Distinct :=
  h.grows hg (fun _ => False.elim) (fun _ => False.elim) fun _ => False.elim

/-! ### Routing -/

/-- The message is routed: only the tables of the client controller change. -/
structure Routed (s s' : Registries) : Prop where
  gone : s'.gone = s.gone
  pending : s'.pending = s.pending
  irqs : s'.irqs = s.irqs
  legs : s'.legs = s.legs
  rips : s'.rips = s.rips

theorem Routed.grows (h : Routed s s') : Grows U W s s' := Grows.of_eq h.irqs h.pending h.legs

theorem routed_refl : Routed s s := ⟨rfl, rfl, rfl, rfl, rfl⟩

theorem routed_routeAckRequestInsideDialog {t id : String} : Routed s (s.routeAckRequestInsideDialog u t id) := by
  unfold routeAckRequestInsideDialog
  split
  · exact ⟨rfl, rfl, rfl, rfl, rfl⟩
  · exact routed_refl

theorem routed_routeRequestInsideInvite {id : String} : Routed s (s.routeRequestInsideInvite t id) := by
  unfold routeRequestInsideInvite
  split
  · exact ⟨rfl, rfl, rfl, rfl, rfl⟩
  · exact routed_refl

theorem routed_routeRequestInsideDialog {r : Request} {id : String} : Routed s (s.routeRequestInsideDialog r id).1 := by
  unfold routeRequestInsideDialog
  cases s.clientForRequest r id <;> dsimp only <;> split <;> exact ⟨rfl, rfl, rfl, rfl, rfl⟩

theorem routed_routeUnsolicitedBye {id : String} : Routed s (s.routeUnsolicitedBye id) := by
  unfold routeUnsolicitedBye
  cases s.findClientForDialog id <;> exact ⟨rfl, rfl, rfl, rfl, rfl⟩

theorem routed_routeResponseInsideTransaction {id : String} {m : Method} {status : Nat} :
    Routed s (s.routeResponseInsideTransaction t id m status) := by
  unfold routeResponseInsideTransaction
  cases s.findClientForAppTransaction t with
  | none => exact ⟨rfl, rfl, rfl, rfl, rfl⟩
  | some c =>
    dsimp only
    split <;> split <;> exact ⟨rfl, rfl, rfl, rfl, rfl⟩

theorem routed_flushTransaction {code : Nat} {m : Method} {existing : Bool} :
    Routed s (s.flushTransaction t code m existing) := by
  unfold flushTransaction
  split
  · exact ⟨rfl, rfl, rfl, rfl, rfl⟩
  · exact routed_refl

/-! ### The handlers -/

theorem Grows.processMessageStatelessly {a : Arrival} (hW : W a.uuid) : Grows U W s (s.processMessageStatelessly a) := by
  have hpending : Grows U W s { s with pending := s.pending.arrive a } := by
    refine ⟨fun _ => .inl, fun t ht => ?_, fun _ d h => ⟨d, h, rfl⟩⟩
    have ht' : t ∈ (s.pending.arrive a).txnId2Invite := ht
    unfold PendingRequests.arrive at ht'
    split at ht'
    · by_cases hu : a.uuid ∈ s.pending.txnId2Invite
      · exact .inl ((AList.insertNew_of_mem hu : s.pending.txnId2Invite.insertNew a.uuid (PendingRequest.of a) = _) ▸ ht')
      · have hins : t ∈ s.pending.txnId2Invite.insert a.uuid (PendingRequest.of a) := AList.insertNew_of_notMem hu ▸ ht'
        exact ((AList.mem_insert _).mp hins).elim (fun he => .inr (he ▸ hW)) .inl
    · exact .inl ht'
  refine hpending.trans ?_
  unfold Registries.processMessageStatelessly
  dsimp only
  cases (if s.pending.admits a = true ∧ a.routed = false then a.client else none) <;> exact of_eq rfl rfl rfl

theorem Grows.clearReinvite : Grows U W s (s.clearReinvite d) := by
  unfold Registries.clearReinvite
  split
  · exact refl
  · rename_i l e _
    have hclear : Grows U W s (s.clearInvite l) := clearInvite
    refine hclear.trans ?_
    dsimp only
    split
    · exact refl
    · split
      · exact of_eq rfl rfl rfl
      · exact refl

theorem Grows.endDialog {r : Request} {routed : Bool} : Grows U W s (s.endDialog leg d r routed) := by
  unfold Registries.endDialog
  dsimp only
  have hclear : Grows U W s ((s.clearSipTimers leg).clearStable leg) := clearSipTimers.trans clearStable
  refine hclear.trans ?_
  generalize (s.clearSipTimers leg).clearStable leg = s'
  have htimer : Grows U W s' { s' with byeTimers := r.transactionId :: s'.byeTimers } := of_eq rfl rfl rfl
  split
  · exact removeIrq.trans clearReinvite
  · split
    · exact htimer.trans clearReinvite
    · exact clearReinvite

theorem Grows.admitRequest {r : Request} {routed : Bool} (hU : U r.transactionId) :
    Grows U W s (s.admitRequest leg d r routed) := by
  unfold Registries.admitRequest
  dsimp only
  split
  · exact Grows.trans (addIncomingRequestTransaction hU) endDialog
  · exact addIncomingRequestTransaction hU

theorem Grows.earlyRequest {r : Request} (hU : U r.transactionId) (hW : W r.arrival.uuid) :
    Grows U W s (s.earlyRequest leg d r) := by
  unfold Registries.earlyRequest
  have hincoming : Grows U W s (s.modify leg fun d => { d with incoming := d.incoming.erase r.transactionId }) :=
    modify fun _ => rfl
  have hupdate : Grows U W s (s.modify leg fun d => { d with update := some r.transactionId }) := modify fun _ => rfl
  split
  · exact hincoming.trans (processMessageStatelessly hW)
  · split
    · split
      · exact refl
      · exact (hupdate.trans routed_routeRequestInsideInvite.grows).trans (admitRequest hU)
    · exact admitRequest hU

theorem Grows.otherInsideDialog {r : Request} (hU : U r.transactionId) (hW : W r.arrival.uuid) :
    Grows U W s (s.otherInsideDialog leg d r) := by
  unfold Registries.otherInsideDialog
  dsimp only
  have hincoming : Grows U W s (if r.method = .bye then s
      else s.modify leg fun d => { d with incoming := r.transactionId :: d.incoming }) := by
    split
    · exact refl
    · exact modify fun _ => rfl
  refine hincoming.trans ?_
  generalize (if r.method = .bye then s
      else s.modify leg fun d => { d with incoming := r.transactionId :: d.incoming }) = s'
  split
  · exact refl
  · have hroute : Grows U W s' (s'.routeRequestInsideDialog r d.dialogId).1 := routed_routeRequestInsideDialog.grows
    refine hroute.trans ?_
    split
    · exact admitRequest hU
    · split
      · exact earlyRequest hU hW
      · split
        · exact admitRequest hU
        · exact refl

theorem Grows.cancelInsideDialog {r : Request} : Grows U W s (s.cancelInsideDialog leg d r) := by
  unfold Registries.cancelInsideDialog
  split
  · exact refl
  · rename_i p _
    have hcancel : Grows U W s { s with pending := s.pending.cancel p } :=
      ⟨fun _ => .inl, fun _ => .inl, fun _ d h => ⟨d, h, rfl⟩⟩
    refine hcancel.trans ?_
    dsimp only
    split
    · exact of_eq rfl rfl rfl
    · exact refl
  · exact ((clearSipTimers.trans routed_routeUnsolicitedBye.grows).trans clearStable).trans clearInvite

theorem Grows.processRequestInsideDialog {r : Request} (hU : U r.transactionId) (hW : W r.arrival.uuid) :
    Grows U W s (s.processRequestInsideDialog leg r) := by
  unfold Registries.processRequestInsideDialog
  split
  · exact refl
  · split
    · exact refl
    · split
      · exact (clearInvite.trans clearSipTimers).trans routed_routeAckRequestInsideDialog.grows
      · exact cancelInsideDialog
      · exact otherInsideDialog hU hW

theorem Grows.processCancelOrAck {e : IncomingEvent} : Grows U W s (s.processCancelOrAck leg e) := by
  unfold Registries.processCancelOrAck
  split
  · exact refl
  · rename_i d _
    cases e with
    | timeout => exact clearSipTimers.trans clearInvite
    | cancel => exact (routed_routeRequestInsideInvite.grows.trans removeNetTransaction).trans clearInvite
    | ack t => exact (clearInvite.trans clearSipTimers).trans routed_routeAckRequestInsideDialog.grows

theorem Grows.processPrack {rel : Reliable} {r : Request} (hU : U r.transactionId) : Grows U W s (s.processPrack rel r) := by
  unfold Registries.processPrack
  split
  · exact refl
  · refine Grows.trans ?_ (addIncomingRequestTransaction hU)
    refine Grows.trans ?_ (modify fun _ => rfl)
    exact addDialogForTransaction.trans routed_routeRequestInsideDialog.grows

theorem Grows.notifyTerminateStaleDialog : Grows U W s (s.notifyTerminateStaleDialog leg d) :=
  routed_routeUnsolicitedBye.grows.trans clearStable

theorem Grows.doSessionTimerHandling {refresh : Option (String × Option Orq)} :
    Grows U W s (s.doSessionTimerHandling leg refresh) := by
  unfold Registries.doSessionTimerHandling
  split
  · exact refl
  · split
    · exact notifyTerminateStaleDialog
    · unfold Registries.notifyRefreshDialog
      split
      · exact notifyTerminateStaleDialog
      · exact of_eq rfl rfl rfl

theorem Grows.notifyCancelTimeoutReachedIIP : Grows U W s (s.notifyCancelTimeoutReachedIIP leg) := by
  unfold Registries.notifyCancelTimeoutReachedIIP
  split
  · exact refl
  · rename_i d _
    have hremove : Grows U W s (s.removeAppTransaction d.transactionId) := of_eq rfl rfl rfl
    exact hremove.trans clearInvite

theorem Grows.endRetransmitFinalResponse {byeFails : Bool} : Grows U W s (s.endRetransmitFinalResponse leg byeFails) := by
  unfold Registries.endRetransmitFinalResponse
  split
  · exact refl
  · have hclear : Grows U W s ((s.clearSipTimers leg).clearInvite leg) := clearSipTimers.trans clearInvite
    refine hclear.trans ?_
    dsimp only
    split
    · exact clearStable
    · exact routed_routeUnsolicitedBye.grows.trans clearStable

theorem Grows.timeoutBye : Grows U W s (s.timeoutBye t) := by
  unfold Registries.timeoutBye
  split
  · have htimer : Grows U W s { s with byeTimers := s.byeTimers.erase t } := of_eq rfl rfl rfl
    refine htimer.trans ?_
    dsimp only
    split
    · exact removeIrq.trans removeNetTransaction
    · exact refl
  · exact refl

theorem Grows.responseToInvite {resp : Response} : Grows U W s (s.responseToInvite leg d resp) := by
  unfold Registries.responseToInvite
  dsimp only
  have hstatus : Grows U W s (s.modify leg fun d => { d with status := resp.status }) := modify fun _ => rfl
  refine hstatus.trans ?_
  generalize (s.modify leg fun d => { d with status := resp.status }) = s1
  have hadd : Grows U W s1 (if Establishes resp then
      (s1.modify leg fun d => { d with ackBye := d.ackBye || d.invite.any (·.canceled) }).addDialog leg d else s1) := by
    have hack : Grows U W s1 (s1.modify leg fun d => { d with ackBye := d.ackBye || d.invite.any (·.canceled) }) :=
      modify fun _ => rfl
    split
    · exact hack.trans addDialog
    · exact refl
  refine hadd.trans ?_
  generalize (if Establishes resp then
      (s1.modify leg fun d => { d with ackBye := d.ackBye || d.invite.any (·.canceled) }).addDialog leg d else s1) = s2
  have hclear : Grows U W s2 (if 200 < resp.status then s2.clearInvite leg else s2) := by
    split
    · exact clearInvite
    · exact refl
  refine hclear.trans ?_
  generalize (if 200 < resp.status then s2.clearInvite leg else s2) = s3
  have hroute : Grows U W s3 (s3.routeResponseInsideTransaction d.transactionId d.dialogId resp.method resp.status) :=
    routed_routeResponseInsideTransaction.grows
  refine hroute.trans ?_
  split
  · exact of_eq rfl rfl rfl
  · exact refl

theorem Grows.processResponseOutsideDialog {orq : Orq} {resp : Response} :
    Grows U W s (s.processResponseOutsideDialog orq resp) := by
  unfold Registries.processResponseOutsideDialog
  split
  · split
    · exact refl
    · exact responseToInvite
  · split
    · exact refl
    · split
      · exact clearRIP.trans routed_routeResponseInsideTransaction.grows
      · exact routed_routeResponseInsideTransaction.grows

theorem Grows.processResponseInsideDialog {orq : Orq} {resp : Response} :
    Grows U W s (s.processResponseInsideDialog orq resp) := by
  unfold Registries.processResponseInsideDialog
  split
  · exact refl
  · rename_i rip _
    have hroute : Grows U W s (s.routeResponseInsideTransaction rip.transactionId rip.dialogId resp.method resp.status) :=
      routed_routeResponseInsideTransaction.grows
    refine hroute.trans ?_
    dsimp only
    split
    · exact clearStableById.trans clearRIP
    · exact clearRIP

theorem Grows.processResponseToRefreshingReinvite {orq : Orq} {status : Option Nat} :
    Grows U W s (s.processResponseToRefreshingReinvite orq status) := by
  unfold Registries.processResponseToRefreshingReinvite
  split
  · exact refl
  · split
    · exact refl
    · split
      · exact clearRIP
      · split
        · exact clearRIP
        · exact notifyTerminateStaleDialog.trans clearRIP

theorem Grows.respondToIrq {code : Nat} {irq : Irq} {existing : Bool} {env : RespondEnv} :
    Grows U W s (s.respondToIrq t code irq existing env) := by
  unfold Registries.respondToIrq
  have hremove : Grows U W s (s.removeIrq t) := removeIrq
  refine hremove.trans (Grows.trans ?_ routed_flushTransaction.grows)
  split
  · split
    · exact modify fun _ => rfl
    · exact refl
  · exact refl

theorem Grows.replyToInvite {code : Nat} : Grows U W s (s.replyToInvite leg d code) := by
  unfold Registries.replyToInvite
  split
  · split
    · exact addDialog.trans (modify fun _ => rfl)
    · exact refl
  · split
    · exact addDialog
    · exact refl

theorem Grows.sendResponse {code : Nat} {env : RespondEnv} : Grows U W s (s.sendResponse leg d code env).1 := by
  unfold Registries.sendResponse
  have hstatus : Grows U W s (s.modify leg fun d => { d with status := code }) := modify fun _ => rfl
  split
  · exact refl
  · split
    · exact refl
    · split
      · exact refl
      · refine hstatus.trans ?_
        dsimp only
        split
        · split
          · exact modify fun _ => rfl
          · exact refl
        · split
          · exact refl
          · exact replyToInvite

theorem Grows.respondToInvite {code : Nat} {env : RespondEnv} : Grows U W s (s.respondToInvite leg d code env) := by
  unfold Registries.respondToInvite
  split
  · rename_i v _
    unfold respondToUpdate
    have hremove : Grows U W s (s.removeIrq v) := removeIrq
    have hincoming :
      Grows U W (s.removeIrq v) ((s.removeIrq v).modify leg fun d => { d with incoming := d.incoming.erase v }) :=
      modify fun _ => rfl
    exact ((hremove.trans hincoming).trans removeNetTransaction).trans (modify fun _ => rfl)
  · have hsend : Grows U W s (s.sendResponse leg d code env).1 := sendResponse
    refine hsend.trans ?_
    dsimp only
    split
    · exact routed_flushTransaction.grows.trans clearInvite
    · exact routed_flushTransaction.grows

theorem Grows.doSendRequestInsideDialog {client : ClientId} {id : String} {m : Method} {env : SendEnv} :
    Grows U W s (s.doSendRequestInsideDialog client t id m env) := by
  unfold Registries.doSendRequestInsideDialog
  have hadd : Grows U W s (s.addTransactionFor client m t) := by
    rw [addTransactionFor_eq]
    exact of_eq rfl rfl rfl
  refine hadd.trans ?_
  generalize s.addTransactionFor client m t = s1
  dsimp only
  split
  · exact of_eq rfl rfl rfl
  · rename_i l d _
    have hcancel : Grows U W s1 (if m = .bye then s1.cancelReinvite l d else s1) := by
      split
      · unfold cancelReinvite
        split
        · have hclear : Grows U W s1 (s1.clearInvite l) := clearInvite
          refine hclear.trans ?_
          unfold clearRIPByDialogId
          split
          · exact clearRIP
          · exact refl
        · exact refl
      · exact refl
    refine hcancel.trans ?_
    generalize (if m = .bye then s1.cancelReinvite l d else s1) = s2
    split
    · exact of_eq rfl rfl rfl
    · split
      · unfold sendAck
        split
        · dsimp only
          split
          · exact clearInvite.trans notifyTerminateStaleDialog
          · exact clearInvite
        · exact clearStableById
      · unfold sendInTransaction
        dsimp only
        split
        · exact addRIP.trans insertInvite
        · exact addRIP

/-! ### New objects -/

theorem lookup_newDialog_of_ne {l : Leg} {orq : Option Orq} (hl : l ≠ leg) :
    (s.newDialog leg d orq).legs.lookup l = s.legs.lookup l := by
  unfold newDialog
  rcases insertInvite_cases leg ⟨orq, [], false⟩ { s with legs := s.legs.insert leg d } with h | h
  · rw [h]
    exact AList.lookup_insert_ne hl
  · rw [h, lookup_modify, if_neg hl]
    exact AList.lookup_insert_ne hl

/-- A new object has the ids it was made with. -/
theorem lookup_newDialog_self {orq : Option Orq} :
    (s.newDialog leg d orq).legs.lookup leg = some d ∨
      (s.newDialog leg d orq).legs.lookup leg = some { d with invite := some ⟨orq, [], false⟩ } := by
  unfold newDialog
  have hself : (s.legs.insert leg d).lookup leg = some d := AList.lookup_insert ..
  rcases insertInvite_cases leg ⟨orq, [], false⟩ { s with legs := s.legs.insert leg d } with h | h
  · rw [h]
    exact .inl hself
  · rw [h, lookup_modify_self]
    exact .inr (by rw [hself, Option.map_some])

theorem newDialog_eq (leg : Leg) (d : SipDialog) (orq : Option Orq) (s : Registries) :
    s.newDialog leg d orq = { s with legs := (s.newDialog leg d orq).legs } := by
  unfold newDialog
  rcases insertInvite_cases leg ⟨orq, [], false⟩ { s with legs := s.legs.insert leg d } with h | h
  · rw [h]
  · rw [h, modify_eq]

theorem lookup_newDialog {l : Leg} {d' : SipDialog} {orq : Option Orq} (h : (s.newDialog leg d orq).legs.lookup l = some d') :
    (l = leg ∧ d'.transactionId = d.transactionId) ∨ (l ≠ leg ∧ s.legs.lookup l = some d') := by
  by_cases hl : l = leg
  · subst hl
    rcases @lookup_newDialog_self s l d orq with hself | hself
    · exact .inl ⟨rfl, by rw [Option.some.inj (h.symm.trans hself)]⟩
    · exact .inl ⟨rfl, by rw [Option.some.inj (h.symm.trans hself)]⟩
  · rw [lookup_newDialog_of_ne hl] at h
    exact .inr ⟨hl, h⟩

theorem Distinct.newDialog {orq : Option Orq} (h : s.Distinct) (hunused : s.Unused d.transactionId) :
    (s.newDialog leg d orq).Distinct := by
  have hirqs : (s.newDialog leg d orq).irqs = s.irqs := by rw [newDialog_eq]
  have hpending : (s.newDialog leg d orq).pending = s.pending := by rw [newDialog_eq]
  refine ⟨fun l l' e e' he he' heq => ?_, fun l e he => ?_, fun l e he => ?_, ?_⟩
  · rcases lookup_newDialog he with ⟨rfl, ht⟩ | ⟨-, hold⟩
    · rcases lookup_newDialog he' with ⟨rfl, -⟩ | ⟨-, hold'⟩
      · rfl
      · exact absurd (heq.symm.trans ht) (hunused.legs hold')
    · rcases lookup_newDialog he' with ⟨rfl, ht'⟩ | ⟨-, hold'⟩
      · exact absurd (heq.trans ht') (hunused.legs hold)
      · exact h.once l l' e e' hold hold' heq
  · rw [hirqs]
    rcases lookup_newDialog he with ⟨-, ht⟩ | ⟨-, hold⟩
    · exact ht ▸ hunused.1
    · exact h.irqs l e hold
  · rw [hpending]
    rcases lookup_newDialog he with ⟨-, ht⟩ | ⟨-, hold⟩
    · exact ht ▸ hunused.2.1
    · exact h.pending l e hold
  · rw [hirqs, hpending]
    exact h.apart

/-- A pending request that is taken is gone, and the others are what they were. -/
theorem findAndRemove_txnId2Invite (c : PendingRequests) (t : String) (timeout : Bool) :
    (c.findAndRemove t timeout).1.txnId2Invite = c.txnId2Invite.erase t := by
  unfold PendingRequests.findAndRemove
  cases h : c.txnId2Invite.lookup t with
  | none =>
    have herase : c.txnId2Invite.erase t = c.txnId2Invite :=
      AList.ext (List.kerase_of_notMem_keys (AList.lookup_eq_none.mp h))
    exact herase.symm
  | some p =>
    dsimp only
    unfold PendingRequests.removeTimeout PendingRequests.fault
    split
    · split <;> rfl
    · split <;> split <;> rfl

theorem findAndRemove_snd (c : PendingRequests) (t : String) (timeout : Bool) :
    (c.findAndRemove t timeout).2 = c.txnId2Invite.lookup t := by
  unfold PendingRequests.findAndRemove
  cases c.txnId2Invite.lookup t <;> rfl

/-- Taking a pending request out keeps the ids distinct, and its id is in no table any more. -/
theorem Distinct.take (h : s.Distinct) : Distinct { s with pending := (s.pending.findAndRemove t false).1 } := by
  refine h.shrinks ⟨fun _ => .inl, fun t' ht' => .inl ?_, fun _ d h => ⟨d, h, rfl⟩⟩
  have hmem : t' ∈ (s.pending.findAndRemove t false).1.txnId2Invite := ht'
  rw [findAndRemove_txnId2Invite] at hmem
  exact (AList.mem_erase.mp hmem).2

theorem Distinct.unused_take (h : s.Distinct) (ht : t ∈ s.pending.txnId2Invite) :
    Unused t { s with pending := (s.pending.findAndRemove t false).1 } := by
  refine ⟨h.apart t ht, fun hmem => ?_, fun e he heq => ?_⟩
  · rw [findAndRemove_txnId2Invite] at hmem
    exact (AList.mem_erase.mp hmem).1 rfl
  · exact h.pending e.1 e.2 (mem_entries.mp he) (heq ▸ ht)

theorem Distinct.setupLegForIncomingRequest {env : RespondEnv} (h : s.Distinct) :
    (s.setupLegForIncomingRequest t env).Distinct := by
  unfold Registries.setupLegForIncomingRequest
  have hsnd := findAndRemove_snd s.pending t false
  cases hp : (s.pending.findAndRemove t false).2 with
  | none =>
    dsimp only
    rw [hp]
    exact h.take
  | some p =>
    dsimp only
    rw [hp]
    have hunused := h.unused_take (AList.mem_of_lookup (hsnd.symm.trans hp))
    dsimp only
    split
    · exact h.take
    · split
      · exact h.take.newDialog hunused
      · exact h.take.grows (U := (· = t)) (W := fun _ => False) (Grows.addIncomingRequestTransaction rfl)
          (fun _ ht' => ht' ▸ hunused) (fun _ => False.elim) fun _ _ => id

theorem Distinct.doRespondToSipRequest {code : Nat} {env : RespondEnv} (h : s.Distinct) :
    (s.doRespondToSipRequest t code env).Distinct := by
  unfold Registries.doRespondToSipRequest
  split
  · exact h.shrinks Grows.respondToIrq
  · split
    · exact h.shrinks Grows.respondToInvite
    · have hsetup : (s.setupLegForIncomingRequest t env).Distinct := h.setupLegForIncomingRequest
      dsimp only
      split
      · exact hsetup.shrinks Grows.respondToInvite
      · split
        · exact hsetup.shrinks Grows.respondToIrq
        · exact hsetup.shrinks routed_flushTransaction.grows

theorem Distinct.doSendRequestOutsideDialog {client : ClientId} {m : Method} {env : SendOutsideEnv} (h : s.Distinct)
    (hunused : s.Unused t) : (s.doSendRequestOutsideDialog client t m env).Distinct := by
  have hadd : Routed s (s.addTransactionFor client m t) := by
    rw [addTransactionFor_eq]
    exact ⟨rfl, rfl, rfl, rfl, rfl⟩
  have hs1 : (s.addTransactionFor client m t).Distinct := h.shrinks hadd.grows
  have hunused1 : (s.addTransactionFor client m t).Unused t := by
    unfold Unused
    rw [hadd.irqs, hadd.pending, hadd.legs]
    exact hunused
  unfold Registries.doSendRequestOutsideDialog
  dsimp only
  split
  · exact hs1.shrinks (Grows.of_eq rfl rfl rfl)
  · split
    · exact hs1.newDialog hunused1
    · exact hs1.shrinks Grows.addRIP

theorem Distinct.handle {op : Op} (h : s.Distinct) (hfresh : s.Fresh op) : (s.handle op).Distinct := by
  cases op with
  | processMessageStatelessly a =>
    exact h.grows (U := fun _ => False) (W := (· = a.uuid)) (Grows.processMessageStatelessly rfl) (fun _ => False.elim)
      (fun _ hw => hw ▸ hfresh) fun _ => False.elim
  | cancelPending p => exact h.shrinks ⟨fun _ => .inl, fun _ => .inl, fun _ d h => ⟨d, h, rfl⟩⟩
  | routeNewRequestToClient client t =>
    show (s.routeNewRequestToClient client t).Distinct
    unfold Registries.routeNewRequestToClient
    split
    · exact h
    · exact h.shrinks (Grows.of_eq rfl rfl rfl)
  | timeout handle =>
    show (s.timeout handle).Distinct
    unfold Registries.timeout
    split
    · exact h
    · rename_i t ht
      refine h.shrinks ⟨fun _ => .inl, fun t' ht' => .inl ?_, fun _ d h => ⟨d, h, rfl⟩⟩
      have hmem : t' ∈ (s.pending.fire handle).txnId2Invite := ht'
      rw [PendingRequests.fire, ht] at hmem
      dsimp only at hmem
      rw [findAndRemove_txnId2Invite] at hmem
      exact (AList.mem_erase.mp hmem).2
  | proxyRequest t => exact h.shrinks Grows.removeNetTransaction
  | doProxy t => exact h.take
  | doRespondToSipRequest t code env => exact h.doRespondToSipRequest
  | doSendRequestInsideDialog client t id m env => exact h.shrinks Grows.doSendRequestInsideDialog
  | doSendRequestOutsideDialog client t m env => exact h.doSendRequestOutsideDialog hfresh.1
  | doSendCancelRequest t =>
    show (s.doSendCancelRequest t).Distinct
    unfold Registries.doSendCancelRequest
    split
    · exact h.shrinks (Grows.modify fun _ => rfl)
    · exact h
  | processRequestInsideDialog leg r =>
    exact h.grows (U := (· = r.transactionId)) (W := (· = r.arrival.uuid)) (Grows.processRequestInsideDialog rfl rfl)
      (fun _ hu => hu ▸ hfresh.1) (fun _ hw => hw ▸ hfresh.2.1) fun _ hu hw => hfresh.2.2 (hu.symm.trans hw)
  | processCancelOrAck leg e => exact h.shrinks Grows.processCancelOrAck
  | processPrack rel r =>
    exact h.grows (U := (· = r.transactionId)) (W := fun _ => False) (Grows.processPrack rfl) (fun _ hu => hu ▸ hfresh.1)
      (fun _ => False.elim) fun _ _ => id
  | processResponseOutsideDialog orq resp => exact h.shrinks Grows.processResponseOutsideDialog
  | processResponseInsideDialog orq resp => exact h.shrinks Grows.processResponseInsideDialog
  | processResponseToRefreshingReinvite orq status => exact h.shrinks Grows.processResponseToRefreshingReinvite
  | doSessionTimerHandling leg refresh => exact h.shrinks Grows.doSessionTimerHandling
  | notifyCancelTimeoutReachedIIP leg => exact h.shrinks Grows.notifyCancelTimeoutReachedIIP
  | endRetransmitFinalResponse leg byeFails => exact h.shrinks Grows.endRetransmitFinalResponse
  | retransmitFinalResponse leg =>
    show (s.retransmitFinalResponse leg).Distinct
    unfold Registries.retransmitFinalResponse
    split
    · exact h
    · split
      · exact h
      · exact h.shrinks Grows.clearSipTimers
  | timeoutBye t => exact h.shrinks Grows.timeoutBye
  | disconnect client => exact h.shrinks (Grows.of_eq rfl rfl rfl)

theorem Distinct.step {op : Op} (h : s.Distinct) (hfresh : s.Fresh op) : (s.step op).Distinct :=
  (h.handle hfresh).shrinks Grows.collect

theorem distinct_empty : empty.Distinct := by
  have hlegs : ∀ l, empty.legs.lookup l = none := fun _ => rfl
  refine ⟨fun l _ _ _ h => ?_, fun l _ h => ?_, fun l _ h => ?_, fun t h => ?_⟩
  · exact nomatch (hlegs l).symm.trans h
  · exact nomatch (hlegs l).symm.trans h
  · exact nomatch (hlegs l).symm.trans h
  · exact absurd h (AList.notMem_empty t)

end Drachtio.Dialog.Registries
