import Drachtio.Theorems.Dialog.Steps

/-! The registries of dialogs over whole runs: that they agree, and that what arrives in a dialog goes to its owner.
    Both hold as long as every step meets its condition, with a relation between the owner of a dialog and the client
    that has its id. -/

namespace Drachtio.Dialog.Registries

open Machine
open Proxy (Method)
open Client (ClientId)
open Pending (PendingRequests PendingRequest Arrival)

variable {R : ClientId → ClientId → Prop} {s : Registries} {leg : Leg} {d : SipDialog} {id t : String} {op : Op}

/-- What a step needs to keep the registries of dialogs in agreement. -/
def Keeps (R : ClientId → ClientId → Prop) (s : Registries) : Op → Prop
  | .doRespondToSipRequest t code env => t ∈ s.irqs ∨ ∀ x ∈ s.respondsTo t env, s.RespondKeeps R x.1 x.2 code env
  | .doSendRequestInsideDialog _ _ id m env =>
    ∀ x ∈ s.findDialogById id, m = .ack → env.fails = false → x.2.status ≠ 200 →
      x.2.dialogId ∉ s.dialogs ∨ s.inProgress x.2.dialogId = true
  | .processRequestInsideDialog leg r => ∀ d ∈ s.findDialogByLeg leg, s.RequestKeeps leg d r
  | .processCancelOrAck leg _ => ∀ d ∈ s.legs.lookup leg, d.invite.any (·.orq.isNone) = true → s.MayLeave leg d
  | .processPrack rel _ =>
    ∀ x ∈ s.findInviteByReliable rel, s.owned x.2.dialogId = true → (s.findClientForDialog x.2.dialogId).isSome = true
  | .processResponseOutsideDialog orq resp =>
    (resp.method = .invite ∨ resp.method = .subscribe) → ∀ x ∈ s.findInviteByOrq orq, s.ResponseKeeps R x.1 x.2 resp
  | .processResponseInsideDialog orq resp => ∀ rip ∈ s.rips.lookup orq, s.InsideKeeps rip resp
  | .doSessionTimerHandling leg refresh =>
    ∀ d ∈ s.legs.lookup leg, refresh.bind (·.2) = none → s.ownedElsewhere leg d.dialogId = false
  | .notifyCancelTimeoutReachedIIP leg => ∀ d ∈ s.legs.lookup leg, d.invite.any (·.canceled) = true → s.MayLeave leg d
  | .endRetransmitFinalResponse leg byeFails =>
    ∀ d ∈ s.legs.lookup leg, d.timerH = true →
      if byeFails = true then s.MayEnd leg d else s.ownedElsewhere leg d.dialogId = false
  | _ => True

instance instDecidableKeeps [DecidableRel R] : ∀ op, Decidable (s.Keeps R op)
  | .doRespondToSipRequest _ _ _ => inferInstanceAs (Decidable (_ ∨ ∀ x ∈ _, _))
  | .doSendRequestInsideDialog _ _ _ _ _ => inferInstanceAs (Decidable (∀ x ∈ _, _ → _ → _ → _ ∨ _))
  | .processRequestInsideDialog _ _ => inferInstanceAs (Decidable (∀ d ∈ _, RequestKeeps _ d _ _))
  | .processCancelOrAck _ _ => inferInstanceAs (Decidable (∀ d ∈ _, _ → MayLeave _ d _))
  | .processPrack _ _ => inferInstanceAs (Decidable (∀ x ∈ _, _ → _))
  | .processResponseOutsideDialog _ _ =>
    inferInstanceAs (Decidable (_ ∨ _ → ∀ x ∈ findInviteByOrq _ _, ResponseKeeps _ x.1 x.2 _ _))
  | .processResponseInsideDialog _ _ => inferInstanceAs (Decidable (∀ rip ∈ _, InsideKeeps rip _ _))
  | .doSessionTimerHandling _ _ => inferInstanceAs (Decidable (∀ d ∈ _, _ → _))
  | .notifyCancelTimeoutReachedIIP _ => inferInstanceAs (Decidable (∀ d ∈ _, _ → MayLeave _ d _))
  | .endRetransmitFinalResponse _ _ => inferInstanceAs (Decidable (∀ d ∈ _, _ → ite _ _ _))
  | .processMessageStatelessly _ | .cancelPending _ | .routeNewRequestToClient _ _ | .timeout _ | .proxyRequest _ | .doProxy _
  | .doSendRequestOutsideDialog _ _ _ _ | .doSendCancelRequest _ | .processResponseToRefreshingReinvite _ _
  | .retransmitFinalResponse _ | .timeoutBye _ | .disconnect _ => isTrue trivial

/-! ### Steps and runs -/

theorem agree_handle (h : (view s).Agree R) (hdistinct : s.Distinct) (hfresh : s.Fresh op) (hkeeps : s.Keeps R op) :
    (view (s.handle op)).Agree R := by
  cases op with
  | processMessageStatelessly a =>
    rw [handle, view_processMessageStatelessly]
    exact h
  | cancelPending p => exact h
  | routeNewRequestToClient client t =>
    rw [handle, routeNewRequestToClient]
    cases s.pending.find t <;> exact h
  | timeout handle =>
    rw [Registries.handle, timeout]
    cases s.pending.timeouts.lookup handle <;> exact h
  | proxyRequest t => exact h
  | doProxy t => exact h
  | doRespondToSipRequest t code env => exact agree_doRespondToSipRequest h hfresh hkeeps
  | doSendRequestInsideDialog client t id m env => exact agree_doSendRequestInsideDialog h hkeeps
  | doSendRequestOutsideDialog client t m env => exact agree_doSendRequestOutsideDialog h hfresh.2
  | doSendCancelRequest t =>
    rw [handle, doSendCancelRequest]
    cases s.findInviteByTransactionId t with
    | none => exact h
    | some x =>
      dsimp only
      rw [view_modify_hidden (@hidden_invite fun i => { i with canceled := true })]
      exact h
  | processRequestInsideDialog leg r => exact agree_processRequestInsideDialog h hdistinct hkeeps
  | processCancelOrAck leg e => exact agree_processCancelOrAck h hkeeps
  | processPrack rel r => exact agree_processPrack h hfresh.2 hkeeps
  | processResponseOutsideDialog orq resp => exact agree_processResponseOutsideDialog h hkeeps
  | processResponseInsideDialog orq resp => exact agree_processResponseInsideDialog h hkeeps
  | processResponseToRefreshingReinvite orq status => exact agree_processResponseToRefreshingReinvite h
  | doSessionTimerHandling leg refresh => exact agree_doSessionTimerHandling h hkeeps
  | notifyCancelTimeoutReachedIIP leg => exact agree_notifyCancelTimeoutReachedIIP h hkeeps
  | endRetransmitFinalResponse leg byeFails => exact agree_endRetransmitFinalResponse h hkeeps
  | retransmitFinalResponse leg =>
    rw [handle, retransmitFinalResponse]
    cases s.legs.lookup leg with
    | none => exact h
    | some d =>
      dsimp only
      split
      · exact h
      · rw [view_clearSipTimers]
        exact h
  | timeoutBye t =>
    rw [handle, timeoutBye]
    split
    · dsimp only
      split <;> exact h
    · exact h
  | disconnect client => exact h.leave (Finset.subset_insert client s.gone)

theorem agree_empty : (view empty).Agree R := by
  have hlegs : ∀ l, (view empty).stable l = none := fun _ => rfl
  refine ⟨fun id c hc => ?_, fun l id c hl => ?_, fun l l' id o o' hl => ?_⟩
  · have hnone : (view empty).dialogs id = none := rfl
    exact nomatch hnone.symm.trans hc
  · exact nomatch (hlegs l).symm.trans hl
  · exact nomatch (hlegs l).symm.trans hl

/-- The condition on the steps of a run: the ids are new, and the registries are kept in agreement. -/
def Orderly (R : ClientId → ClientId → Prop) (s : Registries) (op : Op) : Prop := s.Fresh op ∧ s.Keeps R op

instance [DecidableRel R] : Decidable (s.Orderly R op) := inferInstanceAs (Decidable (_ ∧ _))

theorem agree_run {ops : List Op} (h : Meets step (Orderly R) empty ops) :
    (view (run step empty ops)).Agree R ∧ (run step empty ops).Distinct := by
  refine run_induction (I := fun s => (view s).Agree R ∧ s.Distinct) (fun s op hs hok => ?_) ⟨agree_empty, distinct_empty⟩ h
  obtain ⟨hagree, hdistinct⟩ := hs
  refine ⟨?_, hdistinct.step hok.1⟩
  rw [step, view_collect]
  exact agree_handle hagree hdistinct hok.1 hok.2

/-! ### The registries agree -/

/-- A dialog id is in m_mapDialogs only while the dialog is stable or its INVITE is in progress, and the stable
    dialogs whose owner is connected are in m_mapDialogs. -/
def DialogsAgree (s : Registries) : Prop :=
  (∀ id ∈ s.dialogs.keys, ∃ e ∈ s.legs.entries, e.2.dialogId = id ∧ (e.2.stable = true ∨ e.2.invite.isSome = true)) ∧
    ∀ e ∈ s.legs.entries, e.2.stable = true → (s.lock e.2.owner).isSome = true → e.2.dialogId ∈ s.dialogs

instance : Decidable s.DialogsAgree := inferInstanceAs (Decidable ((∀ id ∈ _, ∃ e ∈ _, _) ∧ ∀ e ∈ _, _))

theorem dialogs_agree (ops : List Op) (h : Meets step (Orderly fun _ _ => True) empty ops) :
    (run step empty ops).DialogsAgree := by
  obtain ⟨hagree, -⟩ := agree_run h
  generalize run step empty ops = s at hagree
  refine ⟨fun id hid => ?_, fun e he hstable howner => ?_⟩
  · obtain ⟨c, hc⟩ := Option.isSome_iff_exists.mp (AList.lookup_isSome.mpr (AList.mem_keys.mpr hid))
    rcases hagree.known id c hc with ⟨l, o, hl⟩ | ⟨l, hl⟩
    · obtain ⟨d, hd, hstable, hid, -⟩ := view_stable_eq_some hl
      exact ⟨⟨l, d⟩, mem_entries.mpr hd, hid, .inl hstable⟩
    · obtain ⟨d, hd, hshown⟩ := obs_eq_some.mp hl
      unfold shownInvite at hshown
      split at hshown
      · rename_i hinvite
        exact ⟨⟨l, d⟩, mem_entries.mpr hd, Option.some.inj hshown, .inr hinvite⟩
      · exact nomatch hshown
  · obtain ⟨c, hc⟩ := Option.isSome_iff_exists.mp howner
    obtain ⟨ho, hgone⟩ := lock_eq_some hc
    obtain ⟨c', hc', -⟩ := hagree.owned e.1 e.2.dialogId c (ho ▸ view_stable_of_lookup (mem_entries.mp he) hstable) hgone
    exact AList.lookup_isSome.mp (Option.isSome_iff_exists.mpr ⟨c', hc'⟩)

/-- A call that an application sets up and ends. -/
def outgoingCall (status : Nat) : List Op :=
  [.doSendRequestOutsideDialog 7 "t1" .invite ⟨false, 1, 1, "call", "tag", ""⟩,
    .processResponseOutsideDialog 1 ⟨.invite, 200, false⟩,
    .doSendRequestInsideDialog 7 "t2" "call;from-tag=tag" .ack ⟨false, 2, false⟩,
    .doSendRequestInsideDialog 7 "t3" "call;from-tag=tag" .bye ⟨false, 3, false⟩,
    .processResponseInsideDialog 3 ⟨.bye, status, false⟩]

/-- The BYE is accepted. -/
theorem outgoing_call_ends : Meets step (Orderly fun _ _ => True) empty (outgoingCall 200) ∧
    (run step empty (outgoingCall 200)).DialogsAgree := by
  have h : Meets step (Orderly fun _ _ => True) empty (outgoingCall 200) := by decide
  exact ⟨h, dialogs_agree _ h⟩

/-- The BYE is challenged: the dialog is kept, but not its id. -/
theorem challenged_bye_forgets_dialog : ∃ ops, Meets step Fresh empty ops ∧ ¬(run step empty ops).DialogsAgree :=
  ⟨outgoingCall 407, by decide, by decide⟩

/-! ### What arrives in a dialog -/

/-- The leg of the dialog that a request in the dialog is for, and the transaction id that its client is told. A CANCEL
    is not in the dialog, nor is an INVITE without a To tag; a session timer that is too small gets a 422. -/
def requestOn (s : Registries) : Op → Option (Leg × String)
  | .processRequestInsideDialog leg r =>
    if r.method = .cancel ∨ r.tooSmall = true ∨ r.arrival.hasToTag = false then none
    else (s.findDialogByLeg leg).map fun d =>
      (leg, if r.method = .ack ∧ d.invite.isSome = true then d.transactionId else r.transactionId)
  | .processPrack rel r => (s.findInviteByReliable rel).map fun x => (x.1, r.transactionId)
  | .processCancelOrAck leg (.ack t) =>
    ((s.legs.lookup leg).filter fun d => d.invite.any fun i => i.orq.isNone).map fun _ => (leg, t)
  | _ => none

/-- A request in a stable dialog whose owner is connected is queued on the connection of the owner, and on no other. -/
def OwnerHears (s : Registries) (op : Op) : Prop :=
  ∀ x ∈ s.requestOn op, ∀ d ∈ s.legs.lookup x.1, d.stable = true → ∀ c ∈ s.lock d.owner,
    (s.step op).log = s.log ++ [⟨c, x.2, d.dialogId⟩]

instance : Decidable (s.OwnerHears op) :=
  inferInstanceAs (Decidable (∀ x ∈ s.requestOn op, ∀ d ∈ s.legs.lookup x.1, _ → ∀ c ∈ _, _))

@[simp] theorem log_modify {g : SipDialog → SipDialog} : (s.modify leg g).log = s.log := by rw [modify_eq]

@[simp] theorem log_collect : s.collect.log = s.log := by
  refine collect_induction (P := fun s' => s'.log = s.log) rfl fun s' leg d h _ _ _ _ => ?_
  rw [destroy_eq]
  exact h

@[simp] theorem log_clearReinvite : (s.clearReinvite d).log = s.log := by
  unfold clearReinvite
  split
  · rfl
  · dsimp only
    split
    · exact log_modify
    · split
      · exact log_modify
      · exact log_modify

@[simp] theorem log_endDialog {r : Request} {routed : Bool} : (s.endDialog leg d r routed).log = s.log := by
  have hclear : ((s.clearSipTimers leg).clearStable leg).log = s.log := log_modify.trans log_modify
  unfold endDialog
  dsimp only
  rw [log_clearReinvite]
  split
  · exact hclear
  · split
    · exact hclear
    · exact hclear

@[simp] theorem log_admitRequest {r : Request} {routed : Bool} : (s.admitRequest leg d r routed).log = s.log := by
  unfold admitRequest
  dsimp only
  split
  · exact log_endDialog
  · rfl

/-- A request in a dialog goes to the client that has the dialog id. -/
theorem log_routeRequestInsideDialog {r : Request} {c : ClientId} (hc : s.findClientForDialog id = some c) :
    (s.routeRequestInsideDialog r id).1.log = s.log ++ [⟨c, r.transactionId, id⟩] ∧
    (s.routeRequestInsideDialog r id).2 = true := by
  have hclient : s.clientForRequest r id = some c := by rw [clientForRequest, hc, Option.some_or]
  unfold routeRequestInsideDialog
  rw [hclient]
  dsimp only
  split
  · exact ⟨rfl, rfl⟩
  · exact ⟨rfl, rfl⟩

theorem log_routeAckRequestInsideDialog {u : String} {c : ClientId} (hc : s.findClientForDialog id = some c) :
    (s.routeAckRequestInsideDialog u t id).log = s.log ++ [⟨c, u, id⟩] := by
  unfold routeAckRequestInsideDialog
  rw [hc, Option.some_or]
  rfl

theorem findClientForDialog_modify {g : SipDialog → SipDialog} :
    (s.modify leg g).findClientForDialog id = s.findClientForDialog id := by
  rw [modify_eq]
  rfl

theorem log_ackInsideDialog {r : Request} {c : ClientId} (hc : s.findClientForDialog d.dialogId = some c) :
    (s.ackInsideDialog leg d r).log =
    s.log ++ [⟨c, if d.invite.isSome then d.transactionId else r.transactionId, d.dialogId⟩] := by
  have hc' : ((s.clearInvite leg).clearSipTimers leg).findClientForDialog d.dialogId = some c :=
    (findClientForDialog_modify.trans findClientForDialog_modify).trans hc
  have hlog : ((s.clearInvite leg).clearSipTimers leg).log = s.log := log_modify.trans log_modify
  unfold ackInsideDialog
  rw [log_routeAckRequestInsideDialog hc', hlog]

theorem log_otherInsideDialog {r : Request} {c : ClientId} (hc : s.findClientForDialog d.dialogId = some c)
    (hsmall : r.tooSmall = false) :
    (s.otherInsideDialog leg d r).log = s.log ++ [⟨c, r.transactionId, d.dialogId⟩] := by
  obtain ⟨s1, hs1, hlog, hc1⟩ : ∃ s1, (if r.method = .bye then s
      else s.modify leg fun d => { d with incoming := r.transactionId :: d.incoming }) = s1 ∧ s1.log = s.log ∧
        s1.findClientForDialog d.dialogId = some c := by
    by_cases hbye : r.method = .bye
    · exact ⟨s, if_pos hbye, rfl, hc⟩
    · exact ⟨_, if_neg hbye, log_modify, findClientForDialog_modify.trans hc⟩
  obtain ⟨hsent, hrouted⟩ := @log_routeRequestInsideDialog s1 d.dialogId r c hc1
  unfold otherInsideDialog
  rw [hs1]
  dsimp only
  rw [if_neg (Bool.eq_false_iff.mp hsmall), if_pos hrouted, log_admitRequest, hsent, hlog]

theorem log_processRequestInsideDialog {r : Request} {c : ClientId} (hfound : s.findDialogByLeg leg = some d)
    (hc : s.findClientForDialog d.dialogId = some c) (hcancel : r.method ≠ .cancel) (hsmall : r.tooSmall = false)
    (htag : r.arrival.hasToTag = true) :
    (s.processRequestInsideDialog leg r).log =
      s.log ++ [⟨c, if r.method = .ack ∧ d.invite.isSome = true then d.transactionId else r.transactionId, d.dialogId⟩] := by
  have hin : ¬(r.method = .invite ∧ r.arrival.hasToTag = false ∧ 200 ≤ d.status) := fun h => nomatch h.2.1.symm.trans htag
  unfold processRequestInsideDialog
  rw [hfound]
  dsimp only
  rw [if_neg hin]
  split
  · rename_i hack
    rw [log_ackInsideDialog hc]
    simp [hack]
  · rename_i h
    exact absurd h hcancel
  · rename_i hack _
    have hother : ¬(r.method = .ack ∧ d.invite.isSome = true) := fun h => hack h.1
    rw [log_otherInsideDialog hc hsmall, if_neg hother]

theorem log_processPrack {rel : Reliable} {r : Request} {c : ClientId} (hfound : s.findInviteByReliable rel = some (leg, d))
    (hc : s.findClientForDialog d.dialogId = some c) :
    (s.processPrack rel r).log = s.log ++ [⟨c, r.transactionId, d.dialogId⟩] := by
  have hgone : (s.addDialogForTransaction d.transactionId d.dialogId).gone = s.gone := by rw [addDialogForTransaction_eq]
  have hlog : (s.addDialogForTransaction d.transactionId d.dialogId).log = s.log := by rw [addDialogForTransaction_eq]
  have hc' : (s.addDialogForTransaction d.transactionId d.dialogId).findClientForDialog d.dialogId = some c := by
    unfold findClientForDialog
    rw [lookup_addDialogForTransaction, if_pos rfl, candidate_of_known hc, lock_isSome]
    rw [hgone]
    exact (lock_eq_some hc).2
  unfold processPrack
  rw [hfound]
  dsimp only
  rw [addIncomingRequestTransaction, log_modify, (log_routeRequestInsideDialog hc').1, hlog]

theorem log_processCancelOrAck {c : ClientId}
    (hfound : (s.legs.lookup leg).filter (fun d => d.invite.any fun i => i.orq.isNone) = some d)
    (hc : s.findClientForDialog d.dialogId = some c) :
    (s.processCancelOrAck leg (.ack t)).log = s.log ++ [⟨c, t, d.dialogId⟩] := by
  have hc' : ((s.clearInvite leg).clearSipTimers leg).findClientForDialog d.dialogId = some c :=
    (findClientForDialog_modify.trans findClientForDialog_modify).trans hc
  have hlog : ((s.clearInvite leg).clearSipTimers leg).log = s.log := log_modify.trans log_modify
  unfold processCancelOrAck
  rw [hfound]
  dsimp only
  rw [log_routeAckRequestInsideDialog hc', hlog]

/-- Where the registries agree, the owner of a stable dialog has its id. -/
theorem findClientForDialog_of_agree {c : ClientId} (h : (view s).Agree Eq) (hd : s.legs.lookup leg = some d)
    (hstable : d.stable = true)
    (hc : s.lock d.owner = some c) : s.findClientForDialog d.dialogId = some c := by
  obtain ⟨howner, hgone⟩ := lock_eq_some hc
  obtain ⟨c', hc', rfl⟩ := h.owned leg d.dialogId c (howner ▸ view_stable_of_lookup hd hstable) hgone
  have hlookup : s.dialogs.lookup d.dialogId = some c := hc'
  rw [findClientForDialog, hlookup]
  exact lock_isSome hgone

/-- An INVITE, with its PRACK and an INFO in its dialog -/
def inviteSip (seq : UInt32) : Sip.Message := .ofMethod .invite (.ofString "call") seq []

def prackSip : Sip.Message := .ofMethod .prack (.ofString "call") 2 []

def infoSip : Sip.Message := .ofMethod .info (.ofString "call") 9 []

def arrivalOf (sip : Sip.Message) (hasToTag : Bool) (client : ClientId) (address : Nat) (uuid : String) : Arrival :=
  ⟨sip, hasToTag, false, false, false, false, some client, address, uuid, address⟩

/-- A response that makes the leg if there is none, reliable when there is a handle for it. -/
def responseOn (leg : Leg) (rel : Option Reliable) : RespondEnv :=
  ⟨leg, "tag", false, false, none, false, rel.isSome, rel, false, false⟩

/-- An INVITE is challenged by one client, perhaps after a reliable provisional response, and the next one is answered
    by another client. -/
def challengedCall (early : Bool) : List Op :=
  .processMessageStatelessly (arrivalOf (inviteSip 1) false 7 1 "t1") ::
    (if early = true then
      [.doRespondToSipRequest "t1" 183 (responseOn 1 (some 5)),
        .processPrack 5 ⟨arrivalOf prackSip true 7 2 "u1", "t2", none, none, none, false⟩, .doRespondToSipRequest "t2"
        200 (responseOn 2 none)]
    else []) ++
    [.doRespondToSipRequest "t1" 407 (responseOn 3 none), .processCancelOrAck (if early = true then 1 else 3) (.ack "t3"),
      .processMessageStatelessly (arrivalOf (inviteSip 3) false 8 3 "t4"), .doRespondToSipRequest "t4" 200
      (responseOn 4 none)]

/-- An INFO in the dialog of the second INVITE -/
def infoInDialog : Op := .processRequestInsideDialog 4 ⟨arrivalOf infoSip true 7 4 "u2", "t5", none, none, none, false⟩

end Drachtio.Dialog.Registries
