import Drachtio.Theorems.Dialog.Keeps

/-! The other handlers, and the condition on a step of the whole system under which the registries of dialogs stay in
    agreement. -/

namespace Drachtio.Dialog.Registries

open Proxy (Method)
open Client (ClientId)
open Pending (PendingRequests PendingRequest Arrival)

variable {R : ClientId → ClientId → Prop} {s s' : Registries} {leg : Leg} {d : SipDialog} {id t : String}

/-! ### Responses from the network -/

theorem findClientForAppTransaction_congr (hgone : s'.gone = s.gone) (happ : s'.appTransactions = s.appTransactions) :
    s'.findClientForAppTransaction t = s.findClientForAppTransaction t := by
  unfold findClientForAppTransaction lock
  rw [hgone, happ]

theorem addDialog_app : (s.addDialog leg d).appTransactions = s.appTransactions ∧ (s.addDialog leg d).gone = s.gone := by
  unfold addDialog
  rw [addDialogForTransaction_eq]
  rcases insertStable_cases leg s with h | h
  · rw [h]
    exact ⟨rfl, rfl⟩
  · rw [h, modify_eq]
    exact ⟨rfl, rfl⟩

/-- The response to an INVITE or SUBSCRIBE that was sent takes the dialog id away. -/
def ForgetsInvite (d : SipDialog) (resp : Response) (s : Registries) : Prop :=
  s.forgets d.transactionId resp.method = true ∨ (resp.method = .invite ∧ 200 < resp.status)

instance {resp : Response} : Decidable (s.ForgetsInvite d resp) := inferInstanceAs (Decidable (_ ∨ _))

/-- What the response needs: that no connected owner of a stable dialog loses its id, that the dialog which is made gets a
    client that suits its owner, and that a failure leaves no id without a dialog. -/
def ResponseKeeps (R : ClientId → ClientId → Prop) (leg : Leg) (d : SipDialog) (resp : Response) (s : Registries) : Prop :=
  if s.ForgetsInvite d resp then
    s.ownedElsewhere leg d.dialogId = false ∧
      ((s.lock d.owner).isSome = false ∨ (d.stable = false ∧ ¬(Establishes resp ∧ s.Becomes d)))
  else if Establishes resp then (s.Becomes d → s.Enters R d) ∧ s.Known leg d.dialogId
  else 200 < resp.status → s.MayLeave leg d

instance [DecidableRel R] {resp : Response} : Decidable (s.ResponseKeeps R leg d resp) :=
  inferInstanceAs (Decidable (ite _ _ (ite _ _ _)))

/-- What the response does to the view. -/
theorem view_responseToInvite {resp : Response} (hd : s.legs.lookup leg = some d) :
    view (s.responseToInvite leg d resp) =
      (view s).set leg d.dialogId
        (if s.ForgetsInvite d resp then none
          else if Establishes resp then s.candidate d.transactionId d.dialogId else (view s).dialogs d.dialogId)
        (if Establishes resp then (if s.Becomes d then some d.owner else none) else if d.stable = true then some d.owner
          else none)
        (d.invite.isSome && !decide (200 < resp.status)) := by
  unfold responseToInvite
  dsimp only
  have hstatus : view (s.modify leg fun d => { d with status := resp.status }) = view s := view_modify_hidden hidden_status
  have hgone1 : (s.modify leg fun d => { d with status := resp.status }).gone = s.gone := by rw [modify_eq]
  have happ1 : (s.modify leg fun d => { d with status := resp.status }).appTransactions =
    s.appTransactions := by rw [modify_eq]
  have hd1 : (s.modify leg fun d => { d with status := resp.status }).legs.lookup leg =
      some { d with status := resp.status } := by
    rw [lookup_modify_self, hd, Option.map_some]
  have hcand1 : (s.modify leg fun d => { d with status := resp.status }).candidate d.transactionId d.dialogId =
      s.candidate d.transactionId d.dialogId := candidate_modify
  generalize (s.modify leg fun d => { d with status := resp.status }) = s1 at *
  -- The dialog becomes stable, or not; then a failure clears the INVITE; then the response is routed.
  obtain ⟨s2, hs2, hview2, hgone2, happ2⟩ : ∃ s2, (if Establishes resp then
      (s1.modify leg fun d => { d with ackBye := d.ackBye || d.invite.any (·.canceled) }).addDialog leg d else s1) = s2 ∧
      view s2 = (view s).set leg d.dialogId
        (if Establishes resp then s.candidate d.transactionId d.dialogId else (view s).dialogs d.dialogId)
        (if Establishes resp then (if s.Becomes d then some d.owner else none) else if d.stable = true then some d.owner
          else none)
        d.invite.isSome ∧
      s2.gone = s.gone ∧ s2.appTransactions = s.appTransactions := by
    by_cases hest : Establishes resp
    · have hack : Hidden fun d => { d with ackBye := d.ackBye || d.invite.any (·.canceled) } :=
        ⟨fun _ => rfl, fun _ => rfl, fun _ => rfl, fun _ => rfl⟩
      have hd2 : (s1.modify leg fun d => { d with ackBye := d.ackBye || d.invite.any (·.canceled) }).legs.lookup leg =
          some { d with status := resp.status, ackBye := d.ackBye || d.invite.any (·.canceled) } := by
        rw [lookup_modify_self, hd1, Option.map_some]
      refine ⟨_, rfl, ?_, ?_, ?_⟩
      · rw [if_pos hest, if_pos hest, if_pos hest]
        exact view_addDialog_of hd2 ((view_modify_hidden hack).trans hstatus) (candidate_modify.trans hcand1) rfl rfl rfl
          rfl rfl
      · rw [if_pos hest, addDialog_app.2, modify_eq]
        exact hgone1
      · rw [if_pos hest, addDialog_app.1, modify_eq]
        exact happ1
    · refine ⟨s1, if_neg hest, ?_, hgone1, happ1⟩
      rw [if_neg hest, if_neg hest, hstatus]
      exact view_eq_set hd
  rw [hs2]
  obtain ⟨s3, hs3, hview3, hgone3, happ3⟩ : ∃ s3, (if 200 < resp.status then s2.clearInvite leg else s2) = s3 ∧
      view s3 = (view s).set leg d.dialogId
        (if Establishes resp then s.candidate d.transactionId d.dialogId else (view s).dialogs d.dialogId)
        (if Establishes resp then (if s.Becomes d then some d.owner else none) else if d.stable = true then some d.owner
          else none)
        (d.invite.isSome && !decide (200 < resp.status)) ∧
      s3.gone = s.gone ∧ s3.appTransactions = s.appTransactions := by
    by_cases hlate : 200 < resp.status
    · refine ⟨s2.clearInvite leg, if_pos hlate, ?_, ?_, ?_⟩
      · rw [view_clearInvite, hview2, View.set_setInvite_none]
        simp [hlate]
      · rw [clearInvite, modify_eq]
        exact hgone2
      · rw [clearInvite, modify_eq]
        exact happ2
    · refine ⟨s2, if_neg hlate, ?_, hgone2, happ2⟩
      rw [hview2]
      simp [hlate]
  rw [hs3]
  have hforgets : s3.forgets d.transactionId resp.method = s.forgets d.transactionId resp.method := by
    unfold forgets
    rw [findClientForAppTransaction_congr hgone3 happ3]
  have hroute : view (s3.routeResponseInsideTransaction d.transactionId d.dialogId resp.method resp.status) =
      if s.forgets d.transactionId resp.method = true then (view s3).setDialog d.dialogId none else view s3 := by
    rw [view_routeResponseInsideTransaction, hforgets]
  by_cases hfail : resp.method = .invite ∧ 200 < resp.status
  · have hf : s.ForgetsInvite d resp := .inr hfail
    rw [if_pos hfail, if_pos hf, view_removeDialog, hroute]
    split
    · rw [hview3, View.set_setDialog, View.set_setDialog]
    · rw [hview3, View.set_setDialog]
  · rw [if_neg hfail, hroute]
    by_cases hf : s.forgets d.transactionId resp.method = true
    · have hf' : s.ForgetsInvite d resp := .inl hf
      rw [if_pos hf, if_pos hf', hview3, View.set_setDialog]
    · have hf' : ¬s.ForgetsInvite d resp := fun h => h.elim hf hfail
      rw [if_neg hf, if_neg hf', hview3]

theorem agree_responseToInvite {resp : Response} (h : (view s).Agree R) (hd : s.legs.lookup leg = some d)
    (hkeeps : s.ResponseKeeps R leg d resp) : (view (s.responseToInvite leg d resp)).Agree R := by
  rw [view_responseToInvite hd]
  unfold ResponseKeeps at hkeeps
  by_cases hforgets : s.ForgetsInvite d resp
  · rw [if_pos hforgets] at hkeeps ⊢
    obtain ⟨hothers, hown⟩ := hkeeps
    refine agree_set h hd ?_ (fun hne => absurd rfl hne) (fun k hk hgone => ?_) (.inl hothers)
    · by_cases hest : Establishes resp
      · rw [if_pos hest]
        by_cases hbecomes : s.Becomes d
        · exact .inr ⟨hbecomes, if_pos hbecomes⟩
        · exact .inl (if_neg hbecomes)
      · rw [if_neg hest]
        by_cases hstable : d.stable = true
        · exact .inr ⟨.inl hstable, if_pos hstable⟩
        · exact .inl (if_neg hstable)
    · -- A connected owner would be left without the id that is forgotten.
      exfalso
      have howner : d.owner = some k ∧ (d.stable = true ∨ (Establishes resp ∧ s.Becomes d)) := by
        by_cases hest : Establishes resp
        · rw [if_pos hest] at hk
          by_cases hbecomes : s.Becomes d
          · rw [if_pos hbecomes] at hk
            exact ⟨Option.some.inj hk, .inr ⟨hest, hbecomes⟩⟩
          · rw [if_neg hbecomes] at hk
            exact nomatch hk
        · rw [if_neg hest] at hk
          by_cases hstable : d.stable = true
          · rw [if_pos hstable] at hk
            exact ⟨Option.some.inj hk, .inl hstable⟩
          · rw [if_neg hstable] at hk
            exact nomatch hk
      rcases hown with hlock | ⟨hunstable, hnot⟩
      · rw [howner.1, lock_isSome hgone] at hlock
        exact nomatch hlock
      · rcases howner.2 with hstable | hboth
        · exact nomatch hunstable.symm.trans hstable
        · exact hnot hboth
  · rw [if_neg hforgets] at hkeeps ⊢
    by_cases hest : Establishes resp
    · rw [if_pos hest] at hkeeps
      rw [if_pos hest, if_pos hest]
      exact agree_enter h hd hkeeps.1 hkeeps.2
    · rw [if_neg hest] at hkeeps
      rw [if_neg hest, if_neg hest]
      by_cases hlate : 200 < resp.status
      · have hleave := agree_leave h hd (hkeeps hlate)
        rw [view_eq_set hd, View.set_setInvite_none] at hleave
        rw [decide_eq_true hlate, Bool.not_true, Bool.and_false]
        exact hleave
      · rw [decide_eq_false hlate, Bool.not_false, Bool.and_true, ← view_eq_set hd]
        exact h

/-- A dialog id is never empty. -/
theorem dialogId_ne_empty : d.dialogId ≠ "" := by
  intro h
  have hlength := congrArg String.length h
  unfold SipDialog.dialogId at hlength
  rw [String.length_append, String.length_append] at hlength
  have hpart : ";from-tag=".length = 10 := rfl
  have hempty : "".length = 0 := rfl
  omega

theorem agree_processResponseOutsideDialog {orq : Orq} {resp : Response} (h : (view s).Agree R)
    (hkeeps : (resp.method = .invite ∨ resp.method = .subscribe) →
      ∀ x ∈ s.findInviteByOrq orq, s.ResponseKeeps R x.1 x.2 resp) :
    (view (s.processResponseOutsideDialog orq resp)).Agree R := by
  unfold processResponseOutsideDialog
  split
  · rename_i hmethod
    cases hfound : s.findInviteByOrq orq with
    | none => exact h
    | some x =>
      obtain ⟨leg, d⟩ := x
      obtain ⟨hd, -⟩ := findInviteByOrq_eq_some hfound
      exact agree_responseToInvite h hd (hkeeps hmethod (leg, d) hfound)
  · split
    · exact h
    · rw [view_routeResponseInsideTransaction]
      have hsame : view (if 200 ≤ resp.status then s.clearRIP orq else s) = view s := by split <;> rfl
      rw [hsame]
      generalize (if 200 ≤ resp.status then s.clearRIP orq else s) = s1
      split
      · refine h.forget fun l k hl => ?_
        obtain ⟨e, -, -, hid, -⟩ := view_stable_eq_some hl
        exact absurd hid dialogId_ne_empty
      · exact h

/-- The response to a request in a dialog clears the dialog: to a BYE that is not challenged, or to the last NOTIFY. -/
def Clears (rip : RequestInProgress) (resp : Response) : Prop :=
  rip.clearDialogOnResponse = true ∧ ¬(resp.method = .bye ∧ (resp.status = 407 ∨ resp.status = 401))

instance {rip : RequestInProgress} {resp : Response} : Decidable (Clears rip resp) := inferInstanceAs (Decidable (_ ∧ _))

/-- A response that takes the dialog id away must clear the dialog, and one that clears the dialog must take the id away. -/
def InsideKeeps (rip : RequestInProgress) (resp : Response) (s : Registries) : Prop :=
  if s.forgets rip.transactionId resp.method = true then Clears rip resp ∨ s.owned rip.dialogId = false
  else Clears rip resp → (s.findDialogById rip.dialogId).isSome = false ∨ rip.dialogId ∉ s.dialogs ∨
    s.inProgress rip.dialogId = true

instance {rip : RequestInProgress} {resp : Response} : Decidable (s.InsideKeeps rip resp) :=
  inferInstanceAs (Decidable (ite _ _ _))

theorem agree_processResponseInsideDialog {orq : Orq} {resp : Response} (h : (view s).Agree R)
    (hkeeps : ∀ rip ∈ s.rips.lookup orq, s.InsideKeeps rip resp) :
    (view (s.processResponseInsideDialog orq resp)).Agree R := by
  unfold processResponseInsideDialog
  cases hrip : s.rips.lookup orq with
  | none => exact h
  | some rip =>
    have hk := hkeeps rip hrip
    unfold InsideKeeps at hk
    have hclear : ∀ s' : Registries, view (s'.clearRIP orq) = view s' := fun _ => rfl
    have hview := @view_routeResponseInsideTransaction s rip.dialogId rip.transactionId resp.method resp.status
    have hsame : Routed s (s.routeResponseInsideTransaction rip.transactionId rip.dialogId resp.method resp.status) :=
      routed_routeResponseInsideTransaction
    dsimp only
    rw [hclear]
    generalize s.routeResponseInsideTransaction rip.transactionId rip.dialogId resp.method resp.status = s1 at hview hsame
    have hfind : s1.findDialogById rip.dialogId = s.findDialogById rip.dialogId := by
      unfold findDialogById find
      rw [hsame.legs]
    split
    · rename_i hclears
      rcases clearStableById_cases rip.dialogId s1 with ⟨heq, hnone⟩ | ⟨l, d, hfound, heq⟩
      · rw [heq, hview]
        split
        · refine h.forget fun l k hl => ?_
          have hsome := findDialogById_isSome.mpr ⟨l, some k, hl⟩
          rw [← hfind, hnone] at hsome
          exact nomatch hsome
        · exact h
      · obtain ⟨hd, hstable, hid⟩ := findDialogById_eq_some (hfind ▸ hfound)
        rw [heq, view_clearStable, hview]
        split
        · rw [← hid]
          exact agree_drop h hd (ownedElsewhere_of_stable h hd hstable)
        · rename_i hforgets
          rw [if_neg hforgets] at hk
          have hmay := (hk hclears).resolve_left (by rw [← hfind, hfound]; exact Bool.noConfusion)
          exact agree_unstable h hd (hid ▸ hmay)
    · rename_i hclears
      rw [hview]
      split
      · rename_i hforgets
        rw [if_pos hforgets] at hk
        exact h.forget fun l k hl => gone_of_owned_eq_false (hk.resolve_left hclears) hl
      · exact h

theorem agree_processResponseToRefreshingReinvite {orq : Orq} {status : Option Nat} (h : (view s).Agree R) :
    (view (s.processResponseToRefreshingReinvite orq status)).Agree R := by
  have hclear : ∀ s' : Registries, view (s'.clearRIP orq) = view s' := fun _ => rfl
  unfold processResponseToRefreshingReinvite
  split
  · exact h
  · split
    · exact h
    · split
      · exact h
      · rename_i leg d hfound
        obtain ⟨hd, hstable, -⟩ := findDialogById_eq_some hfound
        split
        · exact h
        · unfold notifyTerminateStaleDialog
          rw [hclear, view_clearStable, view_routeUnsolicitedBye]
          exact agree_drop h hd (ownedElsewhere_of_stable h hd hstable)

/-! ### The INVITE that is answered -/

theorem agree_processCancelOrAck {e : IncomingEvent} (h : (view s).Agree R)
    (hkeeps : ∀ d ∈ s.legs.lookup leg, d.invite.any (·.orq.isNone) = true → s.MayLeave leg d) :
    (view (s.processCancelOrAck leg e)).Agree R := by
  unfold processCancelOrAck
  cases hfound : (s.legs.lookup leg).filter fun d => d.invite.any fun i => i.orq.isNone with
  | none => exact h
  | some d =>
    obtain ⟨hd, hincoming⟩ := filter_lookup_eq_some hfound
    have hleave := agree_leave h hd (hkeeps d hd hincoming)
    have hnet : ∀ s' : Registries, view (s'.removeNetTransaction d.transactionId) = view s' := fun _ => rfl
    cases e with
    | timeout =>
      dsimp only
      rw [view_clearInvite, view_clearSipTimers]
      exact hleave
    | cancel =>
      dsimp only
      rw [view_clearInvite, hnet, view_routeRequestInsideInvite]
      exact hleave
    | ack t =>
      dsimp only
      rw [view_routeAckRequestInsideDialog, view_clearSipTimers, view_clearInvite]
      exact hleave

theorem owned_of_ownedElsewhere (h : s.ownedElsewhere leg id = true) : s.owned id = true := by
  obtain ⟨e, he, hp⟩ := List.any_eq_true.mp h
  exact List.any_eq_true.mpr ⟨e, he, (Bool.and_eq_true_iff.mp hp).2⟩

theorem owned_of_stable {c : ClientId} (hd : s.legs.lookup leg = some d) (hstable : d.stable = true)
    (howner : d.owner = some c)
    (hc : c ∉ s.gone) : s.owned d.dialogId = true :=
  List.any_eq_true.mpr ⟨⟨leg, d⟩, mem_entries.mpr hd, by simp [hstable, howner, lock_isSome hc]⟩

/-- A PRACK enters the id of a dialog that is being set up; whoever has a stable dialog with it must be connected. -/
theorem agree_processPrack {rel : Reliable} {r : Request} (h : (view s).Agree R) (hprack : r.method = .prack)
    (hkeeps : ∀ x ∈ s.findInviteByReliable rel, s.owned x.2.dialogId = true →
    (s.findClientForDialog x.2.dialogId).isSome = true) :
    (view (s.processPrack rel r)).Agree R := by
  unfold processPrack
  cases hfound : s.findInviteByReliable rel with
  | none => exact h
  | some x =>
    obtain ⟨leg, d⟩ := x
    obtain ⟨hd, hinvite⟩ := findInviteByReliable_eq_some hfound
    have hk := hkeeps (leg, d) hfound
    have hadd : ∀ s' : Registries, view (s'.addIncomingRequestTransaction r.transactionId ⟨r.method, d.owner⟩) =
      view s' := fun _ => rfl
    have hkept : ¬(r.method = .bye ∨ r.isFinalNotify = true) := by
      rintro (hbye | hnotify)
      · exact nomatch hprack.symm.trans hbye
      · exact nomatch hprack.symm.trans (isFinalNotify_method hnotify)
    dsimp only
    rw [hadd, view_modify_hidden (@hidden_invite fun i => { i with reliables := i.reliables.erase rel }),
      view_routeRequestInsideDialog,
      if_neg hkept, view_addDialogForTransaction, view_eq_set hd, View.set_setDialog]
    have hknown : s.Known leg d.dialogId := fun helse => hk (owned_of_ownedElsewhere helse)
    refine agree_set h hd ?_ (fun _ => .inr (.inl hinvite)) (fun k hstable hgone => ?_) hknown.cases
    · by_cases hstable : d.stable = true
      · exact .inr ⟨.inl hstable, if_pos hstable⟩
      · exact .inl (if_neg hstable)
    · by_cases hs : d.stable = true
      · rw [if_pos hs] at hstable
        have howner : d.owner = some k := Option.some.inj hstable
        obtain ⟨c, hc⟩ := Option.isSome_iff_exists.mp (hk (owned_of_stable hd hs howner hgone))
        obtain ⟨k', hk', hR⟩ := h.owned leg d.dialogId k (howner ▸ view_stable_of_lookup hd hs) hgone
        have heq : c = k' := Option.some.inj ((lock_eq_some hc).1.symm.trans hk')
        exact ⟨c, candidate_of_known hc, heq ▸ hR⟩
      · rw [if_neg hs] at hstable
        exact nomatch hstable

/-! ### Timers -/

theorem agree_notifyTerminateStaleDialog (h : (view s).Agree R) (hd : s.legs.lookup leg = some d)
    (hothers : s.ownedElsewhere leg d.dialogId = false) : (view (s.notifyTerminateStaleDialog leg d)).Agree R := by
  unfold notifyTerminateStaleDialog
  rw [view_clearStable, view_routeUnsolicitedBye]
  exact agree_drop h hd hothers

theorem agree_doSessionTimerHandling {refresh : Option (String × Option Orq)} (h : (view s).Agree R)
    (hkeeps : ∀ d ∈ s.legs.lookup leg, refresh.bind (·.2) = none → s.ownedElsewhere leg d.dialogId = false) :
    (view (s.doSessionTimerHandling leg refresh)).Agree R := by
  unfold doSessionTimerHandling
  cases hd : s.legs.lookup leg with
  | none => exact h
  | some d =>
    have hk := hkeeps d hd
    match refresh with
    | none => exact agree_notifyTerminateStaleDialog h hd (hk rfl)
    | some (u, none) => exact agree_notifyTerminateStaleDialog h hd (hk rfl)
    | some (u, some orq) => exact h

theorem agree_notifyCancelTimeoutReachedIIP (h : (view s).Agree R)
    (hkeeps : ∀ d ∈ s.legs.lookup leg, d.invite.any (·.canceled) = true → s.MayLeave leg d) :
    (view (s.notifyCancelTimeoutReachedIIP leg)).Agree R := by
  unfold notifyCancelTimeoutReachedIIP
  cases hfound : (s.legs.lookup leg).filter fun d => d.invite.any (·.canceled) with
  | none => exact h
  | some d =>
    obtain ⟨hd, hcanceled⟩ := filter_lookup_eq_some hfound
    dsimp only
    rw [view_clearInvite]
    exact agree_leave h hd (hkeeps d hd hcanceled)

theorem agree_endRetransmitFinalResponse {byeFails : Bool} (h : (view s).Agree R)
    (hkeeps : ∀ d ∈ s.legs.lookup leg, d.timerH = true →
      if byeFails = true then s.MayEnd leg d else s.ownedElsewhere leg d.dialogId = false) :
    (view (s.endRetransmitFinalResponse leg byeFails)).Agree R := by
  unfold endRetransmitFinalResponse
  cases hfound : (s.legs.lookup leg).filter (·.timerH) with
  | none => exact h
  | some d =>
    obtain ⟨hd, htimer⟩ := filter_lookup_eq_some hfound
    have hk := hkeeps d hd htimer
    dsimp only
    split
    · rename_i hfails
      rw [if_pos hfails] at hk
      have hend := agree_end h hd hk
      rw [view_eq_set hd, View.set_setStable_none, View.set_setInvite_none] at hend
      rw [view_clearStable, view_clearInvite, view_clearSipTimers, view_eq_set hd, View.set_setInvite_none,
        View.set_setStable_none]
      exact hend
    · rename_i hfails
      rw [if_neg hfails] at hk
      rw [view_clearStable, view_routeUnsolicitedBye, view_clearInvite, view_clearSipTimers]
      exact agree_drop_all' h hd hk

/-! ### Requests of an application -/

theorem view_addTransactionFor {client : ClientId} {m : Method} : view (s.addTransactionFor client m t) = view s := by
  rw [addTransactionFor_eq]
  rfl

theorem findDialogById_addTransactionFor {client : ClientId} {m : Method} :
    (s.addTransactionFor client m t).findDialogById id = s.findDialogById id := by
  rw [addTransactionFor_eq]
  rfl

theorem view_clearRIPByDialogId : view (s.clearRIPByDialogId id) = view s := by
  unfold clearRIPByDialogId
  split <;> rfl

theorem agree_cancelReinvite (h : (view s).Agree R) (hd : s.legs.lookup leg = some d) (hstable : d.stable = true) :
    (view (s.cancelReinvite leg d)).Agree R := by
  unfold cancelReinvite
  split
  · rw [view_clearRIPByDialogId, view_clearInvite]
    exact agree_leave h hd (.inl hstable)
  · exact h

/-- The dialog that the request is sent in is stable, so its invite in progress may go. -/
theorem agree_doSendRequestInsideDialog {client : ClientId} {m : Method} {env : SendEnv} (h : (view s).Agree R)
    (hkeeps : ∀ x ∈ s.findDialogById id, m = .ack → env.fails = false → x.2.status ≠ 200 →
      x.2.dialogId ∉ s.dialogs ∨ s.inProgress x.2.dialogId = true) :
    (view (s.doSendRequestInsideDialog client t id m env)).Agree R := by
  unfold doSendRequestInsideDialog
  have happ : ∀ s' : Registries, view (s'.removeAppTransaction t) = view s' := fun _ => rfl
  dsimp only
  rw [findDialogById_addTransactionFor]
  cases hfound : s.findDialogById id with
  | none =>
    dsimp only
    rw [happ, view_addTransactionFor]
    exact h
  | some x =>
    obtain ⟨leg, d⟩ := x
    obtain ⟨hd0, hstable, hid⟩ := findDialogById_eq_some hfound
    have hk := hkeeps (leg, d) hfound
    obtain ⟨s1, hs1, hview1, hd, hprogress, hdialogs, hfind⟩ : ∃ s1, s.addTransactionFor client m t = s1 ∧ view s1 = view s ∧
        s1.legs.lookup leg = some d ∧ s1.inProgress d.dialogId = s.inProgress d.dialogId ∧ s1.dialogs = s.dialogs ∧
        s1.findDialogById d.dialogId = s.findDialogById d.dialogId := by
      refine ⟨_, rfl, view_addTransactionFor, ?_, ?_, ?_, ?_⟩ <;> rw [addTransactionFor_eq]
      · exact hd0
      · rfl
      · rfl
    rw [hs1]
    have h1 : (view s1).Agree R := hview1 ▸ h
    have hothers := ownedElsewhere_of_stable h1 hd hstable
    dsimp only
    split
    · -- The request is not sent, but a BYE ends a re-INVITE all the same.
      rw [happ]
      split
      · exact agree_cancelReinvite h1 hd hstable
      · exact h1
    · rename_i hok
      rw [not_or] at hok
      split
      · rename_i hack
        have hnotBye : m ≠ .bye := fun hbye => nomatch hack.symm.trans hbye
        rw [if_neg hnotBye]
        unfold sendAck
        split
        · dsimp only
          -- The ACK of an INVITE that was canceled too late is followed by a BYE.
          split
          · unfold notifyTerminateStaleDialog
            rw [view_clearStable, view_routeUnsolicitedBye, view_clearInvite]
            exact agree_drop_all' h1 hd hothers
          · rw [view_clearInvite]
            exact agree_leave h1 hd (.inl hstable)
        · -- SD_Clear finds a dialog by its id, which need not be this one.
          rename_i hstatus
          have hmay := hk hack (Bool.eq_false_iff.mpr hok.1) hstatus
          rcases clearStableById_cases d.dialogId s1 with ⟨heq, -⟩ | ⟨l, e, hl, heq⟩
          · rw [heq]
            exact h1
          · obtain ⟨he, hestable, heid⟩ := findDialogById_eq_some hl
            rw [heq, view_clearStable]
            refine agree_unstable h1 he ?_
            rw [heid, hprogress, hdialogs]
            exact hmay
      · unfold sendInTransaction
        have hrip : ∀ (s' : Registries) (rip : RequestInProgress), view (s'.addRIP env.orq rip) = view s' := fun _ _ => rfl
        obtain ⟨s2, hs2, h2, hd2⟩ : ∃ s2, (if m = .bye then s1.cancelReinvite leg d else s1) = s2 ∧ (view s2).Agree R ∧
            (m = .invite → s2.legs.lookup leg = some d) := by
          by_cases hbye : m = .bye
          · refine ⟨_, if_pos hbye, ?_, fun hinvite => nomatch hbye.symm.trans hinvite⟩
            exact agree_cancelReinvite h1 hd hstable
          · exact ⟨s1, if_neg hbye, h1, fun _ => hd⟩
        rw [hs2]
        dsimp only
        split
        · rename_i hinvite
          have hd3 : (s2.addRIP env.orq ⟨t, d.dialogId, some leg,
              m == .bye || (!d.isInvite && m == .notify && env.terminated)⟩).legs.lookup leg = some d := hd2 hinvite
          rcases view_insertInvite hd3 with hview | hview
          · rw [hview, hrip]
            exact h2
          · rw [hview, hrip]
            exact h2.invite (view_on (hd2 hinvite))
        · rw [hrip]
          exact h2

theorem view_newDialog {orq : Option Orq} (hleg : leg ∉ s.legs) (hstable : d.stable = false) (hinvite : d.invite = none) :
    view (s.newDialog leg d orq) = view s ∨ view (s.newDialog leg d orq) = (view s).setInvite leg (some d.dialogId) := by
  have hfree : s.legs.lookup leg = none := AList.lookup_eq_none.mpr hleg
  have hlegs : s.legs.lookup leg = none := hfree
  have hplain : view { s with legs := s.legs.insert leg d } = view s := by
    refine View.ext rfl rfl ?_ ?_
    · funext l
      by_cases hl : l = leg
      · have hnow : obs shownStable { s with legs := s.legs.insert leg d } l = none := by
          rw [hl, obs_of_lookup (show AList.lookup leg (s.legs.insert leg d) = some d from AList.lookup_insert ..),
            shownStable, if_neg (Bool.eq_false_iff.mp hstable)]
        have hbefore : obs shownStable s l = none := by rw [hl, obs, hfree, Option.bind_none]
        exact hnow.trans hbefore.symm
      · exact congrArg (Option.bind · shownStable) (AList.lookup_insert_ne hl)
    · funext l
      by_cases hl : l = leg
      · have hnow : obs shownInvite { s with legs := s.legs.insert leg d } l = none := by
          rw [hl, obs_of_lookup (show AList.lookup leg (s.legs.insert leg d) = some d from AList.lookup_insert ..),
            shownInvite, hinvite]
          rfl
        have hbefore : obs shownInvite s l = none := by rw [hl, obs, hlegs, Option.bind_none]
        exact hnow.trans hbefore.symm
      · exact congrArg (Option.bind · shownInvite) (AList.lookup_insert_ne hl)
  have hd : ({ s with legs := s.legs.insert leg d } : Registries).legs.lookup leg = some d := AList.lookup_insert ..
  unfold newDialog
  rcases view_insertInvite hd with hview | hview
  · exact .inl (hview.trans hplain)
  · exact .inr (hview.trans (congrArg _ hplain))

theorem agree_doSendRequestOutsideDialog {client : ClientId} {m : Method} {env : SendOutsideEnv} (h : (view s).Agree R)
    (hleg : env.leg ∉ s.legs) : (view (s.doSendRequestOutsideDialog client t m env)).Agree R := by
  unfold doSendRequestOutsideDialog
  have happ : ∀ s' : Registries, view (s'.removeAppTransaction t) = view s' := fun _ => rfl
  have hrip : ∀ (s' : Registries) (rip : RequestInProgress), view (s'.addRIP env.orq rip) = view s' := fun _ _ => rfl
  have hlegs : (s.addTransactionFor client m t).legs = s.legs := by rw [addTransactionFor_eq]
  have h1 : (view (s.addTransactionFor client m t)).Agree R := by
    rw [view_addTransactionFor]
    exact h
  generalize s.addTransactionFor client m t = s1 at hlegs h1
  dsimp only
  split
  · rw [happ]
    exact h1
  · split
    · have hleg1 : env.leg ∉ s1.legs := hlegs ▸ hleg
      rcases @view_newDialog s1 env.leg
          (.new env.callId env.fromTag t (m == .invite) (s1.appTransactions.lookup t) 0) (some env.orq) hleg1 rfl
          rfl with hview | hview
      · rw [hview]
        exact h1
      · rw [hview]
        exact h1.invite (view_on_of_none (AList.lookup_eq_none.mpr hleg1))
    · rw [hrip]
      exact h1

end Drachtio.Dialog.Registries
