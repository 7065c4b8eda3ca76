import Drachtio.Theorems.Dialog.Backed
import Drachtio.Theorems.Dialog.Keeps

/-! How what arrives from the network and the timers keep the registries of transactions in agreement: an INVITE that
    is answered must not go before its net transaction, and a request that is kept needs one. -/

namespace Drachtio.Dialog.Registries

open Pending (PendingRequests PendingRequest Arrival)

variable {s s' : Registries} {leg : Leg} {d : SipDialog} {t u id : String} {X Y : String → Prop}

/-! ### An INVITE that is answered goes -/

/-- A request in progress holds the object. -/
def ripped (leg : Leg) (s : Registries) : Bool := s.rips.entries.any fun e => e.2.dlg == some leg

/-- The invite in progress may go: it has no net transaction, or its object goes with it. -/
def Releases (d : SipDialog) (held : Bool) (s : Registries) : Prop :=
  d.invite.any (·.orq.isNone) = true → d.transactionId ∉ s.netTransactions ∨ held = false

instance {held : Bool} : Decidable (s.Releases d held) := inferInstanceAs (Decidable (_ → _ ∨ _))

theorem leaving_of_lookup (hd : s.legs.lookup leg = some d) (htxn : d.transactionId = t) (hstable : d.stable = false)
    (hinvite : d.invite = none) (htimer : d.timerH = false) (hrips : s.ripped leg = false) : s.Leaving t := by
  refine ⟨leg, d, hd, htxn, ?_⟩
  have href : s.referenced leg d = (d.stable || d.invite.isSome || d.timerH || s.ripped leg) := rfl
  rw [href, hstable, hinvite, htimer, hrips]
  rfl

theorem ripped_modify {l : Leg} {g : SipDialog → SipDialog} : (s.modify l g).ripped leg = s.ripped leg := by
  rw [modify_eq]
  rfl

theorem Routed.ripped (h : Routed s s') : s'.ripped leg = s.ripped leg := by rw [Registries.ripped, h.rips, Registries.ripped]

/-- The handler changes the transaction of one object, and otherwise only ids that are backed at its end. -/
theorem handled_release (hb : s.Backed) (hdistinct : s.Distinct) (hd : s.legs.lookup leg = some d)
    (hf : Frame X (· = d.transactionId) s s') (hX : ∀ t, X t → t ≠ d.transactionId → s'.BackedAt t)
    (hirqs : d.transactionId ∉ s'.irqs) (hnet : d.transactionId ∈ s'.netTransactions → d.transactionId ∈ s.netTransactions)
    (hsettled : d.invite.any (·.orq.isNone) = true → d.transactionId ∈ s'.netTransactions → s'.Leaving d.transactionId) :
    s'.Handled := by
  intro t
  by_cases ht : t = d.transactionId
  · rw [ht]
    by_cases hmem : d.transactionId ∈ s'.netTransactions
    · exact .inr ⟨hirqs, hsettled (hb.incoming hdistinct hd (hnet hmem)) hmem⟩
    · exact .inl (.absent hmem hirqs)
  · by_cases hx : X t
    · exact .inl (hX t hx ht)
    · exact .inl ((hb t).frame hf hx ht)

theorem handled_release_of_quiet (hb : s.Backed) (hdistinct : s.Distinct) (hd : s.legs.lookup leg = some d)
    (hf : Frame (fun _ => False) (· = d.transactionId) s s')
    (hsettled : d.invite.any (·.orq.isNone) = true → d.transactionId ∈ s.netTransactions → s'.Leaving d.transactionId) :
    s'.Handled := by
  have hnet : d.transactionId ∈ s'.netTransactions ↔ d.transactionId ∈ s.netTransactions := mem_congr (hf.net _ id)
  refine handled_release hb hdistinct hd hf (fun _ => False.elim) (fun hmem => ?_) hnet.mp fun hincoming hmem => ?_
  · exact hdistinct.irqs leg d hd ((mem_congr (hf.irqs _ id)).mp hmem)
  · exact hsettled hincoming (hnet.mp hmem)

theorem frame_clearInvite (hd : s.legs.lookup leg = some d) : Frame X (· = d.transactionId) s (s.clearInvite leg) := by
  refine Frame.clearInvite fun e he => ?_
  cases hd.symm.trans he
  rfl

/-! ### The ACK -/

theorem findClient_modify {g : SipDialog → SipDialog} :
    ((s.modify leg g).findClientForDialog id).or ((s.modify leg g).findClientForNetTransaction t) =
      (s.findClientForDialog id).or (s.findClientForNetTransaction t) := by
  rw [modify_eq]
  rfl

/-- The ACK finds a client, or the INVITE may go without. -/
def AckKeeps (leg : Leg) (d : SipDialog) (s : Registries) : Prop :=
  ((s.findClientForDialog d.dialogId).or (s.findClientForNetTransaction d.transactionId)).isSome = true ∨
    s.Releases d (d.stable || s.ripped leg)

instance : Decidable (s.AckKeeps leg d) := inferInstanceAs (Decidable (_ ∨ _))

theorem handled_ack (hb : s.Backed) (hdistinct : s.Distinct) (hd : s.legs.lookup leg = some d) (hkeeps : s.AckKeeps leg d) :
    (((s.clearInvite leg).clearSipTimers leg).routeAckRequestInsideDialog u d.transactionId d.dialogId).Handled := by
  have hclear : Frame (fun _ => False) (· = d.transactionId) s ((s.clearInvite leg).clearSipTimers leg) :=
    (frame_clearInvite hd).trans Frame.clearSipTimers
  have hd1 : ((s.clearInvite leg).clearSipTimers leg).legs.lookup leg = some { d with invite := none, timerH := false } := by
    rw [clearSipTimers, lookup_modify_self, clearInvite, lookup_modify_self, hd]
    rfl
  have hrips : ((s.clearInvite leg).clearSipTimers leg).ripped leg = s.ripped leg := ripped_modify.trans ripped_modify
  have hclient : (((s.clearInvite leg).clearSipTimers leg).findClientForDialog d.dialogId).or
      (((s.clearInvite leg).clearSipTimers leg).findClientForNetTransaction d.transactionId) =
      (s.findClientForDialog d.dialogId).or (s.findClientForNetTransaction d.transactionId) :=
        findClient_modify.trans findClient_modify
  generalize (s.clearInvite leg).clearSipTimers leg = s1 at hclear hd1 hrips hclient
  unfold AckKeeps at hkeeps
  unfold routeAckRequestInsideDialog
  rw [hclient]
  cases hc : (s.findClientForDialog d.dialogId).or (s.findClientForNetTransaction d.transactionId) with
  | none =>
    rw [hc] at hkeeps
    refine handled_release_of_quiet hb hdistinct hd hclear fun hincoming hmem => ?_
    have hfree := ((hkeeps.resolve_left Bool.false_ne_true) hincoming).resolve_left (not_not.mpr hmem)
    obtain ⟨hstable, hripped⟩ := Bool.or_eq_false_iff.mp hfree
    exact leaving_of_lookup hd1 rfl hstable rfl rfl (hrips.trans hripped)
  | some c =>
    dsimp only
    have hgone : d.transactionId ∉ ((s1.send c u d.dialogId).removeNetTransaction d.transactionId).netTransactions :=
      fun hmem => (AList.mem_erase.mp hmem).1 rfl
    have hsend : Frame (fun _ => False) (· = d.transactionId) s (s1.send c u d.dialogId) :=
      hclear.trans (Frame.of_eq rfl rfl rfl rfl rfl)
    intro t
    by_cases ht : t = d.transactionId
    · rw [ht]
      refine .inl (.absent hgone fun hmem => hdistinct.irqs leg d hd ?_)
      exact (mem_congr (hclear.irqs _ id)).mp hmem
    · have hnoirq : d.transactionId ∉ (s1.send c u d.dialogId).irqs :=
        fun hmem => hdistinct.irqs leg d hd ((mem_congr (hclear.irqs _ id)).mp hmem)
      exact .inl (((hb t).frame hsend id ht).removeNetTransaction hnoirq)

theorem handled_processCancelOrAck {e : IncomingEvent} (hb : s.Backed) (hdistinct : s.Distinct)
    (hkeeps : ∀ d ∈ s.legs.lookup leg, d.invite.any (·.orq.isNone) = true →
      match e with
      | .timeout => s.Releases d (d.stable || s.ripped leg)
      | .cancel => True
      | .ack _ => s.AckKeeps leg d) : (s.processCancelOrAck leg e).Handled := by
  unfold processCancelOrAck
  cases hfound : (s.legs.lookup leg).filter fun d => d.invite.any fun i => i.orq.isNone with
  | none => exact hb.handled
  | some d =>
    obtain ⟨hd, hincoming⟩ := filter_lookup_eq_some hfound
    have hk := hkeeps d hd hincoming
    cases e with
    | timeout =>
      have hd1 : ((s.clearSipTimers leg).clearInvite leg).legs.lookup leg =
          some { d with timerH := false, invite := none } := by
        rw [clearInvite, lookup_modify_self, clearSipTimers, lookup_modify_self, hd]
        rfl
      have hrips : ((s.clearSipTimers leg).clearInvite leg).ripped leg = s.ripped leg := ripped_modify.trans ripped_modify
      have hclear : Frame (fun _ => False) (· = d.transactionId) s ((s.clearSipTimers leg).clearInvite leg) := by
        refine Frame.clearSipTimers.trans (Frame.clearInvite fun e he => ?_)
        rw [clearSipTimers, lookup_modify_self, hd] at he
        cases he
        rfl
      refine handled_release_of_quiet hb hdistinct hd hclear fun hincoming hmem => ?_
      obtain ⟨hstable, hripped⟩ := Bool.or_eq_false_iff.mp ((hk hincoming).resolve_left (not_not.mpr hmem))
      exact leaving_of_lookup hd1 rfl hstable rfl rfl (hrips.trans hripped)
    | cancel =>
      dsimp only
      have hd1 : (s.routeRequestInsideInvite d.transactionId d.dialogId).legs.lookup leg = some d := by
        rw [routed_routeRequestInsideInvite.legs]
        exact hd
      have hroute : Frame (fun _ => False) (fun _ => False) s (s.routeRequestInsideInvite d.transactionId d.dialogId) :=
        Frame.routeRequestInsideInvite
      have hb1 := hb.frame hroute
      have hdistinct1 : (s.routeRequestInsideInvite d.transactionId d.dialogId).Distinct :=
        hdistinct.shrinks routed_routeRequestInsideInvite.grows
      generalize s.routeRequestInsideInvite d.transactionId d.dialogId = s1 at hd1 hb1 hdistinct1
      have hnoirq := hdistinct1.irqs leg d hd1
      have hb2 : (s1.removeNetTransaction d.transactionId).Backed := fun t => (hb1 t).removeNetTransaction hnoirq
      have hd2 : (s1.removeNetTransaction d.transactionId).legs.lookup leg = some d := hd1
      refine handled_release_of_quiet hb2 (hdistinct1.shrinks Grows.removeNetTransaction) hd2 (frame_clearInvite hd2)
        fun _ hmem => ?_
      exact absurd rfl (AList.mem_erase.mp hmem).1
    | ack t => exact handled_ack hb hdistinct hd hk

/-! ### Timers -/

theorem handled_notifyCancelTimeoutReachedIIP (hb : s.Backed) (hdistinct : s.Distinct)
    (hkeeps : ∀ d ∈ s.legs.lookup leg, d.invite.any (·.canceled) = true → s.Releases d
    (d.stable || d.timerH || s.ripped leg)) :
    (s.notifyCancelTimeoutReachedIIP leg).Handled := by
  unfold notifyCancelTimeoutReachedIIP
  cases hfound : (s.legs.lookup leg).filter fun d => d.invite.any (·.canceled) with
  | none => exact hb.handled
  | some d =>
    obtain ⟨hd, hcanceled⟩ := filter_lookup_eq_some hfound
    have hk := hkeeps d hd hcanceled
    have hd0 : (s.removeAppTransaction d.transactionId).legs.lookup leg = some d := hd
    have hd1 : ((s.removeAppTransaction d.transactionId).clearInvite leg).legs.lookup leg =
        some { d with invite := none } := by
      rw [clearInvite, lookup_modify_self, hd0]
      rfl
    have hrips : ((s.removeAppTransaction d.transactionId).clearInvite leg).ripped leg = s.ripped leg := ripped_modify
    have happ : Frame (fun _ => False) (· = d.transactionId) s (s.removeAppTransaction d.transactionId) :=
      Frame.of_eq rfl rfl rfl rfl rfl
    refine handled_release_of_quiet hb hdistinct hd (happ.trans (frame_clearInvite hd0)) fun hincoming hmem => ?_
    obtain ⟨hheld, hripped⟩ := Bool.or_eq_false_iff.mp ((hk hincoming).resolve_left (not_not.mpr hmem))
    obtain ⟨hstable, htimer⟩ := Bool.or_eq_false_iff.mp hheld
    exact leaving_of_lookup hd1 rfl hstable rfl htimer (hrips.trans hripped)

/-- The whole dialog is taken down. -/
theorem handled_teardown (hb : s.Backed) (hdistinct : s.Distinct) (hd : s.legs.lookup leg = some d)
    (hkeeps : s.Releases d (s.ripped leg))
    (hf : Frame (fun _ => False) (· = d.transactionId) s s')
    (hd' : s'.legs.lookup leg = some { d with timerH := false, stable := false, invite := none })
    (hrips : s'.ripped leg = s.ripped leg) :
    s'.Handled := by
  refine handled_release_of_quiet hb hdistinct hd hf fun hincoming hmem => ?_
  have hripped := (hkeeps hincoming).resolve_left (not_not.mpr hmem)
  exact leaving_of_lookup hd' rfl rfl rfl rfl (hrips.trans hripped)

theorem handled_endRetransmitFinalResponse {byeFails : Bool} (hb : s.Backed) (hdistinct : s.Distinct)
    (hkeeps : ∀ d ∈ s.legs.lookup leg, d.timerH = true → s.Releases d (s.ripped leg)) :
    (s.endRetransmitFinalResponse leg byeFails).Handled := by
  unfold endRetransmitFinalResponse
  cases hfound : (s.legs.lookup leg).filter (·.timerH) with
  | none => exact hb.handled
  | some d =>
    obtain ⟨hd, htimer⟩ := filter_lookup_eq_some hfound
    have hk := hkeeps d hd htimer
    have hd1 : ((s.clearSipTimers leg).clearInvite leg).legs.lookup leg =
        some { d with timerH := false, invite := none } := by
      rw [clearInvite, lookup_modify_self, clearSipTimers, lookup_modify_self, hd]
      rfl
    have hrips : ((s.clearSipTimers leg).clearInvite leg).ripped leg = s.ripped leg := ripped_modify.trans ripped_modify
    have hclear : Frame (fun _ => False) (· = d.transactionId) s ((s.clearSipTimers leg).clearInvite leg) := by
      refine Frame.clearSipTimers.trans (Frame.clearInvite fun e he => ?_)
      rw [clearSipTimers, lookup_modify_self, hd] at he
      cases he
      rfl
    dsimp only
    generalize (s.clearSipTimers leg).clearInvite leg = s1 at hd1 hrips hclear
    split
    · refine handled_teardown hb hdistinct hd hk (hclear.trans Frame.clearStable) ?_ (ripped_modify.trans hrips)
      rw [clearStable, lookup_modify_self, hd1]
      rfl
    · have hbye : Routed s1 (s1.routeUnsolicitedBye d.dialogId) := routed_routeUnsolicitedBye
      refine handled_teardown hb hdistinct hd hk (hclear.trans (Frame.routeUnsolicitedBye.trans Frame.clearStable)) ?_
        (ripped_modify.trans (hbye.ripped.trans hrips))
      rw [clearStable, lookup_modify_self, hbye.legs, hd1]
      rfl

/-! ### Requests on a leg -/

theorem handled_cancelInsideDialog {r : Request} (hb : s.Backed) (hdistinct : s.Distinct) (hd : s.legs.lookup leg = some d)
    (hkeeps : s.comesTooLate r = true → s.Releases d (s.ripped leg)) : (s.cancelInsideDialog leg d r).Handled := by
  unfold cancelInsideDialog
  split
  · exact hb.handled
  · rename_i p _
    have hcancel : Backed { s with pending := s.pending.cancel p } := fun t => ⟨(hb t).net, (hb t).sent, (hb t).irq⟩
    dsimp only
    cases s.findClientForNetTransaction p.transactionId with
    | none => exact hcancel.handled
    | some c =>
      have hsend : Frame (fun _ => False) (fun _ => False) { s with pending := s.pending.cancel p }
          (send c p.transactionId "" { s with pending := s.pending.cancel p }) := Frame.of_eq rfl rfl rfl rfl rfl
      exact (hcancel.frame hsend).handled
  · rename_i hp
    have hk := hkeeps (by rw [comesTooLate, hp]; rfl)
    have hbye : Routed (s.clearSipTimers leg) ((s.clearSipTimers leg).routeUnsolicitedBye d.dialogId) :=
      routed_routeUnsolicitedBye
    have hd1 : (((s.clearSipTimers leg).routeUnsolicitedBye d.dialogId).clearStable leg).legs.lookup leg =
        some { d with timerH := false, stable := false } := by
      rw [clearStable, lookup_modify_self, hbye.legs, clearSipTimers, lookup_modify_self, hd]
      rfl
    have hf : Frame (fun _ => False) (· = d.transactionId) s
      (((s.clearSipTimers leg).routeUnsolicitedBye d.dialogId).clearStable leg) :=
      (Frame.clearSipTimers.trans Frame.routeUnsolicitedBye).trans Frame.clearStable
    have hclear :
      Frame (fun _ => False) (· = d.transactionId) (((s.clearSipTimers leg).routeUnsolicitedBye d.dialogId).clearStable leg)
        ((((s.clearSipTimers leg).routeUnsolicitedBye d.dialogId).clearStable leg).clearInvite leg) := by
      refine Frame.clearInvite fun e he => ?_
      cases hd1.symm.trans he
      rfl
    refine handled_teardown hb hdistinct hd hk (hf.trans hclear) ?_ ?_
    · rw [clearInvite, lookup_modify_self, hd1]
      rfl
    · exact ripped_modify.trans (ripped_modify.trans (hbye.ripped.trans ripped_modify))

theorem clearReinvite_tables :
    (s.clearReinvite d).netTransactions = s.netTransactions ∧ (s.clearReinvite d).irqs = s.irqs := by
  unfold clearReinvite
  split
  · exact ⟨rfl, rfl⟩
  · rename_i l e _
    have hclear : (s.clearInvite l).netTransactions = s.netTransactions ∧ (s.clearInvite l).irqs = s.irqs := by
      rw [clearInvite, modify_eq]
      exact ⟨rfl, rfl⟩
    dsimp only
    split
    · exact hclear
    · split
      · exact hclear
      · exact hclear

theorem endDialog_tables {r : Request} {routed : Bool} :
    (s.endDialog leg d r routed).netTransactions = s.netTransactions ∧
      (s.endDialog leg d r routed).irqs = if routed = false then s.irqs.erase r.transactionId else s.irqs := by
  have hclear : ((s.clearSipTimers leg).clearStable leg).netTransactions = s.netTransactions ∧
      ((s.clearSipTimers leg).clearStable leg).irqs = s.irqs := by
    rw [clearStable, modify_eq, clearSipTimers, modify_eq]
    exact ⟨rfl, rfl⟩
  unfold endDialog
  dsimp only
  rw [clearReinvite_tables.1, clearReinvite_tables.2]
  split
  · exact ⟨hclear.1, congrArg (AList.erase r.transactionId) hclear.2⟩
  · split
    · exact hclear
    · exact hclear

theorem admitRequest_net {r : Request} {routed : Bool} :
    (s.admitRequest leg d r routed).netTransactions = s.netTransactions := by
  unfold admitRequest
  dsimp only
  split
  · exact endDialog_tables.1
  · rfl

/-- A request that was routed, or that does not end the dialog, is kept. -/
theorem admitRequest_irqs {r : Request} {routed : Bool} (h : routed = true ∨ r.ends d = false) :
    (s.admitRequest leg d r routed).irqs = s.irqs.insertNew r.transactionId ⟨r.method, d.owner⟩ := by
  unfold admitRequest
  dsimp only
  split
  · rename_i hends
    have hrouted : routed = true := h.resolve_right (Bool.eq_false_iff.not_left.mpr hends)
    rw [endDialog_tables.2, if_neg (by rw [hrouted]; exact Bool.noConfusion)]
    rfl
  · rfl

theorem leaving_clearReinvite {e : SipDialog} (honly : s.OnlyAt leg d.transactionId) (he : s.legs.lookup leg = some e)
    (htxn : e.transactionId = d.transactionId) (hstable : e.stable = false) (htimer : e.timerH = false)
    (hincoming : e.invite.any (·.orq.isNone) = true) (hrips : s.ripped leg = false) :
    (s.clearReinvite d).Leaving d.transactionId := by
  unfold clearReinvite
  cases hfound : s.findInviteByTransactionId d.transactionId with
  | none => exact absurd htxn (findInviteByTransactionId_eq_none hfound he (isSome_of_any hincoming))
  | some x =>
    obtain ⟨l, e'⟩ := x
    obtain ⟨hl, -, ht⟩ := findInviteByTransactionId_eq_some hfound
    cases honly l e' hl ht
    cases he.symm.trans hl
    have horq : e.invite.bind (·.orq) = none := by
      obtain ⟨i, hi, hnone⟩ := (Option.any_eq_true _ _).mp hincoming
      rw [hi]
      exact Option.isNone_iff_eq_none.mp hnone
    have hd : (s.clearInvite leg).legs.lookup leg = some { e with invite := none } := by
      rw [clearInvite, lookup_modify_self, he]
      rfl
    dsimp only
    rw [horq]
    exact leaving_of_lookup hd htxn hstable rfl htimer (ripped_modify.trans hrips)

theorem leaving_admitRequest {r : Request} {routed : Bool} {e : SipDialog} (honly : s.OnlyAt leg d.transactionId)
    (he : s.legs.lookup leg = some e) (htxn : e.transactionId = d.transactionId) (hends : r.ends d = true)
    (hincoming : e.invite.any (·.orq.isNone) = true) (hrips : s.ripped leg = false) :
    (s.admitRequest leg d r routed).Leaving d.transactionId := by
  unfold admitRequest
  dsimp only
  rw [if_pos hends]
  have hrips1 : (s.addIncomingRequestTransaction r.transactionId ⟨r.method, d.owner⟩).ripped leg = false := hrips
  have he1 : (s.addIncomingRequestTransaction r.transactionId ⟨r.method, d.owner⟩).legs.lookup leg = some e := he
  have honly1 : (s.addIncomingRequestTransaction r.transactionId ⟨r.method, d.owner⟩).OnlyAt leg d.transactionId := honly
  generalize s.addIncomingRequestTransaction r.transactionId ⟨r.method, d.owner⟩ = s1 at hrips1 he1 honly1
  unfold endDialog
  dsimp only
  have honly2 : ((s1.clearSipTimers leg).clearStable leg).OnlyAt leg d.transactionId :=
    honly1.grows (U := fun _ => False) (W := fun _ => False) (Grows.clearSipTimers.trans Grows.clearStable)
  have he2 : ((s1.clearSipTimers leg).clearStable leg).legs.lookup leg =
      some { e with timerH := false, stable := false } := by
    rw [clearStable, lookup_modify_self, clearSipTimers, lookup_modify_self, he1]
    rfl
  have hrips2 : ((s1.clearSipTimers leg).clearStable leg).ripped leg = false :=
    ripped_modify.trans (ripped_modify.trans hrips1)
  generalize (s1.clearSipTimers leg).clearStable leg = s2 at honly2 he2 hrips2
  split
  · exact leaving_clearReinvite honly2 he2 htxn rfl rfl hincoming hrips2
  · split
    · exact leaving_clearReinvite honly2 he2 htxn rfl rfl hincoming hrips2
    · exact leaving_clearReinvite honly2 he2 htxn rfl rfl hincoming hrips2

/-! ### New requests -/

/-- An id that nothing has is in no table of transactions. -/
theorem Backed.unused (hb : s.Backed) (h : s.Unused t) : t ∉ s.netTransactions := by
  intro ht
  rcases (hb t).net ht with hirq | hpending | ⟨l, hl⟩
  · exact h.1 hirq
  · exact h.2.1 hpending
  · obtain ⟨d, hd, htxn, -⟩ := obs_shownTransaction hl
    exact h.legs hd htxn

theorem BackedAt.pending (h : s.BackedAt t) (hgone : s'.gone = s.gone)
    (hnet : s'.netTransactions.lookup t = s.netTransactions.lookup t)
    (hirqs : s'.irqs.lookup t = s.irqs.lookup t) (hlegs : s'.legs = s.legs)
    (hpending : t ∈ s.pending.txnId2Invite → t ∈ s'.pending.txnId2Invite) : s'.BackedAt t := by
  refine ⟨fun ht => ?_, fun l orq hl => ?_, fun irq hirq => ?_⟩
  · rcases h.net ((mem_congr hnet).mp ht) with hirq | hp | ⟨l, hl⟩
    · exact .inl ((mem_congr hirqs).mpr hirq)
    · exact .inr (.inl (hpending hp))
    · exact .inr (.inr ⟨l, by rw [obs_congr hlegs]; exact hl⟩)
  · rw [obs_congr hlegs] at hl
    exact fun ht => h.sent l orq hl ((mem_congr hnet).mp ht)
  · unfold Lost
    rw [hgone]
    exact (h.irq irq (hirqs.symm.trans hirq)).imp_left (mem_congr hnet).mpr

theorem mem_arrive {a : Arrival} {c : PendingRequests} (h : t ∈ c.txnId2Invite) : t ∈ (c.arrive a).txnId2Invite := by
  unfold PendingRequests.arrive
  split
  · have hadd : (c.add (PendingRequest.of a)).txnId2Invite = c.txnId2Invite.insertNew a.uuid (PendingRequest.of a) := rfl
    rw [hadd]
    by_cases hu : a.uuid ∈ c.txnId2Invite
    · rw [AList.insertNew_of_mem hu]
      exact h
    · rw [AList.insertNew_of_notMem hu]
      exact (AList.mem_insert _).mpr (.inr h)
  · exact h

theorem mem_arrive_self {a : Arrival} {c : PendingRequests} (h : c.admits a = true) : a.uuid ∈ (c.arrive a).txnId2Invite := by
  unfold PendingRequests.arrive
  rw [if_pos h]
  have hadd : (c.add (PendingRequest.of a)).txnId2Invite.lookup a.uuid =
    some ((c.txnId2Invite.lookup a.uuid).getD (PendingRequest.of a)) :=
    AList.lookup_insertNew_self
  exact AList.mem_of_lookup hadd

theorem backed_processMessageStatelessly {a : Arrival} (hb : s.Backed) (hdistinct : (s.processMessageStatelessly a).Distinct)
    (hnet : a.uuid ∉ s.netTransactions) (hirq : a.uuid ∉ s.irqs) : (s.processMessageStatelessly a).Backed := by
  intro t
  by_cases ht : t = a.uuid
  · subst ht
    by_cases hadmits : s.pending.admits a = true
    · refine .of_pending hdistinct ?_
      have hmem := mem_arrive_self hadmits
      unfold processMessageStatelessly
      dsimp only
      split
      · exact hmem
      · exact hmem
    · have hnot : ¬(s.pending.admits a = true ∧ a.routed = false) := fun h => hadmits h.1
      unfold processMessageStatelessly
      dsimp only
      rw [if_neg hnot]
      exact .absent hnet hirq
  · unfold processMessageStatelessly
    dsimp only
    split
    · exact (hb t).pending rfl (AList.lookup_insertNew_ne ht) rfl rfl mem_arrive
    · exact (hb t).pending rfl rfl rfl rfl mem_arrive

/-! ### The other requests on a leg -/

/-- The request is kept although there is no client for it. -/
def Strays (d : SipDialog) (r : Request) (s : Registries) : Prop :=
  (s.clientForRequest r d.dialogId).isSome = false ∧ d.status < 200 ∧ r.isStateless = false ∧ r.method ≠ .bye ∧
    (r.method = .update → d.update = none)

instance {r : Request} : Decidable (s.Strays d r) := inferInstanceAs (Decidable (_ ∧ _ ∧ _ ∧ _ ∧ _))

/-- A request that ends the dialog lets its INVITE go, and one that no client gets is that of a client that has
    disconnected. -/
def OtherReleases (leg : Leg) (d : SipDialog) (r : Request) (s : Registries) : Prop :=
  (s.Leaves d r → s.Releases d (s.ripped leg)) ∧ (s.Strays d r → s.Lost d.owner)

instance {r : Request} : Decidable (s.OtherReleases leg d r) := inferInstanceAs (Decidable ((_ → _) ∧ (_ → _)))

/-- Only one id changes, and that is backed. -/
theorem Backed.frame_at (hb : s.Backed) (hf : Frame (· = u) (fun _ => False) s s') (hu : s'.BackedAt u) : s'.Backed := by
  intro t
  by_cases ht : t = u
  · exact ht ▸ hu
  · exact (hb t).frame hf ht id

/-- A request that is kept: its own id is backed, and if it ends the dialog the INVITE of that goes. -/
theorem handled_admitRequest {r : Request} {routed : Bool} {e : SipDialog} (hb : s.Backed) (hdistinct : s.Distinct)
    (hd : s.legs.lookup leg = some d) (hf : Frame (· = r.transactionId) (fun _ => False) s s')
    (he : s'.legs.lookup leg = some e)
    (htxn : e.transactionId = d.transactionId) (hinvite : e.invite = d.invite) (honly : s'.OnlyAt leg d.transactionId)
    (hrips : s'.ripped leg = s.ripped leg) (hne : d.transactionId ≠ r.transactionId)
    (hown : (s'.admitRequest leg d r routed).BackedAt r.transactionId)
    (hkeeps : r.ends d = true → s.Releases d (s.ripped leg)) :
    (s'.admitRequest leg d r routed).Handled := by
  by_cases hends : r.ends d = true
  · have hf' : Frame (· = r.transactionId) (· = d.transactionId) s s' :=
      ⟨hf.gone, hf.pending, hf.net, hf.irqs, fun l t o _ => hf.invites l t o id⟩
    have hframe : Frame (· = r.transactionId) (· = d.transactionId) s (s'.admitRequest leg d r routed) :=
      hf'.trans (Frame.admitRequest rfl fun _ => rfl)
    have hnet := mem_congr (hframe.net _ hne)
    refine handled_release hb hdistinct hd hframe (fun t ht _ => ht ▸ hown) (fun hmem => ?_) hnet.mp fun hincoming hmem => ?_
    · exact hdistinct.irqs leg d hd ((mem_congr (hframe.irqs _ hne)).mp hmem)
    · have hripped := (hkeeps hends hincoming).resolve_left (not_not.mpr (hnet.mp hmem))
      exact leaving_admitRequest honly he htxn hends (hinvite ▸ hincoming) (hrips.trans hripped)
  · have hframe : Frame (· = r.transactionId) (fun _ => False) s (s'.admitRequest leg d r routed) :=
      hf.trans (Frame.admitRequest rfl fun h => hends h)
    exact (hb.frame_at hframe hown).handled

theorem net_routeRequestInsideDialog {r : Request} (h : (s.clientForRequest r id).isSome = true) :
    r.transactionId ∈ (s.routeRequestInsideDialog r id).1.netTransactions := by
  obtain ⟨c, hc⟩ := Option.isSome_iff_exists.mp h
  have hadd : r.transactionId ∈ (s.addNetTransaction c r.transactionId).netTransactions :=
    AList.mem_of_lookup AList.lookup_insertNew_self
  unfold routeRequestInsideDialog
  rw [hc]
  dsimp only
  split
  · exact hadd
  · exact hadd

theorem net_routeRequestInsideDialog_none {r : Request} (h : (s.clientForRequest r id).isSome = false) :
    (s.routeRequestInsideDialog r id).1.netTransactions = s.netTransactions := by
  have hc : s.clientForRequest r id = none := Option.not_isSome_iff_eq_none.mp (Bool.eq_false_iff.mp h)
  unfold routeRequestInsideDialog
  rw [hc]
  dsimp only
  split
  · rfl
  · rfl

/-- A request without a client that is kept, or that is taken out again because it ends the dialog. -/
theorem backedAt_admitRequest {r : Request} (hdistinct : (s.admitRequest leg d r false).Distinct)
    (hnet : r.transactionId ∉ s.netTransactions)
    (hirq : r.transactionId ∉ s.irqs) (hlost : r.ends d = false → s.Lost d.owner) :
    (s.admitRequest leg d r false).BackedAt r.transactionId := by
  cases hends : r.ends d with
  | true =>
    refine .absent (by rw [admitRequest_net]; exact hnet) fun hmem => ?_
    rw [admitRequest, if_pos hends, endDialog_tables.2, if_pos rfl] at hmem
    exact (AList.mem_erase.mp hmem).1 rfl
  | false =>
    have hirqs := @admitRequest_irqs s leg d r false (.inr hends)
    have hlookup : (s.admitRequest leg d r false).irqs.lookup r.transactionId = some ⟨r.method, d.owner⟩ := by
      rw [hirqs, AList.lookup_insertNew_self, AList.lookup_eq_none.mpr hirq, Option.getD_none]
    refine .of_irq hdistinct (AList.mem_of_lookup hlookup) fun irq h => .inr ?_
    cases hlookup.symm.trans h
    have hgone : (s.admitRequest leg d r false).gone = s.gone := by
      rw [admitRequest, if_neg (Bool.eq_false_iff.mp hends)]
      rfl
    unfold Lost
    rw [hgone]
    exact hlost hends

theorem handled_earlyRequest {r : Request} {e : SipDialog} (hb : s.Backed) (hdistinct : s.Distinct)
    (hd : s.legs.lookup leg = some d)
    (hf : Frame (· = r.transactionId) (fun _ => False) s s') (he : s'.legs.lookup leg = some e)
    (htxn : e.transactionId = d.transactionId) (hinvite : e.invite = d.invite) (honly : s'.OnlyAt leg d.transactionId)
    (hrips : s'.ripped leg = s.ripped leg) (hunused : s.Unused r.transactionId) (hunusedA : s.Unused r.arrival.uuid)
    (hapart : r.transactionId ≠ r.arrival.uuid) (hnet : r.transactionId ∉ s'.netTransactions)
    (hirqs : r.transactionId ∉ s'.irqs)
    (hends : r.method = .bye → s.Releases d (s.ripped leg))
    (hstray : r.isStateless = false → r.method ≠ .bye → (r.method = .update → d.update = none) → s.Lost d.owner)
    (hdistinct' : (s'.earlyRequest leg d r).Distinct) : (s'.earlyRequest leg d r).Handled := by
  have hne : d.transactionId ≠ r.transactionId := hunused.legs hd
  have hlost : s.Lost d.owner → s'.Lost d.owner := by
    unfold Lost
    rw [hf.gone]
    exact fun h => h
  unfold earlyRequest at hdistinct' ⊢
  by_cases hstateless : r.isStateless = true
  · rw [if_pos hstateless] at hdistinct' ⊢
    -- It is taken out of the dialog again and comes in as a new request.
    have hincoming : Frame (· = r.transactionId) (fun _ => False) s'
        (s'.modify leg fun d => { d with incoming := d.incoming.erase r.transactionId }) := Frame.modify fun _ => rfl
    have hf1 := hf.trans hincoming
    have hb1 : (s'.modify leg fun d => { d with incoming := d.incoming.erase r.transactionId }).Backed := by
      refine hb.frame_at hf1 (.absent ?_ ?_)
      · rw [modify_eq]
        exact hnet
      · rw [modify_eq]
        exact hirqs
    refine (backed_processMessageStatelessly hb1 hdistinct' (fun hmem => ?_) fun hmem => ?_).handled
    · exact hb.unused hunusedA ((mem_congr (hf1.net _ hapart.symm)).mp hmem)
    · exact hunusedA.1 ((mem_congr (hf1.irqs _ hapart.symm)).mp hmem)
  · rw [if_neg hstateless] at hdistinct' ⊢
    have hstray' := hstray (Bool.eq_false_iff.mpr hstateless)
    by_cases hupdate : r.method = .update
    · have hnotBye : r.method ≠ .bye := by simp [hupdate]
      rw [if_pos hupdate] at hdistinct' ⊢
      cases hu : d.update with
      -- A second UPDATE is refused with a 500.
      | some v => exact (hb.frame_at hf (.absent hnet hirqs)).handled
      | none =>
        rw [hu] at hdistinct'
        -- The first UPDATE is noted in the dialog and routed with the INVITE.
        obtain ⟨s4, hs4, hf4, he4, honly4, hrips4⟩ :
          ∃ s4, (s'.modify leg fun d => { d with update := some r.transactionId }).routeRequestInsideInvite
            d.transactionId d.dialogId = s4 ∧ Frame (fun _ => False) (fun _ => False) s' s4 ∧
            s4.legs.lookup leg = some { e with update := some r.transactionId } ∧ s4.OnlyAt leg d.transactionId ∧
            s4.ripped leg = s.ripped leg := by
          have hmodify :
            Frame (fun _ => False) (fun _ => False) s' (s'.modify leg fun d => { d with update := some r.transactionId }) :=
            Frame.modify fun _ => rfl
          have hgrows :
            Grows (fun _ => False) (fun _ => False) s' (s'.modify leg fun d => { d with update := some r.transactionId }) :=
            Grows.modify fun _ => rfl
          have hroute : Routed (s'.modify leg fun d => { d with update := some r.transactionId })
              ((s'.modify leg fun d => { d with update := some r.transactionId }).routeRequestInsideInvite
              d.transactionId d.dialogId) :=
            routed_routeRequestInsideInvite
          refine ⟨_, rfl, hmodify.trans Frame.routeRequestInsideInvite, ?_, honly.grows (hgrows.trans hroute.grows), ?_⟩
          · rw [hroute.legs, lookup_modify_self, he]
            rfl
          · exact hroute.ripped.trans (ripped_modify.trans hrips)
        rw [hs4] at hdistinct' ⊢
        have hf4' : Frame (· = r.transactionId) (fun _ => False) s' s4 :=
          ⟨hf4.gone, hf4.pending, fun t _ => hf4.net t id, fun t _ => hf4.irqs t id, hf4.invites⟩
        have hnet4 : r.transactionId ∉ s4.netTransactions := fun hmem => hnet ((mem_congr (hf4.net _ id)).mp hmem)
        have hirqs4 : r.transactionId ∉ s4.irqs := fun hmem => hirqs ((mem_congr (hf4.irqs _ id)).mp hmem)
        have hlost4 : s4.Lost d.owner := by
          unfold Lost
          rw [hf4.gone]
          exact hlost (hstray' hnotBye fun _ => hu)
        refine handled_admitRequest hb hdistinct hd (hf.trans hf4') he4 htxn hinvite honly4 hrips4 hne ?_ fun h => ?_
        · exact backedAt_admitRequest hdistinct' hnet4 hirqs4 fun _ => hlost4
        · simp [Request.ends, hupdate] at h
    · rw [if_neg hupdate] at hdistinct' ⊢
      by_cases hbye : r.method = .bye
      · have hends' : r.ends d = true := by simp [Request.ends, hbye]
        refine handled_admitRequest hb hdistinct hd hf he htxn hinvite honly hrips hne ?_ fun _ => hends hbye
        exact backedAt_admitRequest hdistinct' hnet hirqs fun h => absurd (h.symm.trans hends') Bool.false_ne_true
      · refine handled_admitRequest hb hdistinct hd hf he htxn hinvite honly hrips hne ?_ fun h => ?_
        · exact backedAt_admitRequest hdistinct' hnet hirqs fun _ => hlost (hstray' hbye fun h => absurd h hupdate)
        · rcases ends_method h with h | h
          · exact absurd h hbye
          · exact absurd (show r.isStateless = true by rw [Request.isStateless, h]) hstateless

theorem handled_otherInsideDialog {r : Request} (hb : s.Backed) (hdistinct : s.Distinct) (hd : s.legs.lookup leg = some d)
    (hfresh : s.Fresh (.processRequestInsideDialog leg r)) (hdistinct' : (s.otherInsideDialog leg d r).Distinct)
    (hkeeps : r.tooSmall = false → s.OtherReleases leg d r) : (s.otherInsideDialog leg d r).Handled := by
  obtain ⟨hunused, hunusedA, hapart⟩ := hfresh
  have hne : d.transactionId ≠ r.transactionId := hunused.legs hd
  obtain ⟨s1, hs1, hf1, hd1, hclient, honly1, hrips1, hirqs1, hnet1⟩ : ∃ s1, (if r.method = .bye then s
      else s.modify leg fun d => { d with incoming := r.transactionId :: d.incoming }) = s1 ∧
      Frame (fun _ => False) (fun _ => False) s s1 ∧
      (∃ e, s1.legs.lookup leg = some e ∧ e.transactionId = d.transactionId ∧ e.invite = d.invite) ∧
      s1.clientForRequest r d.dialogId = s.clientForRequest r d.dialogId ∧ s1.OnlyAt leg d.transactionId ∧
      s1.ripped leg = s.ripped leg ∧ s1.irqs = s.irqs ∧ s1.netTransactions = s.netTransactions := by
    by_cases hbye : r.method = .bye
    · exact ⟨s, if_pos hbye, Frame.refl, ⟨d, hd, rfl, rfl⟩, rfl, hdistinct.onlyAt hd, rfl, rfl, rfl⟩
    · refine ⟨_, if_neg hbye, Frame.modify fun _ => rfl,
        ⟨{ d with incoming := r.transactionId :: d.incoming }, ?_, rfl, rfl⟩, ?_, ?_,
        ripped_modify, ?_, ?_⟩
      · rw [lookup_modify_self, hd, Option.map_some]
      · rw [modify_eq]
        rfl
      · exact (hdistinct.onlyAt hd).grows (U := fun _ => False) (W := fun _ => False) (Grows.modify fun _ => rfl)
      · rw [modify_eq]
      · rw [modify_eq]
  unfold otherInsideDialog at hdistinct' ⊢
  rw [hs1] at hdistinct' ⊢
  dsimp only at hdistinct' ⊢
  by_cases hsmall : r.tooSmall = true
  · rw [if_pos hsmall]
    exact (hb.frame hf1).handled
  · rw [if_neg hsmall] at hdistinct' ⊢
    obtain ⟨hends, hstray⟩ := hkeeps (Bool.eq_false_iff.mpr hsmall)
    obtain ⟨e, he, htxn, hinvite⟩ := hd1
    have hrouted : (s1.routeRequestInsideDialog r d.dialogId).2 = (s.clientForRequest r d.dialogId).isSome := by
      rw [← hclient]
      rfl
    have hsame : Routed s1 (s1.routeRequestInsideDialog r d.dialogId).1 := routed_routeRequestInsideDialog
    have hf2 : Frame (· = r.transactionId) (fun _ => False) s (s1.routeRequestInsideDialog r d.dialogId).1 := by
      have hf1' : Frame (· = r.transactionId) (fun _ => False) s s1 :=
        ⟨hf1.gone, hf1.pending, fun t _ => hf1.net t id, fun t _ => hf1.irqs t id, hf1.invites⟩
      exact hf1'.trans (Frame.routeRequestInsideDialog rfl)
    have he2 : (s1.routeRequestInsideDialog r d.dialogId).1.legs.lookup leg = some e := by rw [hsame.legs, he]
    have honly2 : (s1.routeRequestInsideDialog r d.dialogId).1.OnlyAt leg d.transactionId :=
      honly1.grows (U := fun _ => False) (W := fun _ => False) hsame.grows
    have hrips2 : (s1.routeRequestInsideDialog r d.dialogId).1.ripped leg = s.ripped leg := hsame.ripped.trans hrips1
    have hirqs2 : (s1.routeRequestInsideDialog r d.dialogId).1.irqs = s.irqs := hsame.irqs.trans hirqs1
    have hroutednet : (s.clientForRequest r d.dialogId).isSome = true →
        r.transactionId ∈ (s1.routeRequestInsideDialog r d.dialogId).1.netTransactions := by
      intro hsome
      exact net_routeRequestInsideDialog (hclient ▸ hsome)
    have hstraynet : (s.clientForRequest r d.dialogId).isSome = false →
        (s1.routeRequestInsideDialog r d.dialogId).1.netTransactions = s.netTransactions := by
      intro hnone
      rw [net_routeRequestInsideDialog_none (hclient ▸ hnone), hnet1]
    rw [hrouted] at hdistinct' ⊢
    generalize (s1.routeRequestInsideDialog r d.dialogId).1 = s2
      at hdistinct' hf2 he2 honly2 hrips2 hirqs2 hroutednet hstraynet
    by_cases hsome : (s.clientForRequest r d.dialogId).isSome = true
    · rw [if_pos hsome] at hdistinct' ⊢
      -- A client is found, which has the transaction now.
      refine handled_admitRequest hb hdistinct hd hf2 he2 htxn hinvite honly2 hrips2 hne ?_ fun h => hends ⟨h, .inl hsome⟩
      have hnet : r.transactionId ∈ (s2.admitRequest leg d r true).netTransactions := by
        rw [admitRequest_net]
        exact hroutednet hsome
      refine .of_irq hdistinct' ?_ fun _ _ => .inl hnet
      rw [admitRequest_irqs (.inl rfl)]
      exact AList.mem_of_lookup AList.lookup_insertNew_self
    · rw [if_neg hsome] at hdistinct' ⊢
      have hnone : (s.clientForRequest r d.dialogId).isSome = false := Bool.eq_false_iff.mpr hsome
      have hfreenet : r.transactionId ∉ s2.netTransactions := by
        rw [hstraynet hnone]
        exact hb.unused hunused
      have hfreeirq : r.transactionId ∉ s2.irqs := hirqs2 ▸ hunused.1
      -- a BYE is taken out again, with its dialog
      have hbye : r.method = .bye → (s2.admitRequest leg d r false).Distinct → (s2.admitRequest leg d r false).Handled := by
        intro hmethod hdist
        have hends' : r.ends d = true := by simp [Request.ends, hmethod]
        refine handled_admitRequest hb hdistinct hd hf2 he2 htxn hinvite honly2 hrips2 hne ?_ fun h => hends ⟨h, .inr hmethod⟩
        exact backedAt_admitRequest hdist hfreenet hfreeirq fun h => absurd (h.symm.trans hends') Bool.false_ne_true
      by_cases hearly : d.status < 200
      · rw [if_pos hearly] at hdistinct' ⊢
        refine handled_earlyRequest hb hdistinct hd hf2 he2 htxn hinvite honly2 hrips2 hunused hunusedA hapart hfreenet
          hfreeirq ?_ ?_ hdistinct'
        · exact fun hmethod => hends ⟨by simp [Request.ends, hmethod], .inr hmethod⟩
        · exact fun hstateless hmethod hupdate => hstray ⟨hnone, hearly, hstateless, hmethod, hupdate⟩
      · rw [if_neg hearly] at hdistinct' ⊢
        by_cases hmethod : r.method = .bye
        · rw [if_pos hmethod] at hdistinct' ⊢
          exact hbye hmethod hdistinct'
        · rw [if_neg hmethod]
          exact (hb.frame_at hf2 (.absent hfreenet hfreeirq)).handled

/-! ### The requests of a leg -/

/-- What a request on a leg needs. -/
def RequestReleases (leg : Leg) (d : SipDialog) (r : Request) (s : Registries) : Prop :=
  (r.method = .ack → s.AckKeeps leg d) ∧
  (r.method = .cancel → s.comesTooLate r = true → s.Releases d (s.ripped leg)) ∧
  (r.method ≠ .ack → r.method ≠ .cancel → r.tooSmall = false → s.OtherReleases leg d r)

instance {r : Request} : Decidable (s.RequestReleases leg d r) := inferInstanceAs (Decidable (_ ∧ _ ∧ _))

theorem handled_processRequestInsideDialog {r : Request} (hb : s.Backed) (hdistinct : s.Distinct)
    (hfresh : s.Fresh (.processRequestInsideDialog leg r)) (hkeeps : ∀ d ∈ s.findDialogByLeg leg, s.RequestReleases leg d r) :
    (s.processRequestInsideDialog leg r).Handled := by
  unfold processRequestInsideDialog
  cases hfound : s.findDialogByLeg leg with
  | none => exact hb.handled
  | some d =>
    obtain ⟨hd, -⟩ := findDialogByLeg_eq_some hfound
    obtain ⟨hack, hcancel, hother⟩ := hkeeps d hfound
    dsimp only
    split
    · exact hb.handled
    · split
      · rename_i hmethod
        exact handled_ack hb hdistinct hd (hack hmethod)
      · rename_i hmethod
        exact handled_cancelInsideDialog hb hdistinct hd (hcancel hmethod)
      · rename_i hnotAck hnotCancel
        have hdist : (s.otherInsideDialog leg d r).Distinct := by
          refine hdistinct.grows (U := (· = r.transactionId)) (W := (· = r.arrival.uuid))
            (Grows.otherInsideDialog rfl rfl) ?_ ?_ ?_
          · exact fun _ hu => hu ▸ hfresh.1
          · exact fun _ hw => hw ▸ hfresh.2.1
          · exact fun _ hu hw => hfresh.2.2 (hu.symm.trans hw)
        exact handled_otherInsideDialog hb hdistinct hd hfresh hdist (hother hnotAck hnotCancel)

/-- A PRACK is kept in any case, so it must find a client, unless that of the dialog has disconnected. -/
theorem handled_processPrack {rel : Reliable} {r : Request} (hb : s.Backed) (hdistinct' : (s.processPrack rel r).Distinct)
    (hunused : s.Unused r.transactionId)
    (hkeeps : ∀ x ∈ s.findInviteByReliable rel, (s.candidate x.2.transactionId x.2.dialogId).isSome = true ∨
    s.Lost x.2.owner) :
    (s.processPrack rel r).Handled := by
  unfold processPrack at hdistinct' ⊢
  cases hfound : s.findInviteByReliable rel with
  | none => exact hb.handled
  | some x =>
    obtain ⟨leg, d⟩ := x
    have hk := hkeeps (leg, d) hfound
    rw [hfound] at hdistinct'
    dsimp only at hdistinct' hk ⊢
    have hadd : Frame (· = r.transactionId) (fun _ => False) s (s.addDialogForTransaction d.transactionId d.dialogId) :=
      Frame.addDialogForTransaction
    have hirqs : (s.addDialogForTransaction d.transactionId d.dialogId).irqs = s.irqs := by rw [addDialogForTransaction_eq]
    have hclient : (s.candidate d.transactionId d.dialogId).isSome = true →
        ((s.addDialogForTransaction d.transactionId d.dialogId).clientForRequest r d.dialogId).isSome = true := by
      intro hsome
      obtain ⟨c, hc⟩ := Option.isSome_iff_exists.mp hsome
      have hlock : (s.addDialogForTransaction d.transactionId d.dialogId).findClientForDialog d.dialogId = some c := by
        unfold findClientForDialog
        rw [lookup_addDialogForTransaction, if_pos rfl, hc, lock_isSome]
        rw [hadd.gone]
        exact (lock_eq_some hc).2
      rw [clientForRequest, hlock, Option.some_or]
      rfl
    generalize s.addDialogForTransaction d.transactionId d.dialogId = s1 at hdistinct' hadd hirqs hclient
    have hroute : Routed s1 (s1.routeRequestInsideDialog r d.dialogId).1 := routed_routeRequestInsideDialog
    have hframe : Frame (· = r.transactionId) (fun _ => False) s (s1.routeRequestInsideDialog r d.dialogId).1 :=
      hadd.trans (Frame.routeRequestInsideDialog rfl)
    have hnet : (s1.clientForRequest r d.dialogId).isSome = true →
        r.transactionId ∈ (s1.routeRequestInsideDialog r d.dialogId).1.netTransactions := net_routeRequestInsideDialog
    have hirqs2 : (s1.routeRequestInsideDialog r d.dialogId).1.irqs = s.irqs := hroute.irqs.trans hirqs
    generalize (s1.routeRequestInsideDialog r d.dialogId).1 = s2 at hdistinct' hframe hnet hirqs2
    have hrel : Frame (· = r.transactionId) (fun _ => False) s2
        (s2.modify leg fun d =>
          { d with invite := d.invite.map fun i => { i with reliables := i.reliables.erase rel } }) := by
      refine Frame.modify fun d => ?_
      unfold shownTransaction
      cases d.invite <;> rfl
    refine (hb.frame_at ((hframe.trans hrel).trans (Frame.addIncomingRequestTransaction rfl)) ?_).handled
    have hlookup : AList.lookup r.transactionId ((s2.modify leg fun d => { d with invite := d.invite.map fun i =>
        { i with reliables := i.reliables.erase rel } }).irqs.insertNew r.transactionId ⟨r.method, d.owner⟩) =
        some ⟨r.method, d.owner⟩ := by
      rw [AList.lookup_insertNew_self, modify_eq, hirqs2, AList.lookup_eq_none.mpr hunused.1, Option.getD_none]
    refine .of_irq hdistinct' (AList.mem_of_lookup hlookup) fun irq hirq => ?_
    cases hlookup.symm.trans hirq
    rcases hk with hsome | hlost
    · left
      show r.transactionId ∈ (s2.modify leg _).netTransactions
      rw [modify_eq]
      exact hnet (hclient hsome)
    · right
      show (s2.modify leg _).Lost d.owner
      unfold Lost
      rw [modify_eq, hframe.gone]
      exact hlost

end Drachtio.Dialog.Registries
