import Drachtio.Dialog.Retransmit
import Mathlib.Data.List.Nodup

/-! The 200 is not retransmitted once it is acknowledged, timer H has fired or the dialog is gone, as long as a dialog is
    not removed in the meantime by one of the two paths that leave its timers alone: the answer to a BYE of the
    application, and a session that is not refreshed. A dialog has one entry in a queue exactly while it has its handle. -/

namespace Drachtio.Dialog

open Machine Proxy

/-- T1, 2*T1, ... up to T2 -/
def interval (k : Nat) : Nat := min (ntaSipT1 * 2 ^ k) ntaSipT2

/-- The entries of a dialog -/
def own (queue : List QueuedTimer) (d : Nat) : List QueuedTimer := queue.filter (·.dialog = d)

section
variable {queue : List QueuedTimer} {t : QueuedTimer} {d d' k milliseconds : Nat} {handle : Option TimerHandle}

theorem interval_pos : 0 < interval k :=
  Nat.lt_min.mpr ⟨Nat.mul_pos (by decide) (Nat.two_pow_pos k), by decide⟩

theorem interval_succ : min (interval k <<< 1 % 2 ^ 32) ntaSipT2 = interval (k + 1) := by
  have hdouble : 2 ^ (k + 1) = 2 ^ k * 2 := Nat.pow_succ 2 k
  have hle : interval k ≤ 4000 := Nat.min_le_right _ _
  rw [Nat.shiftLeft_eq, Nat.pow_one, Nat.mod_eq_of_lt (by omega)]
  simp only [interval, ntaSipT1, ntaSipT2, hdouble]
  omega

theorem mem_own : t ∈ own queue d ↔ t ∈ queue ∧ t.dialog = d := by
  rw [own, List.mem_filter, decide_eq_true_iff]

theorem own_addTimer_self : own (addTimer t queue) t.dialog = own queue t.dialog ++ [t] := by
  rw [own, addTimer, List.filter_append, List.filter_cons_of_pos (by simp), List.filter_nil]
  rfl

theorem own_addTimer_ne (h : d ≠ t.dialog) : own (addTimer t queue) d = own queue d := by
  rw [own, addTimer, List.filter_append, List.filter_cons_of_neg (by rw [decide_eq_true_iff]; exact h.symm), List.filter_nil,
    List.append_nil]
  rfl

theorem addTimer_nodup (h : (queue.map QueuedTimer.handle).Nodup) (hfree : Retransmitting.Free t.handle queue) :
    ((addTimer t queue).map QueuedTimer.handle).Nodup := by
  rw [addTimer, List.map_append]
  refine List.nodup_append.mpr ⟨h, List.nodup_singleton _, ?_⟩
  rintro _ hold _ hnew rfl
  obtain ⟨e, he, heq⟩ := List.mem_map.mp hold
  exact hfree e he (heq.trans (List.mem_singleton.mp hnew))

theorem cancelTimer_sublist : (cancelTimer handle queue).Sublist queue := by
  cases handle with
  | none => exact List.Sublist.refl _
  | some => exact List.filter_sublist

theorem cancelTimer_nodup (h : (queue.map QueuedTimer.handle).Nodup) :
    ((cancelTimer handle queue).map QueuedTimer.handle).Nodup :=
  h.sublist (cancelTimer_sublist.map _)

theorem own_removeTimer {h : TimerHandle} : own (removeTimer h queue) d = (own queue d).filter (·.handle ≠ h) := by
  rw [own, removeTimer, List.filter_comm]
  rfl

theorem of_mem_own (h : own queue d = (handle.map (⟨·, d, milliseconds⟩)).toList) (ht : t ∈ queue) (hd : t.dialog = d) :
    handle = some t.handle ∧ t.milliseconds = milliseconds := by
  have hown := mem_own.mpr ⟨ht, hd⟩
  rw [h, Option.mem_toList] at hown
  obtain ⟨g, hg, heq⟩ := Option.map_eq_some_iff.mp hown
  exact ⟨hg.trans (congrArg (fun e => some e.handle) heq), (congrArg QueuedTimer.milliseconds heq).symm⟩

/-- A dialog has a handle exactly while there is an entry with it. -/
theorem handle_iff (h : own queue d = (handle.map (⟨·, d, milliseconds⟩)).toList) {x : TimerHandle} :
    handle = some x ↔ ∃ t ∈ queue, t.handle = x ∧ t.dialog = d := by
  constructor
  · rintro rfl
    have hown : ⟨x, d, milliseconds⟩ ∈ own queue d := by
      rw [h]
      exact List.mem_singleton_self _
    exact ⟨_, (mem_own.mp hown).1, rfl, rfl⟩
  · rintro ⟨t, ht, rfl, hd⟩
    exact (of_mem_own h ht hd).1

/-- With its handle the entry of a dialog is removed, -/
theorem own_cancelTimer_self (h : own queue d = (handle.map (⟨·, d, milliseconds⟩)).toList) :
    own (cancelTimer handle queue) d = [] := by
  cases handle with
  | none => exact h
  | some handle =>
    show own (removeTimer handle queue) d = []
    rw [own_removeTimer, h]
    exact List.filter_cons_of_neg (by simp)

/-- and no entry of another dialog is. -/
theorem own_cancelTimer_ne (h : own queue d = (handle.map (⟨·, d, milliseconds⟩)).toList)
    (hnodup : (queue.map QueuedTimer.handle).Nodup) (hne : d' ≠ d) : own (cancelTimer handle queue) d' = own queue d' := by
  cases handle with
  | none => rfl
  | some handle =>
    obtain ⟨t, ht, hhandle, hd⟩ := (handle_iff h).mp rfl
    show own (removeTimer handle queue) d' = own queue d'
    rw [own_removeTimer]
    refine List.filter_eq_self.mpr fun e he => decide_eq_true fun heq => ?_
    obtain ⟨he, hdialog⟩ := mem_own.mp he
    obtain rfl := List.inj_on_of_nodup_map hnodup he ht (heq.trans hhandle.symm)
    exact hne (hdialog.symm.trans hd)

end

namespace Retransmitting

/-! ### Right steps -/

/-- When it has ended the 200 is not retransmitted any more. -/
def Keeps (dlg dlg' : AnsweredDialog) : Prop :=
  dlg.ended = true → dlg'.ended = true ∧ dlg'.retransmitted = dlg.retransmitted

structure Sound (s : Retransmitting) : Prop where
  timerG : ∀ d dlg, s.dialogs.lookup d = some dlg → ∀ handle, dlg.timerG = some handle ↔
    ∃ t ∈ s.timers.g, t.handle = handle ∧ t.dialog = d
  timerH : ∀ d dlg, s.dialogs.lookup d = some dlg → ∀ handle, dlg.timerH = some handle ↔
    ∃ t ∈ s.timers.h, t.handle = handle ∧ t.dialog = d
  intervals : ∀ t ∈ s.timers.g, ∃ dlg, s.dialogs.lookup t.dialog = some dlg ∧ t.milliseconds = interval dlg.retransmitted
  stops : ∀ d dlg, s.dialogs.lookup d = some dlg → dlg.ended = true → ∀ t ∈ s.timers.g, t.dialog ≠ d

structure Kept (s : Retransmitting) (op : Op) : Prop where
  sound : (s.step op).Sound
  keeps : ∀ d dlg, s.dialogs.lookup d = some dlg → ∃ dlg', (s.step op).dialogs.lookup d = some dlg' ∧ Keeps dlg dlg'

/-- A stable dialog is not removed while its timer G runs, where nothing stops the timer. -/
def Quiet (s : Retransmitting) : Op → Prop
  | .byeAnswered d | .terminate d => ∀ dlg ∈ s.dialogs.lookup d, dlg.stable = true → dlg.timerG = none
  | _ => True

/-! ### What a dialog has in the queues -/

/-- A dialog has an entry in a queue exactly while it has its handle, and what has ended cannot begin again. -/
structure Timed (q : SipTimers) (d : Nat) (dlg : AnsweredDialog) : Prop where
  g : own q.g d = (dlg.timerG.map (⟨·, d, dlg.durationTimerG⟩)).toList
  h : own q.h d = (dlg.timerH.map (⟨·, d, timerHMsecs⟩)).toList
  duration : dlg.timerG.isSome → dlg.durationTimerG = interval dlg.retransmitted
  early : dlg.status < 200 → dlg.timerG = none ∧ dlg.timerH = none ∧ dlg.durationTimerG = 0 ∧ dlg.retransmitted = 0
  stable : dlg.stable = true → 200 ≤ dlg.status
  ended : dlg.ended = true → dlg.timerG = none ∧ (dlg.invite = some .uas → 200 ≤ dlg.status)

structure Distinct (q : SipTimers) : Prop where
  g : (q.g.map QueuedTimer.handle).Nodup
  h : (q.h.map QueuedTimer.handle).Nodup

/-- A change to the queues that concerns one dialog. -/
structure Change (d : Nat) (q q' : SipTimers) : Prop where
  g : ∀ d' ≠ d, own q'.g d' = own q.g d'
  h : ∀ d' ≠ d, own q'.h d' = own q.h d'
  distinct : Distinct q'

/-- What a handler does with a dialog and the queues. -/
structure Handled (d : Nat) (dlg : AnsweredDialog) (q : SipTimers) (r : AnsweredDialog × SipTimers) : Prop where
  timed : Timed r.2 d r.1
  change : Change d q r.2
  keeps : Keeps dlg r.1

section
variable {q : SipTimers} {d : Nat} {dlg : AnsweredDialog}

theorem Change.refl (h : Distinct q) : Change d q q := ⟨fun _ _ => rfl, fun _ _ => rfl, h⟩

theorem Keeps.refl : Keeps dlg dlg := fun h => ⟨h, rfl⟩

namespace Timed

theorem new (hg : own q.g d = []) (hh : own q.h d = []) : Timed q d .new where
  g := hg
  h := hh
  duration h := nomatch h
  early _ := ⟨rfl, rfl, rfl, rfl⟩
  stable h := nomatch h
  ended h := nomatch h

theorem clearSipTimers (h : Timed q d dlg) (hq : Distinct q) :
    Timed (dlg.clearSipTimers q).2 d (dlg.clearSipTimers q).1 ∧ Change d q (dlg.clearSipTimers q).2 := by
  refine ⟨⟨own_cancelTimer_self h.g, own_cancelTimer_self h.h, nofun, ?_, h.stable, ?_⟩,
    ⟨fun _ hne => own_cancelTimer_ne h.g hq.g hne, fun _ hne => own_cancelTimer_ne h.h hq.h hne,
      ⟨cancelTimer_nodup hq.g, cancelTimer_nodup hq.h⟩⟩⟩
  · intro hearly
    obtain ⟨-, -, hduration, hcount⟩ := h.early hearly
    exact ⟨rfl, rfl, hduration, hcount⟩
  · exact fun hended => ⟨rfl, (h.ended hended).2⟩

theorem clearInvite (h : Timed q d dlg) : Timed q d dlg.clearInvite :=
  ⟨h.g, h.h, h.duration, h.early, h.stable, fun hended => ⟨(h.ended hended).1, nofun⟩⟩

theorem clearStable (h : Timed q d dlg) (hquiet : dlg.stable = true → dlg.timerG = none) : Timed q d dlg.clearStable where
  g := h.g
  h := h.h
  duration := h.duration
  early := h.early
  stable := nofun
  ended hended := by
    rcases Bool.or_eq_true_iff.mp hended with hended | hstable
    · exact h.ended hended
    · exact ⟨hquiet hstable, fun _ => h.stable hstable⟩

theorem ended_of_none (h : Timed q d dlg) (hg : dlg.timerG = none) (hinvite : dlg.invite = none) :
    Timed q d { dlg with ended := true } :=
  ⟨h.g, h.h, h.duration, h.early, h.stable, fun _ => ⟨hg, fun huas => nomatch hinvite.symm.trans huas⟩⟩

theorem sendReinvite (h : Timed q d dlg) : Timed q d dlg.sendReinvite where
  g := h.g
  h := h.h
  duration := h.duration
  early := h.early
  stable := h.stable
  ended hended := by
    refine ⟨(h.ended hended).1, fun huas => (h.ended hended).2 ?_⟩
    rcases Option.or_eq_some_iff.mp huas with hinvite | ⟨-, huac⟩
    · exact hinvite
    · exact nomatch huac

end Timed

/-! ### Handlers -/

theorem handled_self (h : Timed q d dlg) (hq : Distinct q) : Handled d dlg q (dlg, q) := ⟨h, .refl hq, .refl⟩

/-- A handler that does something under a condition. -/
theorem handled_ite {c : Prop} [Decidable c] {r : AnsweredDialog × SipTimers} (h : Timed q d dlg) (hq : Distinct q)
    (hr : c → Handled d dlg q r) : Handled d dlg q (if c then r else (dlg, q)) := by
  split
  · rename_i hc
    exact hr hc
  · exact handled_self h hq

theorem acknowledge_handled (h : Timed q d dlg) (hq : Distinct q) : Handled d dlg q (dlg.acknowledge q) := by
  obtain ⟨htimed, hchange⟩ := h.clearInvite.clearSipTimers hq
  exact ⟨htimed.ended_of_none rfl rfl, hchange, fun _ => ⟨rfl, rfl⟩⟩

theorem tearDown_handled (h : Timed q d dlg) (hq : Distinct q) : Handled d dlg q (dlg.tearDown q) := by
  obtain ⟨htimed, hchange⟩ := h.clearSipTimers hq
  exact ⟨(htimed.clearStable fun _ => rfl).clearInvite, hchange, fun hended => ⟨Bool.or_eq_true_iff.mpr (Or.inl hended), rfl⟩⟩

theorem ack_handled (h : Timed q d dlg) (hq : Distinct q) : Handled d dlg q (dlg.ack q) := by
  unfold AnsweredDialog.ack
  exact handled_ite h hq fun _ => acknowledge_handled h hq

theorem cancelAfterAnswer_handled (h : Timed q d dlg) (hq : Distinct q) : Handled d dlg q (dlg.cancelAfterAnswer q) := by
  unfold AnsweredDialog.cancelAfterAnswer
  exact handled_ite h hq fun _ => tearDown_handled h hq

theorem bye_handled (h : Timed q d dlg) (hq : Distinct q) : Handled d dlg q (dlg.bye q) := by
  unfold AnsweredDialog.bye
  exact handled_ite h hq fun _ => tearDown_handled h hq

theorem ackOfInvite_handled (h : Timed q d dlg) (hq : Distinct q) : Handled d dlg q (dlg.ackOfInvite q) := by
  unfold AnsweredDialog.ackOfInvite
  exact handled_ite h hq fun _ => acknowledge_handled h hq

theorem timeoutOfInvite_handled (h : Timed q d dlg) (hq : Distinct q) : Handled d dlg q (dlg.timeoutOfInvite q) := by
  unfold AnsweredDialog.timeoutOfInvite
  refine handled_ite h hq fun _ => ?_
  obtain ⟨htimed, hchange⟩ := h.clearSipTimers hq
  exact ⟨htimed.clearInvite, hchange, fun hended => ⟨hended, rfl⟩⟩

/-- The 200 is sent once, and begins with T1. -/
theorem respond_handled (h : Timed q d dlg) (hq : Distinct q) {code : Nat} {sent dgram : Bool} {g handle : TimerHandle}
    (hg : Free g q.g) (hh : Free handle q.h) : Handled d dlg q (dlg.respond d code sent dgram g handle q) := by
  unfold AnsweredDialog.respond
  split
  · rename_i hfirst
    obtain ⟨hnoneG, hnoneH, hduration, hcount⟩ := h.early hfirst.2
    have hended : ¬ dlg.ended = true := fun hended => absurd ((h.ended hended).2 hfirst.1) (Nat.not_le.mpr hfirst.2)
    have hstable : ¬ dlg.stable = true := fun hstable => absurd (h.stable hstable) (Nat.not_le.mpr hfirst.2)
    have hownG : own q.g d = [] := by rw [h.g, hnoneG]; rfl
    have hownH : own q.h d = [] := by rw [h.h, hnoneH]; rfl
    have hkeeps : ∀ dlg' : AnsweredDialog, Keeps dlg dlg' := fun _ h => absurd h hended
    dsimp only
    split
    · rename_i hsent
      have hqH : own (addTimer ⟨handle, d, timerHMsecs⟩ q.h) d = [⟨handle, d, timerHMsecs⟩] := by
        rw [own_addTimer_self (t := ⟨handle, d, timerHMsecs⟩), hownH]
        rfl
      have hothersH : ∀ d' ≠ d, own (addTimer ⟨handle, d, timerHMsecs⟩ q.h) d' = own q.h d' :=
        fun d' hne => own_addTimer_ne hne
      have hdistinctH := addTimer_nodup (t := ⟨handle, d, timerHMsecs⟩) hq.h hh
      have hstatus : 200 ≤ code := le_of_eq hsent.2.symm
      split
      · have hqG : own (addTimer ⟨g, d, ntaSipT1⟩ q.g) d = [⟨g, d, ntaSipT1⟩] := by
          rw [own_addTimer_self (t := ⟨g, d, ntaSipT1⟩), hownG]
          rfl
        refine ⟨⟨?_, hqH, fun _ => ?_, fun hlt => absurd hlt (Nat.not_lt.mpr hstatus), fun _ => hstatus,
          fun h => absurd h hended⟩,
          ⟨fun d' hne => own_addTimer_ne (t := ⟨g, d, ntaSipT1⟩) hne, hothersH,
            addTimer_nodup (t := ⟨g, d, ntaSipT1⟩) hq.g hg, hdistinctH⟩, hkeeps _⟩
        · simp only [AnsweredDialog.setTimerG, hduration, if_true]
          exact hqG
        · simp only [AnsweredDialog.setTimerG, hduration, hcount, if_true]
          rfl
      · refine ⟨⟨?_, hqH, fun hsome => ?_, fun hlt => absurd hlt (Nat.not_lt.mpr hstatus), fun _ => hstatus,
          fun h => absurd h hended⟩,
          ⟨fun _ _ => rfl, hothersH, hq.g, hdistinctH⟩, hkeeps _⟩
        · exact h.g
        · exact h.duration hsome
    · exact ⟨⟨h.g, h.h, h.duration, fun _ => ⟨hnoneG, hnoneH, hduration, hcount⟩, fun hs => absurd hs hstable,
        fun h => absurd h hended⟩, .refl hq, hkeeps _⟩
  · exact handled_self h hq

/-- The handle of an entry that expires is the one that its dialog has. -/
theorem timer_eq {queue : List QueuedTimer} {own' : Option TimerHandle} {milliseconds : Nat} {t : QueuedTimer}
    {handle : TimerHandle}
    (h : own queue t.dialog = (own'.map (⟨·, t.dialog, milliseconds⟩)).toList)
    (hfound : queue.find? (·.handle == handle) = some t) : own' = some handle := by
  have hhandle : t.handle = handle := beq_iff_eq.mp (List.find?_some (p := fun e : QueuedTimer => e.handle == handle) hfound)
  exact hhandle ▸ (of_mem_own h (List.mem_of_find?_eq_some hfound) rfl).1

/-- Timer G is set again, twice as long up to T2, or both timers end because the irq is gone. -/
theorem retransmit_handled (h : Timed q d dlg) (hq : Distinct q) {handle next : TimerHandle}
    (htimer : dlg.timerG = some handle)
    (hfree : Free next (removeTimer handle q.g)) :
    Handled d dlg q (dlg.retransmitFinalResponse d next { q with g := removeTimer handle q.g }) := by
  have hended : ¬ dlg.ended = true := fun hended => nomatch htimer.symm.trans (h.ended hended).1
  have hremoved : cancelTimer dlg.timerG q.g = removeTimer handle q.g := by rw [htimer]; rfl
  unfold AnsweredDialog.retransmitFinalResponse
  split
  · obtain ⟨htimed, hchange⟩ := h.clearSipTimers hq
    rw [AnsweredDialog.clearSipTimers, hremoved] at htimed hchange
    exact ⟨htimed, hchange, fun h => absurd h hended⟩
  · have hown : own (removeTimer handle q.g) d = [] := hremoved ▸ own_cancelTimer_self h.g
    have hduration : dlg.durationTimerG = interval dlg.retransmitted := h.duration (htimer ▸ rfl)
    have hbumped : ({ dlg with retransmitted := dlg.retransmitted + 1 }.bumpTimerG).durationTimerG = interval
        (dlg.retransmitted + 1) := by
      show min (dlg.durationTimerG <<< 1 % 2 ^ 32) ntaSipT2 = _
      rw [hduration, interval_succ]
    dsimp only
    rw [AnsweredDialog.setTimerG, hbumped, if_neg (Nat.pos_iff_ne_zero.mp interval_pos)]
    refine ⟨⟨?_, h.h, fun _ => rfl, fun hearly => ?_, h.stable, fun h => absurd h hended⟩,
      ⟨fun d' hne => ?_, fun _ _ => rfl, addTimer_nodup ?_ hfree, hq.h⟩, fun h => absurd h hended⟩
    · show own (addTimer ⟨next, d, interval (dlg.retransmitted + 1)⟩ _) d = _
      rw [own_addTimer_self (t := ⟨next, d, interval (dlg.retransmitted + 1)⟩), hown]
      rfl
    · exact nomatch htimer.symm.trans (h.early hearly).1
    · rw [own_addTimer_ne (t := ⟨next, d, interval (dlg.retransmitted + 1)⟩) hne, ← hremoved]
      exact own_cancelTimer_ne h.g hq.g hne
    · rw [← hremoved]
      exact cancelTimer_nodup hq.g

theorem endRetransmit_handled (h : Timed q d dlg) (hq : Distinct q) {handle : TimerHandle}
    (htimer : dlg.timerH = some handle) :
    Handled d dlg q (dlg.endRetransmitFinalResponse { q with h := removeTimer handle q.h }) := by
  have hremoved : cancelTimer dlg.timerH q.h = removeTimer handle q.h := by rw [htimer]; rfl
  obtain ⟨htimed, hchange⟩ := h.clearSipTimers hq
  rw [AnsweredDialog.clearSipTimers, hremoved] at htimed hchange
  exact ⟨(htimed.clearInvite.clearStable fun _ => rfl).ended_of_none rfl rfl, hchange, fun _ => ⟨rfl, rfl⟩⟩

end

/-! ### Runs -/

structure Timely (s : Retransmitting) : Prop where
  dialogs : ∀ d dlg, s.dialogs.lookup d = some dlg → Timed s.timers d dlg
  distinct : Distinct s.timers
  ownersG : ∀ t ∈ s.timers.g, t.dialog ∈ s.dialogs
  ownersH : ∀ t ∈ s.timers.h, t.dialog ∈ s.dialogs

/-- The dialogs of a state are still there in another one, and keep what they are to keep. -/
def Continues (s t : Retransmitting) : Prop :=
  ∀ d dlg, s.dialogs.lookup d = some dlg → ∃ dlg', t.dialogs.lookup d = some dlg' ∧ Keeps dlg dlg'

section
variable {s : Retransmitting} {d : Nat} {dlg dlg' : AnsweredDialog} {q : SipTimers} {op : Op}

theorem Continues.refl : Continues s s := fun _ dlg h => ⟨dlg, h, .refl⟩

/-- What one handler does is right for all dialogs. -/
theorem Timely.handled (h : Timely s) (hd : s.dialogs.lookup d = some dlg) (hhandled : Handled d dlg s.timers (dlg', q)) :
    Timely ⟨s.dialogs.insert d dlg', q⟩ ∧ Continues s ⟨s.dialogs.insert d dlg', q⟩ := by
  obtain ⟨htimed, hchange, hkeeps⟩ := hhandled
  have howner : ∀ {queue queue' : List QueuedTimer}, (∀ t ∈ queue, t.dialog ∈ s.dialogs) →
    (∀ d' ≠ d, own queue' d' = own queue d') →
      ∀ t ∈ queue', t.dialog ∈ s.dialogs.insert d dlg' := by
    intro queue queue' hold hothers t ht
    refine (AList.mem_insert _).mpr ?_
    by_cases hne : t.dialog = d
    · exact Or.inl hne
    · exact Or.inr (hold t (mem_own.mp (hothers t.dialog hne ▸ mem_own.mpr ⟨ht, rfl⟩)).1)
  refine ⟨⟨fun d' e hd' => ?_, hchange.distinct, howner h.ownersG hchange.g, howner h.ownersH hchange.h⟩, fun d' e hd' => ?_⟩
  · rcases AList.lookup_insert_eq_some.mp hd' with ⟨rfl, rfl⟩ | ⟨hne, hd'⟩
    · exact htimed
    · have hold := h.dialogs d' e hd'
      exact { hold with g := (hchange.g d' hne).trans hold.g, h := (hchange.h d' hne).trans hold.h }
  · by_cases hne : d' = d
    · subst hne
      obtain rfl := Option.some.inj (hd.symm.trans hd')
      exact ⟨dlg', AList.lookup_insert _, hkeeps⟩
    · exact ⟨e, (AList.lookup_insert_ne hne).trans hd', .refl⟩

theorem Timely.on (h : Timely s) {f : AnsweredDialog → SipTimers → AnsweredDialog × SipTimers}
    (hf : ∀ dlg, s.dialogs.lookup d = some dlg → Handled d dlg s.timers (f dlg s.timers)) :
    Timely (s.on d f) ∧ Continues s (s.on d f) := by
  unfold Retransmitting.on
  cases hd : s.dialogs.lookup d with
  | none => exact ⟨h, .refl⟩
  | some dlg => exact h.handled hd (hf dlg hd)

theorem Timely.modify (h : Timely s) {f : AnsweredDialog → AnsweredDialog}
    (hf : ∀ dlg, s.dialogs.lookup d = some dlg → Timed s.timers d (f dlg) ∧ Keeps dlg (f dlg)) :
    Timely (s.modify d f) ∧ Continues s (s.modify d f) :=
  h.on fun dlg hd => ⟨(hf dlg hd).1, .refl h.distinct, (hf dlg hd).2⟩

theorem Timely.sound (h : Timely s) : s.Sound where
  timerG d dlg hd _ := handle_iff (h.dialogs d dlg hd).g
  timerH d dlg hd _ := handle_iff (h.dialogs d dlg hd).h
  intervals t ht := by
    obtain ⟨dlg, hd⟩ := Option.isSome_iff_exists.mp (AList.lookup_isSome.mpr (h.ownersG t ht))
    have htimed := h.dialogs _ dlg hd
    obtain ⟨hg, hmilliseconds⟩ := of_mem_own htimed.g ht rfl
    exact ⟨dlg, hd, hmilliseconds.trans (htimed.duration (hg ▸ rfl))⟩
  stops d dlg hd hended t ht hdialog :=
    nomatch (of_mem_own (h.dialogs d dlg hd).g ht hdialog).1.symm.trans ((h.dialogs d dlg hd).ended hended).1

theorem Timely.empty : Timely empty :=
  ⟨nofun, ⟨List.nodup_nil, List.nodup_nil⟩, fun _ h => absurd h List.not_mem_nil, fun _ h => absurd h List.not_mem_nil⟩

theorem Timely.invite (h : Timely s) (hnew : d ∉ s.dialogs) :
    Timely { s with dialogs := s.dialogs.insert d .new } ∧ Continues s { s with dialogs := s.dialogs.insert d .new } := by
  have hnone : ∀ {queue : List QueuedTimer}, (∀ t ∈ queue, t.dialog ∈ s.dialogs) → own queue d = [] := fun howners =>
    List.eq_nil_iff_forall_not_mem.mpr fun t ht =>
      have ⟨ht, hd⟩ := mem_own.mp ht
      hnew (hd ▸ howners t ht)
  refine ⟨⟨fun d' dlg hd' => ?_, h.distinct, fun t ht => (AList.mem_insert _).mpr (Or.inr (h.ownersG t ht)),
    fun t ht => (AList.mem_insert _).mpr (Or.inr (h.ownersH t ht))⟩, fun d' dlg hd' => ⟨dlg, ?_, .refl⟩⟩
  · rcases AList.lookup_insert_eq_some.mp hd' with ⟨rfl, rfl⟩ | ⟨-, hd'⟩
    · exact .new (hnone h.ownersG) (hnone h.ownersH)
    · exact h.dialogs d' dlg hd'
  · have hne : d' ≠ d := by
      rintro rfl
      exact hnew (AList.mem_of_lookup hd')
    exact (AList.lookup_insert_ne hne).trans hd'

/-- An entry of a queue expires, and what its callback does concerns its dialog. -/
theorem Timely.expired (h : Timely s) (hd : d ∈ s.dialogs) (q : SipTimers)
    {f : AnsweredDialog → SipTimers → AnsweredDialog × SipTimers}
    (hf : ∀ dlg, s.dialogs.lookup d = some dlg → Handled d dlg s.timers (f dlg q)) :
    Timely ({ s with timers := q }.on d f) ∧ Continues s ({ s with timers := q }.on d f) := by
  obtain ⟨dlg, hdlg⟩ := Option.isSome_iff_exists.mp (AList.lookup_isSome.mpr hd)
  have hon : { s with timers := q }.on d f = ⟨s.dialogs.insert d (f dlg q).1, (f dlg q).2⟩ := by
    simp only [Retransmitting.on, hdlg]
  rw [hon]
  exact h.handled hdlg (hf dlg hdlg)

/-- Every step that does not remove a dialog under a running timer G keeps the dialogs and queues in order. -/
theorem Timely.step (h : Timely s) (hop : s.Quiet op) : Timely (s.step op) ∧ Continues s (s.step op) := by
  have hremove : ∀ d, (∀ dlg ∈ s.dialogs.lookup d, dlg.stable = true → dlg.timerG = none) →
      Timely (s.modify d AnsweredDialog.clearStable) ∧ Continues s (s.modify d AnsweredDialog.clearStable) := fun d hquiet =>
    h.modify fun dlg hd =>
      ⟨(h.dialogs d dlg hd).clearStable (hquiet dlg hd), fun hended => ⟨Bool.or_eq_true_iff.mpr (Or.inl hended), rfl⟩⟩
  cases op with
  | invite d =>
    by_cases hnew : d ∈ s.dialogs
    · rw [show s.step (.invite d) = s from if_pos hnew]
      exact ⟨h, .refl⟩
    · rw [show s.step (.invite d) = _ from if_neg hnew]
      exact h.invite hnew
  | respond d code sent dgram g handle =>
    by_cases hfree : Free g s.timers.g ∧ Free handle s.timers.h
    · rw [show s.step (.respond d code sent dgram g handle) = _ from if_pos hfree]
      exact h.on fun dlg hd => respond_handled (h.dialogs d dlg hd) h.distinct hfree.1 hfree.2
    · rw [show s.step (.respond d code sent dgram g handle) = s from if_neg hfree]
      exact ⟨h, .refl⟩
  | timerG handle next =>
    cases hfound : s.timers.g.find? (·.handle == handle) with
    | none =>
      have hstep : s.step (.timerG handle next) = s := by simp only [Retransmitting.step, hfound]
      rw [hstep]
      exact ⟨h, .refl⟩
    | some t =>
      simp only [Retransmitting.step, hfound]
      by_cases hfree : Free next (removeTimer handle s.timers.g)
      · rw [if_pos hfree]
        exact h.expired (h.ownersG t (List.mem_of_find?_eq_some hfound)) _ fun dlg hd =>
          retransmit_handled (h.dialogs _ dlg hd) h.distinct (timer_eq (h.dialogs _ dlg hd).g hfound) hfree
      · rw [if_neg hfree]
        exact ⟨h, .refl⟩
  | timerH handle =>
    cases hfound : s.timers.h.find? (·.handle == handle) with
    | none =>
      have hstep : s.step (.timerH handle) = s := by simp only [Retransmitting.step, hfound]
      rw [hstep]
      exact ⟨h, .refl⟩
    | some t =>
      simp only [Retransmitting.step, hfound]
      exact h.expired (h.ownersH t (List.mem_of_find?_eq_some hfound)) _ fun dlg hd =>
        endRetransmit_handled (h.dialogs _ dlg hd) h.distinct (timer_eq (h.dialogs _ dlg hd).h hfound)
  | ack d => exact h.on fun dlg hd => ack_handled (h.dialogs d dlg hd) h.distinct
  | cancelAfterAnswer d => exact h.on fun dlg hd => cancelAfterAnswer_handled (h.dialogs d dlg hd) h.distinct
  | bye d => exact h.on fun dlg hd => bye_handled (h.dialogs d dlg hd) h.distinct
  | timeoutOfInvite d => exact h.on fun dlg hd => timeoutOfInvite_handled (h.dialogs d dlg hd) h.distinct
  | ackOfInvite d => exact h.on fun dlg hd => ackOfInvite_handled (h.dialogs d dlg hd) h.distinct
  | cancelOfInvite d =>
    refine h.modify fun dlg hd => ?_
    unfold AnsweredDialog.cancelOfInvite
    split
    · exact ⟨(h.dialogs d dlg hd).clearInvite, fun hended => ⟨hended, rfl⟩⟩
    · exact ⟨h.dialogs d dlg hd, .refl⟩
  | sendReinvite d => exact h.modify fun dlg hd => ⟨(h.dialogs d dlg hd).sendReinvite, fun hended => ⟨hended, rfl⟩⟩
  | sendBye d =>
    refine h.modify fun dlg hd => ?_
    unfold AnsweredDialog.sendBye
    split
    · exact ⟨(h.dialogs d dlg hd).clearInvite, fun hended => ⟨hended, rfl⟩⟩
    · exact ⟨h.dialogs d dlg hd, .refl⟩
  | byeAnswered d => exact hremove d hop
  | terminate d => exact hremove d hop
  | clearInvite d => exact h.modify fun dlg hd => ⟨(h.dialogs d dlg hd).clearInvite, fun hended => ⟨hended, rfl⟩⟩

/-- A dialog that is removed while its timer G runs has the entry still in the queue. -/
theorem Timely.not_stops (h : Timely s) (hd : s.dialogs.lookup d = some dlg) (hstable : dlg.stable = true)
    (hsound : (s.modify d AnsweredDialog.clearStable).Sound) : dlg.timerG = none := by
  have hon : s.modify d AnsweredDialog.clearStable = ⟨s.dialogs.insert d dlg.clearStable, s.timers⟩ := by
    simp only [Retransmitting.modify, Retransmitting.on, hd]
  rw [hon] at hsound
  cases hg : dlg.timerG with
  | none => rfl
  | some handle =>
    obtain ⟨t, ht, -, hdialog⟩ := (handle_iff (h.dialogs d dlg hd).g).mp hg
    exact absurd hdialog (hsound.stops d _ (AList.lookup_insert _) (Bool.or_eq_true_iff.mpr (Or.inr hstable)) t ht)

theorem kept_iff_quiet (h : Timely s) : s.Kept op ↔ s.Quiet op := by
  constructor
  · intro hkept
    cases op with
    | byeAnswered d => exact fun dlg hd hstable => h.not_stops hd hstable hkept.sound
    | terminate d => exact fun dlg hd hstable => h.not_stops hd hstable hkept.sound
    | _ => trivial
  · intro hop
    obtain ⟨htimely, hcontinues⟩ := h.step hop
    exact ⟨htimely.sound, hcontinues⟩

end

/-- Over a run the handles are those of queued entries, the intervals of timer G grow from T1 to T2, and the 200 is not
    retransmitted any more when it should not be, exactly when no stable dialog is removed by the answer to a BYE of the
    application, or for want of a refresh, while its timer G runs. -/
theorem retransmission_stops_iff (ops : List Op) : Meets step Kept empty ops ↔ Meets step Quiet empty ops :=
  meets_iff (fun _ _ h => kept_iff_quiet h) (fun _ _ h hop => (h.step hop).1) Timely.empty

/-- The application answers an INVITE and hangs up, and the BYE is answered before the ACK comes. The 200 is
    retransmitted after that. -/
theorem retransmitted_after_bye :
    (run step empty [.invite 0, .respond 0 200 true true 1 2, .byeAnswered 0, .timerG 1 3]).dialogs.lookup 0 =
        some ⟨200, some 3, 1000, some 2, true, some .uas, false, 1, true⟩ ∧
      ¬ Meets step Kept empty [.invite 0, .respond 0 200 true true 1 2, .byeAnswered 0] := by
  refine ⟨rfl, ?_⟩
  rintro ⟨-, -, hkept, -⟩
  exact hkept.sound.stops 0 _ rfl rfl ⟨1, 0, 500⟩ (List.mem_singleton_self _) rfl

end Retransmitting

end Drachtio.Dialog
