import Drachtio.Dialog.Sessions
import Drachtio.Theorems.Dialog.Objects
import Drachtio.Theorems.Pending.Tables

/-! When a session is refreshed in time, and what a request that is rejected leaves of the session timer. The jitter of
    the timer is in absolute seconds, so a short interval that nobody checked can be over before it has begun. -/

namespace Drachtio.Dialog

open Registries

/-! ### Durations -/

/-- RAND_MAX -/
def randMax : Nat := 2147483647

/-- The most seconds whose milliseconds fit in a su_duration_t -/
def maxSecs : Nat := 9223372036854775

/-- The timer fires within the session when we are to refresh it, and at its end otherwise, and nothing overflows. -/
def SessionTimer.Scheduled (rand : Nat) (t : SessionTimer) : Prop :=
  t.secs * 1000 < 2 ^ 63 ∧ match t.refresher with
    | .we => 0 < t.duration rand ∧ t.duration rand < t.secs * 1000
    | .they => t.duration rand = t.secs * 1000

/-- The interval has been compared with the Min-SE, or raised to it. -/
def TimerSource.Checked : TimerSource → Prop
  | .answer _ _ _ | .request _ _ => True
  | .response _ | .refresh _ _ _ => False

section
variable {t : SessionTimer} {rand : Nat}

theorem fits_iff : t.secs * 1000 < 2 ^ 63 ↔ t.secs ≤ maxSecs := by
  unfold maxSecs
  omega

/-- Without an overflow the duration is what the arithmetic says. -/
theorem duration_eq (h : t.secs * 1000 < 2 ^ 63) : t.duration rand = match t.refresher with
    | .we => (t.secs * 500 : Int) + ((rand % 10000 : Nat) - 5000)
    | .they => t.secs * 1000 := by
  have hwhole : Int.bmod (t.secs * 1000) (2 ^ 64) = t.secs * 1000 := Int.bmod_eq_of_le (by omega) (by omega)
  have hhalf : ((t.secs : Int) * 1000).tdiv 2 = t.secs * 500 := by
    rw [Int.tdiv_eq_ediv_of_nonneg (by omega)]
    omega
  unfold SessionTimer.duration
  cases t.refresher with
  | we => exact congrArg (· + (((rand % 10000 : Nat) : Int) - 5000)) ((congrArg (Int.tdiv · 2) hwhole).trans hhalf)
  | they => exact hwhole

/-- An interval is scheduled whatever the jitter when it is neither too long nor, where we refresh it, too short. -/
theorem forall_scheduled_iff :
    (∀ rand ≤ randMax, t.Scheduled rand) ↔ t.secs ≤ maxSecs ∧ (t.refresher = .we → 11 ≤ t.secs) := by
  obtain ⟨secs, refresher⟩ := t
  constructor
  · intro hall
    obtain ⟨hfits, hinside⟩ := hall 0 (Nat.zero_le _)
    refine ⟨fits_iff.mp hfits, ?_⟩
    rintro rfl
    -- The jitter is least when rand() is a multiple of 10000.
    simp only [duration_eq hfits, Nat.zero_mod] at hinside
    show 11 ≤ secs
    omega
  · rintro ⟨hmax, hmin⟩ rand -
    have hfits := fits_iff.mpr hmax
    refine ⟨hfits, ?_⟩
    cases refresher with
    | they => exact duration_eq hfits
    | we =>
      have hjitter := Nat.mod_lt rand (show 0 < 10000 by decide)
      have hsecs : 11 ≤ secs := hmin rfl
      simp only [duration_eq hfits]
      omega

/-- Where the interval is checked it is at least the Min-SE. -/
theorem checked_le {source : TimerSource} (h : source.Checked) (ht : source.timer = some t) : 90 ≤ t.secs := by
  cases source with
  | answer isInvite env a =>
    obtain ⟨x, hx, rfl⟩ := Option.map_eq_some_iff.mp ht
    unfold Answer.sessionTimer at hx
    split at hx
    · split at hx
      · obtain rfl := Option.some.inj hx
        exact Nat.le_max_left _ _
      · split at hx
        · exact nomatch hx
        · dsimp only at hx
          split at hx
          · exact nomatch hx
          · obtain rfl := Option.some.inj hx
            exact Nat.le_max_left _ _
    · exact nomatch hx
  | request weAreRefresher r =>
    simp only [TimerSource.timer, SessionRequest.timer] at ht
    split at ht
    · rename_i hset
      obtain ⟨delta, hdelta, rfl⟩ := Option.map_eq_some_iff.mp ht
      have hsmall := hset.2
      simp only [Request.tooSmall, hdelta, Option.any_some, Bool.and_eq_false_iff, Bool.or_eq_false_iff, beq_eq_false_iff_ne,
        decide_eq_false_iff_not, not_lt] at hsmall
      exact hsmall.resolve_left fun h => hset.1.elim h.1 h.2
    · exact nomatch ht
  | response r => exact h.elim
  | refresh requested secs r => exact h.elim

end

/-- Every session timer is scheduled within the session exactly when its interval is not too long and, where it was not
    checked and we are to refresh the session, at least eleven seconds. -/
theorem sessions_scheduled_iff (source : TimerSource) (t : SessionTimer) (ht : source.timer = some t) :
    (∀ rand ≤ randMax, t.Scheduled rand) ↔ t.secs ≤ maxSecs ∧ (¬ source.Checked → t.refresher = .we → 11 ≤ t.secs) := by
  rw [forall_scheduled_iff]
  refine and_congr_right fun _ => ⟨fun h _ => h, fun h hwe => ?_⟩
  by_cases hchecked : source.Checked
  · exact le_trans (by decide) (checked_le hchecked ht)
  · exact h hchecked hwe

/-- A 200 for an INVITE of ours, with a Session-Expires -/
def answered (delta : Nat) : TimerSource := .response ⟨.invite, 200, some ⟨delta, none⟩⟩

theorem sessions_scheduled_half_hour :
    (answered 1800).timer = some ⟨1800, .we⟩ ∧ ∀ rand ≤ randMax, (SessionTimer.mk 1800 .we).Scheduled rand :=
  ⟨rfl, (sessions_scheduled_iff (answered 1800) ⟨1800, .we⟩ rfl).mpr ⟨by decide, fun _ _ => by decide⟩⟩

/-- Ten seconds leave no time at all when the jitter is least. -/
theorem session_not_scheduled : (answered 10).timer = some ⟨10, .we⟩ ∧ ¬ (SessionTimer.mk 10 .we).Scheduled 0 := by
  refine ⟨rfl, fun h => ?_⟩
  exact absurd h.2.1 (by decide)

/-! ### Rejected requests -/

namespace Sessions

/-- A request has left the dialog as it was: its session timer, its transactions of incoming requests and the tables of
    both. -/
structure Untouched (leg : Leg) (s t : Sessions) : Prop where
  timer : t.timers.lookup leg = s.timers.lookup leg
  incoming : ∀ d ∈ s.registries.legs.lookup leg, ∃ d' ∈ t.registries.legs.lookup leg, ∀ id, id ∈ d'.incoming ↔ id ∈ d.incoming
  irqs : t.registries.irqs = s.registries.irqs
  netTransactions : t.registries.netTransactions = s.registries.netTransactions

section
variable {s : Sessions} {leg : Leg} {d : SipDialog} {r : SessionRequest} {status : Nat}

/-- The tables see what they see without session timers. -/
theorem registries_otherInsideDialog :
    (s.otherInsideDialog leg d r).1.registries = s.registries.otherInsideDialog leg d r.toRequest := by
  unfold Sessions.otherInsideDialog Registries.otherInsideDialog
  dsimp only
  generalize (if r.method = .bye then s.registries else _) = registries
  split
  · rfl
  · split
    · rfl
    · split
      · rfl
      · split <;> rfl

/-- What the handler has done by the time it rejects a request. -/
theorem lookup_rescheduled (timers : SessionTimers) (leg : Leg) (timer : Option SessionTimer) :
    (match timer with
      | some t => (timers.cancelSessionTimer leg).setSessionTimer leg t
      | none => timers.cancelSessionTimer leg).lookup leg = timer := by
  cases timer with
  | none => exact AList.lookup_erase _ _
  | some t => exact AList.lookup_insert _

theorem otherInsideDialog_rejected (hmethod : r.method = .invite ∨ r.method = .update)
    (h : (s.otherInsideDialog leg d r).2 = some status) :
    (s.otherInsideDialog leg d r).1.registries =
        s.registries.modify leg (fun d => { d with incoming := r.transactionId :: d.incoming }) ∧
      (s.otherInsideDialog leg d r).1.timers.lookup leg = r.timer (s.weAreRefresher leg) := by
  have hbye : r.method ≠ .bye := by rcases hmethod with hm | hm <;> simp [hm]
  have hfinal : ¬ (r.method = .bye ∨ r.isFinalNotify = true) := by
    rintro (hb | hf)
    · exact hbye hb
    · rcases hmethod with hm | hm <;> simp [Request.isFinalNotify, hm] at hf
  have hstateless : ¬ r.isStateless = true := by
    rcases hmethod with hm | hm <;> simp [Request.isStateless, hm]
  unfold Sessions.otherInsideDialog at h ⊢
  simp only [if_neg hbye, if_pos hmethod] at h ⊢
  generalize s.registries.modify leg (fun d => { d with incoming := r.transactionId :: d.incoming }) = added at h ⊢
  change (_ ∧ _ = r.timer (s.weAreRefresher leg))
  generalize s.weAreRefresher leg = weAreRefresher at h ⊢
  by_cases hsmall : r.tooSmall = true
  · simp only [if_pos hsmall]
    refine ⟨trivial, ?_⟩
    rw [SessionRequest.timer, if_neg fun hset => Bool.false_ne_true (hset.2.symm.trans hsmall)]
    exact AList.lookup_erase _ _
  · simp only [if_neg hsmall] at h ⊢
    have htimer := lookup_rescheduled s.timers leg (r.timer weAreRefresher)
    cases hclient : added.clientForRequest r.toRequest d.dialogId with
    | some client =>
      have hrouted : (added.routeRequestInsideDialog r.toRequest d.dialogId).2 = true := by
        rw [routeRequestInsideDialog, hclient]
        rfl
      simp only [if_pos hrouted] at h
      cases h
    | none =>
      have hrouted : added.routeRequestInsideDialog r.toRequest d.dialogId = (added, false) := by
        rw [routeRequestInsideDialog, hclient]
        simp only [if_neg hfinal, Option.isSome_none]
      simp only [hrouted, Bool.false_eq_true, if_false] at h ⊢
      by_cases hstatus : d.status < 200
      · simp only [if_pos hstatus] at h ⊢
        split at h
        · rename_i hupdate
          refine ⟨?_, htimer⟩
          simp only [earlyRequest, if_neg hstateless, if_pos hupdate.1, if_pos hupdate.2]
        · cases h
      · simp only [if_neg hstatus] at h ⊢
        exact ⟨trivial, htimer⟩

theorem processRequestInsideDialog_rejected (hmethod : r.method = .invite ∨ r.method = .update)
    (h : (s.processRequestInsideDialog leg r).2 = some status) : ∃ d, s.registries.findDialogByLeg leg = some d ∧
      s.processRequestInsideDialog leg r = s.otherInsideDialog leg d r := by
  unfold Sessions.processRequestInsideDialog at h ⊢
  cases hd : s.registries.findDialogByLeg leg with
  | none =>
    simp only [hd] at h
    exact nomatch h
  | some d =>
    simp only [hd] at h ⊢
    refine ⟨d, rfl, ?_⟩
    split at h
    · exact nomatch h
    · rename_i hin
      rw [if_neg hin]
      rcases hmethod with hm | hm <;> rw [hm]

end

/-- A re-INVITE or an UPDATE that is rejected never leaves the dialog as it was: its transaction stays with the dialog.
    The tables of server transactions and of clients are left alone; the session timer that was running is gone, and
    the one that the request asks for is there when it is not too small. -/
theorem rejection_leaves_trace (s : Sessions) (leg : Leg) (r : SessionRequest) (status : Nat)
    (hmethod : r.method = .invite ∨ r.method = .update) (hrejected : (s.processRequestInsideDialog leg r).2 = some status)
    (hfresh : ∀ d ∈ s.registries.findDialogByLeg leg, r.transactionId ∉ d.incoming) :
    let t := (s.processRequestInsideDialog leg r).1
    ¬ Untouched leg s t ∧ t.registries.irqs = s.registries.irqs ∧
      t.registries.netTransactions = s.registries.netTransactions ∧ t.timers.lookup leg = r.timer (s.weAreRefresher leg) := by
  obtain ⟨d, hd, heq⟩ := processRequestInsideDialog_rejected hmethod hrejected
  rw [heq] at hrejected
  obtain ⟨hregistries, htimer⟩ := otherInsideDialog_rejected hmethod hrejected
  have hlookup := (findDialogByLeg_eq_some hd).1
  dsimp only
  rw [heq, hregistries]
  refine ⟨fun huntouched => ?_, by rw [modify_eq], by rw [modify_eq], htimer⟩
  obtain ⟨d', hd', hsame⟩ := huntouched.incoming d hlookup
  rw [hregistries, lookup_modify_self, hlookup] at hd'
  obtain rfl := Option.some.inj hd'
  exact hfresh d hd ((hsame r.transactionId).mp List.mem_cons_self)

/-- An established dialog, which the other side refreshes, and a re-INVITE with a session that is too short -/
def established : Sessions where
  registries := { Registries.empty with
    legs := AList.singleton 0 { SipDialog.new "call" "tag" "t0" true (some 7) 200 with stable := true } }
  timers := AList.singleton 0 ⟨1800, .they⟩

def shortReinvite : SessionRequest where
  arrival := { Pending.PendingRequests.inviteArrival (.ofString "call") 1 "t1" 5 with hasToTag := true }
  transactionId := "t1"
  substate := none
  event := none
  sessionExpires := some 60
  logsInfo := false
  refresher := none

theorem rejection_leaves_trace_short :
    (established.processRequestInsideDialog 0 shortReinvite).2 = some 422 ∧
      ¬ Untouched 0 established (established.processRequestInsideDialog 0 shortReinvite).1 := by
  have hrejected : (established.processRequestInsideDialog 0 shortReinvite).2 = some 422 := rfl
  refine ⟨hrejected, (rejection_leaves_trace established 0 shortReinvite 422 (Or.inl rfl) hrejected ?_).1⟩
  intro d hd
  obtain rfl := Option.some.inj hd
  exact List.not_mem_nil

/-- The session timer is gone after the 422. -/
theorem rejection_ends_session :
    established.timers.lookup 0 = some ⟨1800, .they⟩ ∧
      (established.processRequestInsideDialog 0 shortReinvite).1.timers.lookup 0 = none ∧
      ¬ Untouched 0 established (established.processRequestInsideDialog 0 shortReinvite).1 := by
  refine ⟨rfl, rfl, fun huntouched => ?_⟩
  exact nomatch huntouched.timer

end Sessions

end Drachtio.Dialog
