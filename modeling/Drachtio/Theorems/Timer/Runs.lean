import Drachtio.Lib.Run
import Drachtio.Theorems.Timer.Queue

/-! What holds of a timer queue after any calls: the entries it holds are those that were added and have
    neither been removed nor expired, and the operating system timer is set for the first of them. -/

namespace Drachtio.Timer.TimerQueue

open Machine

variable {τ : Type} [LinearOrder τ] {suTimeAdd : τ → UInt32 → τ}

/-- A queue with the handles that its users may still hold: added, and neither removed nor expired. -/
structure Used (τ : Type) where
  queue : TimerQueue τ
  live : List Nat

namespace Used

def start : Used τ := ⟨empty, []⟩

def step (suTimeAdd : τ → UInt32 → τ) (s : Used τ) (op : Op τ) : Used τ :=
  let queue := s.queue.step suTimeAdd op
  match op with
  | .add a _ _ => ⟨queue, a :: s.live⟩
  | .remove a => ⟨queue, s.live.erase a⟩
  | .doTimer _ => ⟨queue, s.live.filter (· ∉ queue.fired.drop s.queue.fired.length)⟩

/-- The allocator returns an address that is free, and only a handle that is still live is removed. -/
def Legal (s : Used τ) : Op τ → Prop
  | .add a _ _ => a ∉ s.queue.heap
  | .remove a => a ∈ s.live
  | .doTimer _ => True

instance (s : Used τ) (op : Op τ) : Decidable (s.Legal op) :=
  match op with
  | .add a _ _ => inferInstanceAs (Decidable (¬ a ∈ s.queue.heap))
  | .remove a => inferInstanceAs (Decidable (a ∈ s.live))
  | .doTimer _ => isTrue trivial

/-- An entry that is added is not due at the very time at which the last one is. -/
def Apart (suTimeAdd : τ → UInt32 → τ) (s : Used τ) : Op τ → Prop
  | .add _ milliseconds now => ∀ e ∈ s.queue.entry s.queue.tail, suTimeAdd now milliseconds ≠ e.when
  | _ => True

instance (s : Used τ) (op : Op τ) : Decidable (s.Apart suTimeAdd op) :=
  match op with
  | .add _ milliseconds now =>
    inferInstanceAs (Decidable (∀ e ∈ s.queue.entry s.queue.tail, suTimeAdd now milliseconds ≠ e.when))
  | .remove _ => isTrue trivial
  | .doTimer _ => isTrue trivial

/-- The queue holds exactly the live entries, and no assert of `add` or `remove` has failed. -/
def Sound (s : Used τ) : Prop :=
  (∃ l, Represents s.queue l ∧ (addrs l).Perm s.live) ∧ ∀ f ∈ s.queue.faults, f = .doTimerHead

end Used

open Used

variable {s : Used τ} {op : Op τ} {l : List (Nat × τ)}

/-- The entry m_tail leads to is the last of the list. -/
theorem Represents.last {q : TimerQueue τ} (r : Represents q l) {x : Nat × τ} (hx : l.getLast? = some x) :
    ∃ e, q.entry q.tail = some e ∧ e.when = x.2 := by
  have htail : q.tail = some x.1 := by rw [r.tail, List.getLast?_map, hx, Option.map_some]
  obtain ⟨e, he, hw⟩ := Option.map_eq_some_iff.mp (r.whens x (List.mem_of_getLast? hx))
  exact ⟨e, by rw [htail, entry_some, he], hw⟩

/-- Setting the timer does not concern the list. -/
theorem Represents.timer_any {q : TimerQueue τ} (r : Represents q l) (timer : Option τ) :
    Represents { q with timer := timer } l :=
  ⟨r.nodup, r.whens, r.chain, r.head, r.tail, r.length, r.sorted, r.idle⟩

theorem step_add {a : Nat} {milliseconds : UInt32} {now : τ} (r : Represents s.queue l) (hperm : (addrs l).Perm s.live)
    (hfresh : a ∉ s.queue.heap) (hapart : s.Apart suTimeAdd (.add a milliseconds now)) :
    ∃ l₁ l₂, l = l₁ ++ l₂ ∧
      Leaves s.queue (s.step suTimeAdd (.add a milliseconds now)).queue (l₁ ++ (a, suTimeAdd now milliseconds) :: l₂)
        (if l₁ = [] then some (suTimeAdd now milliseconds) else s.queue.timer) [] ∧
      (addrs (l₁ ++ (a, suTimeAdd now milliseconds) :: l₂)).Perm (s.step suTimeAdd (.add a milliseconds now)).live := by
  have hlast : ∀ x ∈ l.getLast?, suTimeAdd now milliseconds ≠ x.2 := by
    intro x hx
    obtain ⟨e, he, hw⟩ := r.last hx
    exact hw ▸ hapart e he
  obtain ⟨l₁, l₂, rfl, hleaves, -, -⟩ := add_spec r hfresh hlast
  refine ⟨l₁, l₂, rfl, hleaves, ?_⟩
  rw [addrs_append, addrs_cons]
  rw [addrs_append] at hperm
  exact List.perm_middle.trans (hperm.cons a)

theorem step_remove {a : Nat} (r : Represents s.queue l) (hperm : (addrs l).Perm s.live) (hlive : a ∈ s.live) :
    ∃ l₁ w l₂, l = l₁ ++ (a, w) :: l₂ ∧
      Leaves s.queue (s.step suTimeAdd (.remove a)).queue (l₁ ++ l₂)
        (if l₁ = [] then l₂.head?.map Prod.snd else s.queue.timer) [] ∧
      (addrs (l₁ ++ l₂)).Perm (s.step suTimeAdd (.remove a)).live := by
  obtain ⟨⟨a', w⟩, hmem, rfl⟩ := List.mem_map.mp (hperm.symm.subset hlive)
  obtain ⟨l₁, l₂, rfl⟩ := List.append_of_mem hmem
  refine ⟨l₁, w, l₂, rfl, remove_spec r, ?_⟩
  rw [addrs_append, addrs_cons] at hperm
  have herase := (List.perm_middle.symm.trans hperm).erase a'
  rw [List.erase_cons_head, ← addrs_append] at herase
  exact herase

/-- After a firing of the timer with nothing queued, with nothing due, or with the first entry expired. -/
theorem step_doTimer {now : τ} (r : Represents s.queue l) (hperm : (addrs l).Perm s.live) :
    (l = [] ∧ (s.step suTimeAdd (.doTimer now)).queue = { s.queue with timer := none }.fault .doTimerHead ∧
      (s.step suTimeAdd (.doTimer now)).live = s.live) ∨
    (∃ x l', l = x :: l' ∧ ¬ x.2 < now ∧ Leaves s.queue (s.step suTimeAdd (.doTimer now)).queue l (some x.2) [] ∧
      (s.step suTimeAdd (.doTimer now)).live = s.live) ∨
    (∃ x l', l = x :: l' ∧ x.2 < now ∧
      Leaves s.queue (s.step suTimeAdd (.doTimer now)).queue l' (l'.head?.map Prod.snd) [x.1] ∧
      (addrs l').Perm (s.step suTimeAdd (.doTimer now)).live) := by
  have r' := r.timer_any none
  have hkeep : (s.step suTimeAdd (.doTimer now)).queue.fired = s.queue.fired →
      (s.step suTimeAdd (.doTimer now)).live = s.live := by
    intro h
    have hnew : (s.step suTimeAdd (.doTimer now)).queue.fired.drop s.queue.fired.length = [] := by
      rw [h, List.drop_length]
    show s.live.filter (· ∉ (s.step suTimeAdd (.doTimer now)).queue.fired.drop s.queue.fired.length) = s.live
    rw [hnew]
    exact List.filter_eq_self.mpr fun a _ => decide_eq_true (List.not_mem_nil)
  cases l with
  | nil =>
    have heq : (s.step suTimeAdd (.doTimer now)).queue = { s.queue with timer := none }.fault .doTimerHead :=
      doTimer_nil r' now
    refine .inl ⟨rfl, heq, hkeep ?_⟩
    rw [heq]
    rfl
  | cons x l' =>
    by_cases hnow : x.2 < now
    · have hleaves := doTimer_late r' hnow
      refine .inr (.inr ⟨x, l', rfl, hnow, ⟨hleaves.represents, ?_, hleaves.fired, hleaves.faults⟩, ?_⟩)
      · refine hleaves.timer.trans ?_
        cases l' <;> rfl
      · have hnew : (s.step suTimeAdd (.doTimer now)).queue.fired.drop s.queue.fired.length = [x.1] := by
          have h : (s.step suTimeAdd (.doTimer now)).queue.fired = s.queue.fired ++ [x.1] := hleaves.fired
          rw [h, List.drop_left]
        show (addrs l').Perm (s.live.filter (· ∉ (s.step suTimeAdd (.doTimer now)).queue.fired.drop s.queue.fired.length))
        rw [hnew]
        have hfilter := hperm.filter (· ∉ [x.1])
        have hnodup := List.nodup_cons.mp r.nodup
        have hrest : (addrs l').filter (· ∉ [x.1]) = addrs l' :=
          List.filter_eq_self.mpr fun b hb => decide_eq_true fun h => hnodup.1 (List.mem_singleton.mp h ▸ hb)
        rw [addrs_cons, List.filter_cons_of_neg (by simp), hrest] at hfilter
        exact hfilter
    · have hleaves := doTimer_early r' hnow
      refine .inr (.inl ⟨x, l', rfl, hnow, ⟨hleaves.represents, hleaves.timer, hleaves.fired, hleaves.faults⟩, ?_⟩)
      exact hkeep (hleaves.fired.trans (List.append_nil _))

/-! ### The list -/

namespace Used

theorem Sound.step (h : s.Sound) (hlegal : s.Legal op) (hapart : s.Apart suTimeAdd op) : (s.step suTimeAdd op).Sound := by
  obtain ⟨⟨l, r, hperm⟩, hfaults⟩ := h
  cases op with
  | add a milliseconds now =>
    obtain ⟨l₁, l₂, -, hleaves, hperm'⟩ := step_add r hperm hlegal hapart
    exact ⟨⟨_, hleaves.represents, hperm'⟩, by rw [hleaves.faults]; exact hfaults⟩
  | remove a =>
    obtain ⟨l₁, w, l₂, -, hleaves, hperm'⟩ := @step_remove _ _ suTimeAdd _ _ _ r hperm hlegal
    exact ⟨⟨_, hleaves.represents, hperm'⟩, by rw [hleaves.faults]; exact hfaults⟩
  | doTimer now =>
    obtain ⟨rfl, hqueue, hlive⟩ | ⟨x, l', rfl, -, hleaves, hlive⟩ | ⟨x, l', rfl, -, hleaves, hperm'⟩ :=
      @step_doTimer _ _ suTimeAdd _ _ now r hperm
    · refine ⟨⟨[], ?_, hlive ▸ hperm⟩, ?_⟩
      · rw [hqueue]
        exact ⟨r.nodup, r.whens, r.chain, r.head, r.tail, r.length, r.sorted, r.idle⟩
      · rw [hqueue]
        intro f hf
        rcases List.mem_append.mp hf with hf | hf
        · exact hfaults f hf
        · exact List.mem_singleton.mp hf
    · exact ⟨⟨_, hleaves.represents, hlive ▸ hperm⟩, by rw [hleaves.faults]; exact hfaults⟩
    · exact ⟨⟨_, hleaves.represents, hperm'⟩, by rw [hleaves.faults]; exact hfaults⟩

/-- Where the condition fails, so does the assert behind the loop of `add`. -/
theorem Sound.not_apart (h : s.Sound) (hlegal : s.Legal op) (hapart : ¬ s.Apart suTimeAdd op) :
    (s.step suTimeAdd op).queue.faults = s.queue.faults ++ [.addPosition] := by
  obtain ⟨⟨l, r, -⟩, -⟩ := h
  cases op with
  | add a milliseconds now =>
    simp only [Apart, not_forall, not_not] at hapart
    obtain ⟨e, he, heq⟩ := hapart
    rw [Option.mem_def] at he
    rcases List.eq_nil_or_concat l with rfl | ⟨l₀, ⟨c, w⟩, rfl⟩
    · rw [r.tail] at he
      cases he
    · rw [List.concat_eq_append] at r
      obtain ⟨e', he', hw⟩ := r.last List.getLast?_concat
      rw [he, Option.some.injEq] at he'
      have hw' : suTimeAdd now milliseconds = w := by rw [heq, he', hw]
      show (s.queue.add a (suTimeAdd now milliseconds)).faults = _
      rw [hw']
      exact add_equal r hlegal
  | remove a => exact absurd trivial hapart
  | doTimer now => exact absurd trivial hapart

theorem sound_start : (start : Used τ).Sound := ⟨⟨[], represents_empty, List.Perm.nil⟩, nofun⟩

/-- After every call of a run the queue holds exactly the entries added and neither removed nor expired,
    linked, counted and in the order of their deadlines, and no assert of `add` or `remove` has failed, just
    when no entry was added with the deadline of the last one in the queue. -/
theorem sound_iff_apart (suTimeAdd : τ → UInt32 → τ) (ops : List (Op τ)) (hlegal : Meets (step suTimeAdd) Legal start ops) :
    (∀ done, done <+: ops → (run (step suTimeAdd) start done).Sound) ↔
      Meets (step suTimeAdd) (Apart suTimeAdd) start ops := by
  -- the runs from any sound state
  suffices h : ∀ s : Used τ, s.Sound → ∀ ops, Meets (step suTimeAdd) Legal s ops →
      ((∀ done, done <+: ops → (run (step suTimeAdd) s done).Sound) ↔ Meets (step suTimeAdd) (Apart suTimeAdd) s ops) from
    h start sound_start ops hlegal
  intro s hs ops hlegal
  induction ops generalizing s with
  | nil =>
    refine ⟨fun _ => trivial, fun _ done hdone => ?_⟩
    rw [List.prefix_nil.mp hdone]
    exact hs
  | cons op ops ih =>
    constructor
    · intro h
      have hone : (step suTimeAdd s op).Sound := h [op] (List.prefix_append [op] ops)
      have hapart : Apart suTimeAdd s op := by
        by_contra hnot
        have hfault := hone.2 .addPosition (by rw [hs.not_apart hlegal.1 hnot]; simp)
        cases hfault
      refine ⟨hapart, (ih _ hone hlegal.2).mp fun done hdone => ?_⟩
      exact h (op :: done) (List.cons_prefix_cons.mpr ⟨rfl, hdone⟩)
    · intro h done hdone
      cases done with
      | nil => exact hs
      | cons op' done =>
        obtain ⟨rfl, hrest⟩ := List.cons_prefix_cons.mp hdone
        exact (ih _ (hs.step hlegal.1 h.1) hlegal.2).mpr h.2 done hrest

/-- Three entries, the second one before the first; one is removed, and one expires. -/
theorem sound_apart_calls :
    let ops : List (Op Nat) := [.add 0 32000 5, .add 1 500 6, .add 2 64000 6, .remove 0, .doTimer 600]
    Meets (step fun now ms => now + ms.toNat) Legal start ops ∧
      ∀ done, done <+: ops → (run (step fun now ms => now + ms.toNat) start done).Sound :=
  ⟨by decide, (sound_iff_apart _ _ (by decide)).mpr (by decide)⟩

/-- Two entries added for the same time: the second one is lost. -/
theorem same_deadline_lost :
    ∃ ops : List (Op Nat), Meets (step fun now ms => now + ms.toNat) Legal start ops ∧
      ¬ (run (step fun now ms => now + ms.toNat) start ops).Sound := by
  refine ⟨[.add 0 32000 5, .add 1 32000 5], by decide, fun h => ?_⟩
  have hmem :
      Fault.addPosition ∈ (run (step fun now ms => now + ms.toNat) start [.add 0 32000 5, .add 1 32000 5]).queue.faults := by
    decide
  exact nomatch h.2 _ hmem

/-! ### The timer -/

/-- `doTimer` runs only when the timer fires. -/
def Fires (s : Used τ) : Op τ → Prop
  | .doTimer _ => s.queue.timer.isSome = true
  | _ => True

/-- The asserts of `add` and `remove` hold. -/
def Asserts (suTimeAdd : τ → UInt32 → τ) (s : Used τ) : Op τ → Prop
  | .doTimer _ => True
  | op => (s.step suTimeAdd op).queue.faults = s.queue.faults

/-- The queue holds the list, the timer is set for its first entry, and nothing has gone wrong. -/
structure Tracks (s : Used τ) (l : List (Nat × τ)) : Prop where
  represents : Represents s.queue l
  live : (addrs l).Perm s.live
  timer : s.queue.timer = l.head?.map Prod.snd
  faults : s.queue.faults = []

namespace Tracks

theorem sound (h : s.Tracks l) : s.Sound := ⟨⟨l, h.represents, h.live⟩, by simp [h.faults]⟩

/-- The first entry is due, and a firing calls its function. -/
theorem doTimer_late {x : Nat × τ} {now : τ} (h : s.Tracks (x :: l)) (hnow : x.2 < now) :
    (s.step suTimeAdd (.doTimer now)).Tracks l ∧
      (s.step suTimeAdd (.doTimer now)).queue.fired = s.queue.fired ++ [x.1] := by
  obtain ⟨hnil, -⟩ | ⟨y, l', hcons, hearly, -⟩ | ⟨y, l', hcons, -, hleaves, hperm⟩ :=
    @step_doTimer _ _ suTimeAdd _ _ now h.represents h.live
  · cases hnil
  · cases hcons
    exact absurd hnow hearly
  · cases hcons
    exact ⟨⟨hleaves.represents, hperm, hleaves.timer, hleaves.faults.trans h.faults⟩, hleaves.fired⟩

theorem step (h : s.Tracks l) (hlegal : s.Legal op) (hfires : s.Fires op) (hasserts : s.Asserts suTimeAdd op) :
    ∃ l', (s.step suTimeAdd op).Tracks l' := by
  cases op with
  | add a milliseconds now =>
    have hapart : s.Apart suTimeAdd (.add a milliseconds now) := by
      by_contra hnot
      have hfault := h.sound.not_apart hlegal hnot
      rw [hasserts] at hfault
      exact absurd hfault (by simp)
    obtain ⟨l₁, l₂, rfl, hleaves, hperm⟩ := step_add h.represents h.live hlegal hapart
    refine ⟨_, hleaves.represents, hperm, hleaves.timer.trans ?_, hleaves.faults.trans h.faults⟩
    cases l₁ with
    | nil => rfl
    | cons x l₁ => exact h.timer
  | remove a =>
    obtain ⟨l₁, w, l₂, rfl, hleaves, hperm⟩ := @step_remove _ _ suTimeAdd _ _ _ h.represents h.live hlegal
    refine ⟨_, hleaves.represents, hperm, hleaves.timer.trans ?_, hleaves.faults.trans h.faults⟩
    cases l₁ with
    | nil => rfl
    | cons x l₁ => exact h.timer
  | doTimer now =>
    obtain ⟨rfl, -⟩ | ⟨x, l', rfl, -, hleaves, hlive⟩ | ⟨x, l', rfl, -, hleaves, hperm⟩ :=
      @step_doTimer _ _ suTimeAdd _ _ now h.represents h.live
    · -- an empty queue has no timer set
      have hfires' : s.queue.timer.isSome = true := hfires
      rw [h.timer] at hfires'
      cases hfires'
    · exact ⟨_, hleaves.represents, hlive ▸ h.live, hleaves.timer, hleaves.faults.trans h.faults⟩
    · exact ⟨_, hleaves.represents, hperm, hleaves.timer, hleaves.faults.trans h.faults⟩

/-- An entry is reached by as many firings behind its deadline as there are entries up to it. -/
theorem reaches {l₁ l₂ : List (Nat × τ)} {a : Nat} {w : τ} {nows : List τ} (h : s.Tracks (l₁ ++ (a, w) :: l₂))
    (hlength : nows.length = l₁.length + 1) (hnows : ∀ t ∈ nows, w < t) :
    Meets (Used.step suTimeAdd) Fires s (nows.map .doTimer) ∧
      ∃ fired, (run (Used.step suTimeAdd) s (nows.map .doTimer)).queue.fired = s.queue.fired ++ fired ∧ a ∈ fired := by
  induction l₁ generalizing s nows with
  | nil =>
    obtain ⟨t, rfl⟩ := List.length_eq_one_iff.mp hlength
    have hlate := @doTimer_late _ _ suTimeAdd _ _ _ _ h (hnows t List.mem_cons_self)
    refine ⟨⟨?_, trivial⟩, [a], hlate.2, List.mem_cons_self⟩
    show s.queue.timer.isSome = true
    rw [h.timer]
    rfl
  | cons x l₁ ih =>
    obtain ⟨t, rest, rfl⟩ := List.exists_cons_of_length_eq_add_one hlength
    have hle : x.2 ≤ w := (List.pairwise_cons.mp h.represents.sorted).1 (a, w) (by simp)
    have hlate := @doTimer_late _ _ suTimeAdd _ _ _ _ h (hle.trans_lt (hnows t List.mem_cons_self))
    obtain ⟨hmeets, fired, hfired, ha⟩ := ih hlate.1 (by simpa using hlength) fun t ht => hnows t (List.mem_cons_of_mem _ ht)
    refine ⟨⟨?_, hmeets⟩, x.1 :: fired, ?_, List.mem_cons_of_mem _ ha⟩
    · show s.queue.timer.isSome = true
      rw [h.timer]
      rfl
    · refine hfired.trans ?_
      rw [hlate.2, List.append_assoc]
      rfl

end Tracks

/-- Between calls the timer is set just when the queue is not empty, and then for the deadline of m_head, so
    that no firing finds the queue empty and no assert of `doTimer` fails. It is never set for later than an
    entry is due, and firings behind the deadline of an entry reach it one by one. -/
theorem timer_tracks_head (suTimeAdd : τ → UInt32 → τ) (ops : List (Op τ))
    (hops : Meets (step suTimeAdd) (fun s op => s.Legal op ∧ s.Fires op ∧ s.Asserts suTimeAdd op) start ops) :
    let s := run (step suTimeAdd) start ops
    s.queue.timer = s.queue.head.bind s.queue.whenOf ∧ s.queue.timer.isSome = s.queue.head.isSome ∧ s.queue.faults = [] ∧
      ∀ a ∈ s.live, ∃ w, s.queue.whenOf a = some w ∧ (∃ t, s.queue.timer = some t ∧ t ≤ w) ∧
        ∃ n, 0 < n ∧ n ≤ s.live.length ∧ ∀ nows : List τ, nows.length = n → (∀ t ∈ nows, w < t) →
          Meets (step suTimeAdd) Fires s (nows.map .doTimer) ∧
          a ∈ (run (step suTimeAdd) s (nows.map .doTimer)).queue.fired.drop s.queue.fired.length := by
  have hstart : ∃ l, (start : Used τ).Tracks l := ⟨[], represents_empty, List.Perm.nil, rfl, rfl⟩
  have hstep : ∀ (s : Used τ) (op : Op τ), (∃ l, s.Tracks l) →
      s.Legal op ∧ s.Fires op ∧ s.Asserts suTimeAdd op → ∃ l, (s.step suTimeAdd op).Tracks l := by
    rintro s op ⟨l, h⟩ ⟨hlegal, hfires, hasserts⟩
    exact h.step hlegal hfires hasserts
  obtain ⟨l, h⟩ := run_induction hstep hstart hops
  intro s
  have hhead := h.represents.head
  refine ⟨?_, ?_, h.faults, fun a ha => ?_⟩
  · rw [h.timer, hhead]
    cases l with
    | nil => rfl
    | cons x l => exact (h.represents.whens x List.mem_cons_self).symm
  · rw [h.timer, hhead]
    cases l <;> rfl
  · obtain ⟨⟨a', w⟩, hmem, rfl⟩ := List.mem_map.mp (h.live.symm.subset ha)
    have hwhen := h.represents.whens (a', w) hmem
    obtain ⟨l₁, l₂, rfl⟩ := List.append_of_mem hmem
    refine ⟨w, hwhen, ?_, l₁.length + 1, Nat.succ_pos _, ?_, fun nows hlength hnows => ?_⟩
    · cases l₁ with
      | nil => exact ⟨w, h.timer, le_refl w⟩
      | cons x l₁ => exact ⟨x.2, h.timer, (List.pairwise_cons.mp h.represents.sorted).1 (a', w) (by simp)⟩
    · rw [← h.live.length_eq, List.length_map, List.length_append, List.length_cons]
      omega
    · obtain ⟨hmeets, fired, hfired, hin⟩ := @Tracks.reaches _ _ suTimeAdd _ _ _ _ _ _ h hlength hnows
      refine ⟨hmeets, ?_⟩
      rw [hfired, List.drop_left]
      exact hin

/-- Two entries are due when the timer fires late. -/
theorem timer_tracks_late :
    let s := run (step fun now ms => now + ms.toNat) start [.add 0 500 6, .add 1 600 6, .add 2 700 6, .remove 1, .doTimer 900]
    s.queue.timer = some 706 ∧ s.queue.faults = [] ∧ 2 ∈ s.live ∧ s.queue.timer = s.queue.head.bind s.queue.whenOf :=
  ⟨by decide, by decide, by decide,
    (timer_tracks_head _ [.add 0 500 6, .add 1 600 6, .add 2 700 6, .remove 1, .doTimer 900] (by
      refine ⟨⟨by decide, trivial, rfl⟩, ⟨by decide, trivial, rfl⟩, ⟨by decide, trivial, rfl⟩, ⟨by decide, trivial, rfl⟩,
        ⟨trivial, rfl, trivial⟩, trivial⟩)).1⟩

end Used

end Drachtio.Timer.TimerQueue
