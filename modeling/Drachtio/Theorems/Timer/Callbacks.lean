import Drachtio.Theorems.Timer.Queue
import Mathlib.Data.List.Sort

/-! What one firing of the timer does when the functions of expired entries call the queue. -/

namespace Drachtio.Timer.TimerQueue

open Machine

variable {τ : Type} {suTimeAdd : τ → UInt32 → τ} {q : TimerQueue τ} {l l₁ l₂ : List (Nat × τ)} {a b : Nat} {w : τ}

/-! ### Without calls -/

section
variable [LinearOrder τ]

theorem callBack_nil (fuel : Nat) (p : Option Nat) (q : TimerQueue τ) :
    q.callBack suTimeAdd (fun _ => []) fuel p = q.callExpired fuel p := by
  induction fuel generalizing p q with
  | zero => cases p <;> rfl
  | succ fuel ih =>
    cases p with
    | none => rfl
    | some a =>
      rw [callBack, callExpired]
      cases he : q.heap.lookup a with
      | none => rfl
      | some e =>
        simp only [List.foldl_nil, he]
        exact ih _ _

/-- `doTimer` is a firing whose functions do not call the queue. -/
theorem doTimerCalling_nil (now : τ) (q : TimerQueue τ) : q.doTimerCalling suTimeAdd (fun _ => []) now = q.doTimer now := by
  rw [doTimerCalling]
  by_cases hidle : q.inTimer = true
  · rw [if_pos hidle, doTimer, if_pos hidle]
  · rw [if_neg hidle, doTimer_gather (by simpa using hidle)]
    exact callBack_nil _ _ _

end

/-! ### Objects that are in no list -/

theorem modify_lookup_ne {p : Option Nat} (h : p ≠ some b) (f : QueueEntry τ → QueueEntry τ) (q : TimerQueue τ) :
    (q.modify p f).heap.lookup b = q.heap.lookup b := by
  cases p with
  | none => rfl
  | some a =>
    have hne : b ≠ a := fun hb => h (congrArg some hb.symm)
    cases he : q.heap.lookup a with
    | none =>
      simp only [modify, he]
      rfl
    | some e => rw [modify_of he, store_lookup, if_neg hne]

theorem assert_heap (holds : Bool) (f : Fault) (q : TimerQueue τ) : (q.assert holds f).heap = q.heap := by
  rw [assert]
  split <;> rfl

theorem armFor_heap (p : Option Nat) (q : TimerQueue τ) : (q.armFor p).heap = q.heap := by
  rw [armFor]
  split <;> rfl

theorem rearm_heap (e : QueueEntry τ) (q : TimerQueue τ) : (q.rearm e).heap = q.heap := by
  rw [rearm]
  split
  · rfl
  · split
    · exact armFor_heap _ _
    · rfl

theorem count_heap (a : Nat) (w : τ) (q : TimerQueue τ) : (q.count a w).heap = q.heap := by
  rw [count]
  split <;> rfl

/-- Taking an entry out of the list touches its neighbours. -/
theorem unlink_frame {e : QueueEntry τ} {q' : TimerQueue τ} (hnext : e.next ≠ some b) (hprev : e.prev ≠ some b)
    (h : q.unlink a e = some q') : q'.heap.lookup b = q.heap.lookup b := by
  rw [unlink] at h
  split at h
  · dsimp only at h
    split at h
    · rw [← Option.some.inj h, setPrev, modify_lookup_ne hnext]
    · rw [← Option.some.inj h]
      exact congrArg (fun heap : AList fun _ : Nat => QueueEntry τ => heap.lookup b) (assert_heap _ _ _)
  · split at h
    · rw [← Option.some.inj h, setNext, modify_lookup_ne hprev]
      exact congrArg (fun heap : AList fun _ : Nat => QueueEntry τ => heap.lookup b) (assert_heap _ _ _)
    · split at h
      · cases h
      · rw [← Option.some.inj h, setPrev, modify_lookup_ne hnext, setNext, modify_lookup_ne hprev, assert_heap, assert_heap]

theorem not_mem_delete (a : Nat) (q : TimerQueue τ) : a ∉ (q.delete a).heap := fun h =>
  (AList.mem_erase.mp h).1 rfl

/-- The entry that is removed is deleted. -/
theorem not_mem_remove (a : Nat) (q : TimerQueue τ) : a ∉ (q.remove a).heap := by
  rw [remove]
  split
  · rename_i he
    exact fun h => absurd (AList.lookup_eq_none.mp he) (not_not_intro h)
  · dsimp only
    split <;> exact not_mem_delete _ _

section
variable [LinearOrder τ]

/-- The successor and the predecessor of an entry of the list are in the list. -/
theorem Represents.links_mem {e : QueueEntry τ} (r : Represents q l) (ha : a ∈ addrs l) (he : q.heap.lookup a = some e) :
    (∀ b, e.next = some b → b ∈ addrs l) ∧ ∀ b, e.prev = some b → b ∈ addrs l := by
  obtain ⟨x, hx, rfl⟩ := List.mem_map.mp ha
  obtain ⟨l₁, l₂, rfl⟩ := List.append_of_mem hx
  obtain ⟨-, hprev, hnext⟩ := r.entry_eq he
  rw [addrs_append, addrs_cons]
  refine ⟨fun b hb => ?_, fun b hb => ?_⟩
  · exact List.mem_append_right _ (List.mem_cons_of_mem _ (List.mem_of_head? (hnext.symm.trans hb)))
  · exact List.mem_append_left _ (List.mem_of_getLast? (hprev.symm.trans hb))

section
variable (r : Represents q l) (hb : b ∉ addrs l) (hba : b ≠ a)
include r hb hba

/-- The walk of `add` touches the new entry and entries of the list. -/
theorem insertBefore_frame (fuel idx : Nat) {c : Nat} (hc : c ∈ addrs l) :
    (q.insertBefore a w fuel idx (some c)).heap.lookup b = q.heap.lookup b := by
  induction fuel generalizing c idx with
  | zero => rfl
  | succ fuel ih =>
    obtain ⟨e, he⟩ := alive_iff.mp (r.alive hc)
    obtain ⟨hnext, hprev⟩ := r.links_mem hc he
    have ha : some a ≠ some b := fun h => hba (Option.some.inj h).symm
    have hcb : some c ≠ some b := fun h => hb (Option.some.inj h ▸ hc)
    have hpb : e.prev ≠ some b := fun h => hb (hprev b h)
    simp only [insertBefore, entry_some, he]
    split
    · split
      · rw [setPrev, modify_lookup_ne hcb]
        exact modify_lookup_ne ha _ _
      · rw [setPrev, modify_lookup_ne hcb, setNext, modify_lookup_ne hpb, setPrev, modify_lookup_ne ha, setNext,
          modify_lookup_ne ha]
    · split
      · rfl
      · rename_i d hd
        exact ih (idx + 1) (hnext d hd)

theorem linkIn_frame : (q.linkIn a w).heap.lookup b = q.heap.lookup b := by
  have ha : some a ≠ some b := fun h => hba (Option.some.inj h).symm
  rw [linkIn]
  split
  · show (q.assert q.tail.isNone .addTail).heap.lookup b = _
    rw [assert]
    split <;> rfl
  · rename_i h hhead
    split
    · have htail : q.tail ≠ some b := by
        rw [r.tail]
        exact fun h => hb (List.mem_of_getLast? h)
      show ((q.setPrev (some a) q.tail).setNext q.tail (some a)).heap.lookup b = _
      rw [setNext, modify_lookup_ne htail, setPrev, modify_lookup_ne ha]
    · exact insertBefore_frame r hb hba _ _ (List.mem_of_head? (r.head.symm.trans hhead))

end

/-- Adding an entry leaves alone what is in no list. -/
theorem add_frame (r : Represents q l) (hfresh : a ∉ q.heap) (hb : b ∉ addrs l) (hba : b ≠ a) :
    (q.add a w).heap.lookup b = q.heap.lookup b := by
  have r₀ := r.store_fresh (fun h => hfresh (r.mem_heap h)) ⟨none, none, w⟩
  rw [add_eq, count_heap, linkIn_frame r₀ hb hba, store_lookup, if_neg hba]

/-- Removing an entry leaves alone what is in no list. -/
theorem remove_frame (r : Represents q l) (ha : a ∈ addrs l) (hb : b ∉ addrs l) :
    (q.remove a).heap.lookup b = q.heap.lookup b := by
  have hba : b ≠ a := fun h => hb (h ▸ ha)
  obtain ⟨e, he⟩ := alive_iff.mp (r.alive ha)
  obtain ⟨hnext, hprev⟩ := r.links_mem ha he
  rw [remove, he]
  dsimp only
  split
  · exact delete_lookup_ne hba q
  · rename_i q' hunlink
    rw [delete_lookup_ne hba, rearm_heap, assert_heap]
    exact @unlink_frame _ q a b e q' (fun h => hb (hnext b h)) (fun h => hb (hprev b h)) hunlink

end

/-! ### Queues that count too many entries -/

/-- The two queues differ in the faults, and in a number of entries that the first one counts and does not
    hold. -/
def Shifted (k : Nat) (q' q : TimerQueue τ) : Prop := ∃ faults, q' = { q with length := q.length + k, faults := faults }

namespace Shifted

variable {k : Nat} {q' : TimerQueue τ} {e : QueueEntry τ} {p x : Option Nat}

theorem heap (h : Shifted k q' q) : q'.heap = q.heap := by
  obtain ⟨faults, rfl⟩ := h
  rfl

theorem fired (h : Shifted k q' q) : q'.fired = q.fired := by
  obtain ⟨faults, rfl⟩ := h
  rfl

theorem length (h : Shifted k q' q) : q'.length = q.length + k := by
  obtain ⟨faults, rfl⟩ := h
  rfl

theorem trans {j : Nat} {q'' : TimerQueue τ} (h' : Shifted k q'' q') (h : Shifted j q' q) : Shifted (k + j) q'' q := by
  obtain ⟨faults, rfl⟩ := h
  obtain ⟨faults', rfl⟩ := h'
  refine ⟨faults', congrArg (fun n => { q with length := n, faults := faults' }) ?_⟩
  dsimp only
  omega

theorem fault (h : Shifted k q' q) (f : Fault) : Shifted k (q'.fault f) (q.fault f) := by
  obtain ⟨faults, rfl⟩ := h
  exact ⟨faults ++ [f], rfl⟩

theorem modify (h : Shifted k q' q) (f : QueueEntry τ → QueueEntry τ) : Shifted k (q'.modify p f) (q.modify p f) := by
  obtain ⟨faults, rfl⟩ := h
  cases p with
  | none => exact ⟨_, rfl⟩
  | some a =>
    simp only [TimerQueue.modify]
    cases q.heap.lookup a with
    | none => exact ⟨_, rfl⟩
    | some e => exact ⟨_, rfl⟩

theorem setNext (h : Shifted k q' q) : Shifted k (q'.setNext p x) (q.setNext p x) := h.modify _

theorem setPrev (h : Shifted k q' q) : Shifted k (q'.setPrev p x) (q.setPrev p x) := h.modify _

theorem assert (h : Shifted k q' q) (holds' holds : Bool) (f : Fault) :
    Shifted k (q'.assert holds' f) (q.assert holds f) := by
  obtain ⟨faults, rfl⟩ := h
  cases holds' <;> cases holds <;> exact ⟨_, rfl⟩

theorem armFor (h : Shifted k q' q) : Shifted k (q'.armFor p) (q.armFor p) := by
  obtain ⟨faults, rfl⟩ := h
  simp only [TimerQueue.armFor, entry]
  cases p.bind q.heap.lookup with
  | none => exact ⟨_, rfl⟩
  | some e => exact ⟨_, rfl⟩

theorem withHead (h : Shifted k q' q) : Shifted k { q' with head := x } { q with head := x } := by
  obtain ⟨faults, rfl⟩ := h
  exact ⟨faults, rfl⟩

theorem withTail (h : Shifted k q' q) : Shifted k { q' with tail := x } { q with tail := x } := by
  obtain ⟨faults, rfl⟩ := h
  exact ⟨faults, rfl⟩

theorem head (h : Shifted k q' q) : q'.head = q.head := by
  obtain ⟨faults, rfl⟩ := h
  rfl

theorem tail (h : Shifted k q' q) : q'.tail = q.tail := by
  obtain ⟨faults, rfl⟩ := h
  rfl

theorem entry (h : Shifted k q' q) : q'.entry p = q.entry p := by
  obtain ⟨faults, rfl⟩ := h
  rfl

theorem delete (h : Shifted k q' q) (a : Nat) : Shifted k (q'.delete a) (q.delete a) := by
  obtain ⟨faults, rfl⟩ := h
  exact ⟨faults, rfl⟩

section
variable [LinearOrder τ]

theorem insertBefore (h : Shifted k q' q) (fuel idx : Nat) (p : Option Nat) :
    Shifted k (q'.insertBefore a w fuel idx p) (q.insertBefore a w fuel idx p) := by
  induction fuel generalizing idx p with
  | zero => exact h.fault _
  | succ fuel ih =>
    rw [TimerQueue.insertBefore, TimerQueue.insertBefore, h.entry]
    split
    · exact h.fault _
    · split
      · dsimp only
        split
        · exact h.setNext.withHead.setPrev
        · exact h.setNext.setPrev.setNext.setPrev
      · split
        · exact h.fault _
        · exact ih _ _

theorem isLast (h : Shifted k q' q) : q'.isLast w = q.isLast w := by
  rw [TimerQueue.isLast, h.tail, h.entry]
  rfl

theorem add (h : Shifted k q' q) (a : Nat) (w : τ) : Shifted k (q'.add a w) (q.add a w) := by
  have hstore : Shifted k (q'.store a ⟨none, none, w⟩) (q.store a ⟨none, none, w⟩) := by
    obtain ⟨faults, rfl⟩ := h
    exact ⟨faults, rfl⟩
  have hlink : Shifted k ((q'.store a ⟨none, none, w⟩).linkIn a w) ((q.store a ⟨none, none, w⟩).linkIn a w) := by
    rw [linkIn, linkIn, hstore.head, hstore.isLast, hstore.heap]
    split
    · have hassert := hstore.assert q'.tail.isNone q.tail.isNone .addTail
      exact (@withTail _ _ k _ (some a) (@withHead _ _ k _ (some a) hassert))
    · split
      · rw [hstore.tail]
        exact hstore.setPrev.setNext.withTail
      · exact hstore.insertBefore _ _ _
  rw [add_eq, add_eq, count, count, hlink.head]
  obtain ⟨faults, heq⟩ := hlink
  rw [heq]
  split
  · exact ⟨faults, congrArg (fun n => { (q.store a ⟨none, none, w⟩).linkIn a w with
      length := n, timer := some w, faults := faults }) (Int.add_right_comm _ _ _)⟩
  · exact ⟨faults, congrArg (fun n => { (q.store a ⟨none, none, w⟩).linkIn a w with
      length := n, faults := faults }) (Int.add_right_comm _ _ _)⟩

end

theorem unlink (h : Shifted k q' q) : Option.Rel (Shifted k) (q'.unlink a e) (q.unlink a e) := by
  rw [TimerQueue.unlink, TimerQueue.unlink]
  by_cases hhead : q.head = some a
  · rw [if_pos hhead, if_pos (h.head.trans hhead)]
    by_cases hnext : e.next.isSome = true
    · rw [if_pos hnext, if_pos hnext]
      exact .some h.withHead.setPrev
    · rw [if_neg hnext, if_neg hnext]
      exact .some (h.withHead.assert _ _ .removeLength).withTail
  · rw [if_neg hhead, if_neg (h.head ▸ hhead)]
    by_cases htail : q.tail = some a
    · rw [if_pos htail, if_pos (h.tail.trans htail)]
      exact .some (h.assert _ _ .removeTail).withTail.setNext
    · rw [if_neg htail, if_neg (h.tail ▸ htail)]
      split
      · exact .none
      · exact .some ((h.assert _ _ .removePrev).assert _ _ .removeNext).setNext.setPrev

theorem rearm (h : Shifted k q' q) : Shifted k (q'.rearm e) (q.rearm e) := by
  rw [TimerQueue.rearm, TimerQueue.rearm, h.head]
  split
  · obtain ⟨faults, rfl⟩ := h
    exact ⟨faults, rfl⟩
  · split
    · exact h.armFor
    · exact h

theorem remove (h : Shifted k q' q) (a : Nat) : Shifted k (q'.remove a) (q.remove a) := by
  rw [TimerQueue.remove, TimerQueue.remove, h.heap]
  split
  · exact h.fault _
  · rename_i e he
    have hunlink := @unlink _ q a k q' e h
    revert hunlink
    generalize q'.unlink a e = o', q.unlink a e = o
    intro hunlink
    cases hunlink with
    | none => exact h.delete a
    | @some q₁' q₁ h₁ =>
      have hcount : Shifted k { q₁' with length := q₁'.length - 1 } { q₁ with length := q₁.length - 1 } := by
        obtain ⟨faults, rfl⟩ := h₁
        exact ⟨faults, congrArg (fun n => { q₁ with length := n, faults := faults }) (Int.add_right_comm _ _ _)⟩
      exact (hcount.assert _ _ .removeCount).rearm.delete a

end Shifted

/-! ### What the functions ask for -/

/-- The entries a queue is to hold, in order, and the addresses that are not free. -/
structure Plan (τ : Type) where
  used : List Nat
  entries : List (Nat × τ)

variable [LinearOrder τ]

namespace Plan

def call (suTimeAdd : τ → UInt32 → τ) (s : Plan τ) : Call τ → Plan τ
  | .add a milliseconds now => ⟨a :: s.used, s.entries.orderedInsert (fun x y => x.2 < y.2) (a, suTimeAdd now milliseconds)⟩
  | .remove a => ⟨s.used.filter (· ≠ a), s.entries.filter (·.1 ≠ a)⟩

/-- The allocator returns an address that is free, and only an entry still in the queue is removed. -/
def Legal (s : Plan τ) : Call τ → Prop
  | .add a _ _ => a ∉ s.used
  | .remove a => a ∈ addrs s.entries

instance (s : Plan τ) (c : Call τ) : Decidable (s.Legal c) :=
  match c with
  | .add a _ _ => inferInstanceAs (Decidable (¬ a ∈ s.used))
  | .remove a => inferInstanceAs (Decidable (a ∈ addrs s.entries))

/-- An entry that is added is not due at the very time at which the last one is. -/
def Apart (suTimeAdd : τ → UInt32 → τ) (s : Plan τ) : Call τ → Prop
  | .add _ milliseconds now => ∀ x ∈ s.entries.getLast?, suTimeAdd now milliseconds ≠ x.2
  | .remove _ => True

instance (s : Plan τ) (c : Call τ) : Decidable (s.Apart suTimeAdd c) :=
  match c with
  | .add _ milliseconds now => inferInstanceAs (Decidable (∀ x ∈ s.entries.getLast?, suTimeAdd now milliseconds ≠ x.2))
  | .remove _ => isTrue trivial

/-- The function of an entry makes its calls, and the entry is deleted. -/
def callBack (suTimeAdd : τ → UInt32 → τ) (calls : Nat → List (Call τ)) (s : Plan τ) (p : Nat) : Plan τ :=
  let s := run (call suTimeAdd) s (calls p)
  { s with used := s.used.filter (· ≠ p) }

end Plan

/-- The object is not linked to any other. -/
def Idle (q : TimerQueue τ) (b : Nat) : Prop := ∃ e, q.heap.lookup b = some e ∧ e.prev = none ∧ e.next = none

/-- The queue holds the list `l`; an entry of the plan that is not in it lies idle, as does `p`, the entry
    whose function is running. -/
structure Holds (q : TimerQueue τ) (l : List (Nat × τ)) (s : Plan τ) (p : Nat) : Prop where
  represents : Represents q l
  used : ∀ b, b ∈ q.heap ↔ b ∈ s.used
  held : ∀ b ∈ addrs s.entries, b ∈ addrs l ∨ q.Idle b
  idle : q.Idle p
  out : p ∉ addrs l
  gone : p ∉ addrs s.entries

theorem orderedInsert_between (hle : ∀ x ∈ l₁, x.2 ≤ w) (hge : ∀ x ∈ l₂, w < x.2) :
    (l₁ ++ l₂).orderedInsert (fun x y => x.2 < y.2) (a, w) = l₁ ++ (a, w) :: l₂ := by
  induction l₁ with
  | nil =>
    cases l₂ with
    | nil => rfl
    | cons y l₂ => exact if_pos (hge y List.mem_cons_self)
  | cons x l₁ ih =>
    have hx : ¬ w < x.2 := not_lt_of_ge (hle x List.mem_cons_self)
    have htail := ih fun y hy => hle y (List.mem_cons_of_mem _ hy)
    rw [List.cons_append, List.orderedInsert_cons, if_neg hx, htail]
    rfl

theorem mem_addrs_insert {x : Nat × τ} : b ∈ addrs (l.orderedInsert (fun x y => x.2 < y.2) x) ↔ b = x.1 ∨ b ∈ addrs l := by
  have hperm := (List.perm_orderedInsert (fun x y : Nat × τ => x.2 < y.2) x l).map Prod.fst
  exact hperm.mem_iff.trans List.mem_cons

omit [LinearOrder τ] in
theorem mem_addrs_filter : b ∈ addrs (l.filter (·.1 ≠ a)) ↔ b ≠ a ∧ b ∈ addrs l := by
  simp only [addrs, List.mem_map, List.mem_filter, decide_eq_true_eq]
  constructor
  · rintro ⟨x, ⟨hx, hne⟩, rfl⟩
    exact ⟨hne, x, hx, rfl⟩
  · rintro ⟨hne, x, hx, rfl⟩
    exact ⟨x, ⟨hx, hne⟩, rfl⟩

omit [LinearOrder τ] in
/-- What lies idle stays so when its object is left alone. -/
theorem Idle.congr {q' : TimerQueue τ} (h : q.Idle b) (hlook : q'.heap.lookup b = q.heap.lookup b) : q'.Idle b := by
  obtain ⟨e, he, hlinks⟩ := h
  exact ⟨e, hlook.trans he, hlinks⟩

omit [LinearOrder τ] in
theorem Idle.mem_heap (h : q.Idle b) : b ∈ q.heap := by
  obtain ⟨e, he, -⟩ := h
  exact mem_heap_iff.mpr (alive_iff.mpr ⟨e, he⟩)

namespace Holds

variable {q' : TimerQueue τ} {s : Plan τ} {p : Nat}

/-- What a call that takes the list to `l'` and the entries to `s'` keeps. -/
theorem of_frame (a : Nat) {l' : List (Nat × τ)} {s' : Plan τ} (h : Holds q l s p) (r : Represents q' l')
    (hframe : ∀ b, b ∉ addrs l → b ≠ a → q'.heap.lookup b = q.heap.lookup b) (hp : p ≠ a)
    (hlist : ∀ b, b ≠ a → (b ∈ addrs l' ↔ b ∈ addrs l)) (hentries : ∀ b, b ≠ a → (b ∈ addrs s'.entries ↔ b ∈ addrs s.entries))
    (hused : ∀ b, b ≠ a → (b ∈ s'.used ↔ b ∈ s.used)) (haused : a ∈ q'.heap ↔ a ∈ s'.used)
    (haheld : a ∈ addrs s'.entries → a ∈ addrs l' ∨ q'.Idle a) : Holds q' l' s' p := by
  refine ⟨r, fun b => ?_, fun b hb => ?_, h.idle.congr (hframe p h.out hp), ?_, ?_⟩
  · by_cases hba : b = a
    · rw [hba]
      exact haused
    · rw [hused b hba, ← h.used b]
      by_cases hb : b ∈ addrs l
      · exact ⟨fun _ => h.represents.mem_heap hb, fun _ => r.mem_heap ((hlist b hba).mpr hb)⟩
      · rw [← AList.lookup_isSome, ← AList.lookup_isSome, hframe b hb hba]
  · by_cases hba : b = a
    · subst hba
      exact haheld hb
    · by_cases hl : b ∈ addrs l
      · exact .inl ((hlist b hba).mpr hl)
      · have hidle := (h.held b ((hentries b hba).mp hb)).resolve_left hl
        exact .inr (hidle.congr (hframe b hl hba))
  · exact fun hl => h.out ((hlist p hp).mp hl)
  · exact fun he => h.gone ((hentries p hp).mp he)

section
variable {milliseconds : UInt32} {now : τ} (h : Holds q l s p)
include h

/-- An entry is added that finds its place. -/
theorem add_apart (hfresh : a ∉ s.used) (hlast : ∀ x ∈ l.getLast?, suTimeAdd now milliseconds ≠ x.2) :
    ∃ l', Holds (q.add a (suTimeAdd now milliseconds)) l' (s.call suTimeAdd (.add a milliseconds now)) p ∧
      (q.add a (suTimeAdd now milliseconds)).fired = q.fired ∧
      l' = l.orderedInsert (fun x y => x.2 < y.2) (a, suTimeAdd now milliseconds) := by
  have hheap : a ∉ q.heap := fun ha => hfresh ((h.used a).mp ha)
  obtain ⟨l₁, l₂, rfl, hleaves, hle, hge⟩ := add_spec h.represents hheap hlast
  rw [← orderedInsert_between hle hge] at hleaves
  have hin := (@mem_addrs_insert _ (l₁ ++ l₂) a _ (a, suTimeAdd now milliseconds)).mpr (.inl rfl)
  refine ⟨_, of_frame a h hleaves.represents (fun b hb hba => add_frame h.represents hheap hb hba) ?_ (fun b hba => ?_)
    (fun b hba => ?_) (fun b hba => ?_) ?_ fun _ => .inl hin, hleaves.fired.trans (List.append_nil _), rfl⟩
  · rintro rfl
    exact hheap h.idle.mem_heap
  · exact mem_addrs_insert.trans (or_iff_right hba)
  · exact mem_addrs_insert.trans (or_iff_right hba)
  · exact List.mem_cons.trans (or_iff_right hba)
  · exact iff_of_true (hleaves.represents.mem_heap hin) List.mem_cons_self

/-- An entry is added that is lost. -/
theorem add_equal {x : Nat × τ} (hfresh : a ∉ s.used) (hlast : l.getLast? = some x)
    (hequal : suTimeAdd now milliseconds = x.2) :
    ∃ q', Shifted 1 (q.add a (suTimeAdd now milliseconds)) q' ∧ Holds q' l (s.call suTimeAdd (.add a milliseconds now)) p ∧
      q'.fired = q.fired := by
  have hheap : a ∉ q.heap := fun ha => hfresh ((h.used a).mp ha)
  obtain ⟨l₀, rfl⟩ := List.getLast?_eq_some_iff.mp hlast
  obtain ⟨c, w⟩ := x
  have hlost :
    q.add a w = { q.store a ⟨none, none, w⟩ with length := q.length + (1 : Nat), faults := q.faults ++ [.addPosition] } :=
    add_lost h.represents hheap
  have hlook := store_lookup a ⟨none, none, w⟩ q
  have hidle : (q.store a ⟨none, none, w⟩).Idle a := ⟨⟨none, none, w⟩, by rw [hlook, if_pos rfl], rfl, rfl⟩
  rw [hequal]
  refine ⟨q.store a ⟨none, none, w⟩, ⟨_, hlost⟩, of_frame a h (h.represents.store_fresh ?_ _)
    (fun b _ hba => ?_) ?_ (fun b _ => Iff.rfl) (fun b hba => ?_) (fun b hba => ?_) ?_ fun _ => .inr hidle, rfl⟩
  · exact fun ha => hheap (h.represents.mem_heap ha)
  · rw [hlook, if_neg hba]
  · rintro rfl
    exact hheap h.idle.mem_heap
  · exact mem_addrs_insert.trans (or_iff_right hba)
  · exact List.mem_cons.trans (or_iff_right hba)
  · exact iff_of_true hidle.mem_heap List.mem_cons_self

/-- An entry of the list is removed. -/
theorem remove_linked (ha : a ∈ addrs s.entries) (hl : a ∈ addrs l) :
    ∃ l', Holds (q.remove a) l' (s.call suTimeAdd (.remove a)) p ∧ (q.remove a).fired = q.fired ∧
    l' = l.filter (·.1 ≠ a) := by
  obtain ⟨⟨a, w⟩, hmem, rfl⟩ := List.mem_map.mp hl
  obtain ⟨l₁, l₂, rfl⟩ := List.append_of_mem hmem
  have hleaves := remove_spec h.represents
  have hnodup := h.represents.nodup
  rw [List.map_append, List.map_cons] at hnodup
  have hnot := (List.nodup_cons.mp (List.perm_middle.nodup_iff.mp hnodup)).1
  have hkeep : ∀ x ∈ l₁ ++ l₂, decide (x.1 ≠ a) = true := by
    intro x hx
    refine decide_eq_true fun he => hnot ?_
    have hin : x.1 ∈ (l₁ ++ l₂).map Prod.fst := List.mem_map_of_mem hx
    rwa [he, List.map_append] at hin
  have hfilter : (l₁ ++ (a, w) :: l₂).filter (·.1 ≠ a) = l₁ ++ l₂ := by
    rw [List.filter_append, List.filter_cons_of_neg (by simp), ← List.filter_append, List.filter_eq_self.mpr hkeep]
  dsimp only at ha hl hnot ⊢
  rw [← hfilter] at hleaves
  refine ⟨_, of_frame a h hleaves.represents (fun b hb _ => remove_frame h.represents hl hb) ?_ (fun b hba => ?_)
    (fun b hba => ?_) (fun b hba => ?_) ?_ (fun hin => ?_), hleaves.fired.trans (List.append_nil _), rfl⟩
  · rintro rfl
    exact h.gone ha
  · exact mem_addrs_filter.trans (and_iff_right hba)
  · exact mem_addrs_filter.trans (and_iff_right hba)
  · exact List.mem_filter.trans (and_iff_left (decide_eq_true hba))
  · exact iff_of_false (not_mem_remove a q) fun hin => of_decide_eq_true (List.mem_filter.mp hin).2 rfl
  · exact absurd rfl (mem_addrs_filter.mp hin).1

/-- An entry that was lost is removed. -/
theorem remove_idle (ha : a ∈ addrs s.entries) (hl : a ∉ addrs l) :
    q.remove a = q.delete a ∧ Holds (q.delete a) l (s.call suTimeAdd (.remove a)) p := by
  obtain ⟨e, he, hprev, hnext⟩ := (h.held a ha).resolve_left hl
  have hhead : ¬ q.head = some a := by
    rw [h.represents.head]
    exact fun hin => hl (List.mem_of_head? hin)
  have htail : ¬ q.tail = some a := by
    rw [h.represents.tail]
    exact fun hin => hl (List.mem_of_getLast? hin)
  have hunlink : q.unlink a e = none := by rw [unlink, if_neg hhead, if_neg htail, if_pos ⟨hprev, hnext⟩]
  refine ⟨by simp only [remove, he, hunlink], of_frame a h (h.represents.delete hl) (fun b _ hba => delete_lookup_ne hba q) ?_
    (fun b _ => Iff.rfl) (fun b hba => ?_) (fun b hba => ?_) ?_ fun hin => ?_⟩
  · rintro rfl
    exact h.gone ha
  · exact mem_addrs_filter.trans (and_iff_right hba)
  · exact List.mem_filter.trans (and_iff_left (decide_eq_true hba))
  · exact iff_of_false (not_mem_delete a q) fun hin => of_decide_eq_true (List.mem_filter.mp hin).2 rfl
  · exact absurd rfl (mem_addrs_filter.mp hin).1

end

end Holds

/-- The queue counts `k` entries more than the list `l` it holds. -/
def Lags (q : TimerQueue τ) (k : Nat) (l : List (Nat × τ)) (s : Plan τ) (p : Nat) (fired : List Nat) : Prop :=
  ∃ q₀, Shifted k q q₀ ∧ Holds q₀ l s p ∧ q₀.fired = fired

namespace Lags

variable {s : Plan τ} {c : Call τ} {cs : List (Call τ)} {p k : Nat} {fired : List Nat}

/-- A queue that is in step with the plan stays so under a call just when the call is apart; an entry once
    lost is never counted out. -/
theorem call (h : Lags q k l s p fired) (hlegal : s.Legal c) :
    ∃ k' l', Lags (q.call suTimeAdd c) k' l' (s.call suTimeAdd c) p fired ∧ k ≤ k' ∧
      (k = 0 → l = s.entries →
        (s.Apart suTimeAdd c → k' = 0 ∧ l' = (s.call suTimeAdd c).entries) ∧ (¬ s.Apart suTimeAdd c → 0 < k')) := by
  obtain ⟨q₀, hshift, h, hfired⟩ := h
  cases c with
  | add a milliseconds now =>
    by_cases hlast : ∀ x ∈ l.getLast?, suTimeAdd now milliseconds ≠ x.2
    · obtain ⟨l', h', hfired', hl'⟩ := h.add_apart hlegal hlast
      refine ⟨k, l', ⟨_, hshift.add _ _, h', hfired'.trans hfired⟩, le_refl k,
        fun hk hl => ⟨fun _ => ⟨hk, ?_⟩, fun hnot => ?_⟩⟩
      · rw [hl', hl]
        rfl
      · rw [hl] at hlast
        exact absurd hlast hnot
    · push Not at hlast
      obtain ⟨x, hx, hequal⟩ := hlast
      obtain ⟨q₁, hlost, h', hfired'⟩ := h.add_equal hlegal hx hequal
      refine ⟨k + 1, l, ⟨q₁, (hshift.add _ _).trans hlost, h', hfired'.trans hfired⟩, Nat.le_succ k,
        fun _ hl => ⟨fun hapart => ?_, fun _ => Nat.succ_pos k⟩⟩
      exact absurd hequal (hapart x (hl ▸ hx))
  | remove a =>
    by_cases hin : a ∈ addrs l
    · obtain ⟨l', h', hfired', hl'⟩ := @Holds.remove_linked _ suTimeAdd _ _ _ _ _ _ h hlegal hin
      refine ⟨k, l', ⟨_, hshift.remove a, h', hfired'.trans hfired⟩, le_refl k,
        fun hk hl => ⟨fun _ => ⟨hk, ?_⟩, fun hnot => absurd trivial hnot⟩⟩
      rw [hl', hl]
      rfl
    · obtain ⟨hdelete, h'⟩ := @Holds.remove_idle _ suTimeAdd _ _ _ _ _ _ h hlegal hin
      refine ⟨k, l, ⟨_, hdelete ▸ hshift.remove a, h', hfired⟩, le_refl k, fun _ hl => ?_⟩
      exact absurd (hl ▸ hlegal) hin

theorem calls (h : Lags q k l s p fired) (hlegal : Meets (Plan.call suTimeAdd) (fun s c => s.Legal c) s cs) :
    ∃ k' l', Lags (cs.foldl (TimerQueue.call suTimeAdd) q) k' l' (run (Plan.call suTimeAdd) s cs) p fired ∧ k ≤ k' ∧
      (k = 0 → l = s.entries →
        (Meets (Plan.call suTimeAdd) (fun s c => s.Apart suTimeAdd c) s cs →
          k' = 0 ∧ l' = (run (Plan.call suTimeAdd) s cs).entries) ∧
        (¬ Meets (Plan.call suTimeAdd) (fun s c => s.Apart suTimeAdd c) s cs → 0 < k')) := by
  induction cs generalizing q k l s with
  | nil => exact ⟨k, l, h, le_refl k, fun hk hl => ⟨fun _ => ⟨hk, hl⟩, fun hnot => absurd trivial hnot⟩⟩
  | cons c cs ih =>
    obtain ⟨k₁, l₁, h₁, hle₁, hstep⟩ := @Lags.call _ suTimeAdd _ _ _ _ _ _ _ _ h hlegal.1
    obtain ⟨k', l', h', hle', hrun⟩ := ih h₁ hlegal.2
    refine ⟨k', l', h', hle₁.trans hle', fun hk hl => ⟨fun hmeets => ?_, fun hnot => ?_⟩⟩
    · obtain ⟨hk₁, hl₁⟩ := (hstep hk hl).1 hmeets.1
      exact (hrun hk₁ hl₁).1 hmeets.2
    · by_cases hapart : s.Apart suTimeAdd c
      · obtain ⟨hk₁, hl₁⟩ := (hstep hk hl).1 hapart
        exact (hrun hk₁ hl₁).2 fun hrest => hnot ⟨hapart, hrest⟩
      · exact ((hstep hk hl).2 hapart).trans_le hle'

/-- A queue that has counted an entry too many represents no list. -/
theorem lost_none (h : Lags q k l s p fired) {l' : List (Nat × τ)} (r' : Represents (q.delete p) l') : k = 0 := by
  obtain ⟨q₀, hshift, h, -⟩ := h
  have r := h.represents.delete h.out
  obtain ⟨faults, hq⟩ := hshift.delete p
  rw [hq] at r'
  -- the links lead through the same entries, and these are all that is counted
  have haddrs : addrs l = addrs l' := r.chain.eq_of_head? r'.chain (r.head.symm.trans r'.head)
  have hlength : l.length = l'.length := by simpa using congrArg List.length haddrs
  have hcount := r'.length
  have hcount₀ := r.length
  rw [← hlength] at hcount
  dsimp only at hcount
  omega

theorem represents (h : Lags q 0 l s p fired) : Represents (q.delete p) l := by
  obtain ⟨q₀, hshift, h, -⟩ := h
  have r := h.represents.delete h.out
  obtain ⟨faults, hq⟩ := hshift.delete p
  rw [hq]
  refine ⟨r.nodup, r.whens, r.chain, r.head, r.tail, ?_, r.sorted, r.idle⟩
  exact (Int.add_zero _).trans r.length

theorem fired_eq (h : Lags q k l s p fired) : q.fired = fired := by
  obtain ⟨q₀, hshift, -, hfired⟩ := h
  exact hshift.fired.trans hfired

end Lags

/-! ### The firing -/

/-- Where the functions of expired entries start: all expired entries have left the queue, and none has been
    deleted. -/
def Plan.expired (now : τ) (q : TimerQueue τ) (l : List (Nat × τ)) : Plan τ := ⟨q.heap.keys, l.filter (¬ ·.2 < now)⟩

section
variable {calls : Nat → List (Call τ)} {now : τ}

theorem callBack_none (fuel : Nat) (q : TimerQueue τ) : q.callBack suTimeAdd calls fuel none = q := by
  cases fuel <;> rfl

/-- The first entry has expired: its function is called, and no other. -/
theorem doTimerCalling_late (r : Represents q ((a, w) :: l)) (hnow : w < now)
    (hlegal : Meets (Plan.call suTimeAdd) (fun s c => s.Legal c) (Plan.expired now q ((a, w) :: l)) (calls a)) :
    ∃ q₁ k l', q.doTimerCalling suTimeAdd calls now = q₁.delete a ∧
      Lags q₁ k l' (run (Plan.call suTimeAdd) (Plan.expired now q ((a, w) :: l)) (calls a)) a (q.fired ++ [a]) ∧
      (l = (Plan.expired now q ((a, w) :: l)).entries →
        (Meets (Plan.call suTimeAdd) (fun s c => s.Apart suTimeAdd c) (Plan.expired now q ((a, w) :: l)) (calls a) →
          k = 0 ∧ l' = (run (Plan.call suTimeAdd) (Plan.expired now q ((a, w) :: l)) (calls a)).entries) ∧
        (¬ Meets (Plan.call suTimeAdd) (fun s c => s.Apart suTimeAdd c) (Plan.expired now q ((a, w) :: l)) (calls a) →
          0 < k)) := by
  obtain ⟨q₁, hgather, hdetached⟩ := gather_late r hnow
  obtain ⟨hleaves, hidle, hmem⟩ := hdetached
  have hout : a ∉ addrs l := (List.nodup_cons.mp r.nodup).1
  have hsub : ∀ b ∈ addrs (Plan.expired now q ((a, w) :: l)).entries, b ∈ addrs l := by
    intro b hb
    rw [Plan.expired, List.filter_cons_of_neg (by simpa using hnow)] at hb
    exact (List.filter_sublist.map Prod.fst).subset hb
  have r₁ := hleaves.represents
  have hrep : Represents { q₁ with fired := q₁.fired ++ [a] } l :=
    ⟨r₁.nodup, r₁.whens, r₁.chain, r₁.head, r₁.tail, r₁.length, r₁.sorted, r₁.idle⟩
  have hfired : q₁.fired ++ [a] = q.fired ++ [a] := congrArg (· ++ [a]) (hleaves.fired.trans (List.append_nil _))
  have hlags : Lags { q₁ with fired := q₁.fired ++ [a] } 0 l (Plan.expired now q ((a, w) :: l)) a (q.fired ++ [a]) :=
    ⟨_, ⟨q₁.faults, congrArg (fun n => { q₁ with fired := q₁.fired ++ [a], length := n }) (Int.add_zero _).symm⟩,
      ⟨hrep, fun b => (hmem b).trans AList.mem_keys, fun b hb => .inl (hsub b hb), hidle, hout,
        fun h => hout (hsub a h)⟩, hfired⟩
  obtain ⟨k, l', h, -, hrun⟩ := hlags.calls hlegal
  refine ⟨_, k, l', ?_, h, hrun rfl⟩
  obtain ⟨q₀, hshift, h, -⟩ := h
  obtain ⟨e, he, -⟩ := hidle
  obtain ⟨e', he', -, hnext⟩ := h.idle
  obtain ⟨n, hn⟩ := heap_length he
  rw [← hshift.heap] at he'
  rw [doTimerCalling, if_neg (by simp [r.idle]), hgather]
  dsimp only
  rw [hn, callBack, he]
  dsimp only
  rw [he']
  dsimp only
  rw [hnext, callBack_none]

/-- A firing calls the functions of the expired entries in the order of their deadlines, no other, and leaves
    a queue of the entries that the functions ask for, just when at most one entry has expired and its function
    adds no entry that is due at the very time of the last one then queued. -/
theorem fires_expired_iff (r : Represents q l)
    (hlegal : Meets (Plan.callBack suTimeAdd calls)
      (fun s p => Meets (Plan.call suTimeAdd) (fun s c => s.Legal c) s (calls p))
      (Plan.expired now q l) (addrs (l.filter (·.2 < now)))) :
    ((q.doTimerCalling suTimeAdd calls now).fired = q.fired ++ addrs (l.filter (·.2 < now)) ∧
      Represents (q.doTimerCalling suTimeAdd calls now)
        (run (Plan.callBack suTimeAdd calls) (Plan.expired now q l) (addrs (l.filter (·.2 < now)))).entries) ↔
    (l.filter (·.2 < now)).length ≤ 1 ∧
      Meets (Plan.callBack suTimeAdd calls)
        (fun s p => Meets (Plan.call suTimeAdd) (fun s c => s.Apart suTimeAdd c) s (calls p))
        (Plan.expired now q l) (addrs (l.filter (·.2 < now))) := by
  cases l with
  | nil =>
    have hsame : q.doTimerCalling suTimeAdd calls now = q.fault .doTimerHead := by
      rw [doTimerCalling, if_neg (by simp [r.idle]), gather_nil r]
      exact callBack_none _ _
    rw [hsame]
    exact iff_of_true ⟨(List.append_nil _).symm, r.nodup, r.whens, r.chain, r.head, r.tail, r.length, r.sorted, r.idle⟩
      ⟨Nat.zero_le 1, trivial⟩
  | cons x l =>
    obtain ⟨a, w⟩ := x
    have hle : ∀ y ∈ l, w ≤ y.2 := (List.pairwise_cons.mp r.sorted).1
    by_cases hnow : w < now
    · have hexpired : ((a, w) :: l).filter (·.2 < now) = (a, w) :: l.filter (·.2 < now) :=
        List.filter_cons_of_pos (decide_eq_true hnow)
      rw [hexpired] at hlegal ⊢
      obtain ⟨q₁, k, l', hfiring, hlags, hrun⟩ := doTimerCalling_late r hnow hlegal.1
      have hfired : (q.doTimerCalling suTimeAdd calls now).fired = q.fired ++ [a] := by
        rw [hfiring]
        exact hlags.fired_eq
      cases hrest : l.filter (·.2 < now) with
      | nil =>
        -- nothing else has expired, so what stays is what is to stay
        have hstay : l = (Plan.expired now q ((a, w) :: l)).entries := by
          rw [Plan.expired, List.filter_cons_of_neg (by simpa using hnow)]
          refine (List.filter_eq_self.mpr fun y hy => ?_).symm
          exact decide_eq_true fun hlt => List.filter_eq_nil_iff.mp hrest y hy (decide_eq_true hlt)
        obtain ⟨hapart, hnot⟩ := hrun hstay
        constructor
        · rintro ⟨-, r'⟩
          rw [hfiring] at r'
          refine ⟨le_refl 1, ?_, trivial⟩
          by_contra h
          exact absurd (hlags.lost_none r') (hnot h).ne'
        · rintro ⟨-, hmeets, -⟩
          obtain ⟨rfl, rfl⟩ := hapart hmeets
          rw [hfiring]
          exact ⟨hlags.fired_eq, hlags.represents⟩
      | cons y rest =>
        refine iff_of_false (fun h => ?_) fun h => ?_
        · have hmore := hfired.symm.trans h.1
          rw [List.append_cancel_left_eq] at hmore
          exact nomatch (List.cons.inj hmore).2
        · exact absurd h.1 (by simp)
    · have hstay : ∀ y ∈ (a, w) :: l, ¬ y.2 < now := by
        intro y hy
        rcases List.mem_cons.mp hy with rfl | hy
        · exact hnow
        · exact not_lt_of_ge ((le_of_not_gt hnow).trans (hle y hy))
      have hexpired : ((a, w) :: l).filter (·.2 < now) = [] :=
        List.filter_eq_nil_iff.mpr fun y hy h => hstay y hy (of_decide_eq_true h)
      have hkeep : (Plan.expired now q ((a, w) :: l)).entries = (a, w) :: l :=
        List.filter_eq_self.mpr fun y hy => decide_eq_true (hstay y hy)
      have hsame : q.doTimerCalling suTimeAdd calls now = { q with timer := some w } := by
        rw [doTimerCalling, if_neg (by simp [r.idle]), gather_early r hnow]
        exact callBack_none _ _
      rw [hexpired, hsame]
      refine iff_of_true ⟨(List.append_nil _).symm, ?_⟩ ⟨Nat.zero_le 1, trivial⟩
      rw [addrs, List.map_nil, run_nil, hkeep]
      exact ⟨r.nodup, r.whens, r.chain, r.head, r.tail, r.length, r.sorted, r.idle⟩

/-- The function of the first entry adds one and removes another. -/
theorem fires_expired_calling :
    let q := (((empty : TimerQueue Nat).add 0 5).add 1 20).add 2 30
    let calls : Nat → List (Call Nat) := fun _ => [.add 3 15 10, .remove 2, .add 4 40 10]
    (q.doTimerCalling (fun now ms => now + ms.toNat) calls 10).fired = [0] ∧
      Represents (q.doTimerCalling (fun now ms => now + ms.toNat) calls 10) [(1, 20), (3, 25), (4, 50)] := by
  intro q calls
  have r : Represents q [(0, 5), (1, 20), (2, 30)] :=
    ⟨by decide, by decide, ⟨rfl, rfl, rfl, rfl, rfl, rfl, trivial⟩, rfl, rfl, rfl, by decide, rfl⟩
  exact (fires_expired_iff r (by decide)).mpr ⟨by decide, by decide⟩

/-- Two entries have expired, and the function of the first one only is called. -/
theorem second_expired_kept :
    ∃ (q : TimerQueue Nat) (l : List (Nat × Nat)), Represents q l ∧
      (q.doTimerCalling (fun now ms => now + ms.toNat) (fun _ => []) 10).fired ≠ q.fired ++ addrs (l.filter (·.2 < 10)) := by
  refine ⟨((empty : TimerQueue Nat).add 0 5).add 1 7, [(0, 5), (1, 7)],
    ⟨by decide, by decide, ⟨rfl, rfl, rfl, rfl, trivial⟩, rfl, rfl, rfl, by decide, rfl⟩, by decide⟩

end

end Drachtio.Timer.TimerQueue
