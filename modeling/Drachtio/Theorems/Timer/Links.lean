import Drachtio.Lib.Linked
import Drachtio.Timer.TimerQueue

/-! The links of the entries of a timer queue, and what an assignment through a pointer does to them. -/

namespace Drachtio.Timer.TimerQueue

variable {τ : Type} {q : TimerQueue τ} {a b : Nat} {e : QueueEntry τ}

def nextOf (q : TimerQueue τ) (a : Nat) : Option Nat := (q.heap.lookup a).bind (·.next)

def prevOf (q : TimerQueue τ) (a : Nat) : Option Nat := (q.heap.lookup a).bind (·.prev)

def whenOf (q : TimerQueue τ) (a : Nat) : Option τ := (q.heap.lookup a).map (·.when)

/-- The address holds an entry. -/
def Alive (q : TimerQueue τ) (a : Nat) : Prop := (q.whenOf a).isSome = true

theorem entry_some (q : TimerQueue τ) (a : Nat) : q.entry (some a) = q.heap.lookup a := rfl

theorem alive_iff : q.Alive a ↔ ∃ e, q.heap.lookup a = some e := by
  rw [Alive, whenOf, Option.isSome_map, Option.isSome_iff_exists]

theorem mem_heap_iff : a ∈ q.heap ↔ q.Alive a := by
  rw [alive_iff, ← AList.lookup_isSome, Option.isSome_iff_exists]

theorem assert_of {holds : Bool} (h : holds = true) (f : Fault) (q : TimerQueue τ) : q.assert holds f = q := if_pos h

/-- The queue after an object was stored at an address. -/
def store (a : Nat) (e : QueueEntry τ) (q : TimerQueue τ) : TimerQueue τ := { q with heap := q.heap.insert a e }

section
variable (a : Nat) (e : QueueEntry τ) (q : TimerQueue τ) (b : Nat)

theorem store_lookup : (q.store a e).heap.lookup b = if b = a then some e else q.heap.lookup b := by
  split
  · rename_i hb
    rw [hb]
    exact AList.lookup_insert q.heap
  · rename_i hb
    exact AList.lookup_insert_ne hb

theorem store_nextOf : (q.store a e).nextOf b = if b = a then e.next else q.nextOf b := by
  rw [nextOf, store_lookup]
  split <;> rfl

theorem store_prevOf : (q.store a e).prevOf b = if b = a then e.prev else q.prevOf b := by
  rw [prevOf, store_lookup]
  split <;> rfl

theorem store_whenOf : (q.store a e).whenOf b = if b = a then some e.when else q.whenOf b := by
  rw [whenOf, store_lookup]
  split <;> rfl

end

theorem modify_of (h : q.heap.lookup a = some e) (f : QueueEntry τ → QueueEntry τ) :
    q.modify (some a) f = q.store a (f e) := by
  simp only [modify, h]
  rfl

/-- Only the heap and the faults can change when an object is modified. -/
theorem modify_frame (p : Option Nat) (f : QueueEntry τ → QueueEntry τ) (q : TimerQueue τ) :
    (q.modify p f).head = q.head ∧ (q.modify p f).tail = q.tail ∧ (q.modify p f).length = q.length ∧
    (q.modify p f).inTimer = q.inTimer ∧ (q.modify p f).timer = q.timer ∧ (q.modify p f).fired = q.fired := by
  unfold modify
  split
  · exact ⟨rfl, rfl, rfl, rfl, rfl, rfl⟩
  · split
    · exact ⟨rfl, rfl, rfl, rfl, rfl, rfl⟩
    · exact ⟨rfl, rfl, rfl, rfl, rfl, rfl⟩

section
variable (q : TimerQueue τ) (p x : Option Nat) (b : Nat)

@[simp] theorem setNext_head : (q.setNext p x).head = q.head := (modify_frame p _ q).1

@[simp] theorem setNext_tail : (q.setNext p x).tail = q.tail := (modify_frame p _ q).2.1

@[simp] theorem setNext_length : (q.setNext p x).length = q.length := (modify_frame p _ q).2.2.1

@[simp] theorem setNext_inTimer : (q.setNext p x).inTimer = q.inTimer := (modify_frame p _ q).2.2.2.1

@[simp] theorem setNext_timer : (q.setNext p x).timer = q.timer := (modify_frame p _ q).2.2.2.2.1

@[simp] theorem setNext_fired : (q.setNext p x).fired = q.fired := (modify_frame p _ q).2.2.2.2.2

@[simp] theorem setPrev_head : (q.setPrev p x).head = q.head := (modify_frame p _ q).1

@[simp] theorem setPrev_tail : (q.setPrev p x).tail = q.tail := (modify_frame p _ q).2.1

@[simp] theorem setPrev_length : (q.setPrev p x).length = q.length := (modify_frame p _ q).2.2.1

@[simp] theorem setPrev_inTimer : (q.setPrev p x).inTimer = q.inTimer := (modify_frame p _ q).2.2.2.1

@[simp] theorem setPrev_timer : (q.setPrev p x).timer = q.timer := (modify_frame p _ q).2.2.2.2.1

@[simp] theorem setPrev_fired : (q.setPrev p x).fired = q.fired := (modify_frame p _ q).2.2.2.2.2

/-- A modification that keeps a part of every object keeps what is read of that part. -/
theorem modify_read {β : Type} (g : QueueEntry τ → β) (f : QueueEntry τ → QueueEntry τ) (hg : ∀ e, g (f e) = g e) :
    ((q.modify p f).heap.lookup b).map g = (q.heap.lookup b).map g := by
  cases p with
  | none => rfl
  | some a =>
    cases he : q.heap.lookup a with
    | none =>
      simp only [modify, he]
      rfl
    | some e =>
      rw [modify_of he, store_lookup]
      split
      · rename_i hb
        rw [hb, he, Option.map_some, Option.map_some, hg]
      · rfl

theorem nextOf_eq_map : q.nextOf b = ((q.heap.lookup b).map (·.next)).join := by
  rw [nextOf]
  cases q.heap.lookup b <;> rfl

theorem prevOf_eq_map : q.prevOf b = ((q.heap.lookup b).map (·.prev)).join := by
  rw [prevOf]
  cases q.heap.lookup b <;> rfl

@[simp] theorem setNext_prevOf : (q.setNext p x).prevOf b = q.prevOf b := by
  rw [prevOf_eq_map, prevOf_eq_map, setNext,
    modify_read q p b (·.prev) (fun e => { e with next := x }) fun _ => rfl]

@[simp] theorem setNext_whenOf : (q.setNext p x).whenOf b = q.whenOf b := modify_read q p b _ _ fun _ => rfl

@[simp] theorem setPrev_nextOf : (q.setPrev p x).nextOf b = q.nextOf b := by
  rw [nextOf_eq_map, nextOf_eq_map, setPrev,
    modify_read q p b (·.next) (fun e => { e with prev := x }) fun _ => rfl]

@[simp] theorem setPrev_whenOf : (q.setPrev p x).whenOf b = q.whenOf b := modify_read q p b _ _ fun _ => rfl

end

section
variable (h : q.Alive a) (x : Option Nat)
include h

theorem setNext_nextOf (b : Nat) : (q.setNext (some a) x).nextOf b = if b = a then x else q.nextOf b := by
  obtain ⟨e, he⟩ := alive_iff.mp h
  rw [setNext, modify_of he, store_nextOf]

theorem setPrev_prevOf (b : Nat) : (q.setPrev (some a) x).prevOf b = if b = a then x else q.prevOf b := by
  obtain ⟨e, he⟩ := alive_iff.mp h
  rw [setPrev, modify_of he, store_prevOf]

theorem setNext_faults : (q.setNext (some a) x).faults = q.faults := by
  obtain ⟨e, he⟩ := alive_iff.mp h
  rw [setNext, modify_of he]
  rfl

theorem setPrev_faults : (q.setPrev (some a) x).faults = q.faults := by
  obtain ⟨e, he⟩ := alive_iff.mp h
  rw [setPrev, modify_of he]
  rfl

end

@[simp] theorem setNext_alive (q : TimerQueue τ) (p x : Option Nat) : (q.setNext p x).Alive b ↔ q.Alive b := by
  rw [Alive, setNext_whenOf, Alive]

@[simp] theorem setPrev_alive (q : TimerQueue τ) (p x : Option Nat) : (q.setPrev p x).Alive b ↔ q.Alive b := by
  rw [Alive, setPrev_whenOf, Alive]

/-! ### Represented queues -/

section
variable [LinearOrder τ]

/-- The queue holds the entries of the list, in its order: they are linked in both directions between
    m_head and m_tail, counted by m_length, and their deadlines do not decrease. -/
structure Represents (q : TimerQueue τ) (l : List (Nat × τ)) : Prop where
  nodup : (l.map Prod.fst).Nodup
  whens : ∀ x ∈ l, q.whenOf x.1 = some x.2
  chain : Linked.Chain q.nextOf q.prevOf none (l.map Prod.fst) none
  head : q.head = (l.map Prod.fst).head?
  tail : q.tail = (l.map Prod.fst).getLast?
  length : q.length = l.length
  sorted : l.Pairwise fun x y => x.2 ≤ y.2
  idle : q.inTimer = false

theorem represents_empty : Represents (empty : TimerQueue τ) [] where
  nodup := List.nodup_nil
  whens := nofun
  chain := trivial
  head := rfl
  tail := rfl
  length := rfl
  sorted := List.Pairwise.nil
  idle := rfl

/-- The addresses of the entries of a list. -/
abbrev addrs (l : List (Nat × τ)) : List Nat := l.map Prod.fst

omit [LinearOrder τ] in
theorem addrs_append (l₁ l₂ : List (Nat × τ)) : addrs (l₁ ++ l₂) = addrs l₁ ++ addrs l₂ := List.map_append

omit [LinearOrder τ] in
theorem addrs_cons (x : Nat × τ) (l : List (Nat × τ)) : addrs (x :: l) = x.1 :: addrs l := List.map_cons

namespace Represents

variable {l l₁ l₂ : List (Nat × τ)} {q' : TimerQueue τ} {w : τ}

theorem alive (r : Represents q l) (ha : a ∈ addrs l) : q.Alive a := by
  obtain ⟨x, hx, rfl⟩ := List.mem_map.mp ha
  rw [Alive, r.whens x hx]
  rfl

theorem mem_heap (r : Represents q l) (ha : a ∈ addrs l) : a ∈ q.heap := by
  obtain ⟨e, he⟩ := alive_iff.mp (r.alive ha)
  exact AList.lookup_isSome.mp (by rw [he]; rfl)

/-- An entry has its deadline in the heap, and links to its neighbours. -/
theorem entry_eq {e : QueueEntry τ} (r : Represents q (l₁ ++ (a, w) :: l₂)) (he : q.heap.lookup a = some e) :
    e.when = w ∧ e.prev = (addrs l₁).getLast? ∧ e.next = (addrs l₂).head? := by
  have hwhen := r.whens (a, w) (List.mem_append_right _ List.mem_cons_self)
  rw [whenOf, he, Option.map_some, Option.some.injEq] at hwhen
  have hchain := r.chain
  rw [List.map_append, List.map_cons] at hchain
  obtain ⟨hprev, hnext⟩ := hchain.links
  rw [Option.or_none, prevOf, he, Option.bind_some] at hprev
  rw [Option.or_none, nextOf, he, Option.bind_some] at hnext
  exact ⟨hwhen, hprev, hnext⟩

theorem entry_of (r : Represents q (l₁ ++ (a, w) :: l₂)) :
    ∃ e, q.heap.lookup a = some e ∧ e.when = w ∧ e.prev = (addrs l₁).getLast? ∧ e.next = (addrs l₂).head? := by
  obtain ⟨e, he⟩ := alive_iff.mp (r.alive (a := a) (by simp))
  exact ⟨e, he, r.entry_eq he⟩

/-- The heap has room for the entries, so a walk through them ends within its size. -/
theorem length_le (r : Represents q l) : l.length ≤ q.heap.entries.length := by
  have hsub : addrs l ⊆ q.heap.keys := fun a ha => AList.mem_keys.mp (r.mem_heap ha)
  have hle := (List.subperm_of_subset r.nodup hsub).length_le
  simpa [AList.keys, List.keys] using hle

/-- An entry linked in at its place. -/
theorem insert (r : Represents q (l₁ ++ l₂)) (hfresh : a ∉ addrs (l₁ ++ l₂))
    (hlinks : Linked.Relinked q.nextOf q.prevOf q'.nextOf q'.prevOf (addrs l₁) (addrs l₂) (some a) (some a))
    (hnext : q'.nextOf a = (addrs l₂).head?) (hprev : q'.prevOf a = (addrs l₁).getLast?)
    (hwhen : q'.whenOf a = some w) (hwhens : ∀ b, b ≠ a → q'.whenOf b = q.whenOf b)
    (hhead : q'.head = (addrs (l₁ ++ (a, w) :: l₂)).head?) (htail : q'.tail = (addrs (l₁ ++ (a, w) :: l₂)).getLast?)
    (hlength : q'.length = q.length + 1) (hidle : q'.inTimer = q.inTimer) (hle : ∀ x ∈ l₁, x.2 ≤ w)
    (hge : ∀ x ∈ l₂, w ≤ x.2) : Represents q' (l₁ ++ (a, w) :: l₂) := by
  have hnodup := r.nodup
  have hchain := r.chain
  simp only [List.map_append] at hnodup hchain hfresh
  have hne : ∀ x ∈ l₁ ++ l₂, x.1 ≠ a := fun x hx he => hfresh (by
    rw [← he, ← List.map_append]
    exact List.mem_map_of_mem hx)
  refine ⟨?_, ?_, ?_, hhead, htail, ?_, ?_, hidle.trans r.idle⟩
  · rw [List.map_append, List.map_cons]
    exact (List.perm_middle.nodup_iff).mpr (List.nodup_cons.mpr ⟨hfresh, hnodup⟩)
  · intro x hx
    rcases List.mem_append.mp hx with hx | hx
    · rw [hwhens _ (hne x (List.mem_append_left _ hx))]
      exact r.whens x (List.mem_append_left _ hx)
    · rcases List.mem_cons.mp hx with rfl | hx
      · exact hwhen
      · rw [hwhens _ (hne x (List.mem_append_right _ hx))]
        exact r.whens x (List.mem_append_right _ hx)
  · rw [List.map_append, List.map_cons]
    exact hchain.insert hnodup hlinks hnext hprev
  · rw [hlength, r.length]
    simp only [List.length_append, List.length_cons]
    omega
  · obtain ⟨hs₁, hs₂, hs⟩ := List.pairwise_append.mp r.sorted
    refine List.pairwise_append.mpr ⟨hs₁, List.pairwise_cons.mpr ⟨hge, hs₂⟩, fun x hx y hy => ?_⟩
    rcases List.mem_cons.mp hy with rfl | hy
    · exact hle x hx
    · exact hs x hx y hy

/-- An entry taken out. -/
theorem remove {x : Nat × τ} (r : Represents q (l₁ ++ x :: l₂))
    (hlinks : Linked.Relinked q.nextOf q.prevOf q'.nextOf q'.prevOf (addrs l₁) (addrs l₂) (addrs l₁).getLast?
      (addrs l₂).head?) (hwhens : ∀ b ∈ addrs (l₁ ++ l₂), q'.whenOf b = q.whenOf b)
    (hhead : q'.head = (addrs (l₁ ++ l₂)).head?) (htail : q'.tail = (addrs (l₁ ++ l₂)).getLast?)
    (hlength : q'.length = q.length - 1) (hidle : q'.inTimer = false) : Represents q' (l₁ ++ l₂) := by
  have hnodup := r.nodup
  have hchain := r.chain
  simp only [List.map_append, List.map_cons] at hnodup hchain
  have hrest := (List.nodup_cons.mp (List.perm_middle.nodup_iff.mp hnodup)).2
  refine ⟨?_, ?_, ?_, hhead, htail, ?_, ?_, hidle⟩
  · rw [List.map_append]
    exact hrest
  · intro y hy
    rw [hwhens _ (List.mem_map_of_mem hy)]
    rcases List.mem_append.mp hy with hy | hy
    · exact r.whens y (List.mem_append_left _ hy)
    · exact r.whens y (List.mem_append_right _ (List.mem_cons_of_mem _ hy))
  · rw [List.map_append]
    exact hchain.remove hrest hlinks
  · rw [hlength, r.length]
    simp only [List.length_append, List.length_cons]
    omega
  · obtain ⟨hs₁, hs₂, hs⟩ := List.pairwise_append.mp r.sorted
    exact List.pairwise_append.mpr
      ⟨hs₁, (List.pairwise_cons.mp hs₂).2, fun y hy z hz => hs y hy z (List.mem_cons_of_mem _ hz)⟩

end Represents

end

end Drachtio.Timer.TimerQueue
