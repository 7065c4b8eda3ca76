import Drachtio.Lib.Run
import Drachtio.Theorems.Timer.Links
import Drachtio.Timer.Callbacks

/-! What the calls on a timer queue do to the list of entries it holds, and what holds after any calls. -/

namespace Drachtio.Timer.TimerQueue

variable {τ : Type} [LinearOrder τ] {q : TimerQueue τ} {l l₁ l₂ : List (Nat × τ)} {a c : Nat} {w wc : τ} {e : QueueEntry τ}

/-! ### Adding -/

theorem Represents.store_fresh (r : Represents q l) (hfresh : a ∉ addrs l) (e : QueueEntry τ) :
    Represents (q.store a e) l := by
  have hne : ∀ b ∈ addrs l, b ≠ a := fun b hb he => hfresh (he ▸ hb)
  refine ⟨r.nodup, fun x hx => ?_, ?_, r.head, r.tail, r.length, r.sorted, r.idle⟩
  · rw [store_whenOf, if_neg (hne _ (List.mem_map_of_mem hx))]
    exact r.whens x hx
  · refine r.chain.congr (fun b hb => ?_) fun b hb => ?_
    · rw [store_nextOf, if_neg (hne b hb)]
    · rw [store_prevOf, if_neg (hne b hb)]

/-- The entry `a` goes before `c`: the body of the loop of `add`. -/
def place (a c : Nat) (e : QueueEntry τ) (idx : Nat) (q : TimerQueue τ) : TimerQueue τ :=
  let q := q.setNext (some a) (some c)
  let q := if idx = 0 then { q with head := some a } else (q.setPrev (some a) e.prev).setNext e.prev (some a)
  q.setPrev (some c) (some a)

/-- The loop of `add` ends at the first entry with a later deadline. -/
theorem insertBefore_spec (r : Represents q l) {rest : List (Nat × τ)} {b : Nat} {wb : τ} {fuel : Nat}
    (hl : l = l₁ ++ (b, wb) :: rest) (hfuel : rest.length < fuel) (hle : ∀ x ∈ l₁, x.2 ≤ w)
    (hlater : ∃ x ∈ (b, wb) :: rest, w < x.2) :
    ∃ l₁' c wc l₂ e, l = l₁' ++ (c, wc) :: l₂ ∧ (∀ x ∈ l₁', x.2 ≤ w) ∧ w < wc ∧ q.heap.lookup c = some e ∧
      q.insertBefore a w fuel l₁.length (some b) = q.place a c e l₁'.length := by
  induction rest generalizing l₁ b wb fuel with
  | nil =>
    obtain ⟨x, hx, hlt⟩ := hlater
    obtain rfl := List.mem_singleton.mp hx
    obtain ⟨e, he, hwhen, -, hnext⟩ := (hl ▸ r).entry_of
    obtain ⟨fuel, rfl⟩ := Nat.exists_eq_succ_of_ne_zero (Nat.ne_of_gt (Nat.lt_of_le_of_lt (Nat.zero_le _) hfuel))
    refine ⟨l₁, b, wb, [], e, hl, hle, hlt, he, ?_⟩
    simp only [insertBefore, entry_some, he, hwhen, if_pos hlt]
    rfl
  | cons y rest ih =>
    obtain ⟨e, he, hwhen, -, hnext⟩ := (hl ▸ r).entry_of
    obtain ⟨fuel, rfl⟩ := Nat.exists_eq_succ_of_ne_zero (Nat.ne_of_gt (Nat.lt_of_le_of_lt (Nat.zero_le _) hfuel))
    by_cases hlt : w < wb
    · refine ⟨l₁, b, wb, y :: rest, e, hl, hle, hlt, he, ?_⟩
      simp only [insertBefore, entry_some, he, hwhen, if_pos hlt]
      rfl
    · -- the walk goes on with the successor, which the chain names
      have hnext' : e.next = some y.1 := hnext
      have hlater' : ∃ x ∈ y :: rest, w < x.2 := by
        obtain ⟨x, hx, hxw⟩ := hlater
        rcases List.mem_cons.mp hx with rfl | hx
        · exact absurd hxw hlt
        · exact ⟨x, hx, hxw⟩
      have hle' : ∀ x ∈ l₁ ++ [(b, wb)], x.2 ≤ w := by
        intro x hx
        rcases List.mem_append.mp hx with hx | hx
        · exact hle x hx
        · obtain rfl := List.mem_singleton.mp hx
          exact le_of_not_gt hlt
      obtain ⟨l₁', c, wc, l₂, e', h₁, h₂, h₃, h₄, h₅⟩ := @ih (l₁ ++ [(b, wb)]) y.1 y.2 fuel (by rw [hl]; simp)
        (by simpa using hfuel) hle' hlater'
      refine ⟨l₁', c, wc, l₂, e', h₁, h₂, h₃, h₄, ?_⟩
      rw [List.length_append, List.length_singleton] at h₅
      simp only [insertBefore, entry_some, he, hwhen, if_neg hlt, hnext']
      exact h₅

/-- What a call leaves: the entries `l'`, the timer and the functions called so far, and no new fault. -/
structure Leaves (q q' : TimerQueue τ) (l' : List (Nat × τ)) (timer : Option τ) (fired : List Nat) : Prop where
  represents : Represents q' l'
  timer : q'.timer = timer
  fired : q'.fired = q.fired ++ fired
  faults : q'.faults = q.faults

/-- What linking an entry in does, before it is counted and the timer is set. -/
structure LinkedIn (q q' : TimerQueue τ) (a : Nat) (w : τ) (l₁ l₂ : List (Nat × τ)) : Prop where
  links : Linked.Relinked q.nextOf q.prevOf q'.nextOf q'.prevOf (addrs l₁) (addrs l₂) (some a) (some a)
  next : q'.nextOf a = (addrs l₂).head?
  prev : q'.prevOf a = (addrs l₁).getLast?
  whens : ∀ b, q'.whenOf b = q.whenOf b
  head : q'.head = (addrs (l₁ ++ (a, w) :: l₂)).head?
  tail : q'.tail = (addrs (l₁ ++ (a, w) :: l₂)).getLast?
  length : q'.length = q.length
  idle : q'.inTimer = q.inTimer
  timer : q'.timer = q.timer
  fired : q'.fired = q.fired
  faults : q'.faults = q.faults

section
variable (hentry : q.heap.lookup a = some ⟨none, none, w⟩)
include hentry

omit [LinearOrder τ] in
theorem alive_of_entry : q.Alive a := alive_iff.mpr ⟨_, hentry⟩

omit [LinearOrder τ] in
theorem nextOf_of_entry : q.nextOf a = none := by rw [nextOf, hentry]; rfl

omit [LinearOrder τ] in
theorem prevOf_of_entry : q.prevOf a = none := by rw [prevOf, hentry]; rfl

/-- An entry with an earlier deadline than all others. -/
theorem linkedIn_first (r : Represents q ((c, wc) :: l₂)) (hfresh : a ∉ addrs ((c, wc) :: l₂)) :
    LinkedIn q (q.place a c e 0) a w [] ((c, wc) :: l₂) := by
  have hac : a ≠ c := fun h => hfresh (h ▸ List.mem_cons_self)
  have ha := alive_of_entry hentry
  have hc : ({ q.setNext (some a) (some c) with head := some a } : TimerQueue τ).Alive c :=
    (setNext_alive q _ _).mpr (r.alive List.mem_cons_self)
  have hnext : ∀ b, (q.place a c e 0).nextOf b = if b = a then some c else q.nextOf b := fun b =>
    (setPrev_nextOf _ _ _ b).trans (setNext_nextOf ha _ b)
  have hprev : ∀ b, (q.place a c e 0).prevOf b = if b = c then some a else q.prevOf b := fun b =>
    (setPrev_prevOf hc _ b).trans (congrArg (fun p => if b = c then some a else p) (setNext_prevOf q _ _ b))
  refine ⟨⟨fun b hb => ?_, fun b hb => ?_⟩, ?_, ?_, fun b => ?_, ?_, ?_, ?_, ?_, ?_, ?_, ?_⟩
  · have hba : b ≠ a := fun h => hfresh (h ▸ hb)
    rw [hnext, if_neg hba]
    rfl
  · rw [hprev]
    simp only [List.map_cons, List.head?_cons, Option.some.injEq, eq_comm]
  · rw [hnext, if_pos rfl]
    rfl
  · rw [hprev, if_neg hac, prevOf_of_entry hentry]
    rfl
  · exact (setPrev_whenOf _ _ _ b).trans (setNext_whenOf q _ _ b)
  · exact setPrev_head _ _ _
  · have hsame : (q.place a c e 0).tail = q.tail := (setPrev_tail _ _ _).trans (setNext_tail q _ _)
    rw [hsame, r.tail]
    simp [List.getLast?_cons]
  · exact (setPrev_length _ _ _).trans (setNext_length q _ _)
  · exact (setPrev_inTimer _ _ _).trans (setNext_inTimer q _ _)
  · exact (setPrev_timer _ _ _).trans (setNext_timer q _ _)
  · exact (setPrev_fired _ _ _).trans (setNext_fired q _ _)
  · exact (setPrev_faults hc _).trans (setNext_faults ha _)

/-- An entry between two others. -/
theorem linkedIn_between {d : Nat} {wd : τ} {l₀ : List (Nat × τ)}
    (r : Represents q ((l₀ ++ [(d, wd)]) ++ (c, wc) :: l₂)) (hfresh : a ∉ addrs ((l₀ ++ [(d, wd)]) ++ (c, wc) :: l₂))
    (he : q.heap.lookup c = some e) (idx : Nat) :
    LinkedIn q (q.place a c e (idx + 1)) a w (l₀ ++ [(d, wd)]) ((c, wc) :: l₂) := by
  have hd : d ∈ addrs ((l₀ ++ [(d, wd)]) ++ (c, wc) :: l₂) := by simp
  have hcm : c ∈ addrs ((l₀ ++ [(d, wd)]) ++ (c, wc) :: l₂) := by simp
  have hac : a ≠ c := fun h => hfresh (h ▸ hcm)
  have had : a ≠ d := fun h => hfresh (h ▸ hd)
  have heprev : e.prev = some d := (r.entry_eq he).2.1.trans (by simp)
  have hplace : q.place a c e (idx + 1) =
      (((q.setNext (some a) (some c)).setPrev (some a) (some d)).setNext (some d) (some a)).setPrev (some c) (some a) := by
    rw [place, heprev, if_neg (Nat.succ_ne_zero idx)]
  have ha := alive_of_entry hentry
  have ha' : (q.setNext (some a) (some c)).Alive a := (setNext_alive q _ _).mpr ha
  have hd' : ((q.setNext (some a) (some c)).setPrev (some a) (some d)).Alive d := by simpa using r.alive hd
  have hc' : (((q.setNext (some a) (some c)).setPrev (some a) (some d)).setNext (some d) (some a)).Alive c := by
    simpa using r.alive hcm
  have hnext : ∀ b, (q.place a c e (idx + 1)).nextOf b =
      if b = d then some a else if b = a then some c else q.nextOf b := by
    intro b
    rw [hplace, setPrev_nextOf, setNext_nextOf hd', setPrev_nextOf, setNext_nextOf ha]
  have hprev : ∀ b, (q.place a c e (idx + 1)).prevOf b =
      if b = c then some a else if b = a then some d else q.prevOf b := by
    intro b
    rw [hplace, setPrev_prevOf hc', setNext_prevOf, setPrev_prevOf ha', setNext_prevOf]
  have hhead := r.head
  have htail := r.tail
  refine ⟨⟨fun b hb => ?_, fun b hb => ?_⟩, ?_, ?_, fun b => ?_, ?_, ?_, ?_, ?_, ?_, ?_, ?_⟩
  · have hba : b ≠ a := by
      rintro rfl
      rw [addrs, List.map_append] at hfresh
      exact hfresh hb
    rw [hnext, if_neg hba]
    simp only [List.map_append, List.map_cons, List.map_nil, List.getLast?_concat, Option.some.injEq, eq_comm]
  · have hba : b ≠ a := by
      rintro rfl
      rw [addrs, List.map_append] at hfresh
      exact hfresh hb
    rw [hprev, if_neg hba]
    simp only [List.map_cons, List.head?_cons, Option.some.injEq, eq_comm]
  · rw [hnext, if_neg had, if_pos rfl]
    rfl
  · rw [hprev, if_neg hac, if_pos rfl]
    simp
  · rw [hplace]
    simp
  · rw [hplace]
    simp only [setPrev_head, setNext_head, hhead]
    simp
  · rw [hplace]
    simp only [setPrev_tail, setNext_tail, htail]
    simp [List.getLast?_append, List.getLast?_cons]
  · rw [hplace]
    simp
  · rw [hplace]
    simp
  · rw [hplace]
    simp
  · rw [hplace]
    simp
  · rw [hplace, setPrev_faults hc', setNext_faults hd', setPrev_faults ha', setNext_faults ha]

/-- An entry with a later deadline than all others. -/
theorem linkedIn_last {d : Nat} {wd : τ} {l₀ : List (Nat × τ)} (r : Represents q (l₀ ++ [(d, wd)]))
    (hfresh : a ∉ addrs (l₀ ++ [(d, wd)])) :
    LinkedIn q { (q.setPrev (some a) (some d)).setNext (some d) (some a) with tail := some a } a w (l₀ ++ [(d, wd)]) [] := by
  have hd : d ∈ addrs (l₀ ++ [(d, wd)]) := by simp
  have had : a ≠ d := fun h => hfresh (h ▸ hd)
  have ha := alive_of_entry hentry
  have hd' : (q.setPrev (some a) (some d)).Alive d := (setPrev_alive q _ _).mpr (r.alive hd)
  have hnext : ∀ b, ((q.setPrev (some a) (some d)).setNext (some d) (some a)).nextOf b =
      if b = d then some a else q.nextOf b := by
    intro b
    rw [setNext_nextOf hd', setPrev_nextOf]
  have hprev : ∀ b, ((q.setPrev (some a) (some d)).setNext (some d) (some a)).prevOf b =
      if b = a then some d else q.prevOf b := by
    intro b
    rw [setNext_prevOf, setPrev_prevOf ha]
  have hhead := r.head
  refine ⟨⟨fun b hb => (hnext b).trans ?_, fun b hb => (hprev b).trans ?_⟩, (hnext a).trans ?_, (hprev a).trans ?_,
    fun b => ?_, ?_, ?_, ?_, ?_, ?_, ?_, ?_⟩
  · simp only [List.map_append, List.map_cons, List.map_nil, List.getLast?_concat, Option.some.injEq, eq_comm]
  · have hba : b ≠ a := by
      rintro rfl
      exact hfresh (by simpa using hb)
    rw [if_neg hba]
    simp
  · rw [if_neg had, nextOf_of_entry hentry]
    rfl
  · rw [if_pos rfl]
    simp
  · exact (setNext_whenOf _ _ _ b).trans (setPrev_whenOf q _ _ b)
  · refine ((setNext_head _ _ _).trans (setPrev_head q _ _)).trans (hhead.trans ?_)
    simp
  · simp
  · exact (setNext_length _ _ _).trans (setPrev_length q _ _)
  · exact (setNext_inTimer _ _ _).trans (setPrev_inTimer q _ _)
  · exact (setNext_timer _ _ _).trans (setPrev_timer q _ _)
  · exact (setNext_fired _ _ _).trans (setPrev_fired q _ _)
  · exact (setNext_faults hd' _).trans (setPrev_faults ha _)

end

/-- The part of `add` that links the stored entry in. -/
def linkIn (a : Nat) (w : τ) (q : TimerQueue τ) : TimerQueue τ :=
  match q.head with
  | none => { q.assert q.tail.isNone .addTail with head := some a, tail := some a }
  | some h =>
    if q.isLast w = true then { (q.setPrev (some a) q.tail).setNext q.tail (some a) with tail := some a }
    else q.insertBefore a w q.heap.entries.length 0 (some h)

/-- The part of `add` that counts the entry, and sets the timer when it is the first. -/
def count (a : Nat) (w : τ) (q : TimerQueue τ) : TimerQueue τ :=
  if q.head = some a then { q with length := q.length + 1, timer := some w } else { q with length := q.length + 1 }

theorem add_eq (a : Nat) (w : τ) (q : TimerQueue τ) : q.add a w = ((q.store a ⟨none, none, w⟩).linkIn a w).count a w := rfl

theorem LinkedIn.leaves {q' : TimerQueue τ} (k : LinkedIn q q' a w l₁ l₂) (r : Represents q (l₁ ++ l₂))
    (hwhen : q.whenOf a = some w) (hfresh : a ∉ addrs (l₁ ++ l₂)) (hle : ∀ x ∈ l₁, x.2 ≤ w) (hge : ∀ x ∈ l₂, w ≤ x.2) :
    Leaves q (q'.count a w) (l₁ ++ (a, w) :: l₂) (if l₁ = [] then some w else q.timer) [] := by
  have hrep : ∀ timer, Represents { q' with length := q'.length + 1, timer := timer } (l₁ ++ (a, w) :: l₂) := fun timer =>
    r.insert hfresh k.links k.next k.prev ((k.whens a).trans hwhen) (fun b _ => k.whens b) k.head k.tail
      (congrArg (· + 1) k.length) k.idle hle hge
  by_cases hfirst : l₁ = []
  · have hhead : q'.head = some a := by
      rw [k.head, hfirst]
      rfl
    rw [count, if_pos hhead, if_pos hfirst]
    exact ⟨hrep _, rfl, k.fired.trans (List.append_nil _).symm, k.faults⟩
  · have hhead : q'.head ≠ some a := by
      rw [k.head]
      obtain ⟨x, l, rfl⟩ := List.exists_cons_of_ne_nil hfirst
      intro h
      refine hfresh ?_
      rw [← Option.some.inj h]
      exact List.mem_cons_self
    rw [count, if_neg hhead, if_neg hfirst]
    exact ⟨hrep _, k.timer, k.fired.trans (List.append_nil _).symm, k.faults⟩

/-- Where an entry goes whose deadline is not that of the last one. -/
theorem linkIn_spec (r : Represents q l) (hentry : q.heap.lookup a = some ⟨none, none, w⟩) (hfresh : a ∉ addrs l)
    (hlast : ∀ x ∈ l.getLast?, w ≠ x.2) :
    ∃ l₁ l₂, l = l₁ ++ l₂ ∧ LinkedIn q (q.linkIn a w) a w l₁ l₂ ∧ (∀ x ∈ l₁, x.2 ≤ w) ∧ ∀ x ∈ l₂, w < x.2 := by
  rcases List.eq_nil_or_concat l with rfl | ⟨l₀, ⟨d, wd⟩, rfl⟩
  · -- the queue was empty
    have hlink : q.linkIn a w = { q with head := some a, tail := some a } := by
      rw [linkIn, r.head, r.tail, assert_of (by rfl)]
      rfl
    refine ⟨[], [], rfl, ?_, nofun, nofun⟩
    rw [hlink]
    exact ⟨⟨nofun, nofun⟩, nextOf_of_entry hentry, prevOf_of_entry hentry, fun _ => rfl, rfl, rfl, rfl, rfl, rfl, rfl, rfl⟩
  · rw [List.concat_eq_append] at *
    have hdl : (d, wd) ∈ l₀ ++ [(d, wd)] := List.mem_append_right _ List.mem_cons_self
    have htail : q.tail = some d := by
      rw [r.tail]
      simp
    obtain ⟨e, he⟩ := alive_iff.mp (r.alive (List.mem_map_of_mem hdl))
    have hewhen := r.whens (d, wd) hdl
    rw [whenOf, he, Option.map_some, Option.some.injEq] at hewhen
    have hislast : q.isLast w = decide (wd < w) := by
      rw [isLast, htail, entry_some, he]
      exact congrArg (fun t => decide (t < w)) hewhen
    have hsorted : ∀ x ∈ l₀ ++ [(d, wd)], x.2 ≤ wd := by
      intro x hx
      rcases List.mem_append.mp hx with hx | hx
      · exact (List.pairwise_append.mp r.sorted).2.2 x hx _ List.mem_cons_self
      · rw [List.mem_singleton.mp hx]
    obtain ⟨⟨b, wb⟩, rest, hl⟩ :=
      List.exists_cons_of_ne_nil (List.append_ne_nil_of_right_ne_nil l₀ (List.cons_ne_nil (d, wd) []))
    have hhead : q.head = some b := by
      rw [r.head, hl]
      rfl
    by_cases hbehind : wd < w
    · have hlink : q.linkIn a w = { (q.setPrev (some a) (some d)).setNext (some d) (some a) with tail := some a } := by
        rw [linkIn, hhead]
        simp only [hislast, decide_eq_true hbehind, if_true, htail]
      refine ⟨l₀ ++ [(d, wd)], [], (List.append_nil _).symm, ?_, fun x hx => (hsorted x hx).trans hbehind.le, nofun⟩
      rw [hlink]
      exact linkedIn_last hentry r hfresh
    · -- the deadline is not the last one's, so it is earlier and the walk finds a later one
      have hne : w ≠ wd := hlast (d, wd) (by simp)
      have hlt : w < wd := lt_of_le_of_ne (le_of_not_gt hbehind) hne
      have hlink : q.linkIn a w = q.insertBefore a w q.heap.entries.length 0 (some b) := by
        rw [linkIn, hhead]
        simp only [hislast, decide_eq_false hbehind, Bool.false_eq_true, if_false]
      have hlen := r.length_le
      rw [hl, List.length_cons] at hlen
      obtain ⟨l₁, c, wc, l₂, e', hl', hle, hwc, hc, hplace⟩ := @insertBefore_spec _ _ q _ [] a w r rest b wb _ hl hlen nofun
        ⟨(d, wd), hl ▸ hdl, hlt⟩
      rw [List.length_nil] at hplace
      rw [hl'] at r hfresh
      have hge : ∀ x ∈ (c, wc) :: l₂, w < x.2 := by
        intro x hx
        rcases List.mem_cons.mp hx with rfl | hx
        · exact hwc
        · exact hwc.trans_le ((List.pairwise_cons.mp (List.pairwise_append.mp r.sorted).2.1).1 x hx)
      refine ⟨l₁, (c, wc) :: l₂, hl', ?_, hle, hge⟩
      rw [hlink, hplace]
      rcases List.eq_nil_or_concat l₁ with rfl | ⟨l', ⟨d', wd'⟩, rfl⟩
      · exact linkedIn_first hentry r hfresh
      · rw [List.concat_eq_append] at *
        rw [List.length_append, List.length_singleton]
        exact linkedIn_between hentry r hfresh hc _

/-- An entry whose deadline is not that of the last one goes behind those that are due before it. -/
theorem add_spec (r : Represents q l) (hfresh : a ∉ q.heap) (hlast : ∀ x ∈ l.getLast?, w ≠ x.2) :
    ∃ l₁ l₂, l = l₁ ++ l₂ ∧
      Leaves q (q.add a w) (l₁ ++ (a, w) :: l₂) (if l₁ = [] then some w else q.timer) [] ∧
      (∀ x ∈ l₁, x.2 ≤ w) ∧ ∀ x ∈ l₂, w < x.2 := by
  have hnew : a ∉ addrs l := fun h => hfresh (r.mem_heap h)
  have r₀ := r.store_fresh hnew ⟨none, none, w⟩
  have hentry : (q.store a ⟨none, none, w⟩).heap.lookup a = some ⟨none, none, w⟩ := by rw [store_lookup, if_pos rfl]
  have hwhen : (q.store a ⟨none, none, w⟩).whenOf a = some w := by rw [store_whenOf, if_pos rfl]
  obtain ⟨l₁, l₂, rfl, k, hle, hge⟩ := linkIn_spec r₀ hentry hnew hlast
  have hleaves := k.leaves r₀ hwhen hnew hle fun x hx => (hge x hx).le
  exact ⟨l₁, l₂, rfl, ⟨hleaves.represents, hleaves.timer, hleaves.fired, hleaves.faults⟩, hle, hge⟩

/-- When no deadline is later, the loop of `add` runs off the end of the list. -/
theorem insertBefore_none (r : Represents q l) {rest : List (Nat × τ)} {b : Nat} {wb : τ} {fuel : Nat} {idx : Nat}
    (hl : l = l₁ ++ (b, wb) :: rest) (hfuel : rest.length < fuel) (hnone : ∀ x ∈ (b, wb) :: rest, x.2 ≤ w) :
    q.insertBefore a w fuel idx (some b) = q.fault .addPosition := by
  induction rest generalizing l₁ b wb fuel idx with
  | nil =>
    obtain ⟨e, he, hwhen, -, hnext⟩ := (hl ▸ r).entry_of
    obtain ⟨fuel, rfl⟩ := Nat.exists_eq_succ_of_ne_zero (Nat.ne_of_gt (Nat.lt_of_le_of_lt (Nat.zero_le _) hfuel))
    have hlast : e.next = none := hnext
    simp only [insertBefore, entry_some, he, hwhen, if_neg (not_lt_of_ge (hnone _ List.mem_cons_self)), hlast]
  | cons y rest ih =>
    obtain ⟨e, he, hwhen, -, hnext⟩ := (hl ▸ r).entry_of
    obtain ⟨fuel, rfl⟩ := Nat.exists_eq_succ_of_ne_zero (Nat.ne_of_gt (Nat.lt_of_le_of_lt (Nat.zero_le _) hfuel))
    have hnext' : e.next = some y.1 := hnext
    simp only [insertBefore, entry_some, he, hwhen, if_neg (not_lt_of_ge (hnone _ List.mem_cons_self)), hnext']
    exact @ih (l₁ ++ [(b, wb)]) y.1 y.2 fuel (idx + 1) (by rw [hl]; simp) (by simpa using hfuel) fun x hx =>
      hnone x (List.mem_cons_of_mem _ hx)

/-- An entry with the deadline of the last one finds no place: it is counted, and in no list. -/
theorem add_lost (r : Represents q (l ++ [(c, w)])) (hfresh : a ∉ q.heap) :
    q.add a w = { (q.store a ⟨none, none, w⟩).fault .addPosition with length := q.length + 1 } := by
  have hnew : a ∉ addrs (l ++ [(c, w)]) := fun h => hfresh (r.mem_heap h)
  have r₀ := r.store_fresh hnew ⟨none, none, w⟩
  have hcl : (c, w) ∈ l ++ [(c, w)] := List.mem_append_right _ List.mem_cons_self
  obtain ⟨e, he⟩ := alive_iff.mp (r₀.alive (List.mem_map_of_mem hcl))
  have hwhen := r₀.whens (c, w) hcl
  rw [whenOf, he, Option.map_some, Option.some.injEq] at hwhen
  have htail : (q.store a ⟨none, none, w⟩).tail = some c := by
    rw [r₀.tail]
    simp
  have hislast : (q.store a ⟨none, none, w⟩).isLast w = false := by
    rw [isLast, htail, entry_some, he]
    exact decide_eq_false (by rw [hwhen]; exact lt_irrefl _)
  obtain ⟨⟨b, wb⟩, rest, hl⟩ := List.exists_cons_of_ne_nil (List.append_ne_nil_of_right_ne_nil l (List.cons_ne_nil (c, w) []))
  have hhead : (q.store a ⟨none, none, w⟩).head = some b := by
    rw [r₀.head, hl]
    rfl
  have hle : ∀ x ∈ (b, wb) :: rest, x.2 ≤ w := by
    intro x hx
    rw [← hl] at hx
    rcases List.mem_append.mp hx with hx | hx
    · exact (List.pairwise_append.mp r.sorted).2.2 x hx _ List.mem_cons_self
    · rw [List.mem_singleton.mp hx]
  have hlen := r₀.length_le
  rw [hl, List.length_cons] at hlen
  have hlink : (q.store a ⟨none, none, w⟩).linkIn a w = (q.store a ⟨none, none, w⟩).fault .addPosition := by
    rw [linkIn, hhead]
    simp only [hislast, Bool.false_eq_true, if_false]
    exact @insertBefore_none _ _ _ _ [] a w r₀ rest b wb _ 0 hl hlen hle
  have hba : ¬ some b = some a := fun h => hnew (Option.some.inj h ▸ List.mem_map_of_mem (hl ▸ List.mem_cons_self))
  have hother : ¬ ((q.store a ⟨none, none, w⟩).fault .addPosition).head = some a := fun h => hba (hhead.symm.trans h)
  rw [add_eq, hlink, count, if_neg hother]
  rfl

/-- The assert behind the loop of `add` fails. -/
theorem add_equal (r : Represents q (l ++ [(c, w)])) (hfresh : a ∉ q.heap) :
    (q.add a w).faults = q.faults ++ [.addPosition] := by
  rw [add_lost r hfresh]
  rfl

/-! ### Removing -/

/-- What taking an entry out of the list does, before it is counted and the timer is set. -/
structure LinkedOut (q q' : TimerQueue τ) (l₁ l₂ : List (Nat × τ)) : Prop where
  links : Linked.Relinked q.nextOf q.prevOf q'.nextOf q'.prevOf (addrs l₁) (addrs l₂) (addrs l₁).getLast? (addrs l₂).head?
  whens : ∀ b, q'.whenOf b = q.whenOf b
  head : q'.head = (addrs (l₁ ++ l₂)).head?
  tail : q'.tail = (addrs (l₁ ++ l₂)).getLast?
  length : q'.length = q.length
  idle : q'.inTimer = q.inTimer
  timer : q'.timer = q.timer
  fired : q'.fired = q.fired
  faults : q'.faults = q.faults

theorem linkedOut_first (r : Represents q ((a, w) :: (c, wc) :: l₂)) :
    LinkedOut q ({ q with head := some c }.setPrev (some c) none) [] ((c, wc) :: l₂) := by
  have hc : ({ q with head := some c } : TimerQueue τ).Alive c := r.alive (by simp)
  refine ⟨⟨fun b hb => ?_, fun b hb => ?_⟩, fun b => ?_, ?_, ?_, ?_, ?_, ?_, ?_, ?_⟩
  · exact setPrev_nextOf _ _ _ b
  · refine (setPrev_prevOf hc _ b).trans ?_
    simp only [List.map_cons, List.head?_cons, Option.some.injEq, eq_comm]
    rfl
  · exact setPrev_whenOf _ _ _ b
  · exact setPrev_head _ _ _
  · refine (setPrev_tail _ _ _).trans (r.tail.trans ?_)
    simp [List.getLast?_cons]
  · exact setPrev_length _ _ _
  · exact setPrev_inTimer _ _ _
  · exact setPrev_timer _ _ _
  · exact setPrev_fired _ _ _
  · exact setPrev_faults hc _

theorem linkedOut_last {d : Nat} {wd : τ} {l₀ : List (Nat × τ)} (r : Represents q ((l₀ ++ [(d, wd)]) ++ [(a, w)])) :
    LinkedOut q ({ q with tail := some d }.setNext (some d) none) (l₀ ++ [(d, wd)]) [] := by
  have hd : ({ q with tail := some d } : TimerQueue τ).Alive d := r.alive (by simp)
  refine ⟨⟨fun b hb => ?_, fun b hb => ?_⟩, fun b => ?_, ?_, ?_, ?_, ?_, ?_, ?_, ?_⟩
  · refine (setNext_nextOf hd _ b).trans ?_
    simp only [List.map_append, List.map_cons, List.map_nil, List.getLast?_concat, Option.some.injEq, eq_comm]
    rfl
  · exact setNext_prevOf _ _ _ b
  · exact setNext_whenOf _ _ _ b
  · refine (setNext_head _ _ _).trans (r.head.trans ?_)
    simp
  · refine (setNext_tail _ _ _).trans ?_
    simp
  · exact setNext_length _ _ _
  · exact setNext_inTimer _ _ _
  · exact setNext_timer _ _ _
  · exact setNext_fired _ _ _
  · exact setNext_faults hd _

theorem linkedOut_between {d : Nat} {wd : τ} {l₀ : List (Nat × τ)}
    (r : Represents q ((l₀ ++ [(d, wd)]) ++ (a, w) :: (c, wc) :: l₂)) :
    LinkedOut q ((q.setNext (some d) (some c)).setPrev (some c) (some d)) (l₀ ++ [(d, wd)]) ((c, wc) :: l₂) := by
  have hd : q.Alive d := r.alive (by simp)
  have hc : (q.setNext (some d) (some c)).Alive c := (setNext_alive q _ _).mpr (r.alive (by simp))
  have hhead := r.head
  have htail := r.tail
  refine ⟨⟨fun b hb => ?_, fun b hb => ?_⟩, fun b => ?_, ?_, ?_, ?_, ?_, ?_, ?_, ?_⟩
  · rw [setPrev_nextOf, setNext_nextOf hd]
    simp only [List.map_append, List.map_cons, List.map_nil, List.getLast?_concat, List.head?_cons, Option.some.injEq,
      eq_comm]
  · rw [setPrev_prevOf hc, setNext_prevOf]
    simp only [List.map_append, List.map_cons, List.map_nil, List.getLast?_concat, List.head?_cons, Option.some.injEq,
      eq_comm]
  · rw [setPrev_whenOf, setNext_whenOf]
  · rw [setPrev_head, setNext_head, hhead]
    simp
  · rw [setPrev_tail, setNext_tail, htail]
    simp [List.getLast?_append, List.getLast?_cons]
  · rw [setPrev_length, setNext_length]
  · rw [setPrev_inTimer, setNext_inTimer]
  · rw [setPrev_timer, setNext_timer]
  · rw [setPrev_fired, setNext_fired]
  · rw [setPrev_faults hc, setNext_faults hd]

theorem unlink_spec (r : Represents q (l₁ ++ (a, w) :: l₂)) (he : q.heap.lookup a = some e) :
    ∃ q', q.unlink a e = some q' ∧ LinkedOut q q' l₁ l₂ := by
  obtain ⟨-, hprev, hnext⟩ := r.entry_eq he
  have hnodup := r.nodup
  rw [List.map_append, List.map_cons] at hnodup
  have ha := (List.nodup_cons.mp (List.perm_middle.nodup_iff.mp hnodup)).1
  have hhead := r.head
  have htail := r.tail
  have hlength := r.length
  rcases List.eq_nil_or_concat l₁ with rfl | ⟨l₀, ⟨d, wd⟩, rfl⟩
  · have hfirst : q.head = some a := hhead
    cases l₂ with
    | nil =>
      have hone : q.length = 1 := hlength
      refine ⟨{ q with head := none, tail := none }, ?_,
        ⟨⟨by simp, by simp⟩, fun _ => rfl, rfl, rfl, rfl, rfl, rfl, rfl, rfl⟩⟩
      have hnone : e.next = none := hnext
      rw [unlink, if_pos hfirst]
      simp only [hnone, Option.isSome_none, Bool.false_eq_true, if_false, hone, decide_true, assert_of]
    | cons x l₂ =>
      have hsome : e.next = some x.1 := hnext
      refine ⟨_, ?_, linkedOut_first r⟩
      rw [unlink, if_pos hfirst]
      simp only [hsome, Option.isSome_some, if_true]
  · rw [List.concat_eq_append] at *
    have hnotfirst : q.head ≠ some a := by
      intro h
      rw [hhead] at h
      refine ha ?_
      have hmem : a ∈ addrs (l₀ ++ [(d, wd)]) := by
        have h' : (addrs (l₀ ++ [(d, wd)])).head? = some a := by simpa using h
        exact List.mem_of_head? h'
      exact List.mem_append_left _ hmem
    have hd : e.prev = some d := by simpa using hprev
    cases l₂ with
    | nil =>
      have hlast : q.tail = some a := by
        rw [htail]
        simp
      have hassert : (q.head.isSome && e.prev.isSome) = true := by
        rw [hhead, hd]
        simp
      refine ⟨_, ?_, linkedOut_last r⟩
      rw [unlink, if_neg hnotfirst, if_pos hlast]
      simp only [assert_of hassert]
      rw [hd]
    | cons x l₂ =>
      have hnotlast : q.tail ≠ some a := by
        intro h
        rw [htail] at h
        refine ha ?_
        have hmem : a ∈ addrs (x :: l₂) := by
          have h' : (addrs (x :: l₂)).getLast? = some a := by
            simpa [List.getLast?_append, List.getLast?_cons] using h
          exact List.mem_of_getLast? h'
        exact List.mem_append_right _ hmem
      have hx : e.next = some x.1 := hnext
      refine ⟨_, ?_, linkedOut_between r⟩
      rw [unlink, if_neg hnotfirst, if_neg hnotlast]
      simp only [hd, hx, reduceCtorEq, and_self, if_false, Option.isSome_some, assert_of]

omit [LinearOrder τ] in
theorem delete_lookup_ne {b : Nat} (h : b ≠ a) (q : TimerQueue τ) : (q.delete a).heap.lookup b = q.heap.lookup b :=
  AList.lookup_erase_ne h

/-- What happens to an entry out of the list does not matter to the queue. -/
theorem LinkedOut.represents {q' q'' : TimerQueue τ} (k : LinkedOut q q' l₁ l₂) (r : Represents q (l₁ ++ (a, w) :: l₂))
    (hlook : ∀ b, b ≠ a → q''.heap.lookup b = q'.heap.lookup b) (hhead : q''.head = q'.head) (htail : q''.tail = q'.tail)
    (hlength : q''.length = q'.length - 1) (hidle : q''.inTimer = false) : Represents q'' (l₁ ++ l₂) := by
  have hnodup := r.nodup
  rw [List.map_append, List.map_cons] at hnodup
  have ha := (List.nodup_cons.mp (List.perm_middle.nodup_iff.mp hnodup)).1
  have hsame : ∀ b ∈ addrs l₁ ++ addrs l₂, q''.heap.lookup b = q'.heap.lookup b := fun b hb =>
    hlook b fun h => ha (h ▸ hb)
  refine r.remove ⟨fun b hb => ?_, fun b hb => ?_⟩ (fun b hb => ?_) (hhead.trans k.head) (htail.trans k.tail) ?_ hidle
  · rw [← k.links.next b hb, nextOf, nextOf, hsame b hb]
  · rw [← k.links.prev b hb, prevOf, prevOf, hsame b hb]
  · rw [← k.whens b, whenOf, whenOf, hsame b (by simpa using hb)]
  · rw [hlength, k.length]

omit [LinearOrder τ] in
theorem armFor_of (he : q.heap.lookup a = some e) : q.armFor (some a) = { q with timer := some e.when } := by
  rw [armFor, entry_some, he]

/-- The timer follows the first entry. -/
theorem LinkedOut.rearm {q' : TimerQueue τ} (k : LinkedOut q q' l₁ l₂) (r : Represents q (l₁ ++ (a, w) :: l₂))
    (he : q.heap.lookup a = some e) (length : Int) :
    { q' with length := length }.rearm e =
      { q' with length := length, timer := if l₁ = [] then l₂.head?.map Prod.snd else q.timer } := by
  obtain ⟨-, -, hnext⟩ := r.entry_eq he
  have hhead := k.head
  have htimer := k.timer
  cases l₁ with
  | nil =>
    cases l₂ with
    | nil =>
      have hnone : q'.head = none := hhead
      rw [TimerQueue.rearm, if_pos hnone]
      rfl
    | cons x l₂ =>
      have hsome : q'.head = some x.1 := hhead
      have hx := (k.whens x.1).trans (r.whens x (by simp))
      obtain ⟨e', he', hw⟩ := Option.map_eq_some_iff.mp hx
      have hne : q'.head ≠ none := by simp [hsome]
      have harm : { q' with length := length }.rearm e = { q' with length := length }.armFor (some x.1) := by
        rw [TimerQueue.rearm, if_neg hne, if_pos (hsome.trans hnext.symm)]
        exact congrArg (fun p => armFor p _) hsome
      have hset : { q' with length := length }.armFor (some x.1) = { q' with length := length, timer := some e'.when } :=
        armFor_of he'
      rw [harm, hset, hw]
      rfl
  | cons x l₁ =>
    have hsome : q'.head = some x.1 := hhead
    have hne : q'.head ≠ none := by simp [hsome]
    have hother : q'.head ≠ e.next := by
      rw [hsome, hnext]
      intro h
      have hnodup := r.nodup
      rw [List.cons_append, List.map_cons, List.map_append, List.map_cons] at hnodup
      refine (List.nodup_cons.mp hnodup).1 (List.mem_append_right _ (List.mem_cons_of_mem _ ?_))
      exact List.mem_of_head? h.symm
    rw [TimerQueue.rearm, if_neg hne, if_neg hother, ← htimer]
    rfl

/-- A live entry leaves the queue. -/
theorem remove_spec (r : Represents q (l₁ ++ (a, w) :: l₂)) :
    Leaves q (q.remove a) (l₁ ++ l₂) (if l₁ = [] then l₂.head?.map Prod.snd else q.timer) [] := by
  obtain ⟨e, he⟩ := alive_iff.mp (r.alive (a := a) (by simp))
  obtain ⟨q', hunlink, k⟩ := unlink_spec r he
  have hlength : q'.length = ((l₁ ++ (a, w) :: l₂).length : Nat) := k.length.trans r.length
  have hcount : decide (0 ≤ q'.length - 1) = true := by
    rw [hlength, List.length_append, List.length_cons, decide_eq_true_iff]
    omega
  have heq : q.remove a =
      { q' with length := q'.length - 1, timer := if l₁ = [] then l₂.head?.map Prod.snd else q.timer }.delete a := by
    simp only [remove, he, hunlink, assert_of hcount, k.rearm r he]
  rw [heq]
  have hrep :
    Represents ({ q' with length := q'.length - 1, timer := if l₁ = [] then l₂.head?.map Prod.snd else q.timer }.delete a)
      (l₁ ++ l₂) :=
    k.represents r (fun b hb => delete_lookup_ne hb _) rfl rfl rfl (k.idle.trans r.idle)
  exact ⟨hrep, rfl, k.fired.trans (List.append_nil _).symm, k.faults⟩

/-! ### The timer -/

omit [LinearOrder τ] in
/-- Modifying an object does not look at the counter and the flag. -/
theorem setPrev_with (q : TimerQueue τ) (p x : Option Nat) (n : Int) (i : Bool) :
    { q with length := n, inTimer := i }.setPrev p x = { q.setPrev p x with length := n, inTimer := i } := by
  cases p with
  | none => rfl
  | some a =>
    simp only [setPrev, modify]
    cases q.heap.lookup a <;> rfl

/-- The first entry leaves the queue as it does when it is removed. -/
theorem detachHead_spec (r : Represents q ((a, w) :: l)) (he : q.heap.lookup a = some e) :
    ∃ q', LinkedOut q q' [] l ∧
      { q with inTimer := true }.detachHead e = { q' with length := q'.length - 1, inTimer := true } := by
  have hnext : e.next = (addrs l).head? := (Represents.entry_eq (show Represents q ([] ++ (a, w) :: l) from r) he).2.2
  cases l with
  | nil =>
    have hnone : e.next = none := hnext
    refine ⟨{ q with head := none, tail := none }, ⟨⟨by simp, by simp⟩, fun _ => rfl, rfl, rfl, rfl, rfl, rfl, rfl, rfl⟩, ?_⟩
    simp only [detachHead, hnone, Option.isSome_none, Bool.false_eq_true, if_false]
  | cons x l =>
    have hsome : e.next = some x.1 := hnext
    have k := linkedOut_first r
    refine ⟨_, k, ?_⟩
    rw [k.length, ← setPrev_with]
    simp only [detachHead, hsome, Option.isSome_some, if_true]

omit [LinearOrder τ] in
theorem callExpired_none (n : Nat) (q : TimerQueue τ) : q.callExpired n none = q := by
  cases n <;> rfl

theorem doTimer_gather (hidle : q.inTimer = false) (now : τ) :
    q.doTimer now = (q.gather now).1.callExpired (q.gather now).1.heap.entries.length (q.gather now).2 := by
  rw [doTimer, if_neg (by simp [hidle])]
  rfl

/-- The end of `gather`, when the expired entries have left the queue. -/
theorem gather_of_expire {q' : TimerQueue τ} {x : Option Nat} {now : τ} (r : Represents q ((a, w) :: l))
    (hexpire : { q with inTimer := true }.expire now (q.heap.entries.length + 1) (some a) none none = (q', x)) :
    q.gather now =
      ({ (if q'.head = none then q'.assert (decide (q'.length = 0)) .doTimerLength else q'.armFor q'.head) with
        inTimer := false }, x) := by
  have hhead : q.head = some a := r.head
  have hassert : { q with inTimer := true }.assert q.head.isSome .doTimerHead = { q with inTimer := true } :=
    assert_of (by rw [hhead]; rfl) _ _
  have hexpire' : { q with inTimer := true }.expire now (q.heap.entries.length + 1) q.head none none = (q', x) :=
    (congrArg (fun p => { q with inTimer := true }.expire now (q.heap.entries.length + 1) p none none) hhead).trans hexpire
  simp only [gather, hassert, hexpire']

theorem gather_nil (r : Represents q []) (now : τ) : q.gather now = (q.fault .doTimerHead, none) := by
  have hhead : q.head = none := r.head
  have hlength : q.length = 0 := r.length
  have hidle := r.idle
  obtain ⟨heap, head, tail, length, inTimer, timer, fired, faults⟩ := q
  subst hhead hlength hidle
  rfl

theorem doTimer_nil (r : Represents q []) (now : τ) : q.doTimer now = q.fault .doTimerHead := by
  rw [doTimer_gather r.idle, gather_nil r]
  exact callExpired_none _ _

/-- Nothing has expired. -/
theorem gather_early {now : τ} (r : Represents q ((a, w) :: l)) (hnow : ¬ w < now) :
    q.gather now = ({ q with timer := some w }, none) := by
  obtain ⟨e, he, hwhen, -, -⟩ := Represents.entry_of (show Represents q ([] ++ (a, w) :: l) from r)
  have hhead : q.head = some a := r.head
  have hne : q.head ≠ none := by simp [hhead]
  have hexpire : { q with inTimer := true }.expire now (q.heap.entries.length + 1) (some a) none none =
      ({ q with inTimer := true }, none) := by
    rw [expire]
    simp only [he, hwhen, if_neg hnow]
  have harm : { q with inTimer := true }.armFor q.head = { q with timer := some w, inTimer := true } := by
    have hset := @armFor_of _ { q with inTimer := true } a e he
    rw [hwhen] at hset
    exact (congrArg (fun p => { q with inTimer := true }.armFor p) hhead).trans hset
  have hidle := r.idle
  rw [gather_of_expire r hexpire, if_neg hne, harm]
  obtain ⟨heap, head, tail, length, inTimer, timer, fired, faults⟩ := q
  subst hidle
  rfl

/-- Nothing has expired: the timer is set again for the first entry. -/
theorem doTimer_early {now : τ} (r : Represents q ((a, w) :: l)) (hnow : ¬ w < now) :
    Leaves q (q.doTimer now) ((a, w) :: l) (some w) [] := by
  rw [doTimer_gather r.idle, gather_early r hnow, callExpired_none]
  exact ⟨⟨r.nodup, r.whens, r.chain, r.head, r.tail, r.length, r.sorted, r.idle⟩, rfl, (List.append_nil _).symm, rfl⟩

/-- The loop of `doTimer` stops behind the first expired entry, whose links it has cleared. -/
theorem expire_late {now : τ} {n : Nat} (he : q.heap.lookup a = some e) (hnow : e.when < now) :
    q.expire now (n + 2) (some a) none none =
      (((q.detachHead e).setPrev (some a) none).setNext (some a) none, some a) := by
  have hnext : ∀ q' : TimerQueue τ, ((q'.setNext (some a) none).entry (some a)).bind (·.next) = none := by
    intro q'
    by_cases halive : q'.Alive a
    · exact (setNext_nextOf halive none a).trans (if_pos rfl)
    · have hdead : q'.heap.lookup a = none := by
        rw [Alive, whenOf, Option.isSome_map] at halive
        simpa using halive
      simp only [entry_some, setNext, modify, hdead, fault, Option.bind_none]
  rw [expire]
  simp only [he, if_pos hnow, hnext]
  rfl

omit [LinearOrder τ] in
/-- The timer is set for the first entry of the queue, which an assert expects to be counted. -/
theorem arm_head (hhead : q.head = (addrs l).head?) (hwhens : ∀ x ∈ l, q.whenOf x.1 = some x.2)
    (hlength : q.length = l.length) :
    (if q.head = none then q.assert (decide (q.length = 0)) .doTimerLength else q.armFor q.head) =
      { q with timer := if l = [] then q.timer else l.head?.map Prod.snd } := by
  cases l with
  | nil =>
    have hnone : q.head = none := hhead
    rw [if_pos hnone]
    exact assert_of (decide_eq_true hlength) _ _
  | cons x l =>
    have hsome : q.head = some x.1 := hhead
    have hne : q.head ≠ none := by
      rw [hsome]
      exact nofun
    obtain ⟨e', he', hw⟩ := Option.map_eq_some_iff.mp (hwhens x List.mem_cons_self)
    have harm : q.armFor q.head = { q with timer := some e'.when } :=
      (congrArg (fun p => q.armFor p) hsome).trans (armFor_of he')
    rw [if_neg hne, harm, hw]
    rfl

/-- What the first expired entry leaves when it has left the queue, before its function is called: a queue of
    the others, and the entry by itself. -/
structure Detached (q q₁ : TimerQueue τ) (a : Nat) (l : List (Nat × τ)) : Prop where
  leaves : Leaves q q₁ l (if l = [] then q.timer else l.head?.map Prod.snd) []
  entry : ∃ e, q₁.heap.lookup a = some e ∧ e.prev = none ∧ e.next = none
  mem : ∀ b, b ∈ q₁.heap ↔ b ∈ q.heap

/-- The first entry has expired. Those behind it stay, whether they have expired or not, since the loop has
    lost its way to them. -/
theorem gather_late {now : τ} (r : Represents q ((a, w) :: l)) (hnow : w < now) :
    ∃ q₁, q.gather now = (q₁, some a) ∧ Detached q q₁ a l := by
  obtain ⟨e, he, hwhen, -, -⟩ := Represents.entry_of (show Represents q ([] ++ (a, w) :: l) from r)
  obtain ⟨q', k, hdetach⟩ := detachHead_spec r he
  obtain ⟨n, hn⟩ : ∃ n, q.heap.entries.length = n + 1 := by
    have hle := r.length_le
    rw [List.length_cons] at hle
    exact Nat.exists_eq_succ_of_ne_zero (by omega)
  have hexpire := @expire_late τ _ { q with inTimer := true } a e now n he (hwhen ▸ hnow)
  have hfuel : q.heap.entries.length + 1 = n + 2 := by omega
  rw [hdetach, ← hfuel] at hexpire
  -- the queue without the entry, before and after the entry's own links are cleared
  obtain ⟨p, hp⟩ : ∃ p : TimerQueue τ, p = { q' with length := q'.length - 1, inTimer := true } := ⟨_, rfl⟩
  rw [← hp] at hexpire
  have hwhens : ∀ b, ((p.setPrev (some a) none).setNext (some a) none).whenOf b = q.whenOf b := by
    intro b
    rw [setNext_whenOf, setPrev_whenOf, hp]
    exact k.whens b
  have halive : p.Alive a := by
    have hwa := hwhens a
    rw [setNext_whenOf, setPrev_whenOf] at hwa
    rw [Alive, hwa, whenOf, he]
    rfl
  have halive' : (p.setPrev (some a) none).Alive a := (setPrev_alive p _ _).mpr halive
  obtain ⟨e₁, he₁⟩ := alive_iff.mp halive
  obtain ⟨e₂, he₂⟩ := alive_iff.mp halive'
  have hlook : ∀ b, b ≠ a → ((p.setPrev (some a) none).setNext (some a) none).heap.lookup b = q'.heap.lookup b := by
    intro b hb
    rw [setNext, modify_of he₂, store_lookup, if_neg hb, setPrev, modify_of he₁, store_lookup, if_neg hb, hp]
  have hheadp : ((p.setPrev (some a) none).setNext (some a) none).head = (addrs l).head? := by
    rw [setNext_head, setPrev_head, hp]
    exact k.head
  have hlength : ((p.setPrev (some a) none).setNext (some a) none).length = l.length := by
    rw [setNext_length, setPrev_length, hp]
    show q'.length - 1 = _
    rw [k.length, r.length, List.length_cons]
    omega
  have harm := arm_head hheadp (fun x hx => (hwhens x.1).trans (r.whens x (List.mem_cons_of_mem _ hx))) hlength
  have hgather := gather_of_expire r hexpire
  rw [harm] at hgather
  refine ⟨_, hgather, ⟨?_, ?_, ?_, ?_⟩, ?_, fun b => ?_⟩
  · refine k.represents r hlook (hheadp.trans k.head.symm) ?_ ?_ rfl
    · refine (setNext_tail _ _ _).trans ((setPrev_tail _ _ _).trans ?_)
      rw [hp]
    · refine (setNext_length _ _ _).trans ((setPrev_length _ _ _).trans ?_)
      rw [hp]
  · show (if l = [] then ((p.setPrev (some a) none).setNext (some a) none).timer else _) = _
    rw [setNext_timer, setPrev_timer, hp]
    exact congrArg (fun t => if l = [] then t else l.head?.map Prod.snd) k.timer
  · show ((p.setPrev (some a) none).setNext (some a) none).fired = _
    rw [setNext_fired, setPrev_fired, hp, List.append_nil]
    exact k.fired
  · show ((p.setPrev (some a) none).setNext (some a) none).faults = _
    rw [setNext_faults halive', setPrev_faults halive, hp]
    exact k.faults
  · have hprev : e₂.prev = none := by
      have h := @setPrev_prevOf _ p a halive none a
      rwa [prevOf, he₂, if_pos rfl] at h
    refine ⟨{ e₂ with next := none }, ?_, hprev, rfl⟩
    show ((p.setPrev (some a) none).setNext (some a) none).heap.lookup a = some { e₂ with next := none }
    rw [setNext, modify_of he₂, store_lookup, if_pos rfl]
  · rw [mem_heap_iff, mem_heap_iff]
    exact iff_of_eq (congrArg (fun o : Option τ => o.isSome = true) (hwhens b))

theorem Represents.delete (r : Represents q l) (ha : a ∉ addrs l) : Represents (q.delete a) l := by
  have hsame : ∀ b ∈ addrs l, (q.delete a).heap.lookup b = q.heap.lookup b := fun b hb =>
    delete_lookup_ne (fun h : b = a => ha (h ▸ hb)) q
  refine ⟨r.nodup, fun x hx => ?_, r.chain.congr (fun b hb => ?_) fun b hb => ?_, r.head, r.tail, r.length, r.sorted, r.idle⟩
  · rw [whenOf, hsame _ (List.mem_map_of_mem hx)]
    exact r.whens x hx
  · rw [nextOf, hsame b hb, nextOf]
  · rw [prevOf, hsame b hb, prevOf]

omit [LinearOrder τ] in
/-- The function of the only expired entry is called. -/
theorem callExpired_one {n : Nat} (he : q.heap.lookup a = some e) (hnext : e.next = none) :
    q.callExpired (n + 1) (some a) = { q.delete a with fired := q.fired ++ [a] } := by
  rw [callExpired, he]
  simp only [hnext, callExpired_none]

omit [LinearOrder τ] in
/-- A heap with an entry is not empty. -/
theorem heap_length {b : Nat} (he : q.heap.lookup b = some e) : ∃ n, q.heap.entries.length = n + 1 := by
  refine Nat.exists_eq_succ_of_ne_zero fun hzero => ?_
  have hempty : q.heap.entries = [] := List.length_eq_zero_iff.mp hzero
  rw [AList.lookup, hempty] at he
  exact nomatch he

/-- The first entry has expired: its function is called, and the timer set for the one behind it. -/
theorem doTimer_late {now : τ} (r : Represents q ((a, w) :: l)) (hnow : w < now) :
    Leaves q (q.doTimer now) l (if l = [] then q.timer else l.head?.map Prod.snd) [a] := by
  obtain ⟨q₁, hgather, hleaves, ⟨e, he, -, hnext⟩, -⟩ := gather_late r hnow
  obtain ⟨n, hn⟩ := heap_length he
  have ha : a ∉ addrs l := (List.nodup_cons.mp r.nodup).1
  have hrep := hleaves.represents.delete ha
  rw [doTimer_gather r.idle, hgather, hn, callExpired_one he hnext]
  refine ⟨⟨hrep.nodup, hrep.whens, hrep.chain, hrep.head, hrep.tail, hrep.length, hrep.sorted, hrep.idle⟩, hleaves.timer, ?_,
    hleaves.faults⟩
  have hfired := hleaves.fired
  rw [List.append_nil] at hfired
  exact congrArg (· ++ [a]) hfired

end Drachtio.Timer.TimerQueue
