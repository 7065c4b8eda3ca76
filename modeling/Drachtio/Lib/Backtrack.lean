import Mathlib.Data.List.Basic

/-! Patterns that are matched by backtracking, as regular expressions are: all the ways in which a pattern takes a front
    part of a text, in the order in which they are tried. Of a whole match the first way counts. -/

/-- What is taken, with the value that is made of it, and what is left of the text -/
def Pattern (σ α : Type) : Type := List σ → List (α × List σ)

namespace Pattern

variable {σ α β : Type}

/-- Every way of the first pattern, and behind it every way of the second. -/
instance : Monad (Pattern σ) where
  pure a := fun s => [(a, s)]
  bind r k := fun s => List.flatMap (fun x => k x.1 x.2) (r s)

/-- The value of the first way that succeeds -/
def first (r : Pattern σ α) (s : List σ) : Option α := (List.head? (r s)).map Prod.fst

/-- A certain text -/
def text [DecidableEq σ] (t : List σ) : Pattern σ Unit := fun s => if t <+: s then [((), s.drop t.length)] else []

/-- Elements of a class, as many as there are, then one fewer and so on, down to one -/
def many1 (p : σ → Bool) : Pattern σ (List σ)
  | [] => []
  | c :: s => if p c = true then (many1 p s).map (fun x => (c :: x.1, x.2)) ++ [([c], s)] else []

/-- Elements of a class, down to none -/
def many (p : σ → Bool) : Pattern σ (List σ) := fun s => many1 p s ++ [([], s)]

/-- The pattern, or else nothing -/
def opt (r : Pattern σ α) : Pattern σ (Option α) := fun s => (r s).map (fun x => (some x.1, x.2)) ++ [(none, s)]

def either (r r' : Pattern σ α) : Pattern σ α := fun s => r s ++ r' s

/-- The end of the text -/
def eos : Pattern σ Unit := fun s => if s.isEmpty = true then [((), [])] else []

/-! ### First ways -/

section
variable {r : Pattern σ α} {k : α → Pattern σ β} {s t rest x : List σ} {p : σ → Bool} {b : β} {a : α}

theorem first_eq : r.first s = (r s).findSome? fun x => some x.1 := by
  unfold first
  cases r s with
  | nil => rfl
  | cons x l => rfl

theorem findSome?_bind {γ : Type} {f : β × List σ → Option γ} :
    ((r >>= k) s).findSome? f = (r s).findSome? fun x => (k x.1 x.2).findSome? f := by
  have hbind : (r >>= k) s = List.flatMap (fun x => k x.1 x.2) (r s) := rfl
  rw [hbind]
  induction r s with
  | nil => rfl
  | cons x l ih =>
    rw [List.flatMap_cons, List.findSome?_append, ih, List.findSome?_cons]
    cases (k x.1 x.2).findSome? f with
    | none => exact Option.none_or
    | some y => exact Option.some_or

/-- What is behind a pattern decides which of its ways is the first to succeed. -/
theorem first_bind : (r >>= k).first s = (r s).findSome? fun x => (k x.1).first x.2 := by
  simp only [first_eq, findSome?_bind]

@[simp] theorem first_pure : (pure a : Pattern σ α).first s = some a := rfl

theorem text_append [DecidableEq σ] : text t (t ++ rest) = [((), rest)] := by
  rw [text, if_pos (List.prefix_append t rest), List.drop_left]

theorem text_none [DecidableEq σ] (h : ¬t <+: s) : text t s = [] := if_neg h

theorem first_text [DecidableEq σ] {k : Unit → Pattern σ β} : (text t >>= k).first (t ++ rest) = (k ()).first rest := by
  rw [first_bind, text_append, List.findSome?_singleton]

theorem first_text_none [DecidableEq σ] {k : Unit → Pattern σ β} (h : ¬t <+: s) : (text t >>= k).first s = none := by
  rw [first_bind, text_none h, List.findSome?_nil]

theorem first_eos {k : Unit → Pattern σ β} : (eos >>= k).first s = if s = [] then (k ()).first [] else none := by
  rw [first_bind]
  cases s with
  | nil => exact List.findSome?_singleton
  | cons c s => rfl

theorem first_opt {k : Option α → Pattern σ β} :
    (opt r >>= k).first s = ((r s).findSome? fun x => (k (some x.1)).first x.2).or ((k none).first s) := by
  rw [first_bind, opt, List.findSome?_append, List.findSome?_map, List.findSome?_singleton]
  rfl

theorem first_either {r' : Pattern σ α} : (either r r' >>= k).first s = ((r >>= k).first s).or ((r' >>= k).first s) := by
  rw [first_bind, first_bind, first_bind, either, List.findSome?_append]

/-! ### All ways -/

theorem mem_bind {y : β × List σ} : y ∈ (r >>= k) s ↔ ∃ x ∈ r s, y ∈ k x.1 x.2 := List.mem_flatMap

theorem mem_pure {y : α × List σ} : y ∈ (pure a : Pattern σ α) s ↔ y = (a, s) := List.mem_singleton

theorem mem_text [DecidableEq σ] {y : Unit × List σ} : y ∈ text t s ↔ s = t ++ y.2 := by
  unfold text
  split
  · rename_i h
    obtain ⟨rest, rfl⟩ := h
    rw [List.drop_left, List.mem_singleton]
    constructor
    · rintro rfl
      rfl
    · intro h
      exact Prod.ext rfl (List.append_cancel_left h).symm
  · rename_i h
    refine iff_of_false List.not_mem_nil ?_
    rintro rfl
    exact h (List.prefix_append t y.2)

theorem mem_opt {y : Option α × List σ} :
    y ∈ opt r s ↔ y = (none, s) ∨ ∃ x ∈ r s, y = (some x.1, x.2) := by
  rw [opt, List.mem_append, List.mem_map, List.mem_singleton, or_comm]
  simp only [eq_comm]

theorem mem_either {r' : Pattern σ α} {y : α × List σ} : y ∈ either r r' s ↔ y ∈ r s ∨ y ∈ r' s := List.mem_append

theorem mem_eos {y : Unit × List σ} (h : y ∈ eos s) : s = [] := by
  cases s with
  | nil => rfl
  | cons c s => exact absurd h List.not_mem_nil

theorem mem_of_first (h : r.first s = some a) : ∃ rest, (a, rest) ∈ r s := by
  obtain ⟨⟨a', rest⟩, hhead, rfl⟩ := Option.map_eq_some_iff.mp h
  exact ⟨rest, List.mem_of_head? hhead⟩

/-- A way of a class is a front part of the text with members of the class only. -/
theorem mem_many1 {y : List σ × List σ} : y ∈ many1 p s ↔ y.1 ≠ [] ∧ y.1 ++ y.2 = s ∧ ∀ c ∈ y.1, p c = true := by
  induction s generalizing y with
  | nil =>
    refine iff_of_false List.not_mem_nil ?_
    rintro ⟨hne, heq, -⟩
    exact hne (List.append_eq_nil_iff.mp heq).1
  | cons c s ih =>
    obtain ⟨x, rest⟩ := y
    rw [many1]
    by_cases hc : p c = true
    · rw [if_pos hc, List.mem_append, List.mem_map, List.mem_singleton]
      constructor
      · rintro (⟨z, hz, heq⟩ | heq)
        · obtain ⟨-, rfl, hall⟩ := ih.mp hz
          cases heq
          exact ⟨List.cons_ne_nil _ _, rfl, List.forall_mem_cons.mpr ⟨hc, hall⟩⟩
        · cases heq
          exact ⟨List.cons_ne_nil _ _, rfl, List.forall_mem_cons.mpr ⟨hc, List.forall_mem_nil _⟩⟩
      · rintro ⟨hne, heq, hall⟩
        cases x with
        | nil => exact absurd rfl hne
        | cons d x =>
          obtain ⟨rfl, rfl⟩ := List.cons.inj heq
          cases x with
          | nil => exact .inr rfl
          | cons e x =>
            exact .inl ⟨(e :: x, rest), ih.mpr ⟨List.cons_ne_nil _ _, rfl, (List.forall_mem_cons.mp hall).2⟩, rfl⟩
    · rw [if_neg hc]
      refine iff_of_false List.not_mem_nil ?_
      rintro ⟨hne, heq, hall⟩
      cases x with
      | nil => exact hne rfl
      | cons d x =>
        obtain ⟨rfl, -⟩ := List.cons.inj heq
        exact hc (hall d List.mem_cons_self)

theorem cut_opt_text [DecidableEq σ] {y : Option Unit × List σ} (h : y ∈ opt (text t) s) : s = y.2 ∨ s = t ++ y.2 := by
  rcases mem_opt.mp h with rfl | ⟨x, hx, rfl⟩
  · exact .inl rfl
  · exact .inr (mem_text.mp hx)

theorem cut_opt_field [DecidableEq σ] {c : σ} {y : Option (List σ) × List σ}
    (h : y ∈ opt (text [c] >>= fun _ => many1 p) s) :
    s = y.2 ∨ ∃ field, s = c :: (field ++ y.2) ∧ ∀ d ∈ field, p d = true := by
  rcases mem_opt.mp h with rfl | ⟨x, hx, rfl⟩
  · exact .inl rfl
  · obtain ⟨z, hz, hx⟩ := mem_bind.mp hx
    obtain ⟨-, heq, hall⟩ := mem_many1.mp hx
    exact .inr ⟨x.1, heq ▸ mem_text.mp hz, hall⟩

/-! ### The way that counts -/

/-- The way of a class that counts: what is behind it succeeds, and behind no longer one it does. -/
theorem findSome?_many1 {f : List σ × List σ → Option β} (hx : x ≠ []) (hall : ∀ c ∈ x, p c = true)
    (hlonger : ∀ y rest', y ≠ [] → y ++ rest' = rest → (∀ c ∈ y, p c = true) → f (x ++ y, rest') = none)
    (hf : f (x, rest) = some b) : (many1 p (x ++ rest)).findSome? f = some b := by
  induction x generalizing f with
  | nil => exact absurd rfl hx
  | cons c x ih =>
    obtain ⟨hc, hall⟩ := List.forall_mem_cons.mp hall
    rw [List.cons_append, many1, if_pos hc, List.findSome?_append, List.findSome?_map, List.findSome?_singleton]
    cases x with
    | nil =>
      have hnone : (many1 p rest).findSome? (f ∘ fun y => (c :: y.1, y.2)) = none := by
        rw [List.findSome?_eq_none_iff]
        rintro ⟨y, rest'⟩ hy
        obtain ⟨hne, heq, hys⟩ := mem_many1.mp hy
        exact hlonger y rest' hne heq hys
      rw [List.nil_append, hnone, Option.none_or, hf]
    | cons d x =>
      rw [ih (List.cons_ne_nil d x) hall (fun y rest' hne heq hys => hlonger y rest' hne heq hys) hf, Option.some_or]

/-- Where the class ends, there is no longer way. -/
theorem findSome?_many1_whole {f : List σ × List σ → Option β} (hx : x ≠ []) (hall : ∀ c ∈ x, p c = true)
    (hend : ∀ c ∈ rest.head?, p c = false) (hf : f (x, rest) = some b) : (many1 p (x ++ rest)).findSome? f = some b := by
  refine findSome?_many1 hx hall (fun y rest' hne heq hys => ?_) hf
  obtain ⟨c, y, rfl⟩ := List.exists_cons_of_ne_nil hne
  have hc := hend c (by rw [← heq]; rfl)
  rw [hys c List.mem_cons_self] at hc
  cases hc

theorem many1_none (hend : ∀ c ∈ s.head?, p c = false) : many1 p s = [] := by
  cases s with
  | nil => rfl
  | cons c s => exact if_neg (by rw [hend c rfl]; exact Bool.false_ne_true)

theorem findSome?_many_whole {f : List σ × List σ → Option β} (hall : ∀ c ∈ x, p c = true)
    (hend : ∀ c ∈ rest.head?, p c = false) (hf : f (x, rest) = some b) : (many p (x ++ rest)).findSome? f = some b := by
  rw [many, List.findSome?_append, List.findSome?_singleton]
  by_cases hx : x = []
  · subst hx
    rw [List.nil_append, many1_none hend, List.findSome?_nil, Option.none_or, hf]
  · rw [findSome?_many1_whole hx hall hend hf, Option.some_or]

/-- A field with a mark in front that is left out when it is empty -/
theorem first_opt_field [DecidableEq σ] {c : σ} {k : Option (List σ) → Pattern σ β} (hall : ∀ d ∈ x, p d = true)
    (hend : ∀ d ∈ rest.head?, d ≠ c ∧ p d = false) (hk : (k (if x = [] then none else some x)).first rest = some b) :
    (opt (text [c] >>= fun _ => many1 p) >>= k).first ((if x = [] then [] else c :: x) ++ rest) = some b := by
  by_cases hx : x = []
  · rw [if_pos hx] at hk ⊢
    have habsent : ¬[c] <+: rest := by
      rintro ⟨more, rfl⟩
      exact (hend c rfl).1 rfl
    rw [List.nil_append, first_opt, findSome?_bind, text_none habsent, List.findSome?_nil, Option.none_or, hk]
  · rw [if_neg hx] at hk ⊢
    have hpresent : text [c] (c :: x ++ rest) = [((), x ++ rest)] := text_append
    rw [first_opt, findSome?_bind, hpresent, List.findSome?_singleton,
      findSome?_many1_whole hx hall (fun d hd => (hend d hd).2) hk, Option.some_or]

end

end Pattern
