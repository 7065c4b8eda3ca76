import Mathlib.Data.List.Perm.Basic

/-! Containers that are walked in an order nobody specifies (`std::unordered_map`): what can be found first. -/

namespace Walk

variable {α : Type} {p : α → Bool} {l : List α} {x : α}

/-- Each one comes first in some order. -/
theorem exists_head (hx : x ∈ l) : ∃ rest : List α, (x :: rest).Perm l := by
  obtain ⟨before, behind, rfl⟩ := List.append_of_mem hx
  exact ⟨before ++ behind, List.perm_middle.symm⟩

/-- Whatever has the property is found first in some order. -/
theorem exists_first (hx : x ∈ l) (hp : p x = true) : ∃ l' : List α, l'.Perm l ∧ l'.find? p = some x := by
  obtain ⟨rest, hrest⟩ := exists_head hx
  exact ⟨x :: rest, hrest, List.find?_cons_of_pos hp⟩

/-- What is to hold of the first one in every order must hold of all of them. -/
theorem forall_first_iff {q : Option α → Prop} :
    (∀ l' : List α, l'.Perm l → q (l'.find? p)) ↔ (∀ x ∈ l, p x = true → q (some x)) ∧ ((∀ x ∈ l, p x = false) → q none) := by
  constructor
  · intro hall
    constructor
    · intro x hx hp
      obtain ⟨l', hl', hfirst⟩ := exists_first hx hp
      exact hfirst ▸ hall l' hl'
    · intro hnone
      have hfirst : l.find? p = none := List.find?_eq_none.mpr fun x hx => by simp [hnone x hx]
      exact hfirst ▸ hall l (List.Perm.refl l)
  · rintro ⟨hsome, hnone⟩ l' hl'
    cases hfirst : l'.find? p with
    | none =>
      refine hnone fun x hx => ?_
      have hx' := List.find?_eq_none.mp hfirst x (hl'.mem_iff.mpr hx)
      rwa [Bool.not_eq_true] at hx'
    | some x => exact hsome x (hl'.mem_iff.mp (List.mem_of_find?_eq_some hfirst)) (List.find?_some hfirst)

/-- What is found has a value in every order exactly when something is found and all that could be have the value. -/
theorem forall_found_iff {κ : Type} {f : α → κ} {k : κ} :
    (∀ l' : List α, l'.Perm l → (l'.find? p).map f = some k) ↔ (∃ x ∈ l, p x = true) ∧ ∀ x ∈ l, p x = true → f x = k := by
  rw [forall_first_iff (q := fun r => r.map f = some k)]
  constructor
  · rintro ⟨hsome, hnone⟩
    refine ⟨?_, fun x hx hp => Option.some.inj (hsome x hx hp)⟩
    by_contra hall
    exact nomatch hnone fun x hx => Bool.eq_false_iff.mpr fun hp => hall ⟨x, hx, hp⟩
  · rintro ⟨⟨x, hx, hp⟩, hall⟩
    exact ⟨fun y hy hpy => congrArg some (hall y hy hpy), fun hnone => absurd (hnone x hx) (by simp [hp])⟩

end Walk
