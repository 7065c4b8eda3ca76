import Mathlib.Data.List.MinMax
import Mathlib.Data.List.Sort

/-! Sorting by a rank when elements of one rank may precede each other: the first element after an insertion sort is
    the first one of least rank. -/

namespace Ranked

variable {α β : Type} [LinearOrder β] {rank : α → β} {r : α → α → Prop} [DecidableRel r]

/-- The first element of least rank comes out first. -/
theorem head?_insertionSort (hr : ∀ a b, r a b ↔ rank a ≤ rank b) (l : List α) :
    (l.insertionSort r).head? = l.argmin rank := by
  induction l with
  | nil => rfl
  | cons a l ih =>
    rw [List.insertionSort_cons, List.argmin_cons, ← ih]
    cases l.insertionSort r with
    | nil => rfl
    | cons b bs =>
      by_cases hab : rank b < rank a
      · have hnot : ¬ r a b := fun h => not_le_of_gt hab ((hr a b).mp h)
        simp only [List.orderedInsert, if_neg hnot, List.head?_cons, if_pos hab]
      · have hle : r a b := (hr a b).mpr (le_of_not_gt hab)
        simp only [List.orderedInsert, if_pos hle, List.head?_cons, if_neg hab]

/-- When the elements with a property have one rank and all others are above it, the first of them is the first of
    least rank. -/
theorem argmin_eq_find? {p : α → Bool} {m : β} {l : List α} (hp : ∀ a ∈ l, p a = true → rank a = m)
    (hnp : ∀ a ∈ l, p a = false → m < rank a) (hsome : ∃ a ∈ l, p a = true) : l.argmin rank = l.find? p := by
  induction l with
  | nil =>
    obtain ⟨a, ha, -⟩ := hsome
    exact nomatch ha
  | cons a l ih =>
    have hp' := fun b hb => hp b (List.mem_cons_of_mem a hb)
    have hnp' := fun b hb => hnp b (List.mem_cons_of_mem a hb)
    rw [List.argmin_cons]
    cases ha : p a with
    | true =>
      rw [List.find?_cons_of_pos ha]
      cases hmin : l.argmin rank with
      | none => rfl
      | some c =>
        -- Nothing is below the common rank.
        have hc : c ∈ l := List.argmin_mem hmin
        have hle : m ≤ rank c := by
          cases hpc : p c with
          | true => exact (hp' c hc hpc).ge
          | false => exact (hnp' c hc hpc).le
        exact if_neg (not_lt_of_ge ((hp a List.mem_cons_self ha).trans_le hle))
    | false =>
      have hsome' : ∃ b ∈ l, p b = true := by
        obtain ⟨b, hb, hpb⟩ := hsome
        rcases List.mem_cons.mp hb with rfl | hb
        · exact absurd hpb (by simp [ha])
        · exact ⟨b, hb, hpb⟩
      rw [List.find?_cons_of_neg (by simp [ha]), ih hp' hnp' hsome']
      obtain ⟨c, hc⟩ : ∃ c, l.find? p = some c := Option.isSome_iff_exists.mp (List.find?_isSome.mpr hsome')
      have hlt : rank c < rank a :=
        (hp' c (List.mem_of_find?_eq_some hc) (List.find?_some hc)).trans_lt (hnp a List.mem_cons_self ha)
      rw [hc]
      exact if_pos hlt

end Ranked
