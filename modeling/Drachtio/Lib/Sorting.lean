import Mathlib.Data.List.Sort

/-! What `std::sort` promises: it sorts by a comparison that is a strict weak ordering of the elements it is given. Of any
    other comparison nothing is promised. -/

namespace Sorting

variable {α : Type}

/-- The comparison is a strict weak ordering of the elements. -/
def Orders (lt : α → α → Bool) (l : List α) : Prop := IsStrictWeakOrder {a // a ∈ l} fun a b => lt a.1 b.1 = true

/-- An implementation of it -/
structure Algorithm (α : Type) where
  sort : (α → α → Bool) → List α → List α
  perm : ∀ lt l, Orders lt l → (sort lt l).Perm l
  sorted : ∀ lt l, Orders lt l → (sort lt l).Pairwise fun a b => lt b a = false

section
variable {s : Algorithm α} {lt : α → α → Bool} {l : List α} {a b : α}

theorem Orders.irrefl (h : Orders lt l) (ha : a ∈ l) : lt a a = false :=
  Bool.eq_false_iff.mpr (h.toIsStrictOrder.toIrrefl.irrefl ⟨a, ha⟩)

/-- A comparison by a rank orders everything. -/
theorem orders_of_rank (rank : α → Nat) (h : ∀ a ∈ l, ∀ b ∈ l, (lt a b = true ↔ rank b < rank a)) : Orders lt l where
  irrefl a ha := lt_irrefl _ ((h a.1 a.2 a.1 a.2).mp ha)
  trans a b c hab hbc := (h a.1 a.2 c.1 c.2).mpr
    (((h b.1 b.2 c.1 c.2).mp hbc).trans ((h a.1 a.2 b.1 b.2).mp hab))
  incomp_trans a b c hab hbc := by
    rw [h a.1 a.2 b.1 b.2, h b.1 b.2 a.1 a.2] at hab
    rw [h b.1 b.2 c.1 c.2, h c.1 c.2 b.1 b.2] at hbc
    rw [h a.1 a.2 c.1 c.2, h c.1 c.2 a.1 a.2]
    omega

/-- Nothing is to come before the first of the sorted elements. -/
theorem Algorithm.head_least (h : Orders lt l) (hhead : (s.sort lt l).head? = some a) : a ∈ l ∧ ∀ b ∈ l, lt b a = false := by
  obtain ⟨rest, hrest⟩ := List.head?_eq_some_iff.mp hhead
  have hperm := s.perm lt l h
  have hsorted := s.sorted lt l h
  rw [hrest] at hperm hsorted
  have ha : a ∈ l := hperm.subset List.mem_cons_self
  refine ⟨ha, fun b hb => ?_⟩
  rcases List.mem_cons.mp (hperm.symm.subset hb) with rfl | hb
  · exact h.irrefl ha
  · exact (List.pairwise_cons.mp hsorted).1 b hb

end

/-- A merge sort is one. -/
def mergeSort : Algorithm α where
  sort lt l := (l.attach.mergeSort fun a b => !lt b.1 a.1).map Subtype.val
  perm lt l _ := by
    have hperm := ((l.attach.mergeSort_perm fun a b => !lt b.1 a.1).map Subtype.val)
    rwa [List.attach_map_subtype_val] at hperm
  sorted lt l h := by
    have htrans : ∀ a b c : {a // a ∈ l}, (!lt b.1 a.1) = true → (!lt c.1 b.1) = true → (!lt c.1 a.1) = true := by
      simp only [Bool.not_eq_true', Bool.eq_false_iff]
      intro a b c hab hbc hca
      -- Neither of the steps between b and the others goes up, so all three would be equivalent.
      have hba : ¬lt a.1 b.1 = true := fun h' => hbc (h.toIsStrictOrder.toIsTrans.trans c a b hca h')
      have hcb : ¬lt b.1 c.1 = true := fun h' => hab (h.toIsStrictOrder.toIsTrans.trans b c a h' hca)
      exact (h.incomp_trans a b c ⟨hba, hab⟩ ⟨hcb, hbc⟩).2 hca
    have htotal : ∀ a b : {a // a ∈ l}, ((!lt b.1 a.1) || (!lt a.1 b.1)) = true := by
      intro a b
      by_contra hboth
      have hboth' : lt b.1 a.1 = true ∧ lt a.1 b.1 = true := by simpa using hboth
      exact h.toIsStrictOrder.toIrrefl.irrefl a (h.toIsStrictOrder.toIsTrans.trans a b a hboth'.2 hboth'.1)
    have hsorted := List.pairwise_mergeSort htrans htotal l.attach
    rw [List.pairwise_map]
    exact hsorted.imp fun h => by simpa using h

end Sorting
