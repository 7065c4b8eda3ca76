import Mathlib.Data.List.Rotate

/-! Taking turns: every pick from a list is at the offset modulo the length, and leaves the offset one
    further. As many picks as the list has elements take each of them once, wherever they begin. -/

namespace RoundRobin

variable {α : Type}

/-- The results of a number of picks that begin at an offset. -/
def turns (l : List α) : Nat → Nat → List (Option α)
  | 0, _ => []
  | n + 1, offset => l[offset % l.length]? :: turns l n (offset % l.length + 1)

theorem turns_eq (l : List α) (n offset : Nat) :
    turns l n offset = (List.range n).map fun j => l[(offset + j) % l.length]? := by
  induction n generalizing offset with
  | zero => rfl
  | succ n ih =>
    rw [turns, ih, List.range_succ_eq_map, List.map_cons, List.map_map, Nat.add_zero]
    refine congrArg _ (List.map_congr_left fun j _ => ?_)
    have hmod : (offset % l.length + 1 + j) % l.length = (offset + (j + 1)) % l.length := by
      rw [Nat.add_assoc, Nat.mod_add_mod, Nat.add_comm 1 j]
    rw [hmod, Function.comp_apply]

/-- A round of turns is the list from the offset on, around its end. -/
theorem turns_length (l : List α) (offset : Nat) : turns l l.length offset = (l.rotate offset).map some := by
  rw [turns_eq]
  refine List.ext_getElem (by simp) fun j hj _ => ?_
  rw [List.length_map, List.length_range] at hj
  rw [List.getElem_map, List.getElem_range, List.getElem_map, ← List.getElem?_eq_getElem,
    List.getElem?_rotate hj, Nat.add_comm]

theorem turns_perm (l : List α) (offset : Nat) : (turns l l.length offset).Perm (l.map some) := by
  rw [turns_length]
  exact (List.rotate_perm l offset).map some

end RoundRobin
