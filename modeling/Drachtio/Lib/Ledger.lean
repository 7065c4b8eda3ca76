import Mathlib.Algebra.Order.Group.Multiset
import Mathlib.Data.Multiset.AddSub

/-! The books of an owner of counted things, such as references: a log of what is taken and given back, in order. A log is
    sound if nothing is ever given back that is not owned at that time; then what is owned is a multiset. -/

namespace Ledger

inductive Entry (ρ : Type) where
  | take (r : ρ)
  | give (r : ρ)
deriving DecidableEq, Repr

variable {ρ : Type} [DecidableEq ρ] {l l' : List (Entry ρ)} {m : Multiset ρ} {r r' : ρ}

def settle (m : Option (Multiset ρ)) : Entry ρ → Option (Multiset ρ)
  | .take r => m.map (r ::ₘ ·)
  | .give r => m.bind fun m => if r ∈ m then some (m.erase r) else none

/-- What is owned after a log, unless something was given back that was not owned. -/
def owned (l : List (Entry ρ)) : Option (Multiset ρ) := l.foldl settle (some 0)

theorem owned_nil : owned ([] : List (Entry ρ)) = some 0 := rfl

theorem owned_append : owned (l ++ l') = l'.foldl settle (owned l) := List.foldl_append

theorem owned_take (h : owned l = some m) : owned (l ++ [.take r]) = some (r ::ₘ m) := by
  rw [owned_append, h]
  rfl

theorem owned_give (h : owned l = some (r ::ₘ m)) : owned (l ++ [.give r]) = some m := by
  rw [owned_append, h]
  show (if r ∈ r ::ₘ m then some ((r ::ₘ m).erase r) else none) = some m
  rw [if_pos (Multiset.mem_cons_self r m), Multiset.erase_cons_head]

/-- Something that is taken and given back leaves what is owned. -/
theorem owned_lend (h : owned l = some m) : owned (l ++ [.take r, .give r]) = some m := by
  rw [List.append_cons]
  exact owned_give (owned_take h)

/-- Something is given back for something else. -/
theorem owned_swap (h : owned l = some (r ::ₘ m)) : owned (l ++ [.give r, .take r']) = some (r' ::ₘ m) := by
  rw [List.append_cons]
  exact owned_take (owned_give h)

theorem owned_giveAll {rs : List ρ} (h : owned l = some (↑rs + m)) : owned (l ++ rs.map .give) = some m := by
  induction rs generalizing l with
  | nil => rwa [List.map_nil, List.append_nil, ← zero_add m]
  | cons r rs ih =>
    rw [List.map_cons, List.append_cons]
    exact ih (owned_give (by rwa [← Multiset.cons_add]))

end Ledger
