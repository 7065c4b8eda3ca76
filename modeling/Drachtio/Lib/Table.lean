import Mathlib.Data.List.AList

/-! Tables with at most one value for a key, whose insert keeps the value that is there
    (`std::unordered_map::insert`). -/

namespace AList

variable {κ β : Type} [DecidableEq κ] {k k' : κ} {v : β} {m : AList fun _ : κ => β}

/-- Insert a value for a key that has none. -/
def insertNew (k : κ) (v : β) (m : AList fun _ : κ => β) : AList fun _ : κ => β :=
  if k ∈ m then m else m.insert k v

theorem lookup_insertNew_self : (insertNew k v m).lookup k = some ((m.lookup k).getD v) := by
  unfold insertNew
  split
  · rename_i hk
    obtain ⟨w, hw⟩ := Option.isSome_iff_exists.mp (lookup_isSome.mpr hk)
    rw [hw, Option.getD_some]
  · rename_i hk
    rw [lookup_insert, lookup_eq_none.mpr hk, Option.getD_none]

theorem lookup_insertNew_ne (h : k' ≠ k) : (insertNew k v m).lookup k' = m.lookup k' := by
  unfold insertNew
  split
  · rfl
  · exact lookup_insert_ne h

theorem insertNew_of_notMem (h : k ∉ m) : insertNew k v m = m.insert k v := if_neg h

theorem insertNew_of_mem (h : k ∈ m) : insertNew k v m = m := if_pos h

theorem erase_of_notMem (h : k ∉ m) : m.erase k = m := ext (List.kerase_of_notMem_keys h)

theorem lookup_erase_eq_some {w : β} : (m.erase k).lookup k' = some w ↔ k' ≠ k ∧ m.lookup k' = some w := by
  by_cases h : k' = k
  · rw [h, lookup_erase]
    simp
  · rw [lookup_erase_ne h]
    exact (and_iff_right h).symm

theorem lookup_insert_eq_some {w : β} :
    (m.insert k v).lookup k' = some w ↔ (k' = k ∧ v = w) ∨ (k' ≠ k ∧ m.lookup k' = some w) := by
  by_cases h : k' = k
  · rw [h, lookup_insert]
    simp
  · rw [lookup_insert_ne h]
    simp [h]

theorem erase_insert_of_notMem (h : k ∉ m) : (m.insert k v).erase k = m := by
  rw [insert_of_notMem h]
  exact ext (List.kerase_cons_eq rfl)

theorem mem_of_lookup {w : β} (h : m.lookup k = some w) : k ∈ m := lookup_isSome.mp (by rw [h]; rfl)

/-- An entry that is found comes first in some order of the entries. -/
theorem perm_of_lookup (h : m.lookup k = some v) : m.entries.Perm (⟨k, v⟩ :: (m.erase k).entries) := by
  obtain ⟨b, l₁, l₂, hnot, hentries, hkerase⟩ := List.exists_of_kerase (mem_keys.mp (mem_of_lookup h))
  have hmem : (⟨k, b⟩ : Sigma fun _ : κ => β) ∈ m.entries := hentries ▸ List.mem_append_right l₁ List.mem_cons_self
  obtain rfl : b = v := Option.some.inj ((Option.mem_def.mp (mem_lookup_iff.mpr hmem)).symm.trans h)
  have herase : (m.erase k).entries = l₁ ++ l₂ := hkerase
  rw [hentries, herase]
  exact List.perm_middle

/-- The entries that a predicate keeps. -/
def keep (p : κ → β → Bool) (m : AList fun _ : κ => β) : AList fun _ : κ => β :=
  ⟨m.entries.filter fun e => p e.1 e.2, m.nodupKeys.sublist List.filter_sublist⟩

theorem lookup_keep_eq_some {p : κ → β → Bool} {w : β} :
    (m.keep p).lookup k = some w ↔ m.lookup k = some w ∧ p k w = true := by
  have hentries : (m.keep p).entries = m.entries.filter fun e => p e.1 e.2 := rfl
  rw [← Option.mem_def, ← Option.mem_def, mem_lookup_iff, mem_lookup_iff, hentries, List.mem_filter]

/-- A search finds the same without an entry that it does not look for. -/
theorem find?_kerase {q : Sigma (fun _ : κ => β) → Bool} {l : List (Sigma fun _ : κ => β)}
    (h : ∀ b, (⟨k, b⟩ : Sigma fun _ : κ => β) ∈ l → q ⟨k, b⟩ = false) : (l.kerase k).find? q = l.find? q := by
  induction l with
  | nil => rfl
  | cons e l ih =>
    obtain ⟨j, b⟩ := e
    by_cases hj : k = j
    · subst hj
      have hq : ¬ q ⟨k, b⟩ = true := Bool.eq_false_iff.mp (h b List.mem_cons_self)
      have herase : (⟨k, b⟩ :: l : List (Sigma fun _ : κ => β)).kerase k = l := List.eraseP_cons_of_pos (decide_eq_true rfl)
      rw [herase, List.find?_cons_of_neg hq]
    · rw [List.kerase_cons_ne hj, List.find?_cons, List.find?_cons, ih fun b hb => h b (List.mem_cons_of_mem _ hb)]

omit [DecidableEq κ] in
/-- The tables with the same entries are those entries in every order. -/
theorem forall_perm_iff {m : AList fun _ : κ => β} {P : List (Sigma fun _ : κ => β) → Prop} :
    (∀ m' : AList fun _ : κ => β, m'.entries.Perm m.entries → P m'.entries) ↔ ∀ l, l.Perm m.entries → P l := by
  constructor
  · exact fun hall l hl => hall ⟨l, (List.perm_nodupKeys hl).mpr m.nodupKeys⟩ hl
  · exact fun hall m' hm' => hall m'.entries hm'

end AList
