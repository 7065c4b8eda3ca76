import Mathlib.Data.List.Basic

/-! Texts made of fields with a separator between them: a field without the separator ends at the first
    separator, so the text determines its fields. -/

namespace Fields

variable {α : Type} {sep : α} {x y rest rest' : List α}

theorem append_sep_ne (hy : sep ∉ y) : x ++ sep :: rest ≠ y := by
  rintro rfl
  exact hy (List.mem_append_right x List.mem_cons_self)

theorem append_sep_inj (hx : sep ∉ x) (hy : sep ∉ y) (h : x ++ sep :: rest = y ++ sep :: rest') :
    x = y ∧ rest = rest' := by
  induction x generalizing y with
  | nil =>
    cases y with
    | nil => exact ⟨rfl, by simpa using h⟩
    | cons b y =>
      obtain ⟨hb, -⟩ := List.cons.inj h
      exact absurd List.mem_cons_self (hb ▸ hy)
  | cons a x ih =>
    cases y with
    | nil =>
      obtain ⟨ha, -⟩ := List.cons.inj h
      exact absurd List.mem_cons_self (ha ▸ hx)
    | cons b y =>
      obtain ⟨rfl, htail⟩ := List.cons.inj h
      have hx' : sep ∉ x := fun hm => hx (List.mem_cons_of_mem _ hm)
      have hy' : sep ∉ y := fun hm => hy (List.mem_cons_of_mem _ hm)
      obtain ⟨rfl, hrest⟩ := ih hx' hy' htail
      exact ⟨rfl, hrest⟩

/-- A field without the separator also starts behind the last one. -/
theorem append_sep_inj_last (hx : sep ∉ x) (hy : sep ∉ y) (h : rest ++ sep :: x = rest' ++ sep :: y) :
    rest = rest' ∧ x = y := by
  have hreverse := congrArg List.reverse h
  simp only [List.reverse_append, List.reverse_cons, List.append_assoc, List.singleton_append] at hreverse
  obtain ⟨hxy, hrest⟩ := append_sep_inj (fun hm => hx (List.mem_reverse.mp hm)) (fun hm => hy (List.mem_reverse.mp hm))
    hreverse
  exact ⟨List.reverse_injective hrest, List.reverse_injective hxy⟩

/-- A cut of a text falls into its first field or behind the separator. -/
theorem cut_cases {d x y t : List α} (h : x ++ y = d ++ sep :: t) :
    (∃ d', d = x ++ d' ∧ y = d' ++ sep :: t) ∨ ∃ x', x = d ++ sep :: x' ∧ t = x' ++ y := by
  rcases List.append_eq_append_iff.mp h with ⟨d', hd, hy⟩ | ⟨x', hx, ht⟩
  · exact .inl ⟨d', hd, hy⟩
  · cases x' with
    | nil => exact .inl ⟨[], by simpa using hx.symm, by simpa using ht.symm⟩
    | cons a x' =>
      obtain ⟨rfl, htail⟩ := List.cons.inj ht
      exact .inr ⟨x', hx, htail⟩

/-- The decimal digits of a number hold no separator that is not a digit. -/
theorem notMem_toDigits {sep : Char} (hsep : sep.isDigit = false) (n : Nat) : sep ∉ Nat.toDigits 10 n := by
  intro hm
  have hd := Nat.isDigit_of_mem_toDigits (by decide) (by decide) hm
  rw [hsep] at hd
  cases hd

theorem toDigits_inj {m n : Nat} (h : Nat.toDigits 10 m = Nat.toDigits 10 n) : m = n := by
  rw [← Nat.ofDigitChars_ten_toDigits (n := m), h, Nat.ofDigitChars_ten_toDigits]

/-- A character that is not a lower case letter is what it was before the case was folded. -/
theorem eq_of_toLower {c d : Char} (hd : ¬ (97 ≤ d.val.toNat ∧ d.val.toNat ≤ 122)) (h : c.toLower = d) : c = d := by
  unfold Char.toLower at h
  split at h
  · rename_i hupper
    have hval : c.val + ('a'.val - 'A'.val) = d.val := congrArg Char.val h
    have hge : 'A'.val.toNat ≤ c.val.toNat := UInt32.le_iff_toNat_le.mp hupper.1
    have hle : c.val.toNat ≤ 'Z'.val.toNat := UInt32.le_iff_toNat_le.mp hupper.2
    have hnat := congrArg UInt32.toNat hval
    rw [UInt32.toNat_add] at hnat
    simp only [show 'A'.val.toNat = 65 from rfl, show 'Z'.val.toNat = 90 from rfl,
      show ('a'.val - 'A'.val).toNat = 32 from rfl] at hge hle hnat
    omega
  · exact h

/-- Folding the case makes no separator. -/
theorem notMem_map_toLower {sep : Char} (hsep : ¬ (97 ≤ sep.val.toNat ∧ sep.val.toNat ≤ 122)) {l : List Char} (h : sep ∉ l) :
    sep ∉ l.map Char.toLower := by
  intro hmem
  obtain ⟨c, hc, hlower⟩ := List.mem_map.mp hmem
  exact h (eq_of_toLower hsep hlower ▸ hc)

/-- What is in a text of fields is in a field or in a separator. -/
theorem mem_intercalate {l : List α} {ls : List (List α)} {y : α} (h : y ∈ l.intercalate ls) : y ∈ l ∨ ∃ f ∈ ls, y ∈ f := by
  induction ls with
  | nil => exact absurd h (by simp)
  | cons f ls ih =>
    cases ls with
    | nil =>
      rw [List.intercalate_singleton] at h
      exact .inr ⟨f, List.mem_cons_self, h⟩
    | cons f' ls =>
      rw [List.intercalate_cons_cons, List.mem_append, List.mem_append] at h
      rcases h with (h | h) | h
      · exact .inr ⟨f, List.mem_cons_self, h⟩
      · exact .inl h
      · rcases ih h with h | ⟨f, hf, hy⟩
        · exact .inl h
        · exact .inr ⟨f, List.mem_cons_of_mem _ hf, hy⟩

/-! ### Splitting at every separator -/

/-- The pieces of a text have no separator in them. -/
theorem eq_false_of_mem_splitOnP {α : Type} {p : α → Bool} {l piece : List α} (h : piece ∈ l.splitOnP p) :
    ∀ y ∈ piece, p y = false := by
  induction l generalizing piece with
  | nil =>
    obtain rfl := List.mem_singleton.mp h
    exact List.forall_mem_nil _
  | cons y l ih =>
    rw [List.splitOnP_cons_eq_if_modifyHead] at h
    split at h
    · rcases List.mem_cons.mp h with rfl | h
      · exact List.forall_mem_nil _
      · exact ih h
    · rename_i hy
      obtain ⟨first, more, hsplit⟩ := List.exists_cons_of_ne_nil (List.splitOnP_ne_nil p l)
      rw [hsplit] at h ih
      rcases List.mem_cons.mp h with rfl | h
      · exact List.forall_mem_cons.mpr ⟨Bool.eq_false_iff.mpr hy, ih List.mem_cons_self⟩
      · exact ih (List.mem_cons_of_mem _ h)

section
variable {α : Type} [DecidableEq α] {x : α} {l piece : List α} {ls : List (List α)}

theorem length_splitOn : (l.splitOn x).length = l.count x + 1 := by
  induction l with
  | nil => rfl
  | cons y l ih =>
    rw [List.splitOn_cons_eq_if_modifyHead, List.count_cons]
    split
    · rw [List.length_cons, ih]
    · rw [List.length_modifyHead, ih, Nat.add_zero]

theorem notMem_of_mem_splitOn (h : piece ∈ l.splitOn x) : x ∉ piece := by
  rw [List.splitOn_eq_splitOnP] at h
  exact fun hx => by simpa using eq_false_of_mem_splitOnP h x hx

/-- Texts with separators between them are taken apart at these and at those inside. -/
theorem splitOn_intercalate_flatMap (h : ls ≠ []) : ([x].intercalate ls).splitOn x = ls.flatMap (·.splitOn x) := by
  induction ls with
  | nil => exact absurd rfl h
  | cons l ls ih =>
    cases ls with
    | nil => simp
    | cons l' ls =>
      rw [List.intercalate_cons_cons, List.append_assoc, List.singleton_append, List.splitOn_append_cons_self,
        ih (List.cons_ne_nil _ _)]
      rfl

/-- As many pieces as texts means that none has a separator. -/
theorem notMem_of_length_flatMap (h : (ls.flatMap (·.splitOn x)).length ≤ ls.length) : ∀ l ∈ ls, x ∉ l := by
  have hle : ∀ ls : List (List α), ls.length ≤ (ls.flatMap (·.splitOn x)).length := by
    intro ls
    induction ls with
    | nil => exact Nat.zero_le _
    | cons l ls ih =>
      rw [List.flatMap_cons, List.length_append, length_splitOn, List.length_cons]
      omega
  induction ls with
  | nil => exact List.forall_mem_nil _
  | cons l ls ih =>
    rw [List.flatMap_cons, List.length_append, length_splitOn, List.length_cons] at h
    have hrest := hle ls
    have hcount : l.count x = 0 := by omega
    exact List.forall_mem_cons.mpr ⟨List.count_eq_zero.mp hcount, ih (by omega)⟩

end

end Fields
