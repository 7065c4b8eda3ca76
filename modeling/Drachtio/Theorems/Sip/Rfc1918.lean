import Drachtio.Sip.Rfc1918
import Drachtio.Lib.Fields

/-! Which hosts count as private. The dots that make no field, the signs and the ranges of the numbers are not looked at,
    and every second number will do behind 172. -/

namespace Drachtio.Sip

open Numerals (IsNumber InInt value withSign splitSign lexicalCast lexicalCast_number)

/-- A decimal octet -/
def IsOctet (f : Text) : Prop := IsNumber f ∧ value f ≤ 255

/-- The ranges 10/8, 172.16/12 and 192.168/16, by the first two octets -/
def InPrivateRange (a b : Nat) : Prop := a = 10 ∨ a = 172 ∧ 16 ≤ b ∧ b ≤ 31 ∨ a = 192 ∧ b = 168

instance (a b : Nat) : Decidable (InPrivateRange a b) := inferInstanceAs (Decidable (_ ∨ _))

/-- A dotted quad at a private address -/
def IsPrivate (s : Text) : Prop :=
  ∃ a b c d : Text, s = a ++ '.' :: (b ++ '.' :: (c ++ '.' :: d)) ∧ IsOctet a ∧ IsOctet b ∧ IsOctet c ∧ IsOctet d ∧
    InPrivateRange (value a) (value b)

/-- The fields of a host that are not empty are four numbers, and the first two are compared with success. -/
structure Taken (s : Text) (a b : Int) : Prop where
  numbers : ∃ c d, castTokens (dotTokens s) = some [a, b, c, d]
  compared : a = 10 ∨ a = 172 ∨ a = 192 ∧ b = 168

section
variable {s f a b c d : Text}

theorem IsOctet.dot_notMem (h : IsOctet f) : '.' ∉ f := fun hm => absurd (h.1.2 '.' hm) (by decide)

theorem IsOctet.cast (h : IsOctet f) : lexicalCast f = some (value f : Int) :=
  lexicalCast_number h.1 (h.2.trans (by decide))

theorem length_castTokens {tokens : List Text} {vec : List Int} (h : castTokens tokens = some vec) :
    vec.length = tokens.length := by
  induction tokens generalizing vec with
  | nil =>
    cases h
    rfl
  | cons token rest ih =>
    rw [castTokens] at h
    split at h
    · cases h
    · obtain ⟨more, hrest, rfl⟩ := Option.map_eq_some_iff.mp h
      rw [List.length_cons, List.length_cons, ih hrest]

theorem isRfc1918_iff : isRfc1918 s = true ↔ ∃ a b, Taken s a b := by
  constructor
  · intro h
    unfold isRfc1918 at h
    split at h
    · cases h
    · rename_i vec hvec
      split at h
      · rename_i a b c d
        refine ⟨a, b, ⟨c, d, hvec⟩, ?_⟩
        by_cases ha : a = 10
        · exact .inl ha
        · rw [if_neg ha] at h
          by_cases hb : a = 172
          · exact .inr (.inl hb)
          · rw [if_neg fun h => hb h.1, ite_eq_left_iff] at h
            exact .inr (.inr (by simpa using h))
      · cases h
  · rintro ⟨a, b, ⟨c, d, hvec⟩, hcompared⟩
    have hrange : 15 < b ∨ b < 32 := by omega
    unfold isRfc1918
    rw [hvec]
    dsimp only
    rcases hcompared with rfl | rfl | ⟨rfl, rfl⟩
    · rfl
    · rw [if_neg (by decide), if_pos ⟨rfl, hrange⟩]
    · rfl

theorem splitOn_quad (ha : '.' ∉ a) (hb : '.' ∉ b) (hc : '.' ∉ c) (hd : '.' ∉ d) :
    (a ++ '.' :: (b ++ '.' :: (c ++ '.' :: d))).splitOn '.' = [a, b, c, d] := by
  have hquad : a ++ '.' :: (b ++ '.' :: (c ++ '.' :: d)) = ['.'].intercalate [a, b, c, d] := by simp
  rw [hquad]
  refine List.splitOn_intercalate _ ?_ (List.cons_ne_nil _ _)
  simp only [List.forall_mem_cons]
  exact ⟨ha, hb, hc, hd, List.forall_mem_nil _⟩

theorem taken_quad {x y : Int} (ha : IsOctet a) (hb : IsOctet b) (hc : IsOctet c) (hd : IsOctet d)
    (hs : s.splitOn '.' = [a, b, c, d]) :
    Taken s x y ↔ x = value a ∧ y = value b ∧ (value a = 10 ∨ value a = 172 ∨ value a = 192 ∧ value b = 168) := by
  have hcast : castTokens (dotTokens s) = some [(value a : Int), (value b : Int), (value c : Int), (value d : Int)] := by
    unfold dotTokens
    rw [hs]
    simp [castTokens, ha.1.1, hb.1.1, hc.1.1, hd.1.1, ha.cast, hb.cast, hc.cast, hd.cast]
  constructor
  · rintro ⟨⟨z, w, hvec⟩, hcompared⟩
    rw [hcast] at hvec
    cases hvec
    exact ⟨rfl, rfl, by omega⟩
  · rintro ⟨rfl, rfl, hcompared⟩
    exact ⟨⟨_, _, hcast⟩, by omega⟩

/-- The tokens of a host that is taken without empty fields are its four fields. -/
theorem Taken.quad {x y : Int} (h : Taken s x y) (hall : ∀ f ∈ s.splitOn '.', f ≠ []) :
    ∃ a b c d, s.splitOn '.' = [a, b, c, d] ∧ s = a ++ '.' :: (b ++ '.' :: (c ++ '.' :: d)) := by
  obtain ⟨⟨z, w, hvec⟩, -⟩ := h
  have htokens : dotTokens s = s.splitOn '.' := List.filter_eq_self.mpr fun f hf => decide_eq_true (hall f hf)
  rw [htokens] at hvec
  have hlen : (s.splitOn '.').length = 4 := by
    rw [← length_castTokens hvec]
    rfl
  obtain ⟨a, b, c, d, hfields⟩ : ∃ a b c d, s.splitOn '.' = [a, b, c, d] := by
    match hfields : s.splitOn '.', hlen with
    | [a, b, c, d], _ => exact ⟨a, b, c, d, rfl⟩
  have hs : ['.'].intercalate (s.splitOn '.') = s := List.intercalate_splitOn '.'
  rw [hfields] at hs
  exact ⟨a, b, c, d, hfields, by simpa using hs.symm⟩

end

/-- A host is judged right exactly when it is not taken, or all its fields are octets and the second one is in the range
    that belongs to 172. -/
theorem private_judged_iff (s : Text) : (isRfc1918 s = true ↔ IsPrivate s) ↔
    ∀ a b, Taken s a b → (∀ f ∈ s.splitOn '.', IsOctet f) ∧ (a = 172 → 16 ≤ b ∧ b ≤ 31) := by
  constructor
  · intro h a b htaken
    obtain ⟨fa, fb, fc, fd, hs, ha, hb, hc, hd, hrange⟩ := h.mp (isRfc1918_iff.mpr ⟨a, b, htaken⟩)
    have hfields : s.splitOn '.' = [fa, fb, fc, fd] :=
      hs ▸ splitOn_quad ha.dot_notMem hb.dot_notMem hc.dot_notMem hd.dot_notMem
    obtain ⟨rfl, rfl, -⟩ := (taken_quad ha hb hc hd hfields).mp htaken
    constructor
    · rw [hfields]
      simp only [List.forall_mem_cons]
      exact ⟨ha, hb, hc, hd, List.forall_mem_nil _⟩
    · intro hclassB
      rcases hrange with hrange | hrange | hrange <;> omega
  · intro h
    rw [isRfc1918_iff]
    constructor
    · rintro ⟨a, b, htaken⟩
      obtain ⟨hoctets, hclassB⟩ := h a b htaken
      obtain ⟨fa, fb, fc, fd, hfields, hs⟩ := htaken.quad fun f hf => (hoctets f hf).1.1
      rw [hfields] at hoctets
      simp only [List.forall_mem_cons] at hoctets
      obtain ⟨ha, hb, hc, hd, -⟩ := hoctets
      obtain ⟨rfl, rfl, hcompared⟩ := (taken_quad ha hb hc hd hfields).mp htaken
      refine ⟨fa, fb, fc, fd, hs, ha, hb, hc, hd, ?_⟩
      unfold InPrivateRange
      omega
    · rintro ⟨fa, fb, fc, fd, hs, ha, hb, hc, hd, hrange⟩
      have hfields : s.splitOn '.' = [fa, fb, fc, fd] :=
        hs ▸ splitOn_quad ha.dot_notMem hb.dot_notMem hc.dot_notMem hd.dot_notMem
      exact ⟨value fa, value fb, (taken_quad ha hb hc hd hfields).mpr ⟨rfl, rfl, by unfold InPrivateRange at hrange; omega⟩⟩

/-- A public address in 172/8 counts as private. -/
theorem public_taken : ¬ ∀ s, isRfc1918 s = true ↔ IsPrivate s := by
  intro h
  obtain ⟨a, b, c, d, hs, ha, hb, hc, hd, hrange⟩ := (h "172.99.1.1".toList).mp (by decide)
  have hfields : "172.99.1.1".toList.splitOn '.' = [a, b, c, d] :=
    hs ▸ splitOn_quad ha.dot_notMem hb.dot_notMem hc.dot_notMem hd.dot_notMem
  have hsplit : "172.99.1.1".toList.splitOn '.' = ["172".toList, "99".toList, "1".toList, "1".toList] := by decide
  rw [hsplit] at hfields
  cases hfields
  exact absurd hrange (by decide)

end Drachtio.Sip
