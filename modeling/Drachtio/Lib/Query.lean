import Drachtio.Lib.Fields
import Mathlib.Data.List.TakeWhile

/-! Query strings: fields `name=value` with `&` between them, whose texts may hold percent escapes. -/

namespace Query

abbrev Bytes := List UInt8

def ampersand : UInt8 := 38

def equals : UInt8 := 61

def percent : UInt8 := 37

/-! ### Percent escapes -/

def hexValue (b : UInt8) : Option UInt8 :=
  if 48 ≤ b ∧ b ≤ 57 then some (b - 48)
  else if 97 ≤ b ∧ b ≤ 102 then some (b - 87)
  else if 65 ≤ b ∧ b ≤ 70 then some (b - 55)
  else none

/-- The byte that an escape stands for -/
def unescape (b high low : UInt8) : Option UInt8 :=
  if b = percent then
    match hexValue high, hexValue low with
    | some h, some l => some (16 * h + l)
    | _, _ => none
  else none

/-- What is no escape stands for itself. -/
def percentDecode : Bytes → Bytes
  | b :: high :: low :: rest =>
    match unescape b high low with
    | some c => c :: percentDecode rest
    | none => b :: percentDecode (high :: low :: rest)
  | [b, c] => [b, c]
  | [b] => [b]
  | [] => []

/-- Somewhere in the text there is an escape. -/
def HasEscape (s : Bytes) : Prop := ∃ before b high low after, s = before ++ b :: high :: low :: after ∧
    unescape b high low ≠ none

variable {b high low c : UInt8} {s rest : Bytes}

theorem percentDecode_cons (h : b ≠ percent) : percentDecode (b :: rest) = b :: percentDecode rest := by
  rcases rest with _ | ⟨high, _ | ⟨low, rest⟩⟩
  · rfl
  · rfl
  · have hnone : unescape b high low = none := if_neg h
    rw [percentDecode, hnone]

theorem percentDecode_escape (h : unescape b high low = some c) :
    percentDecode (b :: high :: low :: rest) = c :: percentDecode rest := by
  rw [percentDecode, h]

theorem length_percentDecode_le : (percentDecode s).length ≤ s.length := by
  fun_induction percentDecode s with
  | case1 b high low rest c hc ih =>
    simp only [List.length_cons]
    omega
  | case2 b high low rest hnone ih => exact Nat.succ_le_succ ih
  | case3 => exact le_rfl
  | case4 => exact le_rfl
  | case5 => exact le_rfl

theorem HasEscape.length_le (h : HasEscape s) : 3 ≤ s.length := by
  obtain ⟨before, b, high, low, after, rfl, -⟩ := h
  simp only [List.length_append, List.length_cons]
  omega

theorem HasEscape.length_lt (h : HasEscape s) : (percentDecode s).length < s.length := by
  fun_induction percentDecode s with
  | case1 b high low rest c hc ih =>
    have hle := length_percentDecode_le (s := rest)
    simp only [List.length_cons]
    omega
  | case2 b high low rest hnone ih =>
    obtain ⟨before, b', high', low', after, hs, hescape⟩ := h
    cases before with
    | nil =>
      obtain ⟨rfl, rfl, rfl, rfl⟩ := by simpa using hs
      exact absurd hnone hescape
    | cons x before => exact Nat.succ_lt_succ (ih ⟨before, b', high', low', after, (List.cons.inj hs).2, hescape⟩)
  | case3 => exact absurd h.length_le (by simp)
  | case4 => exact absurd h.length_le (by simp)
  | case5 => exact absurd h.length_le (by simp)

/-- A text is its own decoding when there is no escape in it. -/
theorem percentDecode_eq_self_iff : percentDecode s = s ↔ ¬HasEscape s := by
  constructor
  · intro h hescape
    have hshort := hescape.length_lt
    rw [h] at hshort
    exact absurd hshort (lt_irrefl _)
  · intro h
    fun_induction percentDecode s with
    | case1 b high low rest c hc ih => exact absurd ⟨[], b, high, low, rest, rfl, hc ▸ Option.some_ne_none c⟩ h
    | case2 b high low rest hnone ih =>
      rw [ih]
      rintro ⟨before, b', high', low', after, hs, hescape⟩
      exact h ⟨b :: before, b', high', low', after, congrArg (b :: ·) hs, hescape⟩
    | case3 => rfl
    | case4 => rfl
    | case5 => rfl

/-- An encoding of single bytes that the decoder undoes one after the other. -/
theorem percentDecode_flatMap {enc : UInt8 → Bytes} (henc : ∀ b rest, percentDecode (enc b ++ rest) = b :: percentDecode rest)
    (s : Bytes) : percentDecode (s.flatMap enc) = s := by
  induction s with
  | nil => rfl
  | cons b s ih => rw [List.flatMap_cons, henc, ih]

/-! ### Fields -/

def field (enc : Bytes → Bytes) (p : Bytes × Bytes) : Bytes := p.1 ++ equals :: enc p.2

/-- The fields of pairs whose names stand as they are -/
def print (enc : Bytes → Bytes) (v : List (Bytes × Bytes)) : Bytes := [ampersand].intercalate (v.map (field enc))

/-- A field is split at its first `=`. -/
def parseField (f : Bytes) : Bytes × Bytes :=
  (percentDecode (f.takeWhile (· ≠ equals)), percentDecode (f.dropWhile (· ≠ equals)).tail)

def parse (q : Bytes) : List (Bytes × Bytes) := (q.splitOn ampersand).map parseField

section
variable {enc : Bytes → Bytes} {v : List (Bytes × Bytes)}

theorem parseField_field {p : Bytes × Bytes} (h : equals ∉ p.1) :
    parseField (field enc p) = (percentDecode p.1, percentDecode (enc p.2)) := by
  have hall : ∀ b ∈ p.1, decide (b ≠ equals) = true := fun b hb => decide_eq_true fun heq => h (heq ▸ hb)
  unfold parseField field
  rw [List.takeWhile_append_of_pos hall, List.dropWhile_append_of_pos hall, List.takeWhile_cons_of_neg (by simp),
    List.dropWhile_cons_of_neg (by simp), List.append_nil, List.tail_cons]

/-- The pairs are read back exactly when no name has a separator in it and all texts are decoded to what they were. -/
theorem parse_print_iff (henc : ∀ s, ampersand ∉ enc s) (hnames : ∀ p ∈ v, equals ∉ p.1) (hne : v ≠ []) :
    parse (print enc v) = v ↔
      ∀ p ∈ v, ampersand ∉ p.1 ∧ percentDecode p.1 = p.1 ∧ percentDecode (enc p.2) = p.2 := by
  have hfields : v.map (field enc) ≠ [] := fun h => hne (List.map_eq_nil_iff.mp h)
  have hfield : ∀ p : Bytes × Bytes, ampersand ∉ field enc p ↔ ampersand ∉ p.1 := by
    intro p
    have hequals : ampersand ≠ equals := by decide
    simp [field, henc, hequals]
  have hmap : (∀ p ∈ v, ampersand ∉ p.1) →
      (parse (print enc v) = v ↔ ∀ p ∈ v, percentDecode p.1 = p.1 ∧ percentDecode (enc p.2) = p.2) := by
    intro hamp
    have hsplit : (print enc v).splitOn ampersand = v.map (field enc) :=
      List.splitOn_intercalate _ (List.forall_mem_map.mpr fun p hp => (hfield p).mpr (hamp p hp)) hfields
    have hself : v.map (parseField ∘ field enc) = v.map id ↔
        ∀ p ∈ v, percentDecode p.1 = p.1 ∧ percentDecode (enc p.2) = p.2 := by
      rw [List.map_inj_left]
      refine forall₂_congr fun p hp => ?_
      rw [Function.comp_apply, parseField_field (hnames p hp), id, Prod.ext_iff]
    rw [List.map_id] at hself
    unfold parse
    rw [hsplit, List.map_map, hself]
  constructor
  · intro h
    have hlen := congrArg List.length h
    unfold parse print at hlen
    rw [List.length_map, Fields.splitOn_intercalate_flatMap hfields] at hlen
    have hamp : ∀ p ∈ v, ampersand ∉ p.1 := by
      have hpieces := Fields.notMem_of_length_flatMap (hlen.le.trans (List.length_map _).ge)
      exact fun p hp => (hfield p).mp (hpieces _ (List.mem_map_of_mem hp))
    exact fun p hp => ⟨hamp p hp, (hmap hamp).mp h p hp⟩
  · intro h
    exact (hmap fun p hp => (h p hp).1).mpr fun p hp => (h p hp).2

end

end Query
