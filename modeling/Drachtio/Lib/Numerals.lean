import Mathlib.Data.List.TakeWhile

/-! Decimal numerals as the C and C++ libraries read them (`strtol` and what is built on it, boost::lexical_cast), and what
    they make of a numeral that is nothing but digits. -/

namespace Numerals

/-- The value of some digits -/
def value (digits : List Char) : Nat := Nat.ofDigitChars 10 digits 0

/-- Nothing but digits, and at least one -/
def IsNumber (s : List Char) : Prop := s ≠ [] ∧ ∀ c ∈ s, c.isDigit = true

instance (s : List Char) : Decidable (IsNumber s) :=
  decidable_of_iff (s ≠ [] ∧ s.all Char.isDigit = true) (and_congr_right fun _ => List.all_eq_true)

def isSpace (c : Char) : Bool := decide (c ∈ [' ', '\t', '\n', '\x0b', '\x0c', '\r'])

/-- A sign, if there is one: whether it is a minus, and what is behind it -/
def splitSign : List Char → Bool × List Char
  | '-' :: s => (true, s)
  | '+' :: s => (false, s)
  | s => (false, s)

def withSign (negative : Bool) (n : Nat) : Int := if negative = true then -n else n

/-- What `strtol` converts at base 10, if there is anything: spaces, a sign and digits, whatever follows -/
def scan (s : List Char) : Option Int :=
  let (negative, s) := splitSign (s.dropWhile isSpace)
  let digits := s.takeWhile Char.isDigit
  if digits = [] then none else some (withSign negative (value digits))

/-- What a conversion throws -/
inductive Error where
  | invalidArgument | outOfRange
deriving DecidableEq, Repr

/-- The values of a 32 bit `int` -/
def InInt (z : Int) : Prop := -2147483648 ≤ z ∧ z ≤ 2147483647

instance (z : Int) : Decidable (InInt z) := inferInstanceAs (Decidable (_ ∧ _))

/-- std::stoi -/
def stoi (s : List Char) : Except Error Int :=
  match scan s with
  | none => .error .invalidArgument
  | some z => if InInt z then .ok z else .error .outOfRange

/-- std::stoul with 64 bits, which negates behind a minus -/
def stoul (s : List Char) : Except Error UInt64 :=
  match scan s with
  | none => .error .invalidArgument
  | some z => if z.natAbs < 18446744073709551616 then .ok (UInt64.ofInt z) else .error .outOfRange

/-- As glibc has it, the `int` that the `long` of `strtol` is cut to -/
def atoi (s : List Char) : Int32 :=
  Int32.ofInt (max (-9223372036854775808) (min 9223372036854775807 ((scan s).getD 0)))

/-- boost::lexical_cast to an `int`, none where it throws: the whole text is a numeral. -/
def lexicalCast (s : List Char) : Option Int :=
  let (negative, digits) := splitSign s
  if IsNumber digits ∧ InInt (withSign negative (value digits)) then some (withSign negative (value digits)) else none

section
variable {s : List Char} {n : Nat}

theorem isNumber_toDigits : IsNumber (Nat.toDigits 10 n) :=
  ⟨Nat.toDigits_ne_nil, fun _ hc => Nat.isDigit_of_mem_toDigits (by decide) (by decide) hc⟩

@[simp] theorem value_toDigits : value (Nat.toDigits 10 n) = n := Nat.ofDigitChars_ten_toDigits

theorem splitSign_number (h : IsNumber s) : splitSign s = (false, s) := by
  unfold splitSign
  split
  · exact absurd (h.2 '-' List.mem_cons_self) (by decide)
  · exact absurd (h.2 '+' List.mem_cons_self) (by decide)
  · rfl

theorem scan_number (h : IsNumber s) : scan s = some (value s : Int) := by
  have hspaces : s.dropWhile isSpace = s := by
    obtain ⟨c, s, rfl⟩ := List.exists_cons_of_ne_nil h.1
    refine List.dropWhile_cons_of_neg fun hc => ?_
    have hdigit := h.2 c List.mem_cons_self
    have hspace : c ∈ [' ', '\t', '\n', '\x0b', '\x0c', '\r'] := of_decide_eq_true hc
    simp only [List.mem_cons, List.not_mem_nil, or_false] at hspace
    rcases hspace with rfl | rfl | rfl | rfl | rfl | rfl <;> cases hdigit
  have hdigits : s.takeWhile Char.isDigit = s := List.takeWhile_eq_self_iff.mpr h.2
  unfold scan
  rw [hspaces, splitSign_number h]
  dsimp only
  rw [hdigits, if_neg h.1]
  rfl

theorem stoi_number (h : IsNumber s) (hint : value s ≤ 2147483647) : stoi s = .ok (value s) := by
  unfold stoi
  rw [scan_number h]
  exact if_pos ⟨by omega, by omega⟩

theorem stoul_number (h : IsNumber s) (hlong : value s < 18446744073709551616) :
    stoul s = .ok (UInt64.ofNat (value s)) := by
  have hmod : ((value s : Int) % 2 ^ 64).toNat = value s := by omega
  unfold stoul
  rw [scan_number h]
  dsimp only
  rw [if_pos (by rwa [Int.natAbs_natCast]), UInt64.ofInt, hmod]

theorem atoi_number (h : IsNumber s) (hint : value s ≤ 2147483647) : atoi s = Int32.ofInt (value s) := by
  have hclamp : max (-9223372036854775808) (min 9223372036854775807 (value s : Int)) = value s := by omega
  unfold atoi
  rw [scan_number h, Option.getD_some, hclamp]

theorem lexicalCast_number (h : IsNumber s) (hint : value s ≤ 2147483647) : lexicalCast s = some (value s : Int) := by
  unfold lexicalCast
  rw [splitSign_number h]
  exact if_pos ⟨h, by unfold withSign InInt; simp; omega⟩

end

end Numerals
