import Drachtio.Blacklist.Addresses
import Drachtio.Lib.Fields

/-! Whether the list of sentinels is read as it is meant. A token that is blank, or whose port is no number, throws; a port
    that is followed by more, signed, or out of range is taken for one. -/

namespace Drachtio.Blacklist

open Numerals (IsNumber value Error)

/-! ### Entries -/

/-- The address and port that a token says -/
def entryOf (token : Text) : Option (Text × Int) :=
  let t := trimBlanks token
  let digits := behindColon t
  if ':' ∈ t ∧ IsNumber digits ∧ value digits ≤ 65535 then some (beforeColon t, (value digits : Int)) else none

/-- What a list of sentinels says -/
def entriesOf (input : Text) : List (Text × Int) := (input.splitOn ',').filterMap entryOf

section
variable {s ip rest token : Text} {port : Int}

theorem beforeColon_append (h : ':' ∉ ip) : beforeColon (ip ++ ':' :: rest) = ip := by
  have hall : ∀ c ∈ ip, decide (c ≠ ':') = true := fun c hc => decide_eq_true fun heq => h (heq ▸ hc)
  unfold beforeColon
  rw [List.takeWhile_append_of_pos hall, List.takeWhile_cons_of_neg (by simp), List.append_nil]

theorem behindColon_append (h : ':' ∉ ip) : behindColon (ip ++ ':' :: rest) = rest := by
  have hall : ∀ c ∈ ip, decide (c ≠ ':') = true := fun c hc => decide_eq_true fun heq => h (heq ▸ hc)
  unfold behindColon
  rw [List.dropWhile_append_of_pos hall, List.dropWhile_cons_of_neg (by simp), List.tail_cons]

theorem colon_notMem_beforeColon : ':' ∉ beforeColon s := fun h => by simpa using List.mem_takeWhile_imp h

theorem eq_of_colon (h : ':' ∈ s) : s = beforeColon s ++ ':' :: behindColon s := by
  obtain ⟨ip, rest, rfl, hip⟩ := List.eq_append_cons_of_mem h
  rw [beforeColon_append hip, behindColon_append hip]

/-- A token says an address and a port when it is these with a colon between them, the port in digits and in range. -/
theorem entryOf_eq_some : entryOf token = some (ip, port) ↔ ∃ digits, trimBlanks token = ip ++ ':' :: digits ∧ ':' ∉ ip ∧
    IsNumber digits ∧ (value digits : Int) = port ∧ port ≤ 65535 := by
  constructor
  · intro h
    obtain ⟨⟨hcolon, hnumber, hle⟩, hentry⟩ := Option.ite_none_right_eq_some.mp h
    cases hentry
    exact ⟨_, eq_of_colon hcolon, colon_notMem_beforeColon, hnumber, rfl, by omega⟩
  · rintro ⟨digits, htoken, hip, hnumber, rfl, hle⟩
    unfold entryOf
    dsimp only
    rw [htoken, beforeColon_append hip, behindColon_append hip]
    exact if_pos ⟨by simp, hnumber, by omega⟩

/-! ### Tokens -/

/-- A token that is not blank, with a port behind its first colon if it has one -/
def Readable (token : Text) : Prop :=
  (∃ c ∈ token, isBlank c = false) ∧ (':' ∈ trimBlanks token →
    IsNumber (behindColon (trimBlanks token)) ∧ value (behindColon (trimBlanks token)) ≤ 65535)

theorem parseToken_readable (h : Readable token) : parseToken token = .ok (entryOf token) := by
  obtain ⟨⟨c, hc, hblank⟩, hport⟩ := h
  have hnot : ¬token.all isBlank = true := fun hall => by
    rw [List.all_eq_true.mp hall c hc] at hblank
    cases hblank
  unfold parseToken trimToken entryOf
  rw [if_neg hnot]
  dsimp only
  by_cases hcolon : ':' ∈ trimBlanks token
  · obtain ⟨hnumber, hle⟩ := hport hcolon
    rw [if_pos hcolon, Numerals.stoi_number hnumber (by omega), if_pos ⟨hcolon, hnumber, hle⟩]
  · rw [if_neg hcolon, if_neg fun h => hcolon h.1]

/-- A token that is read says the entry that is made of it, or it says none and is not readable. -/
theorem parseToken_cases {entry : Option (Text × Int)} (h : parseToken token = .ok entry) :
    Readable token ∧ entry = entryOf token ∨ ¬Readable token ∧ entryOf token = none ∧ entry.isSome = true := by
  by_cases hread : Readable token
  · rw [parseToken_readable hread] at h
    cases h
    exact .inl ⟨hread, rfl⟩
  · refine .inr ⟨hread, ?_⟩
    unfold parseToken trimToken at h
    by_cases hall : token.all isBlank = true
    · rw [if_pos hall] at h
      cases h
    · rw [if_neg hall] at h
      dsimp only at h
      have hblank : ∃ c ∈ token, isBlank c = false := by
        simpa [List.all_eq_true] using hall
      have hcolon : ':' ∈ trimBlanks token := by
        by_contra hcolon
        exact hread ⟨hblank, fun h => absurd h hcolon⟩
      have hnone : entryOf token = none := if_neg fun hentry => hread ⟨hblank, fun _ => hentry.2⟩
      rw [if_pos hcolon] at h
      cases hstoi : Numerals.stoi (behindColon (trimBlanks token)) with
      | error e =>
        rw [hstoi] at h
        cases h
      | ok port =>
        rw [hstoi] at h
        cases h
        exact ⟨hnone, rfl⟩

end

section
variable {token : Text} {rest : List Text} {entries : List (Text × Int)}

theorem parseTokens_cons : parseTokens (token :: rest) = .ok entries ↔
    ∃ entry more, parseToken token = .ok entry ∧ parseTokens rest = .ok more ∧ entries = entry.toList ++ more := by
  rw [parseTokens]
  cases parseToken token with
  | error e => simp
  | ok entry =>
    cases parseTokens rest with
    | error e => simp
    | ok more => simp [eq_comm]

theorem filterMap_entryOf_cons : (token :: rest).filterMap entryOf = (entryOf token).toList ++ rest.filterMap entryOf := by
  cases h : entryOf token with
  | none => rw [List.filterMap_cons_none h]; rfl
  | some entry => rw [List.filterMap_cons_some h]; rfl

/-- At least what the tokens say is read of them, or something is thrown. -/
theorem length_parseTokens (h : parseTokens rest = .ok entries) : (rest.filterMap entryOf).length ≤ entries.length := by
  induction rest generalizing entries with
  | nil => exact Nat.zero_le _
  | cons token rest ih =>
    obtain ⟨entry, more, htoken, hrest, rfl⟩ := parseTokens_cons.mp h
    have hmore := ih hrest
    rw [filterMap_entryOf_cons, List.length_append, List.length_append]
    rcases parseToken_cases htoken with ⟨-, rfl⟩ | ⟨-, hnone, hsome⟩
    · omega
    · rw [hnone, Option.toList_none, List.length_nil]
      omega

theorem parseTokens_iff : parseTokens rest = .ok (rest.filterMap entryOf) ↔ ∀ token ∈ rest, Readable token := by
  induction rest with
  | nil => exact iff_of_true rfl (List.forall_mem_nil _)
  | cons token rest ih =>
    rw [List.forall_mem_cons, ← ih, filterMap_entryOf_cons, parseTokens_cons]
    constructor
    · rintro ⟨entry, more, htoken, hrest, heq⟩
      rcases parseToken_cases htoken with ⟨hread, rfl⟩ | ⟨-, hnone, hsome⟩
      · rw [List.append_cancel_left heq]
        exact ⟨hread, hrest⟩
      · -- One entry too many has been read.
        obtain ⟨e, rfl⟩ := Option.isSome_iff_exists.mp hsome
        have hlen := length_parseTokens hrest
        rw [hnone] at heq
        have heq' := congrArg List.length heq
        simp only [Option.toList_none, Option.toList_some, List.nil_append, List.length_append, List.length_singleton] at heq'
        omega
    · rintro ⟨hread, hrest⟩
      exact ⟨_, _, parseToken_readable hread, hrest, rfl⟩

end

/-- Nothing is said behind a last comma. -/
theorem filterMap_tokens (input : Text) : (tokens input).filterMap entryOf = entriesOf input := by
  unfold tokens entriesOf
  dsimp only
  split
  · rename_i hlast
    have hsplit : (input.splitOn ',').dropLast ++ [[]] = input.splitOn ',' := List.dropLast_append_getLast? _ hlast
    conv_rhs => rw [← hsplit, List.filterMap_append]
    have hnil : [([] : Text)].filterMap entryOf = [] := by decide
    rw [hnil, List.append_nil]
  · rfl

theorem parseAddress_printed (ip : Text) (port : UInt32) (h : ':' ∉ ip) :
    parseAddress (ip ++ ':' :: Nat.toDigits 10 port.toNat) = .ok (ip, port) := by
  have hlt := port.toNat_lt
  have hcolon : ':' ∈ ip ++ ':' :: Nat.toDigits 10 port.toNat := by simp
  have hstoul : Numerals.stoul (Nat.toDigits 10 port.toNat) = .ok (UInt64.ofNat port.toNat) := by
    have h := Numerals.stoul_number (Numerals.isNumber_toDigits (n := port.toNat)) (by rw [Numerals.value_toDigits]; omega)
    rwa [Numerals.value_toDigits] at h
  unfold parseAddress
  rw [if_pos hcolon, behindColon_append h, beforeColon_append h, hstoul]
  dsimp only
  rw [UInt64.toUInt32_ofNat', UInt32.ofNat_toNat]

/-- A list of sentinels is read as it is meant exactly when all its tokens are readable; a single address always is. -/
theorem sentinels_read_iff (input : Text) :
    (parseIpPort input = .ok (entriesOf input) ∧
      ∀ ip (port : UInt32), ':' ∉ ip → parseAddress (ip ++ ':' :: Nat.toDigits 10 port.toNat) = .ok (ip, port)) ↔
    ∀ token ∈ tokens input, Readable token := by
  rw [and_iff_left parseAddress_printed, ← filterMap_tokens]
  exact parseTokens_iff

/-- A stray comma ends in an exception. -/
theorem stray_comma : ¬ ∀ input, parseIpPort input = .ok (entriesOf input) := by
  intro h
  exact absurd (h "10.0.0.1:26379,,10.0.0.2:26379".toList) (by decide)

end Drachtio.Blacklist
