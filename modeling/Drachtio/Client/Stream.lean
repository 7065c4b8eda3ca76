import Drachtio.Client.Framing

/-! What the bytes from an application say, whatever reads they arrive in: whole messages, and behind the
    last of them a length specifier or a part of a message. The reader of client.cpp is not used here. -/

namespace Drachtio.Client

/-- The number that some digits write. -/
def value (ds : List UInt8) : Nat := Nat.ofDigitChars 10 (ds.map fun b => Char.ofNat b.toNat) 0

/-- How the bytes at a message boundary begin. -/
inductive Specifier where
  /-- At most five digits, and nothing behind them yet. -/
  | unfinished
  /-- The length of a message, and what follows the `#`. -/
  | length (n : Nat) (rest : List UInt8)
  /-- A byte that is neither a digit nor the `#`, or a sixth digit. -/
  | invalid
  /-- No digits before the `#`. -/
  | empty
  /-- A length of zero, and what follows the `#`. -/
  | zero (rest : List UInt8)
deriving DecidableEq, Repr

def specifier (bs : List UInt8) : Specifier :=
  let ds := bs.takeWhile isdigit
  if 6 ≤ ds.length then .invalid
  else
    match bs.dropWhile isdigit with
    | [] => .unfinished
    | c :: rest =>
      if c ≠ hash then .invalid
      else if ds = [] then .empty
      else if value ds = 0 then .zero rest
      else .length (value ds) rest

def Specifier.malformed : Specifier → Bool
  | .unfinished | .length _ _ => false
  | .invalid | .empty | .zero _ => true

theorem specifier_rest {bs rest : List UInt8} {n : Nat} (h : specifier bs = .length n rest) : rest.length < bs.length := by
  have hle := (List.dropWhile_sublist isdigit (l := bs)).length_le
  unfold specifier at h
  dsimp only at h
  split at h
  · cases h
  · split at h
    · cases h
    · rename_i c rest' hdrop
      rw [hdrop, List.length_cons] at hle
      split at h
      · cases h
      · split at h
        · cases h
        · split at h
          · cases h
          · obtain ⟨-, rfl⟩ := Specifier.length.inj h
            omega

/-- The whole messages of some bytes, and the bytes behind the last of them. -/
def messages (bs : List UInt8) : List (List UInt8) × List UInt8 :=
  match _h : specifier bs with
  | .length n rest =>
    if n ≤ rest.length then
      let (ms, tail) := messages (rest.drop n)
      (rest.take n :: ms, tail)
    else ([], bs)
  | _ => ([], bs)
termination_by bs.length
decreasing_by
  have hlt := specifier_rest _h
  rw [List.length_drop]
  omega

/-- A message behind a length specifier that the reader accepts. -/
structure Frame where
  digits : List UInt8
  body : List UInt8
  isdigits : ∀ b ∈ digits, isdigit b = true
  short : digits.length ≤ 5
  length : value digits = body.length
  nonempty : body ≠ []

namespace Frame

def bytes (f : Frame) : List UInt8 := f.digits ++ hash :: f.body

/-- The stream that some frames make. -/
def stream (fs : List Frame) : List UInt8 := (fs.map bytes).flatten

end Frame

end Drachtio.Client
