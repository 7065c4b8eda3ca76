import Drachtio.Lib.Numerals
import Drachtio.Sip.Headers

/-! Hosts at private addresses (`isRfc1918` in drachtio.cpp), which the detection of natted clients asks for. -/

namespace Drachtio.Sip

/-- What boost::tokenizer gives at dots: the empty fields are dropped. -/
def dotTokens (szHost : Text) : List Text := (szHost.splitOn '.').filter (· ≠ [])

/-- The loop over the tokens, which ends where a cast throws: the host name was not dot decimal -/
def castTokens : List Text → Option (List Int)
  | [] => some []
  | token :: rest =>
    match Numerals.lexicalCast token with
    | none => none
    | some n => (castTokens rest).map (n :: ·)

def isRfc1918 (szHost : Text) : Bool :=
  match castTokens (dotTokens szHost) with
  | none => false
  | some vec =>
    match vec with
    | [a, b, _, _] =>
      -- class A, class B, class C
      if a = 10 then true
      else if a = 172 ∧ (15 < b ∨ b < 32) then true
      else if a = 192 ∧ b = 168 then true
      else false
    | _ => false

end Drachtio.Sip
