import Drachtio.Lib.Backtrack
import Drachtio.Sip.Headers

/-! SIP URIs (`parseSipUri` in drachtio.cpp): two regular expressions, of which the second one is for hosts in brackets,
    and the parameters. -/

namespace Drachtio.Sip

open Pattern (text many1 opt either eos)

structure SipUri where
  scheme : Text
  userpart : Text
  hostpart : Text
  port : Text
  params : List (Text × Text)
deriving DecidableEq, Repr

/-- `[^;|^>|^:]` -/
def isHostChar (c : Char) : Bool := decide (c ∉ [';', '|', '^', '>', ':'])

/-- `[0-9a-fA-F:]` -/
def isHexOrColon (c : Char) : Bool :=
  c.isDigit || (decide ('a' ≤ c) && decide (c ≤ 'f')) || (decide ('A' ≤ c) && decide (c ≤ 'F')) || c == ':'

/-- `([^;|^>|^:]+)` -/
def hostName : Pattern Char Text := many1 isHostChar

/-- `(\[[0-9a-fA-F:]+\])` -/
def hostBracketed : Pattern Char Text := do
  text ['[']
  let address ← many1 isHexOrColon
  text [']']
  return '[' :: address ++ [']']

/-- A parameter has a value if there is one `=` in it. -/
def paramPair (it : Text) : Text × Text :=
  let kv := it.splitOn '='
  (kv.headD [], if kv.length = 2 then kv.getD 1 [] else [])

def splitParams (paramString : Text) : List (Text × Text) :=
  if paramString = [] then [] else (paramString.splitOn ';').map paramPair

/-- `^<?(sip|sips):(?:([^;]+)@)?` host `(?::(\d+))?(?:;([^>]+))?>?$`; a group that takes no part in the match is empty. -/
def sipUri (host : Pattern Char Text) : Pattern Char SipUri := do
  let _ ← opt (text ['<'])
  let scheme ← either (do text "sip".toList; return "sip".toList) (do text "sips".toList; return "sips".toList)
  text [':']
  let userpart ← opt (do
    let userpart ← many1 (· ≠ ';')
    text ['@']
    return userpart)
  let hostpart ← host
  let port ← opt (do
    text [':']
    many1 Char.isDigit)
  let paramString ← opt (do
    text [';']
    many1 (· ≠ '>'))
  let _ ← opt (text ['>'])
  eos
  return ⟨scheme, userpart.getD [], hostpart, port.getD [], splitParams (paramString.getD [])⟩

def parseSipUri (uri : Text) : Option SipUri := ((sipUri hostName).first uri).or ((sipUri hostBracketed).first uri)

end Drachtio.Sip
