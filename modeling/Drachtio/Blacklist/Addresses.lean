import Drachtio.Lib.Numerals
import Mathlib.Data.List.Basic

/-! The addresses of the redis servers that a blacklist comes from (`parseAddress` and `parseIpPort` in blacklist.cpp). What
    the numeric conversions and `substr` throw is thrown on. -/

namespace Drachtio.Blacklist

open Numerals (stoi stoul)

abbrev Text := List Char

/-- What is thrown, by a conversion or by `substr` -/
abbrev Error := Numerals.Error

/-- The text in front of the first colon -/
def beforeColon (s : Text) : Text := s.takeWhile (· ≠ ':')

/-- The text behind the first colon -/
def behindColon (s : Text) : Text := (s.dropWhile (· ≠ ':')).tail

/-- The port is the `unsigned int` that an `unsigned long` is cut to. -/
def parseAddress (address : Text) : Except Error (Text × UInt32) :=
  if ':' ∈ address then
    match stoul (behindColon address) with
    | .error e => .error e
    | .ok port => .ok (beforeColon address, port.toUInt32)
  else .ok ([], 0)

/-! ### Lists of addresses -/

/-- What std::getline gives at commas, one after the other: nothing more when nothing is left behind the last comma -/
def tokens (input : Text) : List Text :=
  let pieces := input.splitOn ','
  if pieces.getLast? = some [] then pieces.dropLast else pieces

def isBlank (c : Char) : Bool := decide (c ∈ [' ', '\t'])

/-- A token without its leading and trailing blanks -/
def trimBlanks (token : Text) : Text := ((token.dropWhile isBlank).reverse.dropWhile isBlank).reverse

/-- In a token of blanks both searches give npos, which is no place for `substr` to begin at. -/
def trimToken (token : Text) : Except Error Text :=
  if token.all isBlank = true then .error .outOfRange else .ok (trimBlanks token)

/-- One round of the loop: the entry that is put into the result, if there is one -/
def parseToken (token : Text) : Except Error (Option (Text × Int)) :=
  match trimToken token with
  | .error e => .error e
  | .ok token =>
    if ':' ∈ token then
      match stoi (behindColon token) with
      | .error e => .error e
      | .ok port => .ok (some (beforeColon token, port))
    else .ok none

def parseTokens : List Text → Except Error (List (Text × Int))
  | [] => .ok []
  | token :: rest =>
    match parseToken token with
    | .error e => .error e
    | .ok entry =>
      match parseTokens rest with
      | .error e => .error e
      | .ok entries => .ok (entry.toList ++ entries)

def parseIpPort (input : Text) : Except Error (List (Text × Int)) := parseTokens (tokens input)

end Drachtio.Blacklist
