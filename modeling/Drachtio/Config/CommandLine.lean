import Drachtio.Transport.Table

/-! The command line (`parseCmdArgs` in controller.cpp): the loop over the options as `getopt_long` reports them. Options that
    do no more than to set a member of their own are all alike here. -/

namespace Drachtio.Config

open Numerals (IsNumber value atoi splitSign)
open Sip (Text)
open Transport (InitError NamedTransport)

/-- An option with its argument. The short option `i`, which the option string accepts and no case handles (it aborts), is
    not one of them. -/
inductive Opt where
  | contact (optarg : Text)
  | externalIp (optarg : Text)
  | localNet (optarg : Text)
  | dnsName (optarg : Text)
  | httpHandler (optarg : Text)
  | httpMethod (optarg : Text)
  | loglevel (optarg : Text)
  | sofiaLoglevel (optarg : Text)
  | homer (optarg : Text)
  | homerId (optarg : Text)
  | prometheusScrapePort (optarg : Text)
  /-- It is declared to take no argument, so that there is none to read. -/
  | userAgentOptionsAutoRespond
  /-- `help` and `version` -/
  | exits
  | other
deriving DecidableEq, Repr

/-- Why the server does not start: `false` is returned after a message, an exception is not caught, a null pointer is read as
    a text, or the process was told to exit. -/
inductive Stop where
  | refused (message : String)
  | thrown (e : InitError)
  | badLexicalCast
  | nullArgument
  | exited
deriving DecidableEq, Repr

/-- `boost::lexical_cast` to an unsigned number of 32 bits. It may have a sign, and a minus wraps around. -/
def lexicalCastUInt (s : Text) : Option UInt32 :=
  let (negative, digits) := splitSign s
  if IsNumber digits ∧ value digits < 4294967296 then
    some (if negative = true then 0 - UInt32.ofNat (value digits) else UInt32.ofNat (value digits))
  else none

/-- The variables of the loop, and the members that something is made of in the end -/
structure Args where
  contact : Text
  localNet : Text
  publicAddress : Text
  vecDnsNames : List Text
  vecTransports : List NamedTransport
  httpUrl : Text
  httpMethod : Text
  homerAddress : Text
  homerId : UInt32
deriving DecidableEq, Repr

namespace Args

/-- What the loop begins with; the environment may have set the members for Homer. -/
def init (homerAddress : Text) (homerId : UInt32) : Args := ⟨[], [], [], [], [], [], "GET".toList, homerAddress, homerId⟩

/-- The transport of the contact that is complete, and the others -/
def pushContact (a : Args) : Except Stop Args :=
  match NamedTransport.construct a.contact a.localNet a.publicAddress with
  | .error e => .error (.thrown e)
  | .ok p => .ok { a with vecTransports := a.vecTransports ++ [p], contact := [], publicAddress := [], localNet := [] }

def setHomer (optarg : Text) (a : Args) : Except Stop Args :=
  match optarg.splitOn ':' with
  | [address] => .ok { a with homerAddress := address }
  | [address, port] =>
    if (lexicalCastUInt port).isSome = true then .ok { a with homerAddress := address } else .error .badLexicalCast
  | _ => .error (.refused ("invalid homer address: " ++ String.ofList optarg))

def setHomerId (optarg : Text) (a : Args) : Except Stop Args :=
  match lexicalCastUInt optarg with
  | none => .error (.refused "--homer-id must be a positive 32-bit integer")
  | some id =>
    if id = 0 then .error (.refused "--homer-id must be a positive 32-bit integer") else .ok { a with homerId := id }

/-- The port is what comes behind the colon if there is one. -/
def prometheusPort (optarg : Text) : Text :=
  match optarg.splitOn ':' with
  | [_, port] => port
  | _ => optarg

def loglevels : List Text := ["notice".toList, "error".toList, "warning".toList, "info".toList, "debug".toList]

/-- One round of the loop -/
def handle (a : Args) : Opt → Except Stop Args
  | .contact optarg =>
    if a.contact = [] then .ok { a with contact := optarg }
    else
      match a.pushContact with
      | .error e => .error e
      | .ok a => .ok { a with contact := optarg }
  | .externalIp optarg =>
    if a.contact = [] then .error (.refused "'public-ip' argument must follow a 'contact'")
    else if a.publicAddress ≠ [] then .error (.refused "multiple 'public-ip' arguments provided for a single contact")
    else .ok { a with publicAddress := optarg }
  | .localNet optarg =>
    if a.contact = [] then .error (.refused "'local-net' argument must follow a 'contact'")
    else if a.localNet ≠ [] then .error (.refused "multiple 'local-net' arguments provided for a single contact")
    else .ok { a with localNet := optarg }
  | .dnsName optarg => .ok { a with vecDnsNames := a.vecDnsNames ++ [optarg] }
  | .httpHandler optarg => .ok { a with httpUrl := optarg }
  | .httpMethod optarg =>
    .ok { a with httpMethod := if optarg.map Char.toUpper = "POST".toList then "POST".toList else a.httpMethod }
  | .loglevel optarg =>
    if optarg ∈ loglevels then .ok a
    else .error
      (.refused ("Invalid loglevel '" ++ String.ofList optarg ++ "': valid choices are notice, error, warning, info, debug"))
  | .sofiaLoglevel optarg =>
    if 0 ≤ atoi optarg ∧ atoi optarg ≤ 9 then .ok a
    else .error (.refused ("Invalid sofia-loglevel '" ++ String.ofList optarg ++ "': valid choices 0-9 inclusive"))
  | .homer optarg => a.setHomer optarg
  | .homerId optarg => a.setHomerId optarg
  | .prometheusScrapePort optarg =>
    if (lexicalCastUInt (prometheusPort optarg)).isSome = true then .ok a else .error .badLexicalCast
  | .userAgentOptionsAutoRespond => .error .nullArgument
  | .exits => .error .exited
  | .other => .ok a

/-- The names in DNS all go to the contact that is not complete yet. -/
def addNames (a : Args) (p : NamedTransport) : NamedTransport := a.vecDnsNames.foldl (fun p name => p.addDnsName name) p

/-- What comes after the loop -/
def finish (a : Args) : Except Stop Args :=
  if a.homerAddress ≠ [] ∧ a.homerId = 0 then
    .error (.refused "--homer-id is required to specify an agent id when using --homer")
  else if a.contact = [] then .ok a
  else
    match NamedTransport.construct a.contact a.localNet a.publicAddress with
    | .error e => .error (.thrown e)
    | .ok p => .ok { a with vecTransports := a.vecTransports ++ [a.addNames p] }

end Args

def parseCmdArgs (homerAddress : Text) (homerId : UInt32) (opts : List Opt) : Except Stop Args :=
  match opts.foldlM Args.handle (Args.init homerAddress homerId) with
  | .error e => .error e
  | .ok a => a.finish

end Drachtio.Config
