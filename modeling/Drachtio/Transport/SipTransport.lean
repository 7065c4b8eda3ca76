import Drachtio.Lib.Numerals
import Drachtio.Sip.Uri

/-! A configured transport (`SipTransport` in sip-transports.cpp): its contact, its local network, and what it finds out
    about addresses. -/

namespace Drachtio.Transport

open Numerals (IsNumber value atoi)
open Pattern (text many many1 eos)
open Sip (Text SipUri isEol parseSipUri)

/-! ### Addresses -/

/-- An octet as inet_pton takes it, without leading zeros -/
def octet (f : Text) : Option Nat :=
  if IsNumber f ∧ (f.head? = some '0' → f = ['0']) ∧ value f ≤ 255 then some (value f) else none

/-- The number that the bytes of an address are, the first one on top -/
def ipv4 (a b c d : Nat) : UInt32 := UInt32.ofNat (a * 16777216 + b * 65536 + c * 256 + d)

/-- inet_pton for IPv4, and htonl on a little-endian machine: the address as a number. Else nothing is written. -/
def inetPton (s : Text) : Option UInt32 :=
  match (s.splitOn '.').map octet with
  | [some a, some b, some c, some d] => some (ipv4 a b c d)
  | _ => none

/-- A shift by the width of its operand or more is undefined. -/
def shiftRight (x n : UInt32) : Option UInt32 := if n < 32 then some (x >>> n) else none

/-! ### Transports -/

/-- What is read of tp_name_t, the name of a bound transport -/
structure TpName where
  host : Text
  port : Text
  proto : Text
deriving DecidableEq, Repr

structure SipTransport where
  /-- m_strContact -/
  contact : Text
  externalIp : Text
  localNet : Text
  netmask : UInt32
  /-- m_range, if it was ever written -/
  range : Option UInt32
  /-- The parts of the contact: m_contactScheme and so on -/
  contactUri : SipUri
  /-- m_tp is set -/
  hasTport : Bool
  tpName : Option TpName
deriving DecidableEq, Repr

/-- What `init` throws, or a shift that is undefined -/
inductive InitError where
  | invalidContact | invalidExternalIp | invalidLocalNet | undefinedShift
deriving DecidableEq, Repr

/-- `[0-9\.]` -/
def isDigitOrDot (c : Char) : Bool := c.isDigit || c == '.'

/-- `^([0-9\.]*)$` -/
def externalIpPattern : Pattern Char Text := do
  let ip ← many isDigitOrDot
  eos
  return ip

/-- `^([0-9\.]*)\/(.*)$` -/
def localNetPattern : Pattern Char (Text × Text) := do
  let network ← many isDigitOrDot
  text ['/']
  let bits ← many fun c => !isEol c
  eos
  return (network, bits)

/-- `^(\d+)\.(\d+)\.(\d+)\.(\d+)` -/
def dotDecimalPattern : Pattern Char (List Text) := do
  let a ← many1 Char.isDigit
  text ['.']
  let b ← many1 Char.isDigit
  text ['.']
  let c ← many1 Char.isDigit
  text ['.']
  let d ← many1 Char.isDigit
  return [a, b, c, d]

namespace SipTransport

/-- The members that the constructors set, before `init`. The one that copies takes the netmask of the other along. -/
def new (contact localNet externalIp : Text) (netmask : UInt32) : SipTransport where
  contact := contact
  externalIp := externalIp
  localNet := localNet
  netmask := netmask
  range := none
  contactUri := ⟨[], [], [], [], []⟩
  hasTport := false
  tpName := none

/-- The range and the mask of a network with some bits -/
def setNet (network bits : Text) (t : SipTransport) : Except InitError SipTransport :=
  match shiftRight (~~~0) (atoi bits).toUInt32 with
  | none => .error .undefinedShift
  | some mask => .ok { t with range := inetPton network, netmask := ~~~mask }

def init (t : SipTransport) : Except InitError SipTransport :=
  match parseSipUri t.contact with
  | none => .error .invalidContact
  | some uri =>
    let t := { t with contactUri := uri }
    if t.externalIp ≠ [] ∧ externalIpPattern.first t.externalIp = none then .error .invalidExternalIp
    else if t.localNet = [] then .ok t
    else
      match localNetPattern.first t.localNet with
      | none => .error .invalidLocalNet
      | some (network, bits) => t.setNet network bits

/-- The constructor with a contact, a local network and an external address, of which the last two may be empty -/
def construct (contact localNet externalIp : Text) : Except InitError SipTransport :=
  (new contact localNet externalIp 0).init

def copy (other : SipTransport) : Except InitError SipTransport :=
  (new other.contact other.localNet other.externalIp other.netmask).init

/-! ### What is asked of a transport -/

def hasExternalIp (t : SipTransport) : Bool := decide (t.externalIp ≠ [])

def getHost (t : SipTransport) : Text := (t.tpName.map TpName.host).getD []

def getPort (t : SipTransport) : Text := (t.tpName.map TpName.port).getD []

def getProtocol (t : SipTransport) : Text := (t.tpName.map TpName.proto).getD []

def hasTportAndTpname (t : SipTransport) : Bool := t.hasTport && t.tpName.isSome

/-- Whether an address is in the local network. A number that was not written before it is compared is undefined. -/
def isInNetwork (address : Text) (t : SipTransport) : Option Bool :=
  if t.netmask = 0 then some false
  else
    match inetPton address, t.range with
    | some ip, some range => some (decide (ip &&& t.netmask = range &&& t.netmask))
    | _, _ => none

def isIpV6 (t : SipTransport) : Bool := t.hasTport && decide ('[' ∈ t.getHost) && decide (']' ∈ t.getHost)

def isLocalhost (t : SipTransport) : Bool :=
  t.hasTport && (decide (t.getHost = "127.0.0.1".toList) || decide (t.getHost = "[::1]".toList))

/-- The loop over the octets of two addresses -/
def countMatches : List Text → List Text → Nat
  | them :: address, mine :: host => if them = mine then countMatches address host + 1 else 0
  | _, _ => 0

def getOctetMatchCount (address : Text) (t : SipTransport) : Nat :=
  match dotDecimalPattern.first address, dotDecimalPattern.first t.getHost with
  | some them, some mine => countMatches them mine
  | _, _ => 0

/-- The loop over the parameters of a contact -/
def printParams (params : List (Text × Text)) : Text :=
  params.flatMap fun kv => ';' :: kv.1 ++ if kv.2 = [] then [] else '=' :: kv.2

def getContactUri (useExternalIp : Bool) (t : SipTransport) : Text :=
  let user := t.contactUri.scheme ++ ':' :: if t.contactUri.userpart = [] then [] else t.contactUri.userpart ++ ['@']
  let hostOr (host : Text) := if useExternalIp = true ∧ t.externalIp ≠ [] then t.externalIp else host
  if t.hasTport = true then
    user ++ hostOr t.getHost ++ (if t.getPort = [] then [] else ':' :: t.getPort) ++
      if t.getProtocol ≠ [] ∧ t.getProtocol ≠ "udp".toList then ";transport=".toList ++ t.getProtocol else []
  else
    user ++ hostOr t.contactUri.hostpart ++ (if t.contactUri.port = [] then [] else ':' :: t.contactUri.port) ++
      printParams t.contactUri.params

/-! ### The transports that are bound -/

/-- The network that is assumed for a host when none is configured -/
def defaultNet (host : Text) : Option (Text × Text) :=
  if host = "127.0.0.1".toList then some ("127.0.0.1".toList, "32".toList)
  else if "192.168.0.".toList <+: host then some ("192.168.0.0".toList, "24".toList)
  else if "172.16.".toList <+: host then some ("172.16.0.0".toList, "16".toList)
  else if "10.".toList <+: host then some ("10.0.0.0".toList, "8".toList)
  else none

/-- The host that an assumed network is looked up for -/
def ownHost (t : SipTransport) : Text := if t.hasExternalIp = true then t.externalIp else t.getHost

/-- One round of `addTransports`: the transport for a tport of that name -/
def addTransport (tpn : TpName) (config : SipTransport) : Except InitError SipTransport :=
  match config.copy with
  | .error e => .error e
  | .ok p =>
    let p := { p with hasTport := true, tpName := some tpn }
    if p.localNet = [] then
      match defaultNet p.ownHost with
      | none => .ok p
      | some (network, bits) =>
        match p.setNet network bits with
        | .error e => .error e
        | .ok p => .ok { p with localNet := network ++ '/' :: bits }
    else .ok p

end SipTransport

end Drachtio.Transport
