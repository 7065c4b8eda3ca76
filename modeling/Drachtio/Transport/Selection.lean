import Drachtio.Lib.Sorting
import Drachtio.Transport.SipTransport

/-! Which transport a host is reached by (`findAppropriateTransport` in sip-transports.cpp). -/

namespace Drachtio.Transport

open Sip (Text SipUri parseSipUri)

/-- The comparison that the candidates are sorted by, unless it looks at a number that was not written -/
def precedes (host : Text) (pA pB : SipTransport) : Option Bool :=
  match pA.isInNetwork host with
  | none => none
  | some true => some true
  | some false =>
    match pB.isInNetwork host with
    | none => none
    | some true => some false
    | some false =>
      let a := pA.getOctetMatchCount host
      let b := pB.getOctetMatchCount host
      some <|
        if a > b then true
        else if a < b then false
        else if pA.hasExternalIp = true then true
        else if pB.hasExternalIp = true then false
        else if pA.isLocalhost = true then false
        else if pB.isLocalhost = true then true
        else true

/-- The comparison as the sort sees it -/
def sortsBefore (host : Text) (pA pB : SipTransport) : Bool := decide (precedes host pA pB = some true)

/-- What is asked for: the host, the protocol in lower case and whether the URI names it, and the family -/
structure Wanted where
  host : Text
  proto : Text
  explicitTransport : Bool
  ipV6 : Bool
deriving DecidableEq, Repr

def wanted (remoteHost : Text) (proto : Option Text) : Wanted :=
  let uri := parseSipUri remoteHost
  let transport := ((uri.map SipUri.params).getD []).find? fun kv => decide (kv.1 = "transport".toList)
  { host := (uri.map SipUri.hostpart).getD remoteHost
    proto := ((transport.map Prod.snd).getD (proto.getD [])).map Char.toLower
    explicitTransport := transport.isSome
    ipV6 := decide ('[' ∈ remoteHost) && decide (']' ∈ remoteHost) }

/-- The two filters -/
def candidates (w : Wanted) (transports : List SipTransport) : List SipTransport :=
  (transports.filter fun p => decide (p.isIpV6 = w.ipV6)).filter fun p =>
    decide (w.proto = [] ∨ p.getProtocol = w.proto)

inductive Found where
  | null
  | master
  | transport (p : SipTransport)
deriving DecidableEq, Repr

/-- The transports come in the order in which the map is walked. -/
def findAppropriateTransport (sorting : Sorting.Algorithm SipTransport) (master : SipTransport)
    (transports : List SipTransport)
    (remoteHost : Text) (proto : Option Text) : Found :=
  let w := wanted remoteHost proto
  match sorting.sort (sortsBefore w.host) (candidates w transports) with
  | [] => if !w.explicitTransport && master.hasTportAndTpname then .master else .null
  | p :: _ => .transport p

end Drachtio.Transport
