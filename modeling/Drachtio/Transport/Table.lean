import Drachtio.Http.RequestHandler
import Drachtio.Lib.Table
import Drachtio.Transport.SipTransport

/-! The transports of the server (the static members of `SipTransport` in sip-transports.cpp): the table that the start fills
    with a transport for each tport of the stack, and what is local by it (`isLocalAddress`, and `isLocalSipUri` in
    drachtio.cpp). -/

namespace Drachtio.Transport

open Sip (Text)

/-- A transport with the names in DNS that it was configured with (m_dnsNames) -/
structure NamedTransport where
  transport : SipTransport
  dnsNames : List Text
deriving DecidableEq, Repr

namespace NamedTransport

def construct (contact localNet externalIp : Text) : Except InitError NamedTransport :=
  match SipTransport.construct contact localNet externalIp with
  | .error e => .error e
  | .ok t => .ok ⟨t, []⟩

def addDnsName (name : Text) (p : NamedTransport) : NamedTransport := { p with dnsNames := p.dnsNames ++ [name] }

def isLocal (szHost : Text) (p : NamedTransport) : Bool :=
  decide (p.transport.getHost = szHost) || decide (p.transport.contactUri.hostpart = szHost) ||
    (p.transport.hasExternalIp && decide (p.transport.externalIp = szHost)) ||
    p.dnsNames.any fun name => decide (name = szHost)

/-- What `getAllExternalContacts` says of a transport -/
def externalContacts (p : NamedTransport) : List (Text × Text) :=
  (if p.transport.hasExternalIp = true then [(p.transport.externalIp, p.transport.getPort)] else []) ++
    p.dnsNames.map fun name => (name, p.transport.getPort)

end NamedTransport

/-- A tport as the stack lists it -/
structure Tport where
  id : Nat
  name : TpName
deriving DecidableEq, Repr

/-- m_mapTport2SipTransport -/
abbrev Transports := AList fun _ : Nat => NamedTransport

namespace Transports

/-- One round of the loop in `addTransports`: a tport that has a transport keeps it. -/
def add (config : NamedTransport) (m : Transports) (tp : Tport) : Except InitError Transports :=
  if tp.id ∈ m then .ok m
  else
    match config.transport.addTransport tp.name with
    | .error e => .error e
    | .ok t => .ok (m.insert tp.id ⟨t, config.dnsNames⟩)

/-- The tports are those behind the first one of the agent. -/
def addTransports (config : NamedTransport) (tports : List Tport) (m : Transports) : Except InitError Transports :=
  tports.foldlM (add config) m

/-- The start of the server: the configured transports one after the other, with the tports that the agent has by then -/
def start (configs : List (NamedTransport × List Tport)) : Except InitError Transports :=
  configs.foldlM (fun m c => m.addTransports c.1 c.2) ∅

def transports (m : Transports) : List NamedTransport := m.entries.map Sigma.snd

/-- Without a tport: the search through all of them, in which the names in DNS are compared once more -/
def isLocalAddress (szHost : Text) (m : Transports) : Bool :=
  m.transports.any fun p => p.isLocal szHost || p.dnsNames.any fun name => decide (name = szHost)

def getAllExternalContacts (m : Transports) : List (Text × Text) := m.transports.flatMap NamedTransport.externalContacts

end Transports

/-! ### Local uris -/

/-- The host and port of a uri, as `sip_name_addr_d` finds them -/
structure UrlHost where
  host : Option Text
  port : Option Text
deriving DecidableEq, Repr

/-- vecLocalUris and localDomain -/
structure LocalUris where
  uris : List (Text × Text)
  localDomain : Text

namespace LocalUris

def loopback : Text := "127.0.0.1".toList

def localhost : Text := "localhost".toList

/-- What is kept of a tport: an address that is not a wildcard, and its name if it is the loopback address -/
def ofTport (tpn : TpName) : List (Text × Text) :=
  if tpn.host = ['*'] then []
  else (tpn.host, tpn.port) :: if tpn.host = loopback then [(localhost, tpn.port)] else []

/-- What the first call makes of all the tports of the agent, the transports, and DRACHTIO_LOCAL_DOMAIN -/
def init (tports : List Tport) (m : Transports) (envLocalDomain : Option Text) : LocalUris where
  uris := (tports.flatMap fun tp => ofTport tp.name) ++ m.getAllExternalContacts
  localDomain := (envLocalDomain.getD []).map Char.toLower

def defaultPort : Text := "5060".toList

/-- The comparison with one of them; a missing port is the default one. -/
def names (url : UrlHost) (host : Text) (uri : Text × Text) : Bool :=
  let port := if uri.2 = [] then defaultPort else uri.2
  decide (uri.1 = host) && (url.port.elim (decide (port = defaultPort)) fun p => decide (port = p))

/-- What `isLocalSipUri` answers, where `decode` is the parser of the stack and `beyond` the memory behind the buffer that a
    text of its length or more fills. It is undefined what a string is compared with when there is no host. -/
def isLocalSipUri (decode : Text → Option UrlHost) (beyond requestUri : Text) (l : LocalUris) : Option Bool :=
  if "tel:".toList <+: requestUri then some false
  else
    match decode (Http.copied 255 requestUri beyond) with
    | none => some false
    | some url =>
      match url.host with
      | none => if l.uris = [] then some false else none
      | some host =>
        some <| l.uris.any (names url host) ||
          (decide (l.localDomain ≠ []) &&
            (decide (host.map Char.toLower = l.localDomain) ||
              decide (('.' :: l.localDomain) <:+ host.map Char.toLower)))

end LocalUris

end Drachtio.Transport
