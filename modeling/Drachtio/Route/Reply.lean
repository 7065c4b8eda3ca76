import Drachtio.Client.Selection
import Drachtio.Pending.Disposal
import Drachtio.Route.Instruction

/-! What becomes of a pending request when the reply of the routing server has come in (controller.cpp,
    client-controller.cpp, client.cpp): it is answered, proxied, delivered to a client that carries a tag, or
    delivered over a connection that is made for it.

    The handler and all that follows from it runs in one go here. Between its parts, messages are posted to the
    stack thread and completions to the client thread. -/

namespace Drachtio.Route

open Client (ClientId Registry Hop Job SipMessageData ProxyData)
open Pending (Disposal LegEnv ProxyEnv)

/-- A message that a peer of an outbound connection sends, and whether `processClientMessage` accepts it. -/
structure Received where
  text : String
  accepted : Bool

/-- What an outbound connection meets. -/
structure Peer where
  /-- Whether each address that the resolver finds can be connected to. When it finds none it throws. -/
  endpoints : List Bool
  /-- The TLS handshake -/
  handshakes : Bool
  client : ClientId
  received : List Received

/-- The first of several addresses cannot be connected to. -/
def Peer.retries (peer : Peer) : Bool :=
  match peer.endpoints with
  | false :: _ :: _ => true
  | _ => false

/-- What a reply meets. -/
structure Env where
  jsonLoads : String → Except JsonError Json
  hop : Job → Hop
  /-- Whether `nta_incoming_treply` sends the response with a status. -/
  treply : Nat → SipMessageData → Bool
  leg : LegEnv
  proxy : ProxyData → ProxyEnv
  /-- The connection to a host and a port, over TLS or not. -/
  peer : String → String → Bool → Peer
  /-- The log level is debug. -/
  logsDebug : Bool

/-- The controllers of the clients and of the requests. -/
structure Controllers where
  registry : Registry
  disposal : Disposal

/-- responseReasons -/
def responseReasons : List (Nat × String) :=
  [(100, "Trying"), (180, "Ringing"), (181, "Call is Being Forwarded"), (182, "Queued"), (183, "Session in Progress"),
    (199, "Early Dialog Terminated"), (200, "OK"), (202, "Accepted"), (204, "No Notification"),
    (300, "Multiple Choices"), (301, "Moved Permanently"), (302, "Moved Temporarily"), (305, "Use Proxy"),
    (380, "Alternative Service"), (400, "Bad Request"), (401, "Unauthorized"), (402, "Payment Required"),
    (403, "Forbidden"), (404, "Not Found"), (405, "Method Not Allowed"), (406, "Not Acceptable"),
    (407, "Proxy Authentication Required"), (408, "Request Timeout"), (409, "Conflict"), (410, "Gone"),
    (411, "Length Required"), (412, "Conditional Request Failed"), (413, "Request Entity Too Large"),
    (414, "Request-URI Too Long"), (415, "Unsupported Media Type"), (416, "Unsupported URI Scheme"),
    (417, "Unknown Resource-Priority"), (420, "Bad Extension"), (421, "Extension Required"),
    (422, "Session Interval Too Small"), (423, "Interval Too Brief"), (424, "Bad Location Information"),
    (428, "Use Identity Header"), (429, "Provide Referrer Identity"), (430, "Flow Failed"),
    (433, "Anonymity Disallowed"), (436, "Bad Identity-Info"), (437, "Unsupported Certificate"),
    (438, "Invalid Identity Header"), (439, "First Hop Lacks Outbound Support"), (470, "Consent Needed"),
    (480, "Temporarily Unavailable"), (481, "Call Leg/Transaction Does Not Exist"), (482, "Loop Detected"),
    (483, "Too Many Hops"), (484, "Address Incomplete"), (485, "Ambiguous"), (486, "Busy Here"),
    (487, "Request Terminated"), (488, "Not Acceptable Here"), (489, "Bad Event"), (491, "Request Pending"),
    (493, "Undecipherable"), (494, "Security Agreement Required"), (500, "Server Internal Error"),
    (501, "Not Implemented"), (502, "Bad Gateway"), (503, "Service Unavailable"), (504, "Server Timeout"),
    (505, "Version Not Supported"), (513, "Message Too Large"), (580, "Precondition Failure"),
    (600, "Busy Everywhere"), (603, "Decline"), (604, "Does Not Exist Anywhere"), (606, "Not Acceptable")]

/-- A response that the server makes itself, with the status of its status line. -/
structure Reply where
  status : Nat
  startLine : String
  headers : String

namespace Reply

/-- The message that `respondToSipRequest` posts. -/
def message (transactionId : String) (reply : Reply) : SipMessageData :=
  .new "" transactionId "" reply.startLine reply.headers ""

def temporarilyUnavailable : Reply := ⟨480, "SIP/2.0 480 Temporarily Unavailable", ""⟩

/-- The reply of `processRejectInstruction`. The status of a reply is read into an unsigned int. -/
def rejection (status : UInt32) (reason : Option String) : Reply where
  status := status.toNat
  startLine := "SIP/2.0 " ++ toString status.toNat ++ " " ++ (reason.or (responseReasons.lookup status.toNat)).getD ""
  headers := ""

/-- The reply of `processRedirectInstruction` -/
def moved (contact : List String) : Reply where
  status := 302
  startLine := "SIP/2.0 302 Moved"
  headers := "\n".intercalate (contact.map ("Contact: " ++ ·))

end Reply

namespace Controllers

/-- `respondToSipRequest` and `doRespondToSipRequest`; a message that cannot be posted is only logged. -/
def respondToSipRequest (env : Env) (transactionId : String) (reply : Reply) (s : Controllers) : Controllers :=
  let d := reply.message transactionId
  match env.hop (.respondToSipRequest d) with
  | .sent =>
    { s with
      disposal := s.disposal.respond d.transactionId (if env.treply reply.status d = true then some reply.status else none)
        env.leg }
  | _ => s

def processRejectInstruction (env : Env) (transactionId : String) (status : UInt32) (reason : Option String)
    (s : Controllers) : Controllers :=
  s.respondToSipRequest env transactionId (.rejection status reason)

def processRedirectInstruction (env : Env) (transactionId : String) (contact : List String) (s : Controllers) : Controllers :=
  s.respondToSipRequest env transactionId (.moved contact)

/-- `proxyRequest` and `doProxy`. What cannot be posted would be reported to a client, of which there is none. -/
def proxyRequest (env : Env) (d : ProxyData) (s : Controllers) : Controllers :=
  match env.hop (.proxyRequest d) with
  | .sent => { s with disposal := s.disposal.proxy d.transactionId (env.proxy d) }
  | _ => s

def outboundFailed (env : Env) (transactionId : String) (s : Controllers) : Controllers :=
  s.respondToSipRequest env transactionId .temporarilyUnavailable

/-- The request goes to a client; when it is no longer pending it is answered. -/
def routeNewRequestToClient (env : Env) (client : ClientId) (transactionId : String) (s : Controllers) : Controllers :=
  match s.disposal.pending.find transactionId with
  | none => s.outboundFailed env transactionId
  | some p =>
    { s with
      registry := { s.registry with
        server := { s.registry.server with
          netTransactions := s.registry.server.netTransactions.insertNew p.transactionId client } }
      disposal := s.disposal.routeNewRequestToClient client transactionId }

/-! ### Routing by tag -/

def selectClientForTag (env : Env) (transactionId tag : String) (s : Controllers) : Controllers :=
  match s.disposal.pending.find transactionId with
  | none => s.outboundFailed env transactionId
  | some p =>
    match s.registry.selectClientForRequestOutsideDialog p.sip.cseq.methodName.val (some tag) with
    | (registry, none) => { s with registry := registry }.outboundFailed env transactionId
    | (registry, some client) => { s with registry := registry }.routeNewRequestToClient env client transactionId

/-! ### Routing over a connection -/

def join (client : ClientId) (s : Controllers) : Controllers :=
  { s with registry := s.registry.step (.join client) }

def leave (client : ClientId) (s : Controllers) : Controllers :=
  { s with registry := s.registry.step (.leave client) }

def authenticates (text : String) : Bool := decide ("|authenticate|".toList <:+: text.toList)

/-- `read_handler` of an outbound connection: `outboundReady` for each message that was accepted and looks like an
    authentication. -/
def readHandler (env : Env) (client : ClientId) (transactionId : String) : List Received → Controllers → Controllers
  | [], s => s
  | m :: received, s =>
    if m.accepted = false then s.leave client
    else
      readHandler env client transactionId received
        (if transactionId ≠ "" ∧ authenticates m.text = true then s.routeNewRequestToClient env client transactionId else s)

/-- `async_connect`, `connect_handler` and `handle_handshake`; the resolver may throw. For TLS the log statement before
    the next address is tried asks the socket, which is not connected, for its peer: that throws in the thread of the
    clients, and the connection is forgotten. -/
def asyncConnect (env : Env) (transactionId : String) (tls : Bool) (peer : Peer) (s : Controllers) : Option Controllers :=
  if peer.endpoints = [] then none
  else if tls = true ∧ env.logsDebug = true ∧ peer.retries = true then some s
  else if peer.endpoints.any id = false then some (s.outboundFailed env transactionId)
  else
    let s := s.join peer.client
    if tls = true ∧ peer.handshakes = false then some (s.leave peer.client)
    else some (s.readHandler env peer.client transactionId peer.received)

/-- An invalid uri is logged, and nothing else done: a TODO says that a 480 is to be sent. -/
def makeOutboundConnection (env : Env) (transactionId uri : String) (s : Controllers) : Option Controllers :=
  match Target.ofUri uri with
  | none => some s
  | some target =>
    let tls := decide (target.transport = "tls")
    s.asyncConnect env transactionId tls (env.peer target.host target.port tls)

/-! ### The reply -/

/-- The data of a proxy command -/
def proxyData (transactionId : String) (recordRoute followRedirects simultaneous : Bool)
    (provisionalTimeout finalTimeout : String) (destination : List String) : ProxyData :=
  .new "" transactionId recordRoute false followRedirects simultaneous provisionalTimeout finalTimeout destination ""

/-- An instruction is carried out, as far as it does not throw. -/
def perform (env : Env) (transactionId : String) (s : Controllers) : Instruction → Option Controllers
  | .reject status reason => some (s.processRejectInstruction env transactionId (UInt32.ofInt status) reason)
  | .proxy recordRoute followRedirects simultaneous provisionalTimeout finalTimeout destination =>
    some (s.proxyRequest env
      (proxyData transactionId recordRoute followRedirects simultaneous provisionalTimeout finalTimeout destination))
  | .redirect contact => some (s.processRedirectInstruction env transactionId contact)
  | .connect uri => s.makeOutboundConnection env transactionId uri
  | .select tag => some (s.selectClientForTag env transactionId tag)

/-- The status of the HTTP reply is only logged. -/
def httpCallRoutingComplete (env : Env) (transactionId : String) (_responseCode : Int) (body : String) (s : Controllers) :
    Controllers :=
  match Instruction.ofBody env.jsonLoads body with
  | .error _ => s.processRejectInstruction env transactionId 500 none
  | .ok instruction =>
    match s.perform env transactionId instruction with
    | none => s.processRejectInstruction env transactionId 500 none
    | some s => s

end Controllers

end Drachtio.Route
