import Drachtio.Config.RequestRouter
import Drachtio.Controller.ContactAlias
import Drachtio.Pending.PendingRequests
import Drachtio.Proxy.Controller
import Drachtio.Transport.Table

/-! What the server does with the messages that belong to no leg (`processMessageStatelessly` in controller.cpp), over the
    requests that are pending, the proxy cores and the connections that peers were heard on; and what else changes these. -/

namespace Drachtio.Controller

open Client (ClientId)
open Pending (PendingRequest PendingRequests)
open Proxy (Method ProxyCore Registry TimerName)
open Sip (Text)

/-! ### Messages -/

/-- The uri in the first Route header: its host, and whether it has the parameter lr -/
structure RouteHeader where
  host : Option Text
  lr : Bool
deriving DecidableEq, Repr

/-- The uri in the first Contact; the scheme of the wildcard is `*`. -/
structure ContactHeader where
  scheme : Option Text
  url : ContactUrl
deriving DecidableEq, Repr

/-- What is read of a request. The stack has the method from its name, which is that in the CSeq as well. -/
structure NetRequest where
  sip : Sip.Message
  method : Method
  isRequest : sip.request = some method
  unnamed : method = .unknown → ∀ m, Sip.methodName m ≠ some sip.cseq.methodName.val
  /-- The connection it came in on (nta_incoming_transport) -/
  tport : Option Tport
  /-- sip_sanity_check, and a header that could not be parsed -/
  sane : Bool
  error : Bool
  userAgent : Option Text
  fromUser : Option Text
  toUser : Option Text
  toTag : Bool
  route : Option RouteHeader
  contact : Option ContactHeader
  expires : Option UInt32
  /-- The host in the Request-URI -/
  urlHost : Option Text
  maxForwards : Option UInt64
  /-- The number in the RAck that names the INVITE -/
  rack : UInt32

namespace NetRequest

def heard (req : NetRequest) : Heard := ⟨decide (req.method = .register), req.contact.map (·.url)⟩

/-- rq_method_name -/
def methodName (req : NetRequest) : Text := req.sip.cseq.methodName.val.toList

end NetRequest

/-- What is read of a response. The stack has the method in its CSeq from the name there. -/
structure NetResponse where
  sip : Sip.Message
  response : Proxy.Response
  isResponse : sip.request = none
  named : ∀ name ∈ Sip.methodName response.method, sip.cseq.methodName.val = name
  unnamed : response.method = .unknown → ∀ m, Sip.methodName m ≠ some sip.cseq.methodName.val
  tport : Option Tport

/-! ### The server -/

/-- What the server is set up with -/
structure Setup where
  /-- The headers and the texts in them that spammers are known by -/
  spammers : List (Text × List Text)
  contactAlias : Bool
  rejectRegisterWithNoRealm : Bool
  alwaysSend180 : Bool
  userAgentAutoAnswerOptions : Text
  requestRouter : Config.RequestRouter
  transports : Transport.Transports

/-- What a message meets -/
structure DispatchEnv where
  /-- What the blacklist says of its source -/
  blackListed : Bool
  /-- Whether the 100 and the 180 can be sent -/
  trying : Bool
  ringing : Bool
  /-- For a request with a Route: whether there is a transport for its next hop, and the stack takes it -/
  hasTransport : Bool
  send : Bool
  /-- The client that is selected for a new request, and the one that has the INVITE of a CANCEL -/
  client : Option ClientId
  cancelClient : Option ClientId
  /-- The object made of a new request: its address, its uuid and the handle of its timeout -/
  address : Nat
  uuid : String
  handle : Nat
  /-- What a core meets -/
  core : Proxy.Env

/-- A null pointer that is read, or an assertion -/
inductive Crash where
  | nullRouteHost | nullUrlHost | prack | nullClient
deriving DecidableEq, Repr

/-- What is done with a message besides what a core does -/
inductive Act where
  | reply (status : Nat)
  | discard
  /-- A request goes to its next hop. -/
  | sendOn
  /-- A response goes upstream as it is. -/
  | forwardResponse
  /-- A new request is pending under the transaction id, and this becomes of it. -/
  | handle (transactionId : String) (how : Config.Handling ClientId)
  | passCancel (client : ClientId) (transactionId : String)
  /-- The 487 to a pending INVITE -/
  | terminate (transactionId : String)
  | crash (c : Crash)
deriving DecidableEq, Repr

/-- A core, with the request that it was made for -/
structure Core where
  sip : Sip.Message
  core : ProxyCore

/-- The tables. A core is named by its place among all that were made; the `registered` of each says whether it was never
    taken out of the table of cores by itself. -/
structure Server where
  aliases : ContactAliases
  pending : PendingRequests
  proxies : Registry Nat
  cores : List Core

/-! ### What is refused -/

/-- The verdict of a check -/
inductive Verdict where
  | passes
  | drops
  | refuses (status : Nat)
  | crashes (c : Crash)
deriving DecidableEq, Repr

/-- Texts are looked for in three headers only. -/
def isSpammer (c : Setup) (req : NetRequest) : Bool :=
  let found (hdrName value : Text) (field : Option Text) (h : Text × List Text) : Bool :=
    decide (h.1 = hdrName) && field.any fun text => decide (value <:+: text)
  c.spammers.any fun h => h.2.any fun value =>
    found "user-agent".toList value req.userAgent h || found "to".toList value req.toUser h ||
      found "from".toList value req.fromUser h

/-- The checks at the beginning. The ACK of a spammer passes. -/
def screen (c : Setup) (env : DispatchEnv) (req : NetRequest) : Verdict :=
  if env.blackListed = true then .drops
  else if req.tport.isNone = true then .drops
  else if req.sane = false then .refuses 400
  else if req.error = true then .refuses 400
  else if isSpammer c req = true ∧ req.method ≠ .ack then .refuses 603
  else .passes

/-- An address in dots, as the regular expression has it -/
def isIpAddress (host : Text) : Bool :=
  let fields := host.splitOn '.'
  decide (fields.length = 4) && fields.all fun field => decide (1 ≤ field.length ∧ field.length ≤ 3) && field.all Char.isDigit

/-- The checks of a REGISTER -/
def checkRegister (c : Setup) (req : NetRequest) : Verdict :=
  if c.rejectRegisterWithNoRealm = true ∧ req.urlHost = none then .crashes .nullUrlHost
  else if c.rejectRegisterWithNoRealm = true ∧ req.urlHost.any isIpAddress = true then .refuses 403
  else
    match req.contact with
    | none => .passes
    | some ⟨none, _⟩ => .refuses 400
    | some ⟨some scheme, _⟩ => if scheme = ['*'] ∧ (∃ delta ∈ req.expires, delta ≠ 0) then .refuses 400 else .passes

/-- What is done when a check does not pass -/
def Verdict.acts : Verdict → List Act
  | .passes => []
  | .drops => []
  | .refuses status => [.reply status]
  | .crashes c => [.crash c]

/-- A request for which we are in the first Route. The hosts are compared before, so that there has to be one. -/
inductive Routed where
  | no | here | crashes
deriving DecidableEq, Repr

def routed (c : Setup) (req : NetRequest) : Routed :=
  match req.route with
  | none => .no
  | some route =>
    if req.toTag = false ∨ route.lr = false then .no
    else
      match route.host with
      | none => .crashes
      | some host => if c.transports.isLocalAddress host = true then .here else .no

namespace Server

def empty : Server := ⟨∅, .empty, ∅, []⟩

/-! ### Cores -/

/-- Whether a member function of the core takes it out of the table -/
def removes (f : ProxyCore → ProxyCore) (core : ProxyCore) : Bool := !(f { core with registered := true }).registered

/-- A member function of a core is called. The table loses what is under the identifier of the core, be it the core or not. -/
def call (k : Nat) (f : ProxyCore → ProxyCore) (s : Server) : Server :=
  match s.cores[k]? with
  | none => s
  | some o =>
    { s with
      cores := s.cores.set k { o with core := f o.core }
      proxies := if removes f o.core = true then s.proxies.removeProxy o.sip else s.proxies }

/-- A response for a core: ProxyCore::processResponse, and the way upstream when no client transaction takes it -/
def takeResponse (env : Proxy.Env) (r : Proxy.Response) (core : ProxyCore) : ProxyCore :=
  let core := core.emit [.received r]
  let handled := (core.clients.find? (·.accepts r)).isSome
  let core := core.processResponse env r
  if handled = true then core else core.emit [.forwardStateless r]

/-- SipProxyController::doProxy; the request had the Max-Forwards. -/
def doProxy (transactionId : String) (k : Proxy.Settings) (env : Proxy.Env) (maxForwards : Option UInt64)
    (destinations : List String) (s : Server) : Server :=
  let found := s.pending.findAndRemove transactionId false
  let s := { s with pending := found.1 }
  match found.2 with
  | none => s
  | some p =>
    match p.sip.request with
    | none => s
    | some method =>
      let core := ProxyCore.doProxy k env ⟨method, maxForwards⟩ destinations
      let proxies := s.proxies.addProxy p.sip s.cores.length
      { s with
        cores := s.cores ++ [⟨p.sip, core⟩]
        proxies := if core.registered = true then proxies else proxies.removeProxy p.sip }

/-! ### Requests -/

/-- processRequestWithRouteHeader, and what is done when it fails -/
def processRequestWithRouteHeader (env : DispatchEnv) (req : NetRequest) (s : Server) : Server × List Act :=
  if req.method = .prack then
    match s.proxies.getProxyByCallId req.sip with
    | none => (s, [.discard])
    | some k => (s.call k (·.forwardPrack env.core req.rack), [])
  else if req.urlHost = none then (s, [.crash .nullUrlHost])
  else if env.hasTransport = true ∧ env.send = true then (s, [.sendOn])
  else (s, [.discard])

def processRequestWithoutRouteHeader (env : DispatchEnv) (req : NetRequest) (s : Server) : Server × List Act :=
  match s.proxies.getProxy req.sip with
  | none => (s, [.discard])
  | some k =>
    if req.method = .ack then (s, [.discard])
    else if ∃ o ∈ s.cores[k]?, req.method = o.core.request.method then (s, [.discard])
    else if req.method = .cancel then (s.call k (·.cancel env.core), [])
    else if req.method = .info then (s.call k (·.forwardRequest env.core ⟨.info, req.maxForwards⟩), [])
    else (s, [])

/-- `processNewRequest`, with the reply that a status leads to -/
def processNewRequest (c : Setup) (env : DispatchEnv) (req : NetRequest) (s : Server) : Server × List Act :=
  if req.method = .invite ∧ req.toTag = true then (s, [.reply 481])
  else
    match Config.processNewRequest req.methodName env.client c.requestRouter with
    | .refuse status => (s, [.reply status])
    | .nullClient => ({ s with pending := s.pending.add ⟨env.address, req.sip, env.uuid, env.handle⟩ }, [.crash .nullClient])
    | how => ({ s with pending := s.pending.add ⟨env.address, req.sip, env.uuid, env.handle⟩ }, [.handle env.uuid how])

/-- A request that can be new. An INVITE is answered at once, and what of that cannot be sent ends its handling. -/
def processRequest (c : Setup) (env : DispatchEnv) (req : NetRequest) (s : Server) : Server × List Act :=
  if s.pending.isRetransmission req.sip = true ∨ s.proxies.isProxyingRequest req.sip = true then (s, [.discard])
  else if req.method = .invite then
    if env.trying = false then (s, [])
    else if c.alwaysSend180 = true ∧ env.ringing = false then (s, [.reply 100])
    else
      let new := s.processNewRequest c env req
      (new.1, .reply 100 :: (if c.alwaysSend180 = true then [.reply 180] else []) ++ new.2)
  else if req.method = .options ∧ req.userAgent = some c.userAgentAutoAnswerOptions then (s, [.reply 200])
  else s.processNewRequest c env req

/-- A CANCEL that comes before the disposition of its INVITE -/
def processCancel (env : DispatchEnv) (req : NetRequest) (s : Server) : Server × List Act :=
  match s.pending.findInviteByCallId req.sip.callId.val with
  | some p =>
    ({ s with pending := s.pending.cancel p },
      (env.cancelClient.toList.map fun client => .passCancel client p.transactionId) ++ [.reply 200,
      .terminate p.transactionId])
  | none => (s, [.reply 481])

/-- The switch over the methods -/
def processMethod (c : Setup) (env : DispatchEnv) (req : NetRequest) (s : Server) : Server × List Act :=
  match req.method with
  | .invite | .register | .message | .options | .info | .notify | .subscribe | .publish => s.processRequest c env req
  | .prack => (s, [.crash .prack])
  | .cancel => s.processCancel env req
  | .update | .bye => (s, [.reply 481])
  | .ack | .refer | .unknown => (s, [.discard])

/-- What comes behind the checks -/
def processScreened (c : Setup) (env : DispatchEnv) (req : NetRequest) (s : Server) : Server × List Act :=
  match routed c req with
  | .crashes => (s, [.crash .nullRouteHost])
  | .here => s.processRequestWithRouteHeader env req
  | .no =>
    if s.proxies.isProxyingRequest req.sip = true then s.processRequestWithoutRouteHeader env req
    else
      match if req.method = .register then checkRegister c req else .passes with
      | .passes => s.processMethod c env req
      | verdict => (s, verdict.acts)

/-- A request in `processMessageStatelessly` -/
def request (c : Setup) (env : DispatchEnv) (req : NetRequest) (s : Server) : Server × List Act :=
  match screen c env req with
  | .passes =>
    { s with aliases := s.aliases.cacheContactAlias c.contactAlias req.tport (some req.heard) }.processScreened c env req
  | verdict => (s, verdict.acts)

/-- A response there, with `SipProxyController::processResponse` -/
def response (env : DispatchEnv) (r : NetResponse) (s : Server) : Server × List Act :=
  if env.blackListed = true ∨ r.tport.isNone = true then (s, [])
  else if r.response.method = .prack then (s, [.forwardResponse])
  else
    match s.proxies.getProxy r.sip with
    | some k => (s.call k (takeResponse env.core r.response), [])
    | none => (s, if r.sip.via.tail = [] then [.discard] else [.forwardResponse])

/-- What happens to the tables: messages, a proxy command of an application or of the routing server, a response of an
    application, and timers. -/
inductive Event where
  | request (env : DispatchEnv) (req : NetRequest)
  | response (env : DispatchEnv) (r : NetResponse)
  | doProxy (transactionId : String) (k : Proxy.Settings) (env : Proxy.Env) (maxForwards : Option UInt64)
    (destinations : List String)
  | setupLegForIncomingRequest (transactionId : String)
  | timeout (handle : Nat)
  | timer (core : Nat) (env : Proxy.Env) (t : TimerName) (client : Nat)

def step (c : Setup) (s : Server) : Event → Server × List Act
  | .request env req => s.request c env req
  | .response env r => s.response env r
  | .doProxy transactionId k env maxForwards destinations => (s.doProxy transactionId k env maxForwards destinations, [])
  | .setupLegForIncomingRequest transactionId => ({ s with pending := (s.pending.findAndRemove transactionId false).1 }, [])
  | .timeout handle => ({ s with pending := s.pending.fire handle }, [])
  | .timer core env t client => (s.call core fun x => x.step ⟨env, .timer t client⟩, [])

end Server

end Drachtio.Controller
