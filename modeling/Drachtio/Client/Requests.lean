import Drachtio.Client.Commands
import Drachtio.Lib.Run
import Drachtio.Proxy.ProxyCore
import Mathlib.Data.Finset.Lattice.Fold

/-! The way of an application's request through the server. The client thread enters it in m_mapApiRequests and
    posts a message; a handler of the stack thread takes the message and answers; a proxied request may be answered
    by its core later on (sip-dialog-controller.cpp, sip-proxy-controller.cpp). Of the handlers that send requests and
    responses only what they answer is modelled here. -/

namespace Drachtio.Client

open Proxy (Method ProxyCore)

/-! ### What is answered -/

/-- The arguments of `route_api_response` besides the id. -/
structure Reply where
  responseText : String
  data : String
deriving DecidableEq, Repr

namespace Reply

def ok (data : String) : Reply := ⟨"OK", data⟩

def nok (data : String) : Reply := ⟨"NOK", data⟩

end Reply

/-- A message that went out, or came in, as applications get to see it (SipMsgData_t, EncodeStackMessage). -/
structure Sent where
  metaData : String
  encodedMessage : String
deriving DecidableEq, Repr

/-- The data for a request or response that was sent. -/
def msgSent (ids : String) (m : Sent) : String := m.metaData ++ "|" ++ ids ++ "|Msg sent:|" ++ "\r\n" ++ m.encodedMessage

/-! ### Requests inside a dialog -/

/-- What is thrown after the dialog of a request was found. -/
inductive InsideError where
  | noLeg | noRoute | noHost | invalidMethod | missingContentType | noInviteInProgress | noTransaction
deriving DecidableEq, Repr

def InsideError.what (d : SipMessageData) : InsideError → String
  | .noLeg => "unable to find active leg for dialog"
  | .noRoute => "unable to find route when sending request inside dialog for dialog id " ++ d.dialogId
  | .noHost => "unable to find route for empty host when sending request inside dialog for dialog id " ++ d.dialogId
  | .invalidMethod => "invalid or missing method supplied on start line: " ++ d.startLine
  | .missingContentType => "missing content-type"
  | .noInviteInProgress => "unable to find IIP when sending PRACK"
  | .noTransaction => "Error creating sip transaction for request"

/-- What a request inside a dialog meets. -/
structure InsideEnv where
  /-- The method of the start line -/
  method : Method
  /-- The status of the dialog that is found -/
  dialog : Option Nat
  error : Option InsideError
  sent : Sent

/-- The try block of `doSendRequestInsideDialog`: what it answers, or the error it throws. -/
def SipMessageData.requestInsideDialog (env : InsideEnv) (d : SipMessageData) : Except String Reply :=
  match env.dialog, env.error with
  | none, _ =>
    .error (if env.method = .ack then "ACK for non-success final response is automatically generated by server"
      else "unable to find dialog for dialog id provided")
  | some _, some e => .error (e.what d)
  | some status, none =>
    .ok (if env.method = .ack ∧ status ≠ 200 then .nok "ACK for non-success responses is automatically generated by the stack"
      else .ok (msgSent d.transactionId env.sent))

/-! ### Requests outside a dialog -/

inductive OutsideError where
  | invalidStartLine | noTransport | invalidFrom (given : String) | missingContentType | invalidUri (uri : String)
  | toMyself | noLeg | noTransaction
deriving DecidableEq, Repr

def OutsideError.what (d : SipMessageData) : OutsideError → String
  | .invalidStartLine => "invalid request-uri: " ++ d.startLine
  | .noTransport => "requested protocol/transport not available"
  | .invalidFrom given => "invalid from value provided by client: " ++ given
  | .missingContentType => "missing content-type"
  | .invalidUri uri => "invalid request-uri: " ++ uri
  | .toMyself => "can not send request to myself"
  | .noLeg => "Error creating leg"
  | .noTransaction => "Error creating sip transaction for uac request"

/-- What a request outside a dialog meets. -/
structure OutsideEnv where
  error : Option OutsideError
  sent : Sent

/-- The try block of `doSendRequestOutsideDialog` -/
def SipMessageData.requestOutsideDialog (env : OutsideEnv) (d : SipMessageData) : Except String Reply :=
  match env.error with
  | some e => .error (e.what d)
  | none => .ok (.ok (msgSent d.transactionId env.sent))

/-! ### CANCELs -/

/-- What a CANCEL meets. -/
structure CancelEnv where
  /-- The transaction id is the one of an invite in progress. -/
  found : Bool
  /-- The CANCEL that is sent, with the transaction id it gets -/
  sent : Option (String × Sent)

def SipMessageData.cancelRequest (env : CancelEnv) (d : SipMessageData) : Reply :=
  if env.found = true then
    match env.sent with
    | some (cancelTransactionId, m) => .ok (msgSent cancelTransactionId m)
    | none => .nok ("internal server error canceling transaction id: " ++ d.transactionId)
  else .nok ("unable to cancel unknown transaction id: " ++ d.transactionId)

/-! ### Responses -/

/-- Why a response is not sent (failMsg), or seems to be sent and is not. -/
inductive RespondError where
  | transportClosed | noTransport | sendError | connectionError | dialogExists | no100rel | unknownTransaction
  | cancelAnswered | farEndClosed
deriving DecidableEq, Repr

def RespondError.failMsg : RespondError → String
  | .transportClosed => "transport for response has been shutdown or closed"
  | .noTransport => "Unable to find transport for transaction"
  | .sendError => "Unknown server error sending response"
  | .connectionError => "connection error: remote side may have closed socket"
  | .dialogExists => "dialog already exists, rejecting this request"
  | .no100rel => "Remote endpoint does not support 100rel"
  | .unknownTransaction => "Response not sent due to unknown transaction"
  | .cancelAnswered => "200 OK to incoming CANCEL is automatically generated by the stack"
  | .farEndClosed => "failed sending, possibly due to far end closing socket"

/-- What a response meets. -/
structure RespondEnv where
  error : Option RespondError
  /-- The id of the dialog it belongs to -/
  dialogId : String
  /-- It is final, so that the transaction is flushed. -/
  flush : Bool
  sent : Sent

def SipMessageData.respond (env : RespondEnv) (d : SipMessageData) : Reply :=
  match env.error with
  | some e => .nok e.failMsg
  | none => .ok (msgSent (d.transactionId ++ "|" ++ env.dialogId ++ "|") env.sent)

/-! ### Proxied requests -/

/-- setProvisionalTimeout: digits with a unit, anything else is ignored. -/
def provisionalTimeoutMs (t : String) : UInt32 :=
  let digits := t.toList.takeWhile Char.isDigit
  let unit := t.toList.dropWhile Char.isDigit
  let n := UInt32.ofNat (digits.foldl (fun n c => 10 * n + (c.toNat - '0'.toNat)) 0)
  if digits = [] then 0
  else if unit = "ms".toList then n
  else if unit = "s".toList then n * 1000
  else 0

namespace ProxyData

def maxDestinations : Nat := 10

/-- The destinations up to the first empty one -/
def getDestinations (d : ProxyData) : List String := (d.destinations.take maxDestinations).takeWhile (· ≠ "")

/-- A strncpy into a row of an array: it writes as many characters as it is told to, with zeros behind a shorter text. -/
structure Copy where
  row : Nat
  rows : Nat
  count : Nat
  size : Nat
deriving DecidableEq, Repr

def Copy.inBounds (c : Copy) : Bool := decide (c.row < c.rows) && decide (c.count ≤ c.size)

/-- The copies of the constructor; the row of a destination is its place in the list. -/
def copies (destinations : List String) : List Copy :=
  [⟨0, 1, msgIdLen - 1, msgIdLen⟩, ⟨0, 1, msgIdLen - 1, msgIdLen⟩, ⟨0, 1, 15, 16⟩, ⟨0, 1, 15, 16⟩,
    ⟨0, 1, hdrStrLen - 1, hdrStrLen⟩] ++
    destinations.zipIdx.map fun x => ⟨x.2, maxDestinations, uriLen - 1, uriLen⟩

def settings (d : ProxyData) : Proxy.Settings where
  launchType := if d.simultaneous = true then .simultaneous else .serial
  fullResponse := d.fullResponse
  followRedirects := d.followRedirects
  provisionalTimeout := provisionalTimeoutMs d.provisionalTimeout

end ProxyData

/-- What a proxied request meets. -/
structure ProxyEnv where
  /-- The pending request that the transaction id leads to -/
  pending : Option Proxy.Request
  /-- The target that challenged the request this one repeats (isResponseToChallenge) -/
  challengedBy : Option String
  stack : Proxy.Env

/-- What a core tells the application, in the arguments of `route_api_response` -/
def replyOf (render : Proxy.Response → Sent) : Proxy.ApiReply → Reply
  | .nok text => .nok text
  | .done => .ok "done"
  | .continued r => .ok ((render r).metaData ++ "|||continue" ++ "\r\n" ++ (render r).encodedMessage)

namespace Server

def answer (clientMsgId : String) (reply : Reply) (s : Server) : Server :=
  s.routeApiResponse clientMsgId reply.responseText reply.data

/-- The replies among what a core does go to the application. -/
def report (render : Proxy.Response → Sent) (clientMsgId : String) (w : List Proxy.Output) (s : Server) : Server :=
  w.foldl (fun s x =>
    match x with
    | .api reply => s.answer clientMsgId (replyOf render reply)
    | _ => s) s

/-! ### The handlers of the stack thread -/

def doSendRequestInsideDialog (env : InsideEnv) (d : SipMessageData) (s : Server) : Server :=
  match d.requestInsideDialog env with
  | .ok reply => s.answer d.clientMsgId reply
  | .error what => (s.answer d.clientMsgId (.nok ("Server error: " ++ what))).removeAppTransaction d.transactionId

def doSendRequestOutsideDialog (env : OutsideEnv) (d : SipMessageData) (s : Server) : Server :=
  match d.requestOutsideDialog env with
  | .ok reply => s.answer d.clientMsgId reply
  | .error what => (s.answer d.clientMsgId (.nok what)).removeAppTransaction d.transactionId

def doSendCancelRequest (env : CancelEnv) (d : SipMessageData) (s : Server) : Server :=
  s.answer d.clientMsgId (d.cancelRequest env)

def doRespondToSipRequest (env : RespondEnv) (d : SipMessageData) (s : Server) : Server :=
  let s := s.answer d.clientMsgId (d.respond env)
  if env.flush = true then s.removeNetTransaction d.transactionId else s

end Server

/-! ### The system -/

/-- A core, with the id of the command that asked for it -/
structure Proxying where
  clientMsgId : String
  core : ProxyCore

structure System where
  server : Server
  /-- The next client that connects -/
  nextClient : ClientId
  proxies : List Proxying

/-- What a handler meets, by the message it takes. -/
structure WorkEnv where
  inside : InsideEnv
  outside : OutsideEnv
  cancel : CancelEnv
  respond : RespondEnv
  proxy : ProxyEnv
  render : Proxy.Response → Sent

namespace System

/-- No client has asked for anything yet. -/
def start (clients : Finset ClientId) : System where
  server := ⟨clients, [], ∅, ∅, ∅, ∅, [], []⟩
  nextClient := clients.sup id + 1
  proxies := []

inductive Op where
  | connect
  | disconnect (client : ClientId)
  /-- A message of a client -/
  | message (client : ClientId) (env : CommandEnv) (msg : String)
  /-- Work of the server itself, under the empty id: a 480 when no outbound connection can be made, or what the
      routing server asks for -/
  | post (job : Job)
  /-- The stack thread takes the oldest message posted to it. -/
  | work (env : WorkEnv)
  /-- Something happens to a core. -/
  | proxy (n : Nat) (i : Proxy.Input) (render : Proxy.Response → Sent)

/-- doProxy -/
def doProxy (env : ProxyEnv) (render : Proxy.Response → Sent) (d : ProxyData) (s : System) : System :=
  match env.pending with
  | none => { s with server := s.server.answer d.clientMsgId (.nok ("Unknown transaction id: " ++ d.transactionId)) }
  | some req =>
    let destinations := (env.challengedBy.map ([·])).getD d.getDestinations
    let core := ProxyCore.doProxy d.settings env.stack req destinations
    { s with
      server := s.server.report render d.clientMsgId core.log
      proxies := s.proxies ++ [⟨d.clientMsgId, core⟩] }

/-- A message of the stack thread's queue is handled. -/
def doWork (env : WorkEnv) (s : System) : Job → System
  | .sendRequestInsideDialog d => { s with server := s.server.doSendRequestInsideDialog env.inside d }
  | .sendRequestOutsideDialog d => { s with server := s.server.doSendRequestOutsideDialog env.outside d }
  | .sendCancelRequest d => { s with server := s.server.doSendCancelRequest env.cancel d }
  | .respondToSipRequest d => { s with server := s.server.doRespondToSipRequest env.respond d }
  | .proxyRequest d => s.doProxy env.proxy env.render d

/-- An event for a core, whose new replies go to the application. -/
def proxyEvent (n : Nat) (i : Proxy.Input) (render : Proxy.Response → Sent) (s : System) : System :=
  match s.proxies[n]? with
  | none => s
  | some p =>
    let core := p.core.step i
    { s with
      server := s.server.report render p.clientMsgId (core.log.drop p.core.log.length)
      proxies := s.proxies.set n { p with core := core } }

end System

def Job.clientMsgId : Job → String
  | .sendRequestInsideDialog d | .sendRequestOutsideDialog d | .sendCancelRequest d | .respondToSipRequest d => d.clientMsgId
  | .proxyRequest d => d.clientMsgId

namespace System

/-- What a message of a client comes to; its tags have no part in it. -/
def outcome (k : Config) (client : ClientId) (env : CommandEnv) (msg : String) (s : System) : Outcome :=
  Session.processClientMessage k env msg ⟨client, ∅, true, s.server⟩

def step (k : Config) (s : System) : Op → System
  | .connect =>
    { s with server := { s.server with clients := insert s.nextClient s.server.clients }, nextClient := s.nextClient + 1 }
  | .disconnect client => { s with server := { s.server with clients := s.server.clients.erase client } }
  | .message client env msg =>
    if client ∈ s.server.clients then { s with server := (s.outcome k client env msg).session.server } else s
  | .post job => if job.clientMsgId = "" then { s with server := s.server.post job } else s
  | .work env =>
    match s.server.posted with
    | [] => s
    | job :: posted => { s with server := { s.server with posted := posted } }.doWork env job
  | .proxy n i render => s.proxyEvent n i render

end System

end Drachtio.Client
