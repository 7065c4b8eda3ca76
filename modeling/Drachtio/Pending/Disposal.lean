import Drachtio.Pending.PendingRequests

/-! What becomes of a pending request: a CANCEL from the network, a response or a proxy command from an
    application or the routing server, and the delivery to a client over an inbound or outbound connection.

    Each handler runs to its end on the stack thread or, for deliveries, under the lock of the tables. The
    messages that lead to them are posted in between, so the handlers run in any order.

    An INVITE is sent again until its sender has a response, and it can come in again when its request has left the
    tables. Each time it is a message of its own, so that it is remembered which INVITE a message is. -/

namespace Drachtio.Pending

open Client (ClientId)
open Sip (Message makeUniqueSipTransactionIdentifier)

/-- What leaves the server for a request, named by its transaction id. -/
inductive Event where
  /-- A response to a CANCEL -/
  | toCancel (status : Nat)
  /-- The CANCEL is passed on to the client that has the request. -/
  | passCancel (client : ClientId) (transactionId : String)
  /-- The 487 to an INVITE that was canceled while it was pending -/
  | terminate (transactionId : String)
  /-- Another response to the request -/
  | respond (transactionId : String) (status : Nat)
  /-- The request is sent to the targets of a proxy command. -/
  | forward (transactionId : String)
  /-- The request is delivered to an application. -/
  | deliver (client : ClientId) (transactionId : String)
deriving DecidableEq, Repr

/-- The event answers, forwards or delivers the request. -/
def Event.Disposes (t : String) : Event → Prop
  | .toCancel _ => False
  | .passCancel _ _ => False
  | .terminate t' => t' = t
  | .respond t' _ => t' = t
  | .forward t' => t' = t
  | .deliver _ t' => t' = t

instance (t : String) (e : Event) : Decidable (e.Disposes t) :=
  match e with
  | .toCancel _ => isFalse id
  | .passCancel _ _ => isFalse id
  | .terminate t' => inferInstanceAs (Decidable (t' = t))
  | .respond t' _ => inferInstanceAs (Decidable (t' = t))
  | .forward t' => inferInstanceAs (Decidable (t' = t))
  | .deliver _ t' => inferInstanceAs (Decidable (t' = t))

/-- What a request meets in `processMessageStatelessly` besides what `Arrival` says. -/
structure Reception where
  /-- Its source is blacklisted, or its transport is gone. -/
  dropped : Bool
  /-- The response of a check that is made before anything is looked up: of its sanity, its headers, for spammers -/
  refused : Option Nat
  alwaysSend180 : Bool
  /-- When the 100 and the 180 cannot both be sent, whether the 100 was. -/
  sentTrying : Bool

/-- A request that the stack has a leg for, and what `processRequestInsideDialog` does with it: it sends responses, it
    delivers the request, and it waits for the application to answer. -/
structure LegRequest where
  sip : Message
  hasToTag : Bool
  uuid : String
  statuses : List Nat
  client : Option ClientId
  waits : Bool

/-- The INVITE that a message is, when it begins a call: whatever is sent again has the same identifier. -/
def inviteName (sip : Message) (hasToTag : Bool) : Option String :=
  if sip.request = some .invite ∧ hasToTag = false then some (makeUniqueSipTransactionIdentifier sip) else none

/-- How setting up a leg for a pending request can fail. -/
structure LegEnv where
  tportShutdown : Bool
  createFails : Bool

/-- What a proxy command meets: no hops left, and the number of requests that were sent out. -/
structure ProxyEnv where
  maxForwardsUsed : Bool
  started : Nat

structure Disposal where
  pending : PendingRequests
  /-- The INVITEs that came in, by the ids of their messages. -/
  invites : AList fun _ : String => String
  /-- The transactions that have a leg or an incoming transaction in the dialog controller. -/
  answering : List String
  log : List Event

namespace Disposal

def empty : Disposal := ⟨.empty, ∅, [], []⟩

def emit (es : List Event) (s : Disposal) : Disposal := { s with log := s.log ++ es }

/-- It is remembered which INVITE the message is. -/
def receive (uuid : String) (sip : Message) (hasToTag : Bool) (s : Disposal) : Disposal :=
  match inviteName sip hasToTag with
  | some id => { s with invites := s.invites.insert uuid id }
  | none => s

/-- The 100 and the 180 for an INVITE that is no retransmission -/
def trying (a : Arrival) (r : Reception) : List Nat :=
  if a.sip.request ≠ some .invite then []
  else if a.tryingFails = true then if r.alwaysSend180 = true ∧ r.sentTrying = true then [100] else []
  else if r.alwaysSend180 = true then [100, 180]
  else [100]

/-- What becomes of a request after that, in `processMessageStatelessly` and `processNewRequest`. -/
def newRequestEvents (a : Arrival) : List Event :=
  if a.sip.request = some .invite ∧ a.tryingFails = true then []
  else if a.sip.request = some .options ∧ a.autoAnswered = true then [.respond a.uuid 200]
  else if a.sip.request = some .invite ∧ a.hasToTag = true then [.respond a.uuid 481]
  else if a.routed = true then []
  else match a.client with
    | none => [.respond a.uuid 503]
    | some client => [.deliver client a.uuid]

/-- The request is processed: it is of a method for it, and no retransmission. -/
def Processes (a : Arrival) (s : Disposal) : Prop :=
  a.sip.request.any isNewRequest = true ∧ s.pending.isRetransmission a.sip = false ∧ a.proxied = false

instance (a : Arrival) (s : Disposal) : Decidable (s.Processes a) := instDecidableAnd

/-- A request from the network. One that the proxy knows is the business of its core; one with a To tag and a Route
    belongs to a dialog. -/
def arrive (a : Arrival) (r : Reception) (s : Disposal) : Disposal :=
  if r.dropped = true then s
  else match r.refused with
    | some status => (s.receive a.uuid a.sip a.hasToTag).emit [.respond a.uuid status]
    | none =>
      if s.Processes a then
        { s.receive a.uuid a.sip a.hasToTag with pending := s.pending.arrive a }.emit
          ((trying a r).map (Event.respond a.uuid) ++ newRequestEvents a)
      else s

/-- A request for a leg. It can be an INVITE without a To tag, which is refused with 491 once the call is answered. -/
def requestInsideDialog (q : LegRequest) (s : Disposal) : Disposal :=
  let s := s.receive q.uuid q.sip q.hasToTag
  { s with answering := if q.waits = true then q.uuid :: s.answering else s.answering }.emit
    (q.statuses.map (Event.respond q.uuid) ++ q.client.toList.map fun client => Event.deliver client q.uuid)

/-- The end of both ways a CANCEL takes: the client hears of it, it is answered, and so is the INVITE. -/
def cancelFound (p : PendingRequest) (client : Option ClientId) (s : Disposal) : Disposal :=
  { s with pending := s.pending.cancel p }.emit
    ((client.toList.map fun client => Event.passCancel client p.transactionId) ++
      [Event.toCancel 200, Event.terminate p.transactionId])

/-- A CANCEL in `processMessageStatelessly`; `client` has the net transaction of the INVITE found. -/
def cancel (callId : String) (client : Option ClientId) (s : Disposal) : Disposal :=
  match s.pending.findInviteByCallId callId with
  | some p => s.cancelFound p client
  | none => s.emit [.toCancel 481]

/-- A CANCEL for a leg, in `SipDialogController::processRequestInsideDialog`. When no pending INVITE is found
    it comes too late for the dialog of the leg, which is torn down. When a branch is missing the server ends. -/
def cancelInsideDialog (logsInfo : Bool) (sip : Message) (client : Option ClientId) (s : Disposal) : Disposal :=
  match s.pending.findInviteByCallIdAndBranch logsInfo sip with
  | none => s
  | some (some p) => s.cancelFound p client
  | some none => s.emit [.toCancel 481]

def setupLegForIncomingRequest (transactionId : String) (env : LegEnv) (s : Disposal) : Disposal × Bool :=
  let (pending, p) := s.pending.findAndRemove transactionId false
  let s := { s with pending := pending }
  match p with
  | none => (s, false)
  | some p =>
    if pending.isCanceled p = true then (s, false)
    else if env.tportShutdown = true then (s, false)
    else if env.createFails = true then (s, false)
    else ({ s with answering := transactionId :: s.answering }, true)

/-- `doRespondToSipRequest`: a transaction of the dialog controller is answered, or one is made of the
    pending request. The status is that of the response which goes out, if one does. -/
def respond (transactionId : String) (status : Option Nat) (env : LegEnv) (s : Disposal) : Disposal :=
  if transactionId ∈ s.answering then s.emit (status.toList.map (Event.respond transactionId))
  else
    let (s, ok) := s.setupLegForIncomingRequest transactionId env
    if ok = true then s.emit (status.toList.map (Event.respond transactionId)) else s

/-- `doProxy`, which does not ask whether the request was canceled. -/
def proxy (transactionId : String) (env : ProxyEnv) (s : Disposal) : Disposal :=
  let (pending, p) := s.pending.findAndRemove transactionId false
  let s := { s with pending := pending }
  match p with
  | none => s
  | some _ =>
    if env.maxForwardsUsed = true then s.emit [.respond transactionId 483]
    else if env.started = 0 then s.emit [.respond transactionId 500]
    else s.emit [.forward transactionId]

/-- `routeNewRequestToClient`, for an outbound connection that is ready and for a route by tag; when the
    request is not found a 480 is posted, which is a `respond` of its own. -/
def routeNewRequestToClient (client : ClientId) (transactionId : String) (s : Disposal) : Disposal :=
  match s.pending.find transactionId with
  | none => s
  | some p => s.emit [.deliver client p.transactionId]

inductive Op where
  | arrive (a : Arrival) (r : Reception)
  | requestInsideDialog (q : LegRequest)
  | cancel (callId : String) (client : Option ClientId)
  | cancelInsideDialog (logsInfo : Bool) (sip : Message) (client : Option ClientId)
  | respond (transactionId : String) (status : Option Nat) (env : LegEnv)
  | proxy (transactionId : String) (env : ProxyEnv)
  | routeNewRequestToClient (client : ClientId) (transactionId : String)
  | fire (handle : Nat)

def step (s : Disposal) : Op → Disposal
  | .arrive a r => s.arrive a r
  | .requestInsideDialog q => s.requestInsideDialog q
  | .cancel callId client => s.cancel callId client
  | .cancelInsideDialog logsInfo sip client => s.cancelInsideDialog logsInfo sip client
  | .respond transactionId status env => s.respond transactionId status env
  | .proxy transactionId env => s.proxy transactionId env
  | .routeNewRequestToClient client transactionId => s.routeNewRequestToClient client transactionId
  | .fire handle => { s with pending := s.pending.fire handle }

end Disposal

end Drachtio.Pending
