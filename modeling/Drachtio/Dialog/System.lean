import Drachtio.Dialog.Network

/-! The work that the stack thread does for applications: responses to requests, requests inside and outside a
    dialog, and CANCELs (sip-dialog-controller.cpp, controller.cpp); and the whole system, in which these, the
    messages from the network and the timers come in any order.

    What a client thread does before it posts a message, the making of a transaction, is part of the handler
    here: nothing looks at the transaction in between. -/

namespace Drachtio.Dialog

open Proxy (Method)
open Client (ClientId)
open Pending (PendingRequests PendingRequest Arrival)

/-- What a response from an application meets. -/
structure RespondEnv where
  /-- The leg that is made for a pending request, the From tag of that request, and how it can fail. -/
  leg : Leg
  fromTag : String
  tportShutdown : Bool
  createFails : Bool
  /-- The leg that `nta_leg_by_call_id` finds. -/
  found : Option Leg
  /-- The transport for the response is gone. -/
  transportGone : Bool
  /-- The application asks for a reliable provisional response, which is made unless the peer does not know them. -/
  requires100rel : Bool
  rel : Option Reliable
  replyFails : Bool
  /-- The headers have the CSeq of an UPDATE. -/
  cseqUpdate : Bool

/-- What a request from an application meets. -/
structure SendEnv where
  /-- The request is not sent: there is no route, its headers are wrong, or the like. -/
  fails : Bool
  orq : Orq
  /-- The Subscription-State says that the subscription has ended. -/
  terminated : Bool

/-- What a request outside a dialog meets. -/
structure SendOutsideEnv where
  fails : Bool
  orq : Orq
  leg : Leg
  callId : String
  fromTag : String
  /-- The dialog id that a request gets whose start line has "INVITE" in it. -/
  dialogId : String

/-- The dialog of an INVITE or SUBSCRIBE that came in, or that is sent. -/
def SipDialog.new (callId fromTag transactionId : String) (isInvite : Bool) (owner : Option ClientId) (status : Nat) :
    SipDialog where
  callId := callId
  fromTag := fromTag
  transactionId := transactionId
  isInvite := isInvite
  owner := owner
  status := status
  incoming := []
  update := none
  ackBye := false
  invite := none
  stable := false
  timerH := false

namespace Registries

/-! ### Responses of an application -/

/-- A new object, with its invite in progress -/
def newDialog (leg : Leg) (d : SipDialog) (orq : Option Orq) (s : Registries) : Registries :=
  { s with legs := s.legs.insert leg d }.insertInvite leg ⟨orq, [], false⟩

/-- setupLegForIncomingRequest -/
def setupLegForIncomingRequest (transactionId : String) (env : RespondEnv) (s : Registries) : Registries :=
  let (pending, p) := s.pending.findAndRemove transactionId false
  let s := { s with pending := pending }
  match p with
  | none => s
  | some p =>
    if pending.isCanceled p = true ∨ env.tportShutdown = true ∨ env.createFails = true then s
    else
      let method := p.sip.request.getD .unknown
      if method = .invite ∨ method = .subscribe then
        s.newDialog env.leg
          (.new p.sip.callId.val env.fromTag transactionId (method == .invite)
            (s.netTransactions.lookup transactionId) 100) none
      else s.addIncomingRequestTransaction transactionId ⟨method, s.netTransactions.lookup transactionId⟩

/-- The transaction is flushed from the client controller on a final response. `existing`: the request came in an
    existing dialog. -/
def flushTransaction (transactionId : String) (code : Nat) (method : Method) (existing : Bool) (s : Registries) :
    Registries :=
  if (method ≠ .invite ∧ 200 ≤ code) ∨ (method = .invite ∧ 200 < code) ∨
    (method = .invite ∧ code = 200 ∧ existing = true) then
    s.removeNetTransaction transactionId
  else s

/-- A response to a request in a dialog -/
def respondToIrq (transactionId : String) (code : Nat) (irq : Irq) (existing : Bool) (env : RespondEnv)
    (s : Registries) : Registries :=
  let s := s.removeIrq transactionId
  let s :=
    match if existing = true then env.found else none with
    | some leg =>
      match s.findDialogByLeg leg with
      | some _ => s.modify leg fun d => { d with incoming := d.incoming.erase transactionId }
      | none => s
    | none => s
  s.flushTransaction transactionId code irq.method existing

/-- A response to the UPDATE of an INVITE in progress -/
def respondToUpdate (leg : Leg) (updateTransactionId : String) (s : Registries) : Registries :=
  (((s.removeIrq updateTransactionId).modify leg
    fun d => { d with incoming := d.incoming.erase updateTransactionId }).removeNetTransaction updateTransactionId).modify leg
    fun d => { d with update := none }

/-- The method of the irq of an invite in progress, which one that we sent does not have. -/
def inviteMethod (d : SipDialog) : Method :=
  if d.invite.any (·.orq.isNone) then (if d.isInvite = true then .invite else .subscribe) else .unknown

/-- A response goes out: a 200 for an INVITE and a 200 or 202 for a SUBSCRIBE make the dialog. -/
def replyToInvite (leg : Leg) (d : SipDialog) (code : Nat) (s : Registries) : Registries :=
  if d.isInvite = true then
    if code = 200 then (s.addDialog leg d).modify leg fun d => { d with timerH := true } else s
  else if code = 202 ∨ code = 200 then s.addDialog leg d
  else s

/-- The response is sent on, unless a final one has been sent, the transport is gone or the dialog id is already
    that of a stable dialog (a forked INVITE, which gets a 480). The result says whether the invite in progress
    is done. -/
def sendResponse (leg : Leg) (d : SipDialog) (code : Nat) (env : RespondEnv) (s : Registries) : Registries × Bool :=
  if 200 ≤ d.status then (s, false)
  else if env.transportGone = true ∨ d.invite.any (·.orq.isSome) then (s, false)
  else if (s.findDialogById d.dialogId).isSome then (s, false)
  else
    let s := s.modify leg fun d => { d with status := code }
    if 100 < code ∧ code < 200 ∧ d.isInvite = true ∧ env.requires100rel = true then
      match env.rel with
      | some rel =>
        (s.modify leg fun d => { d with invite := d.invite.map fun i => { i with reliables := rel :: i.reliables } }, false)
      | none => (s, false)
    else if env.replyFails = true then (s, false)
    else (s.replyToInvite leg d code, !d.isInvite)

/-- A response to an INVITE or SUBSCRIBE in progress, or to its UPDATE -/
def respondToInvite (leg : Leg) (d : SipDialog) (code : Nat) (env : RespondEnv) (s : Registries) : Registries :=
  match if env.cseqUpdate = true then d.update else none with
  | some updateTransactionId => s.respondToUpdate leg updateTransactionId
  | none =>
    let sent := s.sendResponse leg d code env
    let s := sent.1.flushTransaction d.transactionId code (inviteMethod d) false
    if sent.2 = true then s.clearInvite leg else s

def doRespondToSipRequest (transactionId : String) (code : Nat) (env : RespondEnv) (s : Registries) : Registries :=
  match s.irqs.lookup transactionId with
  | some irq => s.respondToIrq transactionId code irq true env
  | none =>
    match s.findInviteByTransactionId transactionId with
    | some (leg, d) => s.respondToInvite leg d code env
    | none =>
      let s := s.setupLegForIncomingRequest transactionId env
      match s.findInviteByTransactionId transactionId with
      | some (leg, d) => s.respondToInvite leg d code env
      | none =>
        match s.irqs.lookup transactionId with
        | some irq => s.respondToIrq transactionId code irq false env
        | none => s.flushTransaction transactionId code .unknown false

/-! ### Requests of an application -/

/-- An ACK makes no transaction. -/
def addTransactionFor (client : ClientId) (method : Method) (transactionId : String) (s : Registries) : Registries :=
  if method = .ack then s else s.addAppTransaction client transactionId

/-- A re-INVITE of ours that is in progress is canceled before a BYE is sent. -/
def cancelReinvite (leg : Leg) (d : SipDialog) (s : Registries) : Registries :=
  if d.invite.any (·.orq.isSome) then (s.clearInvite leg).clearRIPByDialogId d.dialogId else s

/-- The ACK for the 200 to our INVITE, after which a call that was canceled in the meantime is ended. -/
def sendAck (leg : Leg) (d : SipDialog) (s : Registries) : Registries :=
  if d.status = 200 then
    let s := s.clearInvite leg
    if d.ackBye = true then s.notifyTerminateStaleDialog leg d else s
  else s.clearStableById d.dialogId

/-- The request goes out. -/
def sendInTransaction (leg : Leg) (d : SipDialog) (transactionId : String) (method : Method) (env : SendEnv)
    (s : Registries) :
    Registries :=
  let s := s.addRIP env.orq ⟨transactionId, d.dialogId, some leg,
    method == .bye || (!d.isInvite && method == .notify && env.terminated)⟩
  if method = .invite then s.insertInvite leg ⟨some env.orq, [], false⟩ else s

def doSendRequestInsideDialog (client : ClientId) (transactionId dialogId : String) (method : Method) (env : SendEnv)
    (s : Registries) :
    Registries :=
  let s := s.addTransactionFor client method transactionId
  match s.findDialogById dialogId with
  | none => s.removeAppTransaction transactionId
  | some (leg, d) =>
    let s := if method = .bye then s.cancelReinvite leg d else s
    if env.fails = true ∨ (method = .prack ∧ d.invite.isNone = true) then s.removeAppTransaction transactionId
    else if method = .ack then s.sendAck leg d
    else s.sendInTransaction leg d transactionId method env

def doSendRequestOutsideDialog (client : ClientId) (transactionId : String) (method : Method) (env : SendOutsideEnv)
    (s : Registries) :
    Registries :=
  let s := s.addTransactionFor client method transactionId
  if env.fails = true then s.removeAppTransaction transactionId
  else if method = .invite ∨ method = .subscribe then
    s.newDialog env.leg (.new env.callId env.fromTag transactionId (method == .invite)
    (s.appTransactions.lookup transactionId) 0)
      (some env.orq)
  else s.addRIP env.orq ⟨transactionId, env.dialogId, none, false⟩

/-- doSendCancelRequest, of which the invite in progress keeps a mark even when the CANCEL is not sent. -/
def doSendCancelRequest (transactionId : String) (s : Registries) : Registries :=
  match s.findInviteByTransactionId transactionId with
  | some (leg, _) => s.modify leg fun d => { d with invite := d.invite.map fun i => { i with canceled := true } }
  | none => s

/-! ### The system -/

inductive Op where
  /-- A request outside a dialog -/
  | processMessageStatelessly (a : Arrival)
  /-- A CANCEL for a pending request -/
  | cancelPending (p : PendingRequest)
  /-- A pending request is handed to the client of an outbound connection or of a route by tag. -/
  | routeNewRequestToClient (client : ClientId) (transactionId : String)
  /-- Nobody has answered a pending request in time. -/
  | timeout (handle : Nat)
  /-- The proxy command of a client, and the work of the stack thread for it or for the routing server -/
  | proxyRequest (transactionId : String)
  | doProxy (transactionId : String)
  | doRespondToSipRequest (transactionId : String) (code : Nat) (env : RespondEnv)
  | doSendRequestInsideDialog (client : ClientId) (transactionId dialogId : String) (method : Method) (env : SendEnv)
  | doSendRequestOutsideDialog (client : ClientId) (transactionId : String) (method : Method) (env : SendOutsideEnv)
  | doSendCancelRequest (transactionId : String)
  | processRequestInsideDialog (leg : Leg) (r : Request)
  | processCancelOrAck (leg : Leg) (e : IncomingEvent)
  | processPrack (rel : Reliable) (r : Request)
  | processResponseOutsideDialog (orq : Orq) (resp : Response)
  | processResponseInsideDialog (orq : Orq) (resp : Response)
  | processResponseToRefreshingReinvite (orq : Orq) (status : Option Nat)
  | doSessionTimerHandling (leg : Leg) (refresh : Option (String × Option Orq))
  | notifyCancelTimeoutReachedIIP (leg : Leg)
  | endRetransmitFinalResponse (leg : Leg) (byeFails : Bool)
  | retransmitFinalResponse (leg : Leg)
  | timeoutBye (transactionId : String)
  | disconnect (client : ClientId)

/-- `routeNewRequestToClient` of the pending requests -/
def routeNewRequestToClient (client : ClientId) (transactionId : String) (s : Registries) : Registries :=
  match s.pending.find transactionId with
  | none => s
  | some _ => (s.addNetTransaction client transactionId).send client transactionId ""

/-- `timeout` of the pending requests, with the transaction id that is bound to it -/
def timeout (handle : Nat) (s : Registries) : Registries :=
  match s.pending.timeouts.lookup handle with
  | none => s
  | some transactionId => { s with pending := s.pending.fire handle }.removeNetTransaction transactionId

/-- What one handler does. -/
def handle (s : Registries) : Op → Registries
  | .processMessageStatelessly a => s.processMessageStatelessly a
  | .cancelPending p => { s with pending := s.pending.cancel p }
  | .routeNewRequestToClient client transactionId => s.routeNewRequestToClient client transactionId
  | .timeout h => s.timeout h
  | .proxyRequest transactionId => s.removeNetTransaction transactionId
  | .doProxy transactionId => { s with pending := (s.pending.findAndRemove transactionId false).1 }
  | .doRespondToSipRequest transactionId code env => s.doRespondToSipRequest transactionId code env
  | .doSendRequestInsideDialog client transactionId dialogId method env =>
    s.doSendRequestInsideDialog client transactionId dialogId method env
  | .doSendRequestOutsideDialog client transactionId method env =>
    s.doSendRequestOutsideDialog client transactionId method env
  | .doSendCancelRequest transactionId => s.doSendCancelRequest transactionId
  | .processRequestInsideDialog leg r => s.processRequestInsideDialog leg r
  | .processCancelOrAck leg e => s.processCancelOrAck leg e
  | .processPrack rel r => s.processPrack rel r
  | .processResponseOutsideDialog orq resp => s.processResponseOutsideDialog orq resp
  | .processResponseInsideDialog orq resp => s.processResponseInsideDialog orq resp
  | .processResponseToRefreshingReinvite orq status => s.processResponseToRefreshingReinvite orq status
  | .doSessionTimerHandling leg refresh => s.doSessionTimerHandling leg refresh
  | .notifyCancelTimeoutReachedIIP leg => s.notifyCancelTimeoutReachedIIP leg
  | .endRetransmitFinalResponse leg byeFails => s.endRetransmitFinalResponse leg byeFails
  | .retransmitFinalResponse leg => s.retransmitFinalResponse leg
  | .timeoutBye transactionId => s.timeoutBye transactionId
  | .disconnect client => { s with gone := insert client s.gone }

def step (s : Registries) (op : Op) : Registries := (s.handle op).collect

end Registries

end Drachtio.Dialog
