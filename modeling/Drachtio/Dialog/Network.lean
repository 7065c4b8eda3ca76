import Drachtio.Dialog.Tables

/-! What arrives from the network for a dialog: requests on its leg, the CANCEL, ACK and PRACK of an INVITE that
    is answered, and the responses to requests that were sent (sip-dialog-controller.cpp, with the routing of
    client-controller.cpp); and the timers of a dialog. -/

namespace Drachtio.Dialog

open Proxy (Method)
open Client (ClientId)
open Pending (PendingRequests PendingRequest Arrival)

/-- strstr -/
def contains (part text : String) : Bool := decide (part.toList <:+: text.toList)

/-- What is read of a request on a leg. -/
structure Request where
  /-- The message, and what it meets if it is treated as one outside a dialog. -/
  arrival : Arrival
  /-- The uuid that its transaction gets. -/
  transactionId : String
  /-- ss_substate of the Subscription-State header -/
  substate : Option String
  /-- o_type of the Event header -/
  event : Option String
  /-- x_delta of the Session-Expires header -/
  sessionExpires : Option Nat
  /-- The log level is info or debug when it comes in. -/
  logsInfo : Bool

namespace Request

def method (r : Request) : Method := r.arrival.sip.request.getD .unknown

/-- The Subscription-State says that the subscription has ended. -/
def terminated (r : Request) : Bool := r.substate.any (contains "terminated")

/-- isFinalNotifyForSubscribe -/
def isFinalNotify (r : Request) : Bool :=
  r.method == .notify && r.terminated && r.event.all fun e => !contains "refer" e && !contains "REFER" e

/-- The session timer is below the Min-SE of the dialog, which is always 90. -/
def tooSmall (r : Request) : Bool := (r.method == .invite || r.method == .update) && r.sessionExpires.any (· < 90)

/-- The methods that are passed on as requests outside a dialog while an INVITE is in progress. -/
def isStateless (r : Request) : Bool :=
  match r.method with
  | .notify | .options | .info | .message | .publish | .subscribe => true
  | _ => false

/-- The requests that end a dialog. -/
def ends (d : SipDialog) (r : Request) : Bool := r.method == .bye || (r.method == .notify && !d.isInvite && r.terminated)

end Request

/-- What is read of a response. -/
structure Response where
  /-- cs_method -/
  method : Method
  status : Nat
  /-- It has an RSeq header. -/
  reliable : Bool

namespace Registries

/-! ### Routing -/

/-- route_ack_request_inside_dialog -/
def routeAckRequestInsideDialog (transactionId inviteTransactionId dialogId : String) (s : Registries) : Registries :=
  match (s.findClientForDialog dialogId).or (s.findClientForNetTransaction inviteTransactionId) with
  | some client => (s.send client transactionId dialogId).removeNetTransaction inviteTransactionId
  | none => s

/-- route_request_inside_invite, the result of which only an UPDATE uses -/
def routeRequestInsideInvite (transactionId dialogId : String) (s : Registries) : Registries :=
  match ((s.findClientForDialog dialogId).or (s.findClientForNetTransaction transactionId)).or
      (s.findClientForAppTransaction transactionId) with
  | some client => s.send client transactionId dialogId
  | none => s

/-- The client that `route_request_inside_dialog` finds. -/
def clientForRequest (r : Request) (dialogId : String) (s : Registries) : Option ClientId :=
  (s.findClientForDialog dialogId).or
    (if r.method = .update then s.findClientForNetTransaction r.transactionId else none)

/-- route_request_inside_dialog: a BYE and a final NOTIFY end the dialog whether or not there is a client. -/
def routeRequestInsideDialog (r : Request) (dialogId : String) (s : Registries) : Registries × Bool :=
  let client := s.clientForRequest r dialogId
  let s := match client with
    | some client => (s.addNetTransaction client r.transactionId).send client r.transactionId dialogId
    | none => s
  (if r.method = .bye ∨ r.isFinalNotify = true then s.removeDialog dialogId else s, client.isSome)

/-- `route_request_inside_dialog` for a BYE of our own, whose transaction id is "unsolicited". -/
def routeUnsolicitedBye (dialogId : String) (s : Registries) : Registries :=
  (match s.findClientForDialog dialogId with
    | some client => s.send client "unsolicited" dialogId
    | none => s).removeDialog dialogId

/-- route_response_inside_transaction -/
def routeResponseInsideTransaction (transactionId dialogId : String) (method : Method) (status : Nat) (s : Registries) :
    Registries :=
  match s.findClientForAppTransaction transactionId with
  | none => (s.removeAppTransaction transactionId).removeDialog dialogId
  | some client =>
    let s := s.send client transactionId dialogId
    let s := if 200 ≤ status then s.removeAppTransaction transactionId else s
    if method = .bye then s.removeDialog dialogId else s

/-! ### New requests -/

/-- processMessageStatelessly: a request that is kept goes to the client selected for it, unless an outbound
    handler routes it. -/
def processMessageStatelessly (a : Arrival) (s : Registries) : Registries :=
  let admitted := s.pending.admits a
  let s := { s with pending := s.pending.arrive a }
  match if admitted = true ∧ a.routed = false then a.client else none with
  | some client => (s.addNetTransaction client a.uuid).send client a.uuid ""
  | none => s

/-! ### Requests on a leg -/

/-- The ACK for a 200, and for that of a re-INVITE. -/
def ackInsideDialog (leg : Leg) (d : SipDialog) (r : Request) (s : Registries) : Registries :=
  ((s.clearInvite leg).clearSipTimers leg).routeAckRequestInsideDialog
    (if d.invite.isSome then d.transactionId else r.transactionId) d.transactionId d.dialogId

/-- A CANCEL: for a pending INVITE of the same call, or too late for the dialog. Where a branch is missing the server
    ends. -/
def cancelInsideDialog (leg : Leg) (d : SipDialog) (r : Request) (s : Registries) : Registries :=
  match s.pending.findInviteByCallIdAndBranch r.logsInfo r.arrival.sip with
  | none => s
  | some (some p) =>
    let client := s.findClientForNetTransaction p.transactionId
    let s := { s with pending := s.pending.cancel p }
    match client with
    | some client => s.send client p.transactionId ""
    | none => s
  | some none => (((s.clearSipTimers leg).routeUnsolicitedBye d.dialogId).clearStable leg).clearInvite leg

/-- A re-INVITE of ours that is still in progress goes with the dialog. -/
def clearReinvite (d : SipDialog) (s : Registries) : Registries :=
  match s.findInviteByTransactionId d.transactionId with
  | none => s
  | some (leg, d) =>
    let s := s.clearInvite leg
    match d.invite.bind (·.orq) with
    | none => s
    | some orq =>
      match s.rips.lookup orq with
      | some rip => (s.removeAppTransaction rip.transactionId).clearRIP orq
      | none => s

/-- The end of a dialog by a request that ends it. -/
def endDialog (leg : Leg) (d : SipDialog) (r : Request) (routed : Bool) (s : Registries) : Registries :=
  let s := (s.clearSipTimers leg).clearStable leg
  let s :=
    if routed = false then s.removeIrq r.transactionId
    else if r.method = .bye then { s with byeTimers := r.transactionId :: s.byeTimers }
    else s
  s.clearReinvite d

/-- The request waits for the response of a client. -/
def admitRequest (leg : Leg) (d : SipDialog) (r : Request) (routed : Bool) (s : Registries) : Registries :=
  let s := s.addIncomingRequestTransaction r.transactionId ⟨r.method, d.owner⟩
  if r.ends d = true then s.endDialog leg d r routed else s

/-- A request before the final response, for which the dialog has no client yet. -/
def earlyRequest (leg : Leg) (d : SipDialog) (r : Request) (s : Registries) : Registries :=
  if r.isStateless = true then
    (s.modify leg fun d => { d with incoming := d.incoming.erase r.transactionId }).processMessageStatelessly r.arrival
  else if r.method = .update then
    if d.update.isSome then s
    else
      ((s.modify leg fun d => { d with update := some r.transactionId }).routeRequestInsideInvite
        d.transactionId d.dialogId).admitRequest leg d r false
  else s.admitRequest leg d r false

/-- The other requests. The ones with a session timer that is too small get a 422, those for which there is no
    client a 481. -/
def otherInsideDialog (leg : Leg) (d : SipDialog) (r : Request) (s : Registries) : Registries :=
  let s := if r.method = .bye then s else s.modify leg fun d => { d with incoming := r.transactionId :: d.incoming }
  if r.tooSmall = true then s
  else
    let routed := s.routeRequestInsideDialog r d.dialogId
    if routed.2 = true then routed.1.admitRequest leg d r true
    else if d.status < 200 then routed.1.earlyRequest leg d r
    else if r.method = .bye then routed.1.admitRequest leg d r false
    else routed.1

/-- processRequestInsideDialog, of the controller and then of the dialog controller. An INVITE without a To tag
    that comes while the ACK for a final response is waited for gets a 491. -/
def processRequestInsideDialog (leg : Leg) (r : Request) (s : Registries) : Registries :=
  match s.findDialogByLeg leg with
  | none => s
  | some d =>
    if r.method = .invite ∧ r.arrival.hasToTag = false ∧ 200 ≤ d.status then s
    else
      match r.method with
      | .ack => s.ackInsideDialog leg d r
      | .cancel => s.cancelInsideDialog leg d r
      | _ => s.otherInsideDialog leg d r

/-! ### The INVITE that is answered -/

/-- What the stack tells about an INVITE it has a server transaction for. -/
inductive IncomingEvent where
  /-- Nothing came in time after the final response. -/
  | timeout
  | cancel
  | ack (transactionId : String)

/-- processCancelOrAck, for the invite in progress that has the irq -/
def processCancelOrAck (leg : Leg) (e : IncomingEvent) (s : Registries) : Registries :=
  match (s.legs.lookup leg).filter fun d => d.invite.any fun i => i.orq.isNone with
  | none => s
  | some d =>
    match e with
    | .timeout => (s.clearSipTimers leg).clearInvite leg
    | .cancel =>
      ((s.routeRequestInsideInvite d.transactionId d.dialogId).removeNetTransaction d.transactionId).clearInvite leg
    | .ack transactionId =>
      ((s.clearInvite leg).clearSipTimers leg).routeAckRequestInsideDialog transactionId d.transactionId d.dialogId

/-- processPrack; the request is kept whether or not it was routed. -/
def processPrack (rel : Reliable) (r : Request) (s : Registries) : Registries :=
  match s.findInviteByReliable rel with
  | none => s
  | some (leg, d) =>
    let s := s.addDialogForTransaction d.transactionId d.dialogId
    let s := (s.routeRequestInsideDialog r d.dialogId).1
    let s := s.modify leg fun d => { d with invite := d.invite.map fun i => { i with reliables := i.reliables.erase rel } }
    s.addIncomingRequestTransaction r.transactionId ⟨r.method, d.owner⟩

/-! ### Timers -/

/-- notifyTerminateStaleDialog -/
def notifyTerminateStaleDialog (leg : Leg) (d : SipDialog) (s : Registries) : Registries :=
  (s.routeUnsolicitedBye d.dialogId).clearStable leg

/-- notifyRefreshDialog; the re-INVITE has the given orq, if it can be made. -/
def notifyRefreshDialog (leg : Leg) (d : SipDialog) (transactionId : String) (orq : Option Orq) (s : Registries) :
    Registries :=
  match orq with
  | none => s.notifyTerminateStaleDialog leg d
  | some orq => s.addRIP orq ⟨transactionId, d.dialogId, none, false⟩

/-- doSessionTimerHandling: we refresh the session, or it has not been refreshed in time. -/
def doSessionTimerHandling (leg : Leg) (refresh : Option (String × Option Orq)) (s : Registries) : Registries :=
  match s.legs.lookup leg with
  | none => s
  | some d =>
    match refresh with
    | none => s.notifyTerminateStaleDialog leg d
    | some (transactionId, orq) => s.notifyRefreshDialog leg d transactionId orq

/-- notifyCancelTimeoutReachedIIP: nothing came of an INVITE that was canceled. -/
def notifyCancelTimeoutReachedIIP (leg : Leg) (s : Registries) : Registries :=
  match (s.legs.lookup leg).filter fun d => d.invite.any (·.canceled) with
  | none => s
  | some d => (s.removeAppTransaction d.transactionId).clearInvite leg

/-- endRetransmitFinalResponse: timer H has fired. The BYE may fail to be made. -/
def endRetransmitFinalResponse (leg : Leg) (byeFails : Bool) (s : Registries) : Registries :=
  match (s.legs.lookup leg).filter (·.timerH) with
  | none => s
  | some d =>
    let s := (s.clearSipTimers leg).clearInvite leg
    if byeFails = true then s.clearStable leg else (s.routeUnsolicitedBye d.dialogId).clearStable leg

/-- retransmitFinalResponse: timer G has fired. Both timers stop when the irq is gone, which the dialog has as
    long as its invite in progress. -/
def retransmitFinalResponse (leg : Leg) (s : Registries) : Registries :=
  match s.legs.lookup leg with
  | none => s
  | some d => if d.invite.any fun i => i.orq.isNone then s else s.clearSipTimers leg

def timeoutBye (transactionId : String) (s : Registries) : Registries :=
  if transactionId ∈ s.byeTimers then
    let s := { s with byeTimers := s.byeTimers.erase transactionId }
    if transactionId ∈ s.irqs then (s.removeIrq transactionId).removeNetTransaction transactionId else s
  else s

/-! ### Responses -/

/-- The response makes the dialog of an INVITE or SUBSCRIBE that was sent. -/
def Establishes (resp : Response) : Prop :=
  (resp.method = .invite ∧ (resp.status = 200 ∨ (100 < resp.status ∧ resp.status < 200 ∧ resp.reliable = true))) ∨
    (resp.method = .subscribe ∧ (resp.status = 202 ∨ resp.status = 200))

instance (resp : Response) : Decidable (Establishes resp) := inferInstanceAs (Decidable (_ ∨ _))

/-- The part of `processResponseOutsideDialog` for an INVITE or SUBSCRIBE in progress. -/
def responseToInvite (leg : Leg) (d : SipDialog) (resp : Response) (s : Registries) : Registries :=
  let s := s.modify leg fun d => { d with status := resp.status }
  let s :=
    if Establishes resp then
      (s.modify leg fun d => { d with ackBye := d.ackBye || d.invite.any (·.canceled) }).addDialog leg d
    else s
  let s := if 200 < resp.status then s.clearInvite leg else s
  let s := s.routeResponseInsideTransaction d.transactionId d.dialogId resp.method resp.status
  if resp.method = .invite ∧ 200 < resp.status then s.removeDialog d.dialogId else s

/-- processResponseOutsideDialog, for a response that is not a 200 retransmitted after the ACK was sent -/
def processResponseOutsideDialog (orq : Orq) (resp : Response) (s : Registries) : Registries :=
  if resp.method = .invite ∨ resp.method = .subscribe then
    match s.findInviteByOrq orq with
    | none => s
    | some (leg, d) => s.responseToInvite leg d resp
  else
    match s.rips.lookup orq with
    | none => s
    | some rip =>
      (if 200 ≤ resp.status then s.clearRIP orq else s).routeResponseInsideTransaction rip.transactionId "" resp.method
        resp.status

/-- processResponseInsideDialog: a BYE that is challenged leaves the dialog. -/
def processResponseInsideDialog (orq : Orq) (resp : Response) (s : Registries) : Registries :=
  match s.rips.lookup orq with
  | none => s
  | some rip =>
    let s := s.routeResponseInsideTransaction rip.transactionId rip.dialogId resp.method resp.status
    let s :=
      if rip.clearDialogOnResponse = true ∧ ¬(resp.method = .bye ∧ (resp.status = 407 ∨ resp.status = 401)) then
        s.clearStableById rip.dialogId
      else s
    s.clearRIP orq

/-- processResponseToRefreshingReinvite; there is no status when the transaction timed out. -/
def processResponseToRefreshingReinvite (orq : Orq) (status : Option Nat) (s : Registries) : Registries :=
  match s.rips.lookup orq with
  | none => s
  | some rip =>
    if status.any (· < 200) then s
    else
      match s.findDialogById rip.dialogId with
      | none => s.clearRIP orq
      | some (leg, d) =>
        if status = some 200 ∨ status = some 491 then s.clearRIP orq
        else (s.notifyTerminateStaleDialog leg d).clearRIP orq

end Registries

end Drachtio.Dialog
