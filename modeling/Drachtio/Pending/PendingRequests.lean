import Drachtio.Client.Controller
import Drachtio.Sip.Message

/-! The requests that have been received and not yet been disposed of (`PendingRequestController` in
    pending-request-controller.cpp): two tables of the same objects and a timeout for each of them. -/

namespace Drachtio.Pending

open Proxy (Method)
open Sip (Message makeUniqueSipTransactionIdentifier)
open Client (ClientId)

/-- `PendingRequest_t`: the object at an address, what it was made of, and the handle of its timeout. Its
    m_canceled is kept by `PendingRequests.canceled`. -/
structure PendingRequest where
  address : Nat
  sip : Message
  transactionId : String
  handle : Nat

/-- getUniqueSipTransactionIdentifier, computed of the stored message. -/
def PendingRequest.identifier (p : PendingRequest) : String := makeUniqueSipTransactionIdentifier p.sip

/-- What can go wrong: the assert of `findAndRemove`, and the removal of a timeout that is not queued. -/
inductive Fault where
  | notByCallId | noTimeout
deriving DecidableEq, Repr

structure PendingRequests where
  /-- m_mapCallId2Invite -/
  callId2Invite : AList fun _ : String => PendingRequest
  /-- m_mapTxnId2Invite -/
  txnId2Invite : AList fun _ : String => PendingRequest
  /-- m_timerQueue: the queued timeouts by their handles, with the transaction id bound to each -/
  timeouts : AList fun _ : Nat => String
  /-- The objects that were canceled. -/
  canceled : List Nat
  faults : List Fault

/-- A request that arrives at `processMessageStatelessly`, and what it meets there. -/
structure Arrival where
  sip : Message
  hasToTag : Bool
  /-- The proxy knows the request. -/
  proxied : Bool
  /-- The 100 or 180 for an INVITE cannot be sent. -/
  tryingFails : Bool
  /-- An OPTIONS from the user agent that is answered at once. -/
  autoAnswered : Bool
  /-- Requests like this one are routed by an outbound handler. -/
  routed : Bool
  /-- The client selected for it otherwise. -/
  client : Option ClientId
  /-- The address of the object, the uuid it gets and the handle of its timeout. -/
  address : Nat
  uuid : String
  handle : Nat

def PendingRequest.of (a : Arrival) : PendingRequest := ⟨a.address, a.sip, a.uuid, a.handle⟩

/-- The methods that reach `processNewRequest`. -/
def isNewRequest : Method → Bool
  | .invite | .register | .message | .options | .info | .notify | .subscribe | .publish => true
  | _ => false

namespace PendingRequests

def empty : PendingRequests := ⟨∅, ∅, ∅, [], []⟩

def fault (f : Fault) (c : PendingRequests) : PendingRequests := { c with faults := c.faults ++ [f] }

def isRetransmission (sip : Message) (c : PendingRequests) : Bool :=
  decide (makeUniqueSipTransactionIdentifier sip ∈ c.callId2Invite)

/-- A new object is not canceled. The inserts keep what is there already. -/
def add (p : PendingRequest) (c : PendingRequests) : PendingRequests :=
  { c with
    canceled := c.canceled.filter (· ≠ p.address)
    timeouts := c.timeouts.insert p.handle p.transactionId
    callId2Invite := c.callId2Invite.insertNew p.identifier p
    txnId2Invite := c.txnId2Invite.insertNew p.transactionId p }

/-- m_timerQueue.remove -/
def removeTimeout (handle : Nat) (c : PendingRequests) : PendingRequests :=
  if handle ∈ c.timeouts then { c with timeouts := c.timeouts.erase handle } else c.fault .noTimeout

def findAndRemove (transactionId : String) (timeout : Bool) (c : PendingRequests) : PendingRequests × Option PendingRequest :=
  match c.txnId2Invite.lookup transactionId with
  | none => (c, none)
  | some p =>
    let c := { c with txnId2Invite := c.txnId2Invite.erase transactionId }
    let c := if p.identifier ∈ c.callId2Invite then c else c.fault .notByCallId
    let c := { c with callId2Invite := c.callId2Invite.erase p.identifier }
    (if timeout = true then c else c.removeTimeout p.handle, some p)

def find (transactionId : String) (c : PendingRequests) : Option PendingRequest := c.txnId2Invite.lookup transactionId

/-- The objects of m_mapCallId2Invite. The order in which the source walks through them is not specified;
    here it is that of the table. -/
def requests (c : PendingRequests) : List PendingRequest := c.callId2Invite.entries.map Sigma.snd

def findInviteByCallId (callId : String) (c : PendingRequests) : Option PendingRequest :=
  c.requests.find? fun p => decide (p.sip.callId.val = callId ∧ p.sip.request = some .invite)

/-- The walk of `findInviteByCallIdAndBranch`: at log level info the branch of every request is logged, and that of the
    INVITEs with the Call-ID is compared. There is no result when one is missing: a null pointer is read, and the server
    ends. -/
def findByBranch (logsInfo : Bool) (callId branch : String) : List PendingRequest → Option (Option PendingRequest)
  | [] => some none
  | p :: requests =>
    if logsInfo = true ∧ p.sip.branch = none then none
    else if p.sip.callId.val = callId ∧ p.sip.request = some .invite then
      match p.sip.branch with
      | none => none
      | some b => if b.val = branch then some (some p) else findByBranch logsInfo callId branch requests
    else findByBranch logsInfo callId branch requests

/-- A string is made of the branch of the CANCEL, which is another null pointer when it is missing. -/
def findInviteByCallIdAndBranch (logsInfo : Bool) (sip : Message) (c : PendingRequests) : Option (Option PendingRequest) :=
  match sip.branch with
  | none => none
  | some branch => findByBranch logsInfo sip.callId.val branch.val c.requests

/-- PendingRequest_t::cancel -/
def cancel (p : PendingRequest) (c : PendingRequests) : PendingRequests := { c with canceled := p.address :: c.canceled }

def isCanceled (p : PendingRequest) (c : PendingRequests) : Bool := decide (p.address ∈ c.canceled)

/-- Whether `processMessageStatelessly` and `processNewRequest` keep the request. -/
def admits (a : Arrival) (c : PendingRequests) : Bool :=
  a.sip.request.any isNewRequest && !(c.isRetransmission a.sip || a.proxied) &&
    !(a.sip.request == some .invite && a.tryingFails) && !(a.sip.request == some .options && a.autoAnswered) &&
    !(a.sip.request == some .invite && a.hasToTag) && (a.routed || a.client.isSome)

def arrive (a : Arrival) (c : PendingRequests) : PendingRequests :=
  if c.admits a = true then c.add (PendingRequest.of a) else c

/-- A queued timeout fires: it has left the queue when `timeout` runs with the transaction id bound to it. -/
def fire (handle : Nat) (c : PendingRequests) : PendingRequests :=
  match c.timeouts.lookup handle with
  | none => c
  | some transactionId => ({ c with timeouts := c.timeouts.erase handle }.findAndRemove transactionId true).1

/-- What happens to the tables. -/
inductive Op where
  | arrive (a : Arrival)
  | findAndRemove (transactionId : String)
  | cancel (p : PendingRequest)
  | fire (handle : Nat)

def step (c : PendingRequests) : Op → PendingRequests
  | .arrive a => c.arrive a
  | .findAndRemove transactionId => (c.findAndRemove transactionId false).1
  | .cancel p => c.cancel p
  | .fire handle => c.fire handle

end PendingRequests

end Drachtio.Pending
