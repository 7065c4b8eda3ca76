import Mathlib.Data.List.Basic

/-! The client side of a proxied request (`ProxyCore::ClientTransaction` in sip-proxy-controller.cpp).

    A client transaction is the copy of the original request that goes to one target. It is a record of
    the object's fields; each member function becomes a function from the record to the changed record
    and what it wrote. Asserts are recorded and execution goes on (the packaged builds define NDEBUG): a
    build with asserts takes the same steps up to the first recorded failure. -/

namespace Drachtio.Proxy

/-! ### Messages -/

/-- The methods the stack tells apart (sip_method_t). -/
inductive Method where
  | unknown | invite | ack | cancel | bye | options | register | info | prack | update | message
  | subscribe | notify | refer | publish
deriving DecidableEq, Repr

/-- The parameters of an authentication challenge that `addChallenge` looks up. -/
structure Challenge where
  realm : Option String
  nonce : Option String
deriving DecidableEq, Repr

/-- What the proxy reads of a downstream response. The branch is the one of the top Via; branches are
    uuids, so a client transaction's own branch is represented by its identity. -/
structure Response where
  status : Nat
  method : Method
  branch : Nat
  rseq : Option UInt32 := none
  contacts : List String := []
  wwwAuthenticate : Option Challenge := none
  proxyAuthenticate : Option Challenge := none
deriving DecidableEq, Repr

/-- What the proxy reads of a request: mf_count is an unsigned long. -/
structure Request where
  method : Method
  maxForwards : Option UInt64 := none
deriving DecidableEq, Repr

/-! ### Timers -/

inductive TimerName where
  | timerA | timerB | timerC | timerD | timerE | timerF | timerK | timerProvisional
deriving DecidableEq, Repr

/-- A handle field of a client transaction, with the number of entries the timer queue holds for it.
    Overwriting a set handle leaves the old entry queued, so the two can differ. -/
structure Timer where
  handle : Bool
  queued : Nat
deriving DecidableEq, Repr

namespace Timer

/-- No handle and nothing queued. -/
def off : Timer := ⟨false, 0⟩

/-- One entry queued, and the handle points at it. -/
def on : Timer := ⟨true, 1⟩

def addTimer (t : Timer) : Timer := ⟨true, t.queued + 1⟩

def removeTimer (t : Timer) : Timer := if t.handle then ⟨false, t.queued - 1⟩ else t

/-- The queue has taken the entry out and its callback clears the handle. -/
def expire (t : Timer) : Timer := ⟨false, t.queued - 1⟩

end Timer

/-! ### What a step writes -/

inductive TransactionState where
  | notStarted
  | trying
  | calling
  | proceeding
  | completed
  | terminated
deriving DecidableEq, Repr

inductive Assertion where
  /-- On entering calling or trying: the handle is not set (setState). -/
  | timerUnset (t : TimerName)
  /-- A provisional response other than 100 finds timer C set (processResponse). -/
  | timerCSet
  /-- A callback finds its transaction in the state it expects (timerA .. timerProvisional). -/
  | firedIn (t : TimerName)
  /-- The request is sent for the first time (forwardRequest). -/
  | firstTransmit
  /-- The chosen best response was kept (forwardBestResponse). -/
  | finalResponse
  /-- The redirecting transaction is in the vector (addClientTransactions). -/
  | redirectTarget
  /-- The transaction has received an RSeq (forwardPrack). -/
  | rseqSet
deriving DecidableEq, Repr

/-- A reply to the application that asked for the request to be proxied (route_api_response). -/
inductive ApiReply where
  | nok (text : String)
  | done
  | continued (r : Response)
deriving DecidableEq, Repr

/-- What the proxy does, in the order in which it does it. -/
inductive Output where
  /-- A response of this transaction reaches the server. -/
  | received (r : Response)
  /-- A client transaction changes state (setState). -/
  | stateChange (client : Nat) (old new : TransactionState)
  | timerFired (t : TimerName) (client : Nat)
  | sendRequest (client : Nat) (method : Method) (target : String) (maxForwards : UInt64)
  | sendCancel (client : Nat)
  | sendAck (client : Nat)
  /-- A PRACK whose RAck named `rack` goes to the target with RAck `rseq`. -/
  | sendPrack (client : Nat) (rack rseq : UInt32)
  /-- The first response of a transaction that was given up before it had one. -/
  | lateResponse (client : Nat)
  /-- A downstream response goes upstream, with the RSeq it carries there. -/
  | forwardResponse (r : Response) (rseq : Option UInt32)
  /-- A response made by the server transaction for the original request. -/
  | generateResponse (status : Nat)
  /-- A response made by `doProxy` for the original request. -/
  | reply (status : Nat)
  /-- The 200 to the CANCEL. -/
  | okToCancel
  /-- A response that no client transaction takes goes upstream as it is. -/
  | forwardStateless (r : Response)
  /-- The search for a target ends (m_searching is set to false). -/
  | searchOver
  /-- All client transactions in the vector are being canceled (cancelOutstandingRequests). -/
  | cancelOutstanding
  /-- A final response is selected; the states are those of all client transactions at that moment. -/
  | bestResponse (states : List TransactionState)
  | challenge (realm nonce target : String)
  | api (reply : ApiReply)
  | assertFailed (a : Assertion)
deriving DecidableEq, Repr

/-- Evaluates an assert: nothing is written when it holds. -/
def check (holds : Bool) (a : Assertion) : List Output := if holds then [] else [.assertFailed a]

/-! ### The environment -/

inductive LaunchType where
  | serial
  | simultaneous
deriving DecidableEq, Repr

/-- What the application asks for in its proxy command. -/
structure Settings where
  launchType : LaunchType
  fullResponse : Bool := false
  followRedirects : Bool := false
  provisionalTimeout : UInt32 := 0
deriving DecidableEq, Repr

/-- What the SIP stack, the transport table and uninitialised memory answer during one step. -/
structure Env where
  /-- Whether findAppropriateTransport finds a transport for the target of a client transaction. -/
  hasTransport : Nat → Bool
  /-- Whether nta_msg_tsend takes the request of a client transaction. -/
  sendRequest : Nat → Bool
  sendCancel : Nat → Bool
  sendPrack : Nat → Bool
  /-- Whether nta_msg_tsend takes a response that is forwarded upstream. -/
  sendResponse : Bool
  suRandom : UInt32
  uuid : Nat
  /-- What a new client transaction finds in m_rseq, which its constructor leaves out. -/
  junk : Nat → UInt32

/-! ### Client transactions -/

structure ClientTransaction where
  /-- The object's identity. -/
  id : Nat
  target : String
  /-- The branch its request was sent with; the one made by the constructor is never sent. -/
  branch : Option Nat
  branchPrack : Option Nat
  method : Method
  state : TransactionState
  sipStatus : Nat
  canceled : Bool
  transmitCount : Nat
  durationTimerA : Nat
  rseq : UInt32
  msgFinal : Option Response
  timerA : Timer
  timerB : Timer
  timerC : Timer
  timerD : Timer
  timerProvisional : Timer
  timerE : Timer
  timerF : Timer
  timerK : Timer
deriving DecidableEq, Repr

/-- NTA_SIP_T1. -/
def ntaSipT1 : Nat := 500

namespace ClientTransaction

/-- The constructor. -/
def new (env : Env) (id : Nat) (target : String) : ClientTransaction where
  id := id
  target := target
  branch := none
  branchPrack := none
  method := .unknown
  state := .notStarted
  sipStatus := 0
  canceled := false
  transmitCount := 0
  durationTimerA := 0
  rseq := env.junk id
  msgFinal := none
  timerA := .off
  timerB := .off
  timerC := .off
  timerD := .off
  timerProvisional := .off
  timerE := .off
  timerF := .off
  timerK := .off

def isInviteTransaction (c : ClientTransaction) : Bool := c.method == .invite

def timer (c : ClientTransaction) : TimerName → Timer
  | .timerA => c.timerA
  | .timerB => c.timerB
  | .timerC => c.timerC
  | .timerD => c.timerD
  | .timerE => c.timerE
  | .timerF => c.timerF
  | .timerK => c.timerK
  | .timerProvisional => c.timerProvisional

/-- An entry for the timer is queued, so it can fire. -/
def armed (c : ClientTransaction) (t : TimerName) : Bool := 0 < (c.timer t).queued

/-- The queue hands an entry to its callback, which clears the handle (clearTimerA and so on). -/
def expire (c : ClientTransaction) : TimerName → ClientTransaction
  | .timerA => { c with timerA := c.timerA.expire }
  | .timerB => { c with timerB := c.timerB.expire }
  | .timerC => { c with timerC := c.timerC.expire }
  | .timerD => { c with timerD := c.timerD.expire }
  | .timerE => { c with timerE := c.timerE.expire }
  | .timerF => { c with timerF := c.timerF.expire }
  | .timerK => { c with timerK := c.timerK.expire }
  | .timerProvisional => { c with timerProvisional := c.timerProvisional.expire }

/-- The timers that `setState` sets and removes on entering a state, for an INVITE. -/
def enterInvite (k : Settings) (c : ClientTransaction) : TransactionState → ClientTransaction × List Output
  | .calling =>
    ({ c with
        timerA := c.timerA.addTimer
        durationTimerA := ntaSipT1
        timerB := c.timerB.addTimer
        timerC := c.timerC.addTimer
        timerProvisional :=
          if 0 < k.provisionalTimeout then c.timerProvisional.addTimer else c.timerProvisional },
      check (!c.timerA.handle) (.timerUnset .timerA) ++ check (!c.timerB.handle) (.timerUnset .timerB) ++
        check (!c.timerC.handle) (.timerUnset .timerC))
  | .proceeding =>
    ({ c with
        timerA := c.timerA.removeTimer
        timerB := c.timerB.removeTimer
        timerProvisional := c.timerProvisional.removeTimer }, [])
  | .completed =>
    ({ c with
        timerA := c.timerA.removeTimer
        timerB := c.timerB.removeTimer
        timerC := c.timerC.removeTimer
        timerProvisional := c.timerProvisional.removeTimer
        timerD := c.timerD.removeTimer.addTimer }, [])
  | .terminated =>
    ({ c with
        timerA := c.timerA.removeTimer
        timerB := c.timerB.removeTimer
        timerC := c.timerC.removeTimer
        timerProvisional := c.timerProvisional.removeTimer }, [])
  | .notStarted | .trying => (c, [])

/-- The timers that `setState` sets and removes on entering a state, for the other methods. -/
def enterNonInvite (c : ClientTransaction) : TransactionState → ClientTransaction × List Output
  | .trying =>
    ({ c with
        timerE := c.timerE.addTimer
        durationTimerA := ntaSipT1
        timerF := c.timerF.addTimer },
      check (!c.timerE.handle) (.timerUnset .timerE) ++ check (!c.timerF.handle) (.timerUnset .timerF))
  | .proceeding => ({ c with timerE := c.timerE.removeTimer }, [])
  | .completed =>
    ({ c with
        timerE := c.timerE.removeTimer
        timerF := c.timerF.removeTimer
        timerK := c.timerK.addTimer }, [])
  | .terminated =>
    ({ c with
        timerE := c.timerE.removeTimer
        timerF := c.timerF.removeTimer
        timerK := c.timerK.removeTimer }, [])
  | .notStarted | .calling => (c, [])

def setState (k : Settings) (newState : TransactionState) (c : ClientTransaction) :
    ClientTransaction × List Output :=
  if newState = c.state then (c, [])
  else
    let entered :=
      if c.isInviteTransaction then { c with state := newState }.enterInvite k newState
      else { c with state := newState }.enterNonInvite newState
    (entered.1, .stateChange c.id c.state newState :: entered.2)

/-- Sends a copy of `req` to the target. The result says whether it counts as sent: a missing transport
    is reported as false with the transaction already started, a send failure as true with the
    transaction terminated. -/
def forwardRequest (k : Settings) (env : Env) (req : Request) (c : ClientTransaction) :
    (ClientTransaction × List Output) × Bool :=
  let counted := { c with transmitCount := c.transmitCount + 1 }
  let started : ClientTransaction × List Output :=
    if c.state = .notStarted then
      let branched := { counted with branch := some c.id, method := req.method }
      let moved := branched.setState k (if branched.isInviteTransaction then .calling else .trying)
      (moved.1, check (counted.transmitCount == 1) .firstTransmit ++ moved.2)
    else (counted, [])
  -- Max-Forwards: decrement or set to 70
  let maxForwards := match req.maxForwards with
    | some count => count - 1
    | none => 70
  if env.hasTransport c.id then
    if env.sendRequest c.id then
      ((started.1, started.2 ++ [.sendRequest c.id req.method c.target maxForwards]), true)
    else
      let stopped := started.1.setState k .terminated
      (({ stopped.1 with sipStatus := 503 }, started.2 ++ stopped.2), true)
  else (started, false)

/-- Sends the request again and sets timer A or E for the next time. -/
def retransmitRequest (k : Settings) (env : Env) (req : Request) (c : ClientTransaction) :
    ClientTransaction × List Output :=
  let sent := { c with durationTimerA := 2 * c.durationTimerA }.forwardRequest k env req
  if sent.2 then
    let c := sent.1.1
    (if c.isInviteTransaction then { c with timerA := c.timerA.addTimer }
      else { c with timerE := c.timerE.addTimer }, sent.1.2)
  else sent.1

def cancelRequest (k : Settings) (env : Env) (c : ClientTransaction) : ClientTransaction × List Output :=
  -- The source means to remove timers E, F and K as well, but passes the handle of timer C each time.
  let c := { c with
    timerA := c.timerA.removeTimer
    timerB := c.timerB.removeTimer
    timerC := c.timerC.removeTimer.removeTimer.removeTimer.removeTimer }
  match c.state with
  | .calling =>
    let moved := c.setState k .completed
    ({ moved.1 with canceled := true }, moved.2)
  | .notStarted => c.setState k .terminated
  | .proceeding =>
    if env.sendCancel c.id then ({ c with canceled := true }, [.sendCancel c.id]) else (c, [])
  | .trying | .completed | .terminated => (c, [])

/-! ### Responses -/

/-- Whether `processResponse` takes the response: its two tests on the Via branch. -/
def accepts (r : Response) (c : ClientTransaction) : Bool :=
  !(c.branch != some r.branch && r.method != .prack) && !(c.branchPrack == some r.branch && r.method == .prack)

/-- A first response to a request that is no longer wanted but was never canceled. -/
def isLate (r : Response) (c : ClientTransaction) : Bool :=
  c.canceled && c.state == .completed && c.sipStatus == 0 && c.method == r.method && c.isInviteTransaction

/-- What is left to do for the proxy core once a client transaction has taken a response. -/
inductive Verdict where
  | discard
  | forward
  | answered
  | rejected
deriving DecidableEq, Repr

/-- The part of `processResponse` for a response to the request, other than a repeated final one. -/
def processNewResponse (k : Settings) (r : Response) (c : ClientTransaction) :
    (ClientTransaction × List Output) × Verdict :=
  let c := { c with sipStatus := r.status }
  if 100 ≤ r.status ∧ r.status ≤ 199 then
    let moved := c.setState k .proceeding
    if r.status = 100 then (moved, .discard)
    else if c.isInviteTransaction then
      (({ moved.1 with
          timerC := moved.1.timerC.removeTimer.addTimer
          rseq := r.rseq.getD moved.1.rseq }, moved.2 ++ check moved.1.timerC.handle .timerCSet), .forward)
    else (({ moved.1 with rseq := r.rseq.getD moved.1.rseq }, moved.2), .forward)
  else if 200 ≤ r.status ∧ r.status ≤ 299 then
    let moved := c.setState k (if c.isInviteTransaction then .terminated else .completed)
    if c.isInviteTransaction then
      (({ moved.1 with timerC := moved.1.timerC.removeTimer }, moved.2), .answered)
    else (moved, .answered)
  else if 300 ≤ r.status then
    let moved := c.setState k .completed
    if c.isInviteTransaction then
      (({ moved.1 with timerC := moved.1.timerC.removeTimer, msgFinal := some r }, moved.2 ++ [.sendAck c.id]),
        .rejected)
    else (({ moved.1 with msgFinal := some r }, moved.2), .rejected)
  else ((c, []), .discard)

/-- Takes a response that it accepts. -/
def processResponse (k : Settings) (env : Env) (r : Response) (c : ClientTransaction) :
    (ClientTransaction × List Output) × Verdict :=
  if c.state = .terminated then ((c, []), .discard)
  else if c.isLate r then
    let moved := c.setState k .proceeding
    let canceled := moved.1.cancelRequest k env
    ((canceled.1, .lateResponse c.id :: (moved.2 ++ canceled.2)), .discard)
  else if c.method = r.method then
    if c.state = .completed ∧ 200 ≤ r.status then
      ((c, if c.isInviteTransaction then [.sendAck c.id] else []), .discard)
    else c.processNewResponse k r
  else ((c, []), .discard)

/-- Forwards a PRACK with the last RSeq received from the target. -/
def forwardPrack (env : Env) (rack : UInt32) (c : ClientTransaction) : ClientTransaction × List Output :=
  ({ c with branchPrack := some env.uuid },
    check (c.rseq != 0) .rseqSet ++ if env.sendPrack c.id then [.sendPrack c.id rack c.rseq] else [])

/-! ### Timer callbacks -/

/-- What the callback of a timer (ProxyCore::timerA .. timerProvisional) does to its client transaction.
    Timer C answers the caller itself, in between. -/
def timerFires (k : Settings) (env : Env) (req : Request) (c : ClientTransaction) :
    TimerName → ClientTransaction × List Output
  | .timerA =>
    let sent := (c.expire .timerA).retransmitRequest k env req
    (sent.1, check (c.state == .calling) (.firedIn .timerA) ++ sent.2)
  | .timerB =>
    let moved := (c.expire .timerB).setState k .terminated
    (moved.1, check (c.state == .calling) (.firedIn .timerB) ++ moved.2)
  | .timerC =>
    let canceled :=
      if c.state = .proceeding then (c.expire .timerC).cancelRequest k env else (c.expire .timerC, [])
    let moved := canceled.1.setState k .terminated
    (moved.1, check (c.state == .proceeding || c.state == .calling) (.firedIn .timerC) ++
      canceled.2 ++ .generateResponse 408 :: moved.2)
  | .timerD =>
    let moved := (c.expire .timerD).setState k .terminated
    (moved.1, check (c.state == .completed) (.firedIn .timerD) ++ moved.2)
  | .timerE =>
    let sent := (c.expire .timerE).retransmitRequest k env req
    (sent.1, check (c.state == .trying) (.firedIn .timerE) ++ sent.2)
  | .timerF => (c.expire .timerF).setState k .terminated
  | .timerK =>
    let moved := (c.expire .timerK).setState k .terminated
    (moved.1, check (c.state == .completed) (.firedIn .timerK) ++ moved.2)
  | .timerProvisional =>
    let moved := (c.expire .timerProvisional).setState k .completed
    (moved.1, check (c.state == .calling) (.firedIn .timerProvisional) ++ moved.2)

end ClientTransaction

end Drachtio.Proxy
