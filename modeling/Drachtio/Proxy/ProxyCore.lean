import Drachtio.Proxy.ClientTransaction
import Mathlib.Data.List.Sort

/-! The proxy core (`ProxyCore` and its `ServerTransaction` in sip-proxy-controller.cpp) and the calls of
    `SipProxyController` that reach one core.

    A core owns the server transaction of the original request and a vector of client transactions. A
    client transaction that leaves the vector lives on while a queued timer refers to it, so the model
    keeps it (`gone`). One step is one handler run on the stack thread: a downstream response, a timer, a
    CANCEL, an INFO or a PRACK. -/

namespace Drachtio.Proxy

structure ServerTransaction where
  canceled : Bool
  sipStatus : Nat
  rseq : UInt32
  mapAleg2BlegRseq : List (UInt32 × UInt32)
deriving DecidableEq, Repr

structure ProxyCore where
  settings : Settings
  request : Request
  canceled : Bool
  searching : Bool
  server : ServerTransaction
  /-- The vector m_vecClientTransactions. -/
  clients : List ClientTransaction
  /-- Client transactions that were erased from the vector. -/
  gone : List ClientTransaction
  /-- The identity of the next client transaction. -/
  nextId : Nat
  /-- Whether m_mapCallId2Proxy leads to this core. -/
  registered : Bool
  log : List Output
deriving DecidableEq, Repr

namespace ServerTransaction

def getReplacedRSeq (rseq : UInt32) (t : ServerTransaction) : UInt32 := (t.mapAleg2BlegRseq.lookup rseq).getD 0

/-- The RSeq a response carries upstream: a reliable provisional response gets the next one of this side,
    and the pair is saved (unordered_map::insert keeps an existing entry). -/
def replaceRSeq (env : Env) (r : Response) (t : ServerTransaction) : ServerTransaction × Option UInt32 :=
  match r.rseq with
  | none => (t, none)
  | some original =>
    if r.status < 200 then
      let rseq := (if t.rseq = 0 then env.suRandom else t.rseq) + 1
      ({ t with
          rseq := rseq
          mapAleg2BlegRseq :=
            if (t.mapAleg2BlegRseq.lookup rseq).isSome then t.mapAleg2BlegRseq
            else (rseq, original) :: t.mapAleg2BlegRseq }, some rseq)
    else (t, some original)

/-- The status of the last response sent; a final one is kept when another final one follows. -/
def noteStatus (status : Nat) (t : ServerTransaction) : ServerTransaction :=
  if 200 ≤ t.sipStatus ∧ 200 ≤ status then t else { t with sipStatus := status }

end ServerTransaction

/-! ### Predicates on client transactions -/

namespace ClientTransaction

def isTerminatedOrNotStarted (c : ClientTransaction) : Bool := c.state == .terminated || c.state == .notStarted

def isTerminated (c : ClientTransaction) : Bool := c.state == .terminated

def isCallingOrProceeding (c : ClientTransaction) : Bool := c.state == .calling || c.state == .proceeding

/-- The order that best responses are sorted by (per RFC 3261 16.7.6). -/
def bestResponseOrder (c₁ c₂ : ClientTransaction) : Bool :=
  let special (status : Nat) : Bool := status ∈ [401, 407, 415, 420, 484]
  if c₁.state = .completed ∧ c₂.state ≠ .completed then true
  else if c₁.state ≠ .completed ∧ c₂.state = .completed then false
  else if c₁.state = .completed ∧ c₂.state = .completed then
    if 600 ≤ c₁.sipStatus then true
    else if 600 ≤ c₂.sipStatus then false
    else if special c₁.sipStatus then true
    else if special c₂.sipStatus then false
    else if 400 ≤ c₁.sipStatus ∧ c₁.sipStatus ≤ 499 then true
    else if 400 ≤ c₂.sipStatus ∧ c₂.sipStatus ≤ 499 then false
    else if 500 ≤ c₁.sipStatus ∧ c₁.sipStatus ≤ 599 then true
    else if 500 ≤ c₂.sipStatus ∧ c₂.sipStatus ≤ 599 then false
    else true
  else true

end ClientTransaction

namespace ProxyCore

/-- Every client transaction of the core, in the vector or not. -/
def all (s : ProxyCore) : List ClientTransaction := s.clients ++ s.gone

def emit (w : List Output) (s : ProxyCore) : ProxyCore := { s with log := s.log ++ w }

/-- Stores a client transaction after a member function changed it, with what that function wrote. -/
def put (x : ClientTransaction × List Output) (s : ProxyCore) : ProxyCore :=
  let replace := fun c : ClientTransaction => if c.id = x.1.id then x.1 else c
  { s with clients := s.clients.map replace, gone := s.gone.map replace, log := s.log ++ x.2 }

/-! ### Upstream -/

/-- Sends a downstream response upstream (ServerTransaction::forwardResponse). -/
def forwardResponse (env : Env) (r : Response) (s : ProxyCore) : ProxyCore :=
  let replaced := s.server.replaceRSeq env r
  if env.sendResponse then
    { s with server := replaced.1.noteStatus r.status, log := s.log ++ [.forwardResponse r replaced.2] }
  else { s with server := replaced.1 }

def generateResponse (status : Nat) (s : ProxyCore) : ProxyCore := s.emit [.generateResponse status]

/-! ### The vector of client transactions -/

/-- Erases the terminated client transactions; an empty vector ends the registration of the core. -/
def removeTerminated (alsoRemoveNotStarted : Bool) (s : ProxyCore) : ProxyCore :=
  let removed := fun c : ClientTransaction =>
    if alsoRemoveNotStarted then c.isTerminatedOrNotStarted else c.isTerminated
  let left := s.clients.filter fun c => !removed c
  { s with
    clients := left
    gone := s.gone ++ s.clients.filter removed
    registered := s.registered && !left.isEmpty }

/-- Inserts new client transactions after the first one with the target of the redirecting one. -/
def insertAfter (target : String) (added : List ClientTransaction) : List ClientTransaction → List ClientTransaction
  | [] => []
  | c :: cs => if c.target = target then c :: (added ++ cs) else c :: insertAfter target added cs

def addClientTransactions (added : List ClientTransaction) (target : String) (s : ProxyCore) : ProxyCore :=
  if s.clients.any (·.target == target) then
    { s with clients := insertAfter target added s.clients, nextId := s.nextId + added.length }
  else s.emit [.assertFailed .redirectTarget]

/-- Client transactions for a list of targets, with identities from `next` on. -/
def newClients (env : Env) (next : Nat) (targets : List String) : List ClientTransaction :=
  targets.zipIdx.map fun x => ClientTransaction.new env (next + x.2) x.1

/-- The loop of `startRequests` over the vector: the launched transactions and how many count as sent. -/
def launch (k : Settings) (env : Env) (req : Request) :
    List ClientTransaction → List ClientTransaction × List Output × Nat
  | [] => ([], [], 0)
  | c :: cs =>
    if c.state = .notStarted then
      let sent := c.forwardRequest k env req
      if sent.2 ∧ k.launchType = .serial then (sent.1.1 :: cs, sent.1.2, 1)
      else
        let rest := launch k env req cs
        (sent.1.1 :: rest.1, sent.1.2 ++ rest.2.1, (if sent.2 then 1 else 0) + rest.2.2)
    else
      let rest := launch k env req cs
      (c :: rest.1, rest.2.1, rest.2.2)

/-- Launches client transactions that are not started, and counts them. -/
def startRequests (env : Env) (s : ProxyCore) : ProxyCore × Nat :=
  if s.searching then
    let launched := launch s.settings env s.request s.clients
    ({ s with clients := launched.1, log := s.log ++ launched.2.1 }, launched.2.2)
  else (s, 0)

def endSearch (s : ProxyCore) : ProxyCore := { s with searching := false, log := s.log ++ [.searchOver] }

def cancelOutstandingRequests (env : Env) (s : ProxyCore) : ProxyCore :=
  let s := s.endSearch
  let canceled := s.clients.map (·.cancelRequest s.settings env)
  { s with clients := canceled.map (·.1), log := s.log ++ .cancelOutstanding :: canceled.flatMap (·.2) }

def notifyForwarded200OK (env : Env) (s : ProxyCore) : ProxyCore :=
  (s.endSearch.cancelOutstandingRequests env).removeTerminated true

def exhaustedAllTargets (s : ProxyCore) : Bool := !s.clients.any (·.isCallingOrProceeding)

/-- The number of elements up to which std::sort is an insertion sort. -/
abbrev sortThreshold : Nat := 16

/-- Sorts as std::sort does up to the threshold: one after the other, each is inserted before the first one it may
    precede. Above it nothing is promised, for an order in which two may precede each other. -/
def sortBest (l : List ClientTransaction) : List ClientTransaction :=
  l.foldl (fun sorted c => sorted.orderedInsert (fun c₁ c₂ => c₁.bestResponseOrder c₂ = true) c) []

/-- What std::sort may do with the order of best responses; `none` when it leaves the vector. -/
structure BestSort where
  sort : List ClientTransaction → Option (List ClientTransaction)
  sort_of_le : ∀ l, l.length ≤ sortThreshold → sort l = some (sortBest l)

/-- Whether the first client transaction of the vector is a candidate for the best response. -/
def candidate (c : ClientTransaction) : Bool := c.state == .completed && c.sipStatus != 0

def forwardBestResponse (env : Env) (s : ProxyCore) : ProxyCore :=
  let s := (s.emit [.bestResponse (s.all.map (·.state))]).endSearch
  let s := { s with clients := sortBest s.clients }
  let s := match s.clients.head?.filter candidate with
    | none => s.generateResponse 408
    | some c => match c.msgFinal with
      | none => s.emit [.assertFailed .finalResponse]
      | some r => s.forwardResponse env r
  if s.settings.fullResponse then s.emit [.api .done] else s

/-- The test that follows every event which may have finished a client transaction. -/
def finishSearch (env : Env) (s : ProxyCore) : ProxyCore :=
  if s.searching ∧ s.exhaustedAllTargets then s.forwardBestResponse env else s

/-! ### Responses -/

/-- The parameters that `addChallenge` saves, when both are there: WWW-Authenticate hides
    Proxy-Authenticate. -/
def challengeOf (r : Response) : Option (String × String) :=
  match r.wwwAuthenticate <|> r.proxyAuthenticate with
  | some ⟨some realm, some nonce⟩ => some (realm, nonce)
  | _ => none

/-- A 401 or 407 with a challenge that `addChallenge` saves. -/
def savedChallenge (r : Response) : Option (String × String) :=
  if r.status = 401 ∨ r.status = 407 then challengeOf r else none

/-- The redirect targets of a response that the core follows. -/
def redirects (k : Settings) (r : Response) : List String :=
  if 300 ≤ r.status ∧ r.status ≤ 399 ∧ k.followRedirects then r.contacts else []

/-- The messages to an application that wants every final response. -/
def reportFinal (r : Response) (s : ProxyCore) : ProxyCore :=
  if s.settings.fullResponse ∧ 200 ≤ r.status then
    s.emit (.api (.continued r) ::
      if (200 ≤ r.status ∧ r.status ≤ 299) ∨ (s.canceled ∧ s.exhaustedAllTargets) then [.api .done] else [])
  else s

/-- What follows in ClientTransaction::processResponse once the transaction itself is up to date. -/
def conclude (env : Env) (r : Response) (target : String) : ClientTransaction.Verdict → ProxyCore → ProxyCore
  | .discard, s => s
  | .forward, s => s.forwardResponse env r
  | .answered, s => ((s.notifyForwarded200OK env).reportFinal r).forwardResponse env r
  | .rejected, s =>
    let targets := redirects s.settings r
    let s := if targets = [] then s
      else s.addClientTransactions (newClients env s.nextId targets) target
    s.reportFinal r

/-- The first client transaction that accepts a response takes it. -/
def dispatch (env : Env) (r : Response) (s : ProxyCore) : ProxyCore :=
  match s.clients.find? (·.accepts r) with
  | none => s
  | some c =>
    let taken := c.processResponse s.settings env r
    (s.put taken.1).conclude env r c.target taken.2

def processResponse (env : Env) (r : Response) (s : ProxyCore) : ProxyCore :=
  let target := ((s.clients.find? (·.accepts r)).map (·.target)).getD ""
  let s := s.dispatch env r
  match savedChallenge r with
  | some (realm, nonce) =>
    ((s.emit [.challenge realm nonce target]).removeTerminated true).forwardBestResponse env
  | none =>
    let s := s.removeTerminated false
    let s := if 200 < r.status then (s.startRequests env).1 else s
    s.finishSearch env

/-! ### Timers -/

/-- The retransmission timers. -/
def timerA (env : Env) (c : ClientTransaction) (s : ProxyCore) : ProxyCore :=
  s.put (c.timerFires s.settings env s.request .timerA)

def timerE (env : Env) (c : ClientTransaction) (s : ProxyCore) : ProxyCore :=
  s.put (c.timerFires s.settings env s.request .timerE)

/-- No response to any of the retransmissions of an INVITE. -/
def timerB (env : Env) (c : ClientTransaction) (s : ProxyCore) : ProxyCore :=
  ((s.put (c.timerFires s.settings env s.request .timerB)).removeTerminated false).finishSearch env

/-- No final response to an INVITE. -/
def timerC (env : Env) (c : ClientTransaction) (s : ProxyCore) : ProxyCore :=
  ((s.put (c.timerFires s.settings env s.request .timerC)).removeTerminated false).finishSearch env

/-- The end of the completed state: timer D, and timer K for the other methods. -/
def timerD (env : Env) (c : ClientTransaction) (s : ProxyCore) : ProxyCore :=
  (s.put (c.timerFires s.settings env s.request .timerD)).removeTerminated false

def timerK (env : Env) (c : ClientTransaction) (s : ProxyCore) : ProxyCore :=
  (s.put (c.timerFires s.settings env s.request .timerK)).removeTerminated false

/-- No final response to a request other than INVITE. -/
def timerF (env : Env) (c : ClientTransaction) (s : ProxyCore) : ProxyCore :=
  (s.put (c.timerFires s.settings env s.request .timerF)).removeTerminated false

/-- No response at all within the time the application gave. It is the core that is marked canceled. -/
def timerProvisional (env : Env) (c : ClientTransaction) (s : ProxyCore) : ProxyCore :=
  let s := { s with canceled := true }
  let s := (s.put (c.timerFires s.settings env s.request .timerProvisional)).removeTerminated false
  (s.startRequests env).1.finishSearch env

def fire (env : Env) (t : TimerName) (c : ClientTransaction) (s : ProxyCore) : ProxyCore :=
  let s := s.emit [.timerFired t c.id]
  match t with
  | .timerA => s.timerA env c
  | .timerB => s.timerB env c
  | .timerC => s.timerC env c
  | .timerD => s.timerD env c
  | .timerE => s.timerE env c
  | .timerF => s.timerF env c
  | .timerK => s.timerK env c
  | .timerProvisional => s.timerProvisional env c

/-! ### Requests of the caller -/

/-- A CANCEL of the original INVITE (processRequestWithoutRouteHeader). -/
def cancel (env : Env) (s : ProxyCore) : ProxyCore :=
  let s := { s with canceled := true, server := { s.server with canceled := true } }
  ((s.emit [.okToCancel]).generateResponse 487).cancelOutstandingRequests env

/-- An INFO during call setup goes to the first target that is being called. -/
def forwardRequest (env : Env) (req : Request) (s : ProxyCore) : ProxyCore :=
  match s.clients.find? (·.isCallingOrProceeding) with
  | none => s
  | some c => s.put (c.forwardRequest s.settings env req).1

/-- A PRACK goes to the first target whose last RSeq is the one its RAck stands for. -/
def forwardPrack (env : Env) (rack : UInt32) (s : ProxyCore) : ProxyCore :=
  let rseq := s.server.getReplacedRSeq rack
  match s.clients.find? (·.rseq == rseq) with
  | none => s
  | some c => s.put (c.forwardPrack env rack)

end ProxyCore

/-! ### Runs -/

/-- What can happen to a core. -/
inductive Event where
  | response (r : Response)
  | timer (t : TimerName) (client : Nat)
  | cancel
  | info (req : Request)
  | prack (rack : UInt32)
deriving DecidableEq, Repr

structure Input where
  env : Env
  event : Event

namespace ProxyCore

/-- A response whose identifier is the one of this core's transaction, so its CSeq method is the request's.
    Without a registered core, or when no client transaction takes it, it is forwarded as it is. -/
def receive (env : Env) (r : Response) (s : ProxyCore) : ProxyCore :=
  let s := s.emit [.received r]
  if r.method = .prack then s.emit [.forwardStateless r]
  else if s.registered then
    let handled := (s.clients.find? (·.accepts r)).isSome
    let s := s.processResponse env r
    if handled then s else s.emit [.forwardStateless r]
  else s.emit [.forwardStateless r]

/-- One handler run. An event that cannot reach the core (a timer that is not armed, a message for a core
    that is no longer registered or for another transaction) leaves it as it is. -/
def step (s : ProxyCore) (i : Input) : ProxyCore :=
  match i.event with
  | .response r => if r.method = s.request.method then s.receive i.env r else s
  | .timer t id =>
    match s.all.find? (·.id == id) with
    | none => s
    | some c => if c.armed t then s.fire i.env t c else s
  | .cancel => if s.registered ∧ s.request.method = .invite then s.cancel i.env else s
  | .info req => if s.registered then s.forwardRequest i.env req else s
  | .prack rack => if s.registered then s.forwardPrack i.env rack else s

/-- A registered core with one client transaction per destination (addProxy, initializeTransactions). -/
def addProxy (k : Settings) (env : Env) (req : Request) (destinations : List String) : ProxyCore where
  settings := k
  request := req
  canceled := false
  searching := true
  server := { canceled := false, sipStatus := 0, rseq := 0, mapAleg2BlegRseq := [] }
  clients := newClients env 0 destinations
  gone := []
  nextId := destinations.length
  registered := true
  log := []

def removeProxy (s : ProxyCore) : ProxyCore := { s with registered := false }

/-- The core as `doProxy` leaves it. -/
def doProxy (k : Settings) (env : Env) (req : Request) (destinations : List String) : ProxyCore :=
  let s := addProxy k env req destinations
  if req.maxForwards = some 0 then
    (s.emit [.api (.nok "Rejected with 483 Too Many Hops due to Max-Forwards value of 0"), .reply 483]).removeProxy
  else
    let started := s.startRequests env
    if started.2 = 0 then
      (started.1.emit [.api (.nok "error proxying request to "), .reply 500]).removeProxy
    else if k.fullResponse then started.1
    else started.1.emit [.api .done]

end ProxyCore

end Drachtio.Proxy
