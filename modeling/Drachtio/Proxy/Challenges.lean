import Drachtio.Lib.Table
import Drachtio.Proxy.ProxyCore
import Drachtio.Timer.TimerQueue

/-! The challenges of downstream servers (`addChallenge`, `isResponseToChallenge` and `timeoutChallenge` in
    sip-proxy-controller.cpp): a table by nonce, and a timer queue of its own that gives the caller two seconds to come
    back with credentials. -/

open Drachtio.Timer (TimerQueue)

namespace Drachtio.Proxy

structure ChallengedRequest where
  realm : String
  nonce : String
  /-- The target that the credentials are for -/
  remoteAddress : String
  timerHandle : Nat
deriving DecidableEq, Repr

/-- The Authorization and the Proxy-Authorization header of a request that an application proxies. -/
structure Credentials where
  authorization : Option Challenge := none
  proxyAuthorization : Option Challenge := none
deriving DecidableEq, Repr

/-- The realm and the nonce, when both are there: Authorization hides Proxy-Authorization. -/
def Credentials.given (sip : Credentials) : Option (String × String) :=
  match sip.authorization <|> sip.proxyAuthorization with
  | some ⟨some realm, some nonce⟩ => some (realm, nonce)
  | _ => none

/-- The client transaction that takes a response. -/
def ProxyCore.taking (r : Response) (s : ProxyCore) : Option ClientTransaction := s.clients.find? (·.accepts r)

structure Challenges (τ : Type) where
  /-- m_mapNonce2Challenge -/
  nonce2Challenge : AList fun _ : String => ChallengedRequest
  timerQueue : TimerQueue τ
  /-- The handles of the queued timers, with the nonces they were queued for. -/
  timers : AList fun _ : Nat => String
  /-- The last challenge received for a nonce: its realm, and the target of the client transaction that took it. -/
  issued : AList fun _ : String => String × Option String

namespace Challenges

variable {τ : Type} [LinearOrder τ]

def empty : Challenges τ := ⟨∅, TimerQueue.empty, ∅, ∅⟩

/-- insert does nothing for a nonce that is in the table; the timer is queued all the same. -/
def addChallenge (suTimeAdd : τ → UInt32 → τ) (realm nonce target : String) (handle : Nat) (now : τ) (c : Challenges τ) :
    Challenges τ :=
  { c with
    nonce2Challenge := c.nonce2Challenge.insertNew nonce ⟨realm, nonce, target, handle⟩
    timerQueue := c.timerQueue.step suTimeAdd (.add handle 2000 now)
    timers := c.timers.insert handle nonce }

/-- A response, as `ProxyCore::processResponse` handles it: the target is that of the client transaction that takes it,
    and empty if there is none. -/
def processResponse (suTimeAdd : τ → UInt32 → τ) (core : ProxyCore) (r : Response) (handle : Nat) (now : τ)
    (c : Challenges τ) : Challenges τ :=
  match ProxyCore.savedChallenge r with
  | none => c
  | some (realm, nonce) =>
    let target := (core.taking r).map (·.target)
    { c.addChallenge suTimeAdd realm nonce (target.getD "") handle now with issued := c.issued.insert nonce (realm, target) }

def isResponseToChallenge (suTimeAdd : τ → UInt32 → τ) (sip : Credentials) (c : Challenges τ) :
    Challenges τ × Option String :=
  match sip.given with
  | none => (c, none)
  | some (realm, nonce) =>
    match c.nonce2Challenge.lookup nonce with
    | none => (c, none)
    | some e =>
      if e.realm = realm then
        ({ c with
            nonce2Challenge := c.nonce2Challenge.erase nonce
            timerQueue := c.timerQueue.step suTimeAdd (.remove e.timerHandle)
            timers := c.timers.erase e.timerHandle }, some e.remoteAddress)
      else (c, none)

/-- What `doProxy` proxies a request to: the target that challenged it, else the destinations of the application. -/
def doProxy (suTimeAdd : τ → UInt32 → τ) (sip : Credentials) (destinations : List String) (c : Challenges τ) :
    Challenges τ × List String :=
  match c.isResponseToChallenge suTimeAdd sip with
  | (c, some target) => (c, [target])
  | (c, none) => (c, destinations)

def timeoutChallenge (nonce : String) (c : Challenges τ) : Challenges τ :=
  { c with nonce2Challenge := c.nonce2Challenge.erase nonce }

/-- A firing of the timer. The function of a timer is bound to a pointer to the nonce within the response, so it gets what
    is to be read there then: `reads`. -/
def doTimer (suTimeAdd : τ → UInt32 → τ) (now : τ) (reads : Nat → String) (c : Challenges τ) : Challenges τ :=
  let timerQueue := c.timerQueue.step suTimeAdd (.doTimer now)
  (timerQueue.fired.drop c.timerQueue.fired.length).foldl
    (fun c handle => { c.timeoutChallenge (reads handle) with timers := c.timers.erase handle })
    { c with timerQueue := timerQueue }

/-- What happens to the table. A response reaches a proxy core, and the allocator has found the address of the new
    timer. -/
inductive Op (τ : Type) where
  | response (core : ProxyCore) (r : Response) (handle : Nat) (now : τ)
  | proxy (sip : Credentials) (destinations : List String)
  | doTimer (now : τ) (reads : Nat → String)

def step (suTimeAdd : τ → UInt32 → τ) (c : Challenges τ) : Op τ → Challenges τ
  | .response core r handle now => c.processResponse suTimeAdd core r handle now
  | .proxy sip destinations => (c.doProxy suTimeAdd sip destinations).1
  | .doTimer now reads => c.doTimer suTimeAdd now reads

/-- The allocator returns an address that is free. -/
def Legal (c : Challenges τ) : Op τ → Prop
  | .response _ _ handle _ => handle ∉ c.timerQueue.heap
  | _ => True

instance (c : Challenges τ) (op : Op τ) : Decidable (c.Legal op) :=
  match op with
  | .response _ _ handle _ => inferInstanceAs (Decidable (¬ handle ∈ c.timerQueue.heap))
  | .proxy _ _ => isTrue trivial
  | .doTimer _ _ => isTrue trivial

end Challenges

end Drachtio.Proxy
