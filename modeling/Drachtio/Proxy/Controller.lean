import Drachtio.Proxy.ProxyCore
import Drachtio.Proxy.Registry

/-! The requests that reach the proxy after the one it was made for (`SipProxyController` in
    sip-proxy-controller.cpp): a PRACK, for which a core is looked up by its Call-ID, and the requests of an
    established dialog, which are sent on without a core; and the Max-Forwards of every copy that is sent. -/

namespace Drachtio.Proxy

/-! ### PRACKs -/

/-- A PRACK: the number in its RAck that names the INVITE (ra_cseq) -/
structure Prack where
  sip : Sip.Message
  cseq : UInt32

namespace Registry

variable {Core : Type}

/-- getProxyByCallId: the first core whose identifier has the Call-ID somewhere in it. The table is walked in an order
    that is not specified; here it is that of its entries. -/
def getProxyByCallId (sip : Sip.Message) (m : Registry Core) : Option Core :=
  (m.entries.find? fun e => decide (sip.callId.val.toList <:+: e.1.toList)).map Sigma.snd

end Registry

/-! ### Copies -/

/-- What a request is forwarded for. -/
inductive Path where
  /-- The search for a target, with the retransmissions -/
  | search
  | info
  | prack
  /-- A request of an established dialog -/
  | route
deriving DecidableEq, Repr

/-- A copy of a request that went downstream, with the Max-Forwards that the request had and that the copy has. -/
structure Copy where
  path : Path
  client : Option Nat
  received : Option UInt64
  sent : Option UInt64
deriving DecidableEq, Repr

/-- What happens to a core and the requests that go past it. -/
inductive Arrival where
  /-- A step of the core. A PRACK has the given Max-Forwards. -/
  | step (i : Input) (maxForwards : Option UInt64)
  /-- A request other than a PRACK, which is for an established dialog. There may be no transport for it, and
      nta_msg_tsend may not take it. -/
  | routed (req : Request) (hasTransport send : Bool)

/-- The copy that an output stands for, where it is written at an event. A PRACK is sent on as the message that it
    came in. -/
def copyOf (request : Request) (event : Option Event) (maxForwards : Option UInt64) : Output → Option Copy
  | .sendRequest client _ _ sent =>
    match event with
    | some (.info req) => some ⟨.info, some client, req.maxForwards, some sent⟩
    | _ => some ⟨.search, some client, request.maxForwards, some sent⟩
  | .sendPrack client _ _ => some ⟨.prack, some client, maxForwards, maxForwards⟩
  | _ => none

/-- The core of a request, and the copies that were made. -/
structure Proxying where
  core : ProxyCore
  copies : List Copy

namespace Proxying

/-- processRequestWithRouteHeader, for a request other than a PRACK: it is sent on as it is. -/
def processRequestWithRouteHeader (req : Request) (hasTransport send : Bool) (s : Proxying) : Proxying :=
  if hasTransport = true ∧ send = true then
    { s with copies := s.copies ++ [⟨.route, none, req.maxForwards, req.maxForwards⟩] }
  else s

def step (s : Proxying) : Arrival → Proxying
  | .step i maxForwards =>
    let core := s.core.step i
    { core := core
      copies := s.copies ++
        (core.log.drop s.core.log.length).filterMap (copyOf s.core.request (some i.event) maxForwards) }
  | .routed req hasTransport send => s.processRequestWithRouteHeader req hasTransport send

/-- The core as `doProxy` leaves it, with the first copies of the request. -/
def doProxy (k : Settings) (env : Env) (req : Request) (destinations : List String) : Proxying where
  core := .doProxy k env req destinations
  copies := (ProxyCore.doProxy k env req destinations).log.filterMap (copyOf req none none)

end Proxying

end Drachtio.Proxy
