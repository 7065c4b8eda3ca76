import Drachtio.Lib.Table
import Drachtio.Sip.Message
import Mathlib.Data.List.Infix

/-! The registry of proxy cores (`m_mapCallId2Proxy` of `SipProxyController`): a core is found again by an
    identifier made of a message of its transaction. -/

namespace Drachtio.Proxy

open Sip (identifier identifiedMethod)

/-- The branch the identifier takes: the request that went out had the branch of the incoming one, which
    is on the second Via of a response. -/
def identifyingBranch (sip : Sip.Message) : Option Sip.Token :=
  match sip.request with
  | none => sip.nextBranch
  | some _ => sip.branch

/-- The identifier of sip-proxy-controller.cpp. -/
def makeUniqueSipTransactionIdentifier (sip : Sip.Message) : String :=
  identifier sip.callId.val (identifiedMethod sip) sip.cseq.seq ((identifyingBranch sip).map (·.val))

/-- The cores by identifier; a core is a shared pointer, of which only the identity matters here. -/
abbrev Registry (Core : Type) := AList fun _ : String => Core

namespace Registry

variable {Core : Type}

def addProxy (sip : Sip.Message) (p : Core) (m : Registry Core) : Registry Core :=
  m.insertNew (makeUniqueSipTransactionIdentifier sip) p

def removeProxy (sip : Sip.Message) (m : Registry Core) : Registry Core :=
  m.erase (makeUniqueSipTransactionIdentifier sip)

def getProxy (sip : Sip.Message) (m : Registry Core) : Option Core :=
  m.lookup (makeUniqueSipTransactionIdentifier sip)

def isProxyingRequest (sip : Sip.Message) (m : Registry Core) : Bool :=
  decide (makeUniqueSipTransactionIdentifier sip ∈ m)

/-- A request that can be proxied: CANCELs never become pending requests, so `doProxy` finds none. -/
def Proxied := { sip : Sip.Message // ∃ m, sip.request = some m ∧ m ≠ .cancel }

/-- A change of the registry: a core is added for a request, or taken out by the request it holds. -/
inductive Op (Core : Type) where
  | add (sip : Proxied) (p : Core)
  | remove (sip : Proxied)

def step (m : Registry Core) : Op Core → Registry Core
  | .add sip p => m.addProxy sip.val p
  | .remove sip => m.removeProxy sip.val

end Registry

end Drachtio.Proxy
