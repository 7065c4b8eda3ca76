import Drachtio.Lib.Table
import Mathlib.Data.List.TakeWhile

/-! The transports of registered endpoints (`UaInvalidData`, and the table m_mapUri2InvalidData in controller.cpp): a
    REGISTER or SUBSCRIBE that was accepted binds its Contact to the transport it came in on, requests to that Contact
    are sent there, and the watchdog takes out what has expired. -/

namespace Drachtio.Controller

/-- URI_LEN -/
def uriLen : Nat := 256

/-- The user and the host of a Contact or a Request-URI. The user ends at the first '@', so that it has none itself, and
    without a user there is none at all. -/
structure Address where
  user : Option String
  host : String
  user_at : ∀ u ∈ user, '@' ∉ u.toList
  host_at : user = none → '@' ∉ host.toList
deriving DecidableEq

namespace Address

/-- The address in a text: what comes before the first '@' is the user. -/
def parse (s : String) : Address :=
  if h : '@' ∈ s.toList then
    { user := some (String.ofList (s.toList.takeWhile (· ≠ '@')))
      host := String.ofList (s.toList.dropWhile (· ≠ '@')).tail
      user_at := by
        rintro u hu hmem
        obtain rfl := Option.some.inj hu
        rw [String.toList_ofList] at hmem
        have hne := List.mem_takeWhile_imp hmem
        simp at hne
      host_at := by simp }
  else
    { user := none
      host := s
      user_at := by simp
      host_at := fun _ => h }

/-- The key under which an address is looked up and flushed. -/
def uri (a : Address) : String := (a.user.elim "" (· ++ "@")) ++ a.host

end Address

/-- What memcpy leaves of a text in an array of URI_LEN zeros. -/
def field (s : String) : String := String.ofList (s.toList.take (uriLen - 1))

structure UaInvalidData (Tport : Type) where
  user : String
  host : String
  expires : Int
  tp : Tport
deriving DecidableEq, Repr

namespace UaInvalidData

variable {Tport : Type}

/-- The constructor; the array for the user stays empty when there is none. -/
def new (user : Option String) (host : String) (expires : Int) (tp : Tport) (now : Int) : UaInvalidData Tport where
  user := (user.map field).getD ""
  host := field host
  expires := now + expires
  tp := tp

def getUri (d : UaInvalidData Tport) : String := (if d.user = "" then "" else d.user ++ "@") ++ d.host

def isExpired (now : Int) (d : UaInvalidData Tport) : Bool := decide (d.expires < now)

end UaInvalidData

/-- m_mapUri2InvalidData -/
abbrev Uri2InvalidData (Tport : Type) := AList fun _ : String => UaInvalidData Tport

namespace Uri2InvalidData

variable {Tport : Type}

/-- An entry that is there is kept, with the new expiry and transport. -/
def cacheTportForSubscription (user : Option String) (host : String) (expires : Int) (tp : Tport) (now : Int)
    (m : Uri2InvalidData Tport) : Uri2InvalidData Tport :=
  let ua := UaInvalidData.new user host expires tp now
  match m.lookup ua.getUri with
  | none => m.insert ua.getUri ua
  | some old => m.insert ua.getUri { old with expires := now + expires, tp := tp }

def flushTportForSubscription (a : Address) (m : Uri2InvalidData Tport) : Uri2InvalidData Tport := m.erase a.uri

def findTportForSubscription (a : Address) (m : Uri2InvalidData Tport) : Option (UaInvalidData Tport) := m.lookup a.uri

/-- What remains of the table when the watchdog has taken out the expired entries. -/
def processWatchdogTimer (now : Int) (m : Uri2InvalidData Tport) : Uri2InvalidData Tport :=
  m.keep fun _ d => !d.isExpired now

/-- What is done with the table, and when. -/
inductive Op (Tport : Type) where
  | cache (a : Address) (expires : Int) (tp : Tport) (now : Int)
  | flush (a : Address) (now : Int)
  | find (a : Address) (now : Int)
  | watchdog (now : Int)

def Op.now : Op Tport → Int
  | .cache _ _ _ now => now
  | .flush _ now => now
  | .find _ now => now
  | .watchdog now => now

def step (m : Uri2InvalidData Tport) : Op Tport → Uri2InvalidData Tport
  | .cache a expires tp now => m.cacheTportForSubscription a.user a.host expires tp now
  | .flush a _ => m.flushTportForSubscription a
  | .find _ _ => m
  | .watchdog now => m.processWatchdogTimer now

end Uri2InvalidData

end Drachtio.Controller
