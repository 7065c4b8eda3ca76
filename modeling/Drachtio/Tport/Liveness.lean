import Drachtio.Lib.Table

/-! Counting the requests in a row that time out on a connection, so that a dead one is closed (`trackTportLiveness` in
    sip-dialog-controller.cpp). -/

namespace Drachtio.Tport

/-- tp_name_t, as far as it goes into the key. Any part may be missing. -/
structure Name where
  proto : Option String
  host : Option String
  port : Option String

/-- tport_t, as far as it is asked -/
structure Transport where
  secondary : Bool
  udp : Bool
  name : Option Name

/-- A response that the stack hands over. It may have been made by the stack itself. -/
structure Response where
  internal : Bool
  status : Option Nat

/-- A call: there is no response when a transaction timed out, and no transport while its address is looked up. -/
structure Evidence where
  sip : Option Response
  tport : Option Transport

/-- m_mapTportConsecutiveTimeouts -/
abbrev Timeouts := AList fun _ : String => UInt32

def Name.key (n : Name) : Option String :=
  match n.proto, n.host, n.port with
  | some proto, some host, some port => some (proto ++ "/" ++ host ++ ":" ++ port)
  | _, _, _ => none

namespace Evidence

/-- nta_sip_is_internal -/
def isInternal (e : Evidence) : Bool := e.sip.all (·.internal)

def isTimeout (e : Evidence) : Bool := e.isInternal && e.sip.all (·.status == some 408)

def isAlive (e : Evidence) : Bool := !e.isInternal

/-- The key of the transport: those that listen and those over UDP are left alone. -/
def key (e : Evidence) : Option String :=
  e.tport.bind fun tp => if (!tp.secondary || tp.udp) = true then none else tp.name.bind Name.key

end Evidence

namespace Timeouts

/-- What is done for a transport, and whether it is shut down -/
def count (limit : UInt32) (m : Timeouts) (e : Evidence) : Timeouts × Bool :=
  match e.key with
  | none => (m, false)
  | some key =>
    if e.isTimeout = true then
      let c := (m.lookup key).getD 0 + 1
      if limit ≤ c then ((m.insert key c).erase key, true) else (m.insert key c, false)
    else if e.isAlive = true then (m.erase key, false)
    else (m, false)

/-- Nothing is counted without a limit, nor as long as nothing has timed out. -/
def trackTportLiveness (limit : UInt32) (m : Timeouts) (e : Evidence) : Timeouts × Bool :=
  if limit = 0 then (m, false)
  else if e.isTimeout = false ∧ m.entries.isEmpty = true then (m, false)
  else m.count limit e

/-- The calls so far, each with whether it shut its transport down -/
def history (limit : UInt32) : Timeouts → List Evidence → List (Evidence × Bool)
  | _, [] => []
  | m, e :: es => (e, (m.trackTportLiveness limit e).2) :: history limit (m.trackTportLiveness limit e).1 es

/-- The counters after some calls -/
def after (limit : UInt32) (m : Timeouts) (es : List Evidence) : Timeouts :=
  es.foldl (fun m e => (m.trackTportLiveness limit e).1) m

end Timeouts

end Drachtio.Tport
