import Drachtio.Client.Controller

/-! The choice of a client for a request outside a dialog (client-controller.cpp): round robin over the
    registrations for its method, and where a tag is asked for over those whose client carries it. -/

namespace Drachtio.Client

/-- The controller, and the tags of its clients. -/
structure Registry where
  server : Server
  /-- m_tags of a client -/
  tags : ClientId → Finset String

/-- std::transform with tolower -/
def lower (s : String) : String := String.ofList (s.toList.map Char.toLower)

def offsetKey (method : String) : Option String → String
  | none => method
  | some tag => method ++ ":" ++ tag

namespace Registry

/-- `RequestSpecifier::client`: the client of a registration while that is connected. -/
def specified (e : String × ClientId) (r : Registry) : Option ClientId :=
  if e.2 ∈ r.server.clients then some e.2 else none

/-- Whether a client carries the tag, if one is asked for. -/
def takes (tag : Option String) (client : ClientId) (r : Registry) : Bool :=
  match tag with
  | none => true
  | some tag => decide (tag ∈ r.tags client)

/-- The first pass over the registrations: those of disconnected clients go, and those that can take the
    request are counted. -/
def countPossibles (method : String) (tag : Option String) (r : Registry) :
    List (String × ClientId) → List (String × ClientId) × Nat
  | [] => ([], 0)
  | e :: rest =>
    let (kept, nPossibles) := countPossibles method tag r rest
    if e.1 ≠ method then (e :: kept, nPossibles)
    else
      match r.specified e with
      | none => (kept, nPossibles)
      | some c => (e :: kept, if r.takes tag c = true then nPossibles + 1 else nPossibles)

/-- The second pass: the registration at an offset among those that can take the request. -/
def pick (method : String) (tag : Option String) (r : Registry) : Nat → List (String × ClientId) → Option ClientId
  | _, [] => none
  | nOffset, e :: rest =>
    if e.1 ≠ method then pick method tag r nOffset rest
    else
      match r.specified e with
      | none => pick method tag r nOffset rest
      | some c =>
        if r.takes tag c = false then pick method tag r nOffset rest
        else if nOffset = 0 then some c
        else pick method tag r (nOffset - 1) rest

def selectClientForRequestOutsideDialog (keyword : String) (tag : Option String) (r : Registry) :
    Registry × Option ClientId :=
  let method := lower keyword
  let (requestTypes, nPossibles) := r.countPossibles method tag r.server.requestTypes
  let r := { r with server := { r.server with requestTypes := requestTypes } }
  if nPossibles = 0 then (r, none)
  else
    let key := offsetKey method tag
    let nOffset := (r.server.requestTypeOffsets.lookup key).getD 0 % nPossibles
    let r := { r with
      server := { r.server with requestTypeOffsets := r.server.requestTypeOffsets.insert key (nOffset + 1) } }
    (r, r.pick method tag nOffset requestTypes)

/-- What happens to the registrations. -/
inductive Event where
  | select (keyword : String) (tag : Option String)
  | wantsRequests (client : ClientId) (verb : String)
  | noLongerWantsRequests (client : ClientId) (verb : String)
  | join (client : ClientId)
  | leave (client : ClientId)
  | authenticate (client : ClientId) (tags : Finset String)

/-- The registry after an event, and the client that a selection returns. -/
def handle (r : Registry) : Event → Registry × Option ClientId
  | .select keyword tag => r.selectClientForRequestOutsideDialog keyword tag
  | .wantsRequests client verb => ({ r with server := (r.server.wantsRequests client verb).1 }, none)
  | .noLongerWantsRequests client verb => ({ r with server := (r.server.noLongerWantsRequests client verb).1 }, none)
  | .join client => ({ r with server := { r.server with clients := insert client r.server.clients } }, none)
  | .leave client => ({ r with server := { r.server with clients := r.server.clients.erase client } }, none)
  | .authenticate client tags =>
    ({ r with tags := fun c => if c = client then r.tags c ∪ tags else r.tags c }, none)

def step (r : Registry) (e : Event) : Registry := (r.handle e).1

/-- The verb, without its case, and the tag that an event selects for. -/
def Event.pair : Event → Option (String × Option String)
  | .select keyword tag => some (lower keyword, tag)
  | _ => none

/-- What the selections for a verb and a tag return along some events. -/
def answers (p : String × Option String) : Registry → List Event → List (Option ClientId)
  | _, [] => []
  | r, e :: events =>
    if e.pair = some p then (r.handle e).2 :: answers p (r.step e) events
    else answers p (r.step e) events

/-- A registration for a verb whose client is connected and carries the tag, if one is asked for. -/
def possible (method : String) (tag : Option String) (r : Registry) (e : String × ClientId) : Bool :=
  decide (e.1 = method) && (decide (e.2 ∈ r.server.clients) && r.takes tag e.2)

def matching (p : String × Option String) (r : Registry) : List (String × ClientId) :=
  r.server.requestTypes.filter (r.possible p.1 p.2)

/-- What the callers ask for: a method, of which no token has a colon, or one of the `cdr:` keywords without
    a tag. A request of a method CDR does not come with a tag. -/
def Passed (keyword : String) (tag : Option String) : Prop :=
  (':' ∉ keyword.toList ∧ (lower keyword = "cdr" → tag = none)) ∨ ("cdr:".toList <+: keyword.toList ∧ tag = none)

end Registry

end Drachtio.Client
