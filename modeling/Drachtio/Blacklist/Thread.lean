import Drachtio.Blacklist.Addresses
import Mathlib.Data.Finset.Basic

/-! The thread that keeps a blacklist (`threadFunc` in blacklist.cpp), as a machine: what the sentinels and the redis servers
    answer comes in from outside, one connection at a time. -/

namespace Drachtio.Blacklist

open Numerals (atoi)

/-! ### Servers -/

/-- redisReply: its type, and the text or the elements that go with it -/
inductive Reply where
  | string (str : Text)
  | status (str : Text)
  | error (str : Text)
  | array (elements : List Reply)
  | other
deriving Repr

/-- The text of a reply, unless it is a null pointer -/
def Reply.str : Reply → Option Text
  | .string str => some str
  | .status str => some str
  | .error str => some str
  | .array _ => none
  | .other => none

/-- What comes of a connection: whether there is one, the replies to AUTH and to the query, if there are any, and whether an
    error is flagged behind the query -/
structure Server where
  connected : Bool
  auth : Option Reply
  reply : Option Reply
  err : Bool
deriving Repr

/-- The loop over the names and values of a replica: the replica, if it has an address and a port, or none at all when a
    name or a value is no string -/
def findReplica : List Reply → Text → UInt32 → Option (Option Text)
  | .string name :: .string value :: rest, ip, port =>
    let ip := if name = "ip".toList then value else ip
    let port := if name = "port".toList then (atoi value).toUInt32 else port
    if ip ≠ [] ∧ port ≠ 0 then some (some (ip ++ ':' :: Nat.toDigits 10 port.toNat)) else findReplica rest ip port
  | _ :: _ :: _, _, _ => none
  | _, _, _ => some none

/-- The loop over the replicas. Those before one that is refused stay. -/
def addReplicas : List Reply → Finset Text → Bool × Finset Text
  | [], replicas => (true, replicas)
  | .array fields :: rest, replicas =>
    if fields.length % 2 ≠ 0 then (false, replicas)
    else
      match findReplica fields [] 0 with
      | none => (false, replicas)
      | some none => addReplicas rest replicas
      | some (some replica) => addReplicas rest (insert replica replicas)
  | _ :: _, replicas => (false, replicas)

/-- The replicas are cleared before anything is known of the connection. -/
def querySentinel (server : Server) : Bool × Finset Text :=
  if server.connected = false then (false, ∅)
  else
    match server.reply with
    | none => (false, ∅)
    | some reply =>
      if server.err = true then (false, ∅)
      else
        match reply with
        | .array elements => addReplicas elements ∅
        | _ => (false, ∅)

/-- The loop over the members. A text made from a null pointer is undefined. -/
def insertMembers : List Reply → Finset Text → Option (Finset Text)
  | [], ips => some ips
  | member :: rest, ips =>
    match member.str with
    | none => none
    | some str => insertMembers rest (insert str ips)

/-- The query behind the AUTH -/
def queryMembers (server : Server) (ips : Finset Text) : Option (Bool × Finset Text) :=
  match server.reply with
  | none => some (false, ips)
  | some reply =>
    if server.err = true then some (false, ips)
    else
      match reply with
      | .array elements => (insertMembers elements ∅).map fun ips => (true, ips)
      | _ => some (false, ips)

/-- Whether the set was read, and the addresses. The reply to AUTH is looked at without a test whether there is one: then
    nothing is defined. -/
def queryRedis (redisPassword : Text) (server : Server) (ips : Finset Text) : Option (Bool × Finset Text) :=
  if server.connected = false then some (false, ips)
  else if redisPassword ≠ [] then
    match server.auth with
    | none => none
    | some (.error _) => some (false, ips)
    | some _ => queryMembers server ips
  else queryMembers server ips

/-! ### The loop -/

/-- What the two constructors take -/
inductive Source where
  | redis (redisAddress : Text) (redisPort : UInt32)
  | sentinels (sentinels : Text)
deriving DecidableEq, Repr

structure Config where
  source : Source
  redisPassword : Text
  refreshSecs : UInt32
deriving DecidableEq, Repr

def Source.redisAddress : Source → Text
  | .redis redisAddress _ => redisAddress
  | .sentinels _ => []

/-- The address that is polled without replicas -/
def Source.address : Source → Text
  | .redis redisAddress redisPort => redisAddress ++ ':' :: Nat.toDigits 10 redisPort.toNat
  | .sentinels _ => []

/-- Where a host leads: to a connection if it is an address, else to one for each address that the name resolves to -/
inductive Lookup where
  | address (server : Server)
  | name (servers : List Server)
deriving Repr

/-- The addresses of a sentinel are queried until one answers. -/
def queryResolved : List Server → Finset Text → Finset Text
  | [], replicas => replicas
  | server :: rest, _ =>
    let (success, replicas) := querySentinel server
    if success = true then replicas else queryResolved rest replicas

/-- One round of the loop over the sentinels: whether it ends, and the replicas -/
def askSentinel (lookup : Lookup) (replicas : Finset Text) : Bool × Finset Text :=
  match lookup with
  | .address server =>
    let (success, replicas) := querySentinel server
    (success || decide (replicas ≠ ∅), replicas)
  | .name servers =>
    let replicas := queryResolved servers replicas
    (decide (replicas ≠ ∅), replicas)

/-- The server that is polled: of the addresses of a name only the first one -/
def Lookup.polled : Lookup → Option Server
  | .address server => some server
  | .name servers => servers.head?

/-- Where the thread is: at the top of the loop, before a sentinel, before the addresses are chosen, before a poll or behind
    the last one, asleep, at the end of the function, or stopped by what was thrown or is undefined -/
inductive Phase where
  | top
  | asking (rest : List (Text × Int))
  | choosing
  | polling (rest : List Text)
  | sleeping (interval : UInt32)
  | exited
  | terminated
deriving DecidableEq, Repr

structure State where
  phase : Phase
  ips : Finset Text
  replicas : Finset Text
  initialized : Bool
deriving DecidableEq

/-- What the thread goes on with: by itself, with what a sentinel or a redis server answers, or with the order in which the
    replicas are walked -/
inductive Event where
  | turn
  | sentinel (lookup : Lookup)
  | walk (order : List Text)
  | redis (lookup : Lookup)
deriving Repr

/-- The thread when it is started -/
def State.start : State := ⟨.top, ∅, ∅, false⟩

/-- One step of the thread. An event that does not belong to where it is changes nothing. -/
def step (b : Config) (s : State) (e : Event) : State :=
  match s.phase, e with
  | .top, .turn =>
    match b.source with
    | .redis _ _ => { s with phase := .choosing }
    | .sentinels sentinels =>
      if sentinels = [] then { s with phase := .choosing }
      else
        match parseIpPort sentinels with
        | .error _ => { s with phase := .terminated }
        | .ok entries => { s with phase := .asking entries }
  | .asking [], .turn => { s with phase := .choosing }
  | .asking (_ :: rest), .sentinel lookup =>
    let (stop, replicas) := askSentinel lookup s.replicas
    { s with phase := if stop = true then .choosing else .asking rest, replicas := replicas }
  | .choosing, .walk order =>
    if order.Nodup ∧ order.toFinset = s.replicas then
      if b.source.redisAddress = [] ∧ s.replicas = ∅ then { s with phase := .exited }
      else { s with phase := .polling (if s.replicas = ∅ then [b.source.address] else order) }
    else s
  | .polling (address :: rest), .redis lookup =>
    match parseAddress address with
    | .error _ => { s with phase := .terminated }
    | .ok _ =>
      match lookup.polled with
      | none => { s with phase := .polling rest }
      | some server =>
        match queryRedis b.redisPassword server s.ips with
        | none => { s with phase := .terminated }
        | some (success, ips) =>
          { s with phase := .polling rest, ips := ips, initialized := s.initialized || success }
  | .polling [], .turn =>
    if s.initialized = true then { s with phase := .exited }
    else { s with phase := .sleeping (if s.initialized = true then b.refreshSecs else 60) }
  | .sleeping _, .turn => { s with phase := .top }
  | _, _ => s

end Drachtio.Blacklist
