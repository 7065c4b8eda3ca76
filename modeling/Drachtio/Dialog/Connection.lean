import Drachtio.Controller.Bindings
import Drachtio.Controller.ContactAlias
import Drachtio.Dialog.Tables
import Drachtio.Lib.Ledger
import Drachtio.Sip.Rfc1918

/-! Where the requests inside a dialog are sent (sip-dialog.cpp and its callers in sip-dialog-controller.cpp): the
    transport that a dialog is pinned to and holds a reference of, the ACK whose transport is not known yet, the
    connection to which the peer has moved, and the route around a NAT. -/

namespace Drachtio.Dialog

open Proxy (Method)
open Controller (Tport Transports ContactUrl ContactAliases DialogTransport Address Uri2InvalidData Heard)
open Ledger (Entry)

/-- The name of a transport: that of a protocol and a numeric address, which have no '|'. -/
def Named (tp : Tport) : Prop := (∀ p ∈ tp.name.proto, '|' ∉ p.toList) ∧ ∀ h ∈ tp.name.host, '|' ∉ h.toList

instance (tp : Tport) : Decidable (Named tp) := inferInstanceAs (Decidable (_ ∧ _))

/-- What sofia says at some time: the transports, which of them are closed, and the transports that transactions have
    got by then. -/
structure NetEnv where
  net : Transports
  /-- tport_is_closed -/
  closed : Tport → Bool
  /-- nta_outgoing_transport, which hands out a reference -/
  transport : Orq → Option Tport
  open_closed : ∀ tp, net.isOpen tp → closed tp = false
  found_named : ∀ tp tpn found, net.tportByName tp tpn = some found → Named found
  transport_named : ∀ orq tp, transport orq = some tp → Named tp

/-- What is counted: references to transports, and the transactions of ACKs, which have to be destroyed once. -/
inductive Resource where
  | tport (tp : Tport)
  | ack (orq : Orq)
deriving DecidableEq, Repr

/-- The flags of the controller -/
structure NatSetup where
  /-- m_bContactAlias -/
  contactAlias : Bool
  /-- m_bAggressiveNatDetection -/
  aggressiveNat : Bool
  /-- m_bDisableNatDetection -/
  disableNatDetection : Bool
deriving DecidableEq, Repr

/-! ### Routes around a NAT -/

/-- What is read of a Contact -/
structure PeerContact where
  host : String
  port : Option String
  params : Option String
deriving DecidableEq, Repr

/-- The parameters of a url have nat=yes in them. -/
def advertisesNat (params : Option String) : Bool := params.any fun p => decide ("nat=yes".toList <:+: p.toList)

/-- The Record-Routes of a message are given by the parameters of their urls. -/
def sipMsgHasNatEqualsYes (recordRoute : List (Option String)) (contact : Option PeerContact)
    (weAreUac checkContact : Bool) : Bool :=
  if recordRoute = [] then checkContact && contact.any fun c => advertisesNat c.params
  else (if weAreUac = true then recordRoute.getLast? else recordRoute.head?).any advertisesNat

/-- What the constructor of a UAS dialog reads. -/
structure UasInvite where
  tp : Tport
  /-- nta_incoming_protocol -/
  protocol : String
  /-- tport_is_dgram -/
  dgram : Bool
  sourceAddress : String
  sourcePort : String
  contact : Option PeerContact
  recordRoute : List (Option String)
  /-- The scheme of nta_incoming_url -/
  scheme : String
  named : Named tp
  protocol_bar : '|' ∉ protocol.toList

namespace UasInvite

/-- m_sourcePort -/
def port (m : UasInvite) : UInt32 := (Numerals.atoi m.sourcePort.toList).toUInt32

def isNatted (c : NatSetup) (m : UasInvite) : Bool :=
  if c.aggressiveNat = true ∧ sipMsgHasNatEqualsYes m.recordRoute m.contact false false = true then true
  else
    match m.contact with
    | some contact =>
      !c.disableNatDetection && m.recordRoute.isEmpty &&
        (m.sourceAddress != contact.host || contact.port.any fun p => (Numerals.atoi p.toList).toUInt32 != m.port)
    | none => false

def routeUri (c : NatSetup) (m : UasInvite) : String :=
  if m.dgram = true ∧ m.isNatted c = true then m.scheme ++ ":" ++ m.sourceAddress ++ ":" ++ toString m.port else ""

end UasInvite

/-- What the constructor of a UAC dialog reads. -/
structure UacInvite where
  /-- nta_outgoing_transport, if it is known yet -/
  tp : Option Tport
  /-- The description of the transport that was selected -/
  transport : Sip.Text
  /-- nta_outgoing_route_uri -/
  routeUri : Option String
  named : ∀ t ∈ tp, Named t

/-- What `processResponseOutsideDialog` reads of a response to the request that made the dialog, and of its transaction. -/
structure InviteResponse where
  /-- cs_method -/
  method : Method
  status : Nat
  /-- It has an RSeq header. -/
  reliable : Bool
  contact : Option PeerContact
  recordRoute : List (Option String)
  /-- The host of the first route of the leg, if it has one -/
  legRoute : Option (Option String)
  /-- Where the response came from -/
  address : String
  port : String
  /-- The host of nta_outgoing_request_uri -/
  requestHost : Option String
  /-- The scheme of nta_outgoing_route_uri -/
  routeScheme : Option String
  /-- tpn_proto of the transport that the request was sent on -/
  proto : Option String
deriving DecidableEq, Repr

namespace InviteResponse

/-- The responses on which a UAC dialog is added -/
def establishes (r : InviteResponse) : Bool :=
  r.method == .invite && (r.status == 200 || decide (100 < r.status ∧ r.status < 200) && r.reliable) ||
    r.method == .subscribe && (r.status == 202 || r.status == 200)

def isNatted (c : NatSetup) (r : InviteResponse) : Bool :=
  let nat :=
    if r.legRoute.any (fun host => host.any fun host => Sip.isRfc1918 host.toList) = true then true
    else if r.method = .invite ∧ r.legRoute = none ∧ r.contact.any (fun contact => contact.host != r.address) = true then true
    else c.aggressiveNat && sipMsgHasNatEqualsYes r.recordRoute r.contact true true
  nat && !c.disableNatDetection

/-- The address the response came from; the transport is kept for TLS. -/
def natRoute (r : InviteResponse) : String :=
  if r.proto = some "tls" then "sips:" ++ r.address ++ ":" ++ r.port ++ ";transport=tls"
  else r.routeScheme.getD "sip" ++ ":" ++ r.address ++ ":" ++ r.port

end InviteResponse

/-! ### The connection of a dialog -/

/-- What a `SipDialog` has of its connection. -/
structure Connection where
  uac : Bool
  /-- m_tp, m_protocol and m_transportAddress -/
  pin : DialogTransport
  /-- m_routeUri -/
  routeUri : String
  orqAck : Option Orq
  destroyAckOnClose : Bool
  /-- The object is destroyed. -/
  gone : Bool
  /-- Ghosts: the transport that sofia chose last for the dialog, the ACKs that were overwritten, the route at the
      beginning, the responses since, and the books. -/
  home : Option Tport
  lost : List Orq
  first : String
  responses : List InviteResponse
  books : List (Entry Resource)

namespace Connection

def take (r : Resource) (d : Connection) : Connection := { d with books := d.books ++ [.take r] }

def give (r : Resource) (d : Connection) : Connection := { d with books := d.books ++ [.give r] }

/-- The names of a transport; sofia gives all of them. -/
def pinned (tp : Tport) : DialogTransport := ⟨some tp, tp.name.proto.getD "", tp.name.host.getD ""⟩

/-- The dialog of an INVITE that came in, with the reference from nta_incoming_transport -/
def ofIncoming (c : NatSetup) (m : UasInvite) : Connection where
  uac := false
  pin := { pinned m.tp with protocol := m.protocol }
  routeUri := m.routeUri c
  orqAck := none
  destroyAckOnClose := false
  gone := false
  home := some m.tp
  lost := []
  first := m.routeUri c
  responses := []
  books := [.take (.tport m.tp)]

/-- The dialog of an INVITE that was sent. While DNS is pending, its names are those of our own transport. -/
def ofOutgoing (m : UacInvite) : Connection where
  uac := true
  pin :=
    match m.tp with
    | some tp => pinned tp
    | none =>
      match Sip.parseTransportDescription m.transport with
      | some (proto, host, _) => ⟨none, String.ofList proto, String.ofList host⟩
      | none => ⟨none, "", ""⟩
  routeUri := m.routeUri.getD ""
  orqAck := none
  destroyAckOnClose := false
  gone := false
  home := m.tp
  lost := []
  first := m.routeUri.getD ""
  responses := []
  books := m.tp.toList.map fun tp => .take (.tport tp)

/-- m_tp is given back, if there is one. -/
def unpin (d : Connection) : Connection :=
  match d.pin.tp with
  | none => d
  | some tp => { d.give (.tport tp) with pin := { d.pin with tp := none } }

def checkTportState (env : NetEnv) (d : Connection) : Connection := if d.pin.tp.any env.closed = true then d.unpin else d

def setTport (tp : Tport) (d : Connection) : Connection := { d.unpin.take (.tport tp) with pin := pinned tp }

/-- `getTport`, which returns what m_tp is then: the transport of a delayed ACK is taken over when it is known. -/
def getTport (env : NetEnv) (d : Connection) : Connection :=
  let d := d.checkTportState env
  match d.pin.tp, d.orqAck with
  | none, some orq =>
    match env.transport orq with
    | none => d
    | some tp =>
      let d := d.take (.tport tp)
      let d := if env.closed tp = true then d.give (.tport tp)
        else { (d.setTport tp).give (.tport tp) with home := some tp }
      { d.give (.ack orq) with orqAck := none }
  | _, _ => d

def setOrqAck (orq : Orq) (destroyAckOnClose : Bool) (d : Connection) : Connection :=
  { d with orqAck := some orq, destroyAckOnClose := destroyAckOnClose, lost := d.lost ++ d.orqAck.toList }

/-- `currentTportForDialog`; what it returns is m_tp then. -/
def currentTport (c : NatSetup) (env : NetEnv) (remoteTarget : Option ContactUrl) (aliases : ContactAliases)
    (d : Connection) :
    ContactAliases × Connection :=
  let d := d.getTport env
  let (aliases, current) := Controller.currentTportForDialog c.contactAlias env.net remoteTarget d.pin aliases
  match current with
  | none => (aliases, d)
  | some current => (aliases, if d.pin.tp = some current then d else d.setTport current)

/-- The ACK is sent. While its transport is not known its transaction is kept; otherwise it is left to timer D or, over a
    connection, destroyed. -/
def sendAck (env : NetEnv) (orq : Orq) (d : Connection) : Connection :=
  let d := d.take (.ack orq)
  match env.transport orq with
  | none => d.setOrqAck orq true
  | some tp => { ((d.take (.tport tp)).setTport tp |>.give (.tport tp)).give (.ack orq) with home := some tp }

/-- `processResponseOutsideDialog`: of a natted peer that is the feature server the route stays as it is. -/
def processResponse (c : NatSetup) (r : InviteResponse) (d : Connection) : Connection :=
  let d := { d with responses := d.responses ++ [r] }
  if r.establishes = false then d
  else if r.isNatted c = false then { d with routeUri := "" }
  else if r.requestHost = some "feature-server" then d
  else { d with routeUri := r.natRoute }

/-- getRouteUri -/
def getRouteUri (d : Connection) : Option String := if d.routeUri = "" then none else some d.routeUri

/-- ~SipDialog -/
def destroy (d : Connection) : Connection :=
  let d := d.unpin
  let d := match d.orqAck with
    | none => d
    | some orq => if d.destroyAckOnClose = true then { d.give (.ack orq) with orqAck := none } else d
  { d with gone := true }

end Connection

/-! ### The dialogs of the server -/

/-- The remote target of a leg -/
structure Target where
  /-- The user and the host of its url, if it has a host -/
  address : Option Address
  port : Option String
  /-- What url_e prints -/
  uri : String

def Target.contactUrl (t : Target) : ContactUrl := ⟨t.address.map (·.host), t.port⟩

/-- A request of an application inside a dialog. -/
structure InDialogRequest where
  method : Method
  requestUri : String
  /-- nta_leg_get_route, unless it fails -/
  target : Option (Option Target)
  /-- m_recentSipStatus -/
  status : Nat
  /-- There is an invite in progress for the leg. -/
  inProgress : Bool
  /-- The method, the type of the content or the transaction is refused. -/
  throws : Bool
  /-- The transaction of an ACK -/
  orq : Orq

namespace InDialogRequest

def remoteTarget (r : InDialogRequest) : Option Target := r.target.join

/-- The request goes to the remote target whatever its uri says. -/
def defaultsUri (r : InDialogRequest) : Bool :=
  r.target.isSome && (r.method == .ack || decide ("placeholder".toList <:+: r.requestUri.toList))

/-- It goes to the remote target and there is none, or none with a host. -/
def noRoute (r : InDialogRequest) : Bool := r.defaultsUri && r.remoteTarget.all fun t => t.address.isNone

end InDialogRequest

/-- A request that is handed to sofia inside a dialog: the transport that is forced on it, and the route. -/
structure Outgoing where
  dialog : Nat
  tport : Option Tport
  route : Option String
deriving DecidableEq, Repr

structure Calls where
  aliases : ContactAliases
  bindings : Uri2InvalidData Tport
  dialogs : List Connection
  /-- Ghost: the references of the table of bindings -/
  books : List (Entry Resource)

namespace Calls

def empty : Calls := ⟨∅, ∅, [], []⟩

/-- findTportForSubscription for the remote target -/
def regBinding (target : Option Target) (s : Calls) : Option (Controller.UaInvalidData Tport) :=
  (target.bind (·.address)).bind s.bindings.findTportForSubscription

/-- The transport for a request to the remote target: a peer with a binding is not followed. -/
def follow (c : NatSetup) (env : NetEnv) (target : Option Target) (d : Connection) (s : Calls) : Calls × Connection :=
  match s.regBinding target with
  | some _ => (s, d)
  | none =>
    let (aliases, d) := d.currentTport c env (target.map Target.contactUrl) s.aliases
    ({ s with aliases := aliases }, d)

/-- The transport that is forced on a request. After a mid-call handoff that of the binding wins, but only for a request that
    goes to the remote target whatever its uri says. -/
def forced (r : InDialogRequest) (d : Connection) (s : Calls) : Option Tport :=
  match s.regBinding r.remoteTarget with
  | some ua => if r.defaultsUri = true then some ua.tp else d.pin.tp
  | none => d.pin.tp

/-- doSendRequestInsideDialog, as far as it concerns the connection -/
def sendInside (c : NatSetup) (env : NetEnv) (i : Nat) (r : InDialogRequest) (d : Connection) (s : Calls) :
    Calls × Option Outgoing :=
  let (s, d) := s.follow c env r.remoteTarget (d.getTport env)
  if r.noRoute = true ∨ r.throws = true then ({ s with dialogs := s.dialogs.set i d }, none)
  else if r.method = .ack then
    if r.status = 200 then
      ({ s with dialogs := s.dialogs.set i (d.sendAck env r.orq) }, some ⟨i, s.forced r d, d.getRouteUri⟩)
    else ({ s with dialogs := s.dialogs.set i d }, none)
  else if r.method = .prack then
    ({ s with dialogs := s.dialogs.set i d }, if r.inProgress = true then some ⟨i, none, d.getRouteUri⟩ else none)
  else ({ s with dialogs := s.dialogs.set i d }, some ⟨i, s.forced r d, d.getRouteUri⟩)

/-- The requests that the server sends by itself: the refreshing re-INVITE and its ACK, and the BYE for a dialog that was not
    refreshed, not acknowledged, or answered after it was canceled -/
def sendOwn (env : NetEnv) (i : Nat) (d : Connection) (s : Calls) : Calls × Option Outgoing :=
  let d := d.getTport env
  ({ s with dialogs := s.dialogs.set i d }, some ⟨i, d.pin.tp, d.getRouteUri⟩)

/-- The BYE after a CANCEL for an INVITE that was answered, which is sent without the route -/
def byeForCancel (c : NatSetup) (env : NetEnv) (i : Nat) (target : Option Target) (d : Connection) (s : Calls) :
    Calls × Option Outgoing :=
  let d := d.getTport env
  let (s, d) := if (target.bind (·.address)).isSome = true then s.follow c env target d else (s, d)
  ({ s with dialogs := s.dialogs.set i d }, some ⟨i, d.pin.tp, none⟩)

/-- What happens to the references of the table of bindings: a `UaInvalidData` has one, also the one that is made to update
    an entry. -/
def bookBinding (m : Uri2InvalidData Tport) : Uri2InvalidData.Op Tport → List (Entry Resource)
  | .cache a expires tp now =>
    match m.lookup (Controller.UaInvalidData.new a.user a.host expires tp now).getUri with
    | none => [.take (.tport tp)]
    | some old =>
      [.take (.tport tp), .give (.tport tp)] ++ if tp = old.tp then [] else [.give (.tport old.tp), .take (.tport tp)]
  | .flush a _ =>
    match m.lookup a.uri with
    | none => []
    | some d => [.give (.tport d.tp)]
  | .find _ _ => []
  | .watchdog now => (m.entries.filter fun e => e.2.isExpired now).map fun e => .give (.tport e.2.tp)

inductive Event where
  /-- A message comes in on a transport. -/
  | message (tp : Option Tport) (named : ∀ t ∈ tp, Named t) (sip : Option Heard)
  | binding (op : Uri2InvalidData.Op Tport)
  | incoming (m : UasInvite)
  | outgoing (m : UacInvite)
  | response (i : Nat) (r : InviteResponse)
  | send (i : Nat) (env : NetEnv) (r : InDialogRequest)
  | own (i : Nat) (env : NetEnv)
  | byeForCancel (i : Nat) (env : NetEnv) (target : Option Target)
  | destroy (i : Nat)

/-- The dialog with a number, while its object exists -/
def dialog (i : Nat) (s : Calls) : Option Connection := s.dialogs[i]?.filter fun d => !d.gone

def step (c : NatSetup) (s : Calls) : Event → Calls × Option Outgoing
  | .message tp _ sip => ({ s with aliases := s.aliases.cacheContactAlias c.contactAlias tp sip }, none)
  | .binding op => ({ s with bindings := s.bindings.step op, books := s.books ++ bookBinding s.bindings op }, none)
  | .incoming m => ({ s with dialogs := s.dialogs ++ [.ofIncoming c m] }, none)
  | .outgoing m => ({ s with dialogs := s.dialogs ++ [.ofOutgoing m] }, none)
  | .response i r =>
    match s.dialog i with
    | none => (s, none)
    | some d => (if d.uac = true then { s with dialogs := s.dialogs.set i (d.processResponse c r) } else s, none)
  | .send i env r =>
    match s.dialog i with
    | none => (s, none)
    | some d => s.sendInside c env i r d
  | .own i env =>
    match s.dialog i with
    | none => (s, none)
    | some d => s.sendOwn env i d
  | .byeForCancel i env target =>
    match s.dialog i with
    | none => (s, none)
    | some d => s.byeForCancel c env i target d
  | .destroy i =>
    match s.dialog i with
    | none => (s, none)
    | some d => ({ s with dialogs := s.dialogs.set i d.destroy }, none)

end Calls

end Drachtio.Dialog
