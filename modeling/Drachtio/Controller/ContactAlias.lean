import Drachtio.Client.Selection

/-! The table of contact aliases (m_mapContactAlias in controller.cpp): the connection on which a peer was last heard, by
    what it advertises in its Contact, so that a dialog can follow a peer that has opened a new connection. -/

namespace Drachtio.Controller
open Client (lower)

/-- tp_name_t: the name of a transport has the remote host and port of its connection. -/
structure TpName where
  proto : Option String
  host : Option String
  port : Option String
deriving DecidableEq, Repr

/-- What is read of a transport. -/
structure Tport where
  id : Nat
  isSecondary : Bool
  isUdp : Bool
  name : TpName
  /-- tport_parent: the primary of its interface -/
  parent : Nat
deriving DecidableEq, Repr

/-- The host and port in the URI of a Contact. -/
structure ContactUrl where
  host : Option String
  port : Option String
deriving DecidableEq, Repr

/-- What is read of a message. -/
structure Heard where
  isRegister : Bool
  contact : Option ContactUrl
deriving DecidableEq, Repr

structure ContactAliasTarget where
  host : String
  port : String
deriving DecidableEq, Repr

/-- A missing port counts as 0. -/
def portOr0 (advertisedPort : Option String) : String :=
  match advertisedPort with
  | none => "0"
  | some port => if port = "" then "0" else port

def makeContactAliasKey (proto srcAddress advertisedHost : String) (advertisedPort : Option String) : String :=
  lower (proto ++ "|" ++ srcAddress ++ "|" ++ advertisedHost ++ ":" ++ portOr0 advertisedPort)

/-- The transports at some time, as sofia answers for them. A lookup by name looks for exactly that remote host and port
    among the open connections, and else returns a primary or nothing. -/
structure Transports where
  isOpen : Tport → Prop
  tportByName : Tport → TpName → Option Tport
  byName : ∀ tp tpn found, tportByName tp tpn = some found →
    found.isSecondary = true → isOpen found ∧ found.name.host = tpn.host ∧ found.name.port = tpn.port

abbrev ContactAliases := AList fun _ : String => ContactAliasTarget

namespace ContactAliases

def capacity : Nat := 10000

/-- The key and the connection of a message that is tracked: it came over a connection, has a Contact with a host, and
    is not a REGISTER. -/
def tracked (tp : Option Tport) (sip : Option Heard) : Option (String × ContactAliasTarget) :=
  match tp, sip with
  | some tp, some sip =>
    if tp.isSecondary = false ∨ tp.isUdp = true then none
    else
      match sip.contact with
      | some ⟨some host, port⟩ =>
        if sip.isRegister = true then none
        else
          match tp.name with
          | ⟨some tpnProto, some tpnHost, some tpnPort⟩ =>
            some (makeContactAliasKey tpnProto tpnHost host port, ⟨tpnHost, tpnPort⟩)
          | _ => none
      | _ => none
  | _, _ => none

/-- A peer that is known is moved; otherwise a table that is full is cleared first. -/
def cacheContactAlias (bContactAlias : Bool) (tp : Option Tport) (sip : Option Heard) (m : ContactAliases) : ContactAliases :=
  if bContactAlias = false then m
  else
    match tracked tp sip with
    | none => m
    | some (key, target) =>
      match m.lookup key with
      | some old => if old = target then m else m.insert key target
      | none => (if capacity ≤ m.entries.length then ∅ else m).insert key target

/-- The connection on which a peer was last heard. An entry whose connection is gone is dropped, and a connection on
    another interface than the pinned transport is not used. -/
def getTportForContactAlias (bContactAlias : Bool) (net : Transports) (pinned : Option Tport)
    (proto srcAddress advertisedHost advertisedPort : Option String) (m : ContactAliases) : ContactAliases × Option Tport :=
  if bContactAlias = false then (m, none)
  else
    match pinned, proto, srcAddress, advertisedHost with
    | some pinned, some proto, some srcAddress, some advertisedHost =>
      let key := makeContactAliasKey proto srcAddress advertisedHost advertisedPort
      match m.lookup key with
      | none => (m, none)
      | some target =>
        match net.tportByName pinned ⟨pinned.name.proto, some target.host, some target.port⟩ with
        | none => (m.erase key, none)
        | some tp =>
          if tp.isSecondary = false then (m.erase key, none)
          else if tp.parent = pinned.parent then (m, some tp)
          else (m, none)
    | _, _, _, _ => (m, none)

/-- The messages that come in, and the lookups of dialogs. -/
inductive Op where
  | message (tp : Option Tport) (sip : Option Heard)
  | lookup (net : Transports) (pinned : Option Tport) (proto srcAddress advertisedHost advertisedPort : Option String)

def step (bContactAlias : Bool) (m : ContactAliases) : Op → ContactAliases
  | .message tp sip => m.cacheContactAlias bContactAlias tp sip
  | .lookup net pinned proto srcAddress advertisedHost advertisedPort =>
    (m.getTportForContactAlias bContactAlias net pinned proto srcAddress advertisedHost advertisedPort).1

end ContactAliases

/-- What a dialog has of its connection: its transport, and the protocol and address it was set up with. -/
structure DialogTransport where
  tp : Option Tport
  protocol : String
  transportAddress : String
deriving DecidableEq, Repr

/-- The transport for a request in a dialog, which keeps it: its own, unless its peer has moved. -/
def currentTportForDialog (bContactAlias : Bool) (net : Transports) (remoteTarget : Option ContactUrl) (dlg : DialogTransport)
    (m : ContactAliases) : ContactAliases × Option Tport :=
  match dlg.tp, remoteTarget with
  | some tp, some ⟨some host, port⟩ =>
    if dlg.transportAddress = "" then (m, some tp)
    else
      let found := m.getTportForContactAlias bContactAlias net (some tp) (some dlg.protocol) (some dlg.transportAddress)
        (some host) port
      (found.1, some (found.2.getD tp))
  | tp, _ => (m, tp)

end Drachtio.Controller
