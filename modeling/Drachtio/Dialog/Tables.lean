import Drachtio.Client.Controller
import Drachtio.Pending.PendingRequests

/-! The tables that say who has a dialog and who has a transaction: those of `ClientController`
    (client-controller.cpp), and the stable dialogs, invites in progress, requests in progress and incoming
    requests of `SipDialogController` (sip-dialog.cpp, invite-in-progress.cpp, sip-dialog-controller.cpp).

    A `SipDialog` object has a leg of its own from its construction to its destruction, so the objects are kept by
    their legs, and being in the container of stable dialogs or having an invite in progress is a property of
    the object. -/

namespace Drachtio.Dialog

open Proxy (Method)
open Client (ClientId Id2Client)
open Pending (PendingRequests PendingRequest Arrival)

/-- nta_leg_t* -/
abbrev Leg := Nat

/-- nta_outgoing_t* -/
abbrev Orq := Nat

/-- nta_reliable_t* -/
abbrev Reliable := Nat

/-- `IIP`, for the dialog that has it and under the transaction id of that dialog. One that came in has an irq
    in place of an orq. -/
structure InviteInProgress where
  orq : Option Orq
  reliables : List Reliable
  canceled : Bool
deriving DecidableEq, Repr

structure SipDialog where
  callId : String
  /-- The tag of the From header: our own tag when we are the UAC, that of the peer when we are the UAS. -/
  fromTag : String
  transactionId : String
  /-- m_bInviteDialog; the other dialogs are made by a SUBSCRIBE. -/
  isInvite : Bool
  /-- The client that had the transaction when the dialog was made. Nothing in the source reads it. -/
  owner : Option ClientId
  /-- m_recentSipStatus -/
  status : Nat
  /-- m_incomingRequestTransactionIds -/
  incoming : List String
  /-- m_updateTransactionId, while there is an m_irqUpdate -/
  update : Option String
  ackBye : Bool
  /-- The invite in progress that holds the dialog. -/
  invite : Option InviteInProgress
  /-- The dialog is in m_dialogs. -/
  stable : Bool
  /-- Timer H is queued, and it holds the dialog. -/
  timerH : Bool

/-- getDialogId -/
def SipDialog.dialogId (d : SipDialog) : String := d.callId ++ ";from-tag=" ++ d.fromTag

/-- `IrqEntry`: the request, and the client of the dialog it came in. -/
structure Irq where
  method : Method
  owner : Option ClientId

/-- `RIP` -/
structure RequestInProgress where
  transactionId : String
  dialogId : String
  /-- m_dlg, which holds the dialog -/
  dlg : Option Leg
  clearDialogOnResponse : Bool

/-- A message queued on the connection of a client. -/
structure Delivery where
  client : ClientId
  transactionId : String
  dialogId : String
deriving DecidableEq, Repr

structure Registries where
  /-- The clients that have disconnected. A client id stands for one connection, so none comes back. -/
  gone : Finset ClientId
  /-- m_mapNetTransactions -/
  netTransactions : Id2Client
  /-- m_mapAppTransactions -/
  appTransactions : Id2Client
  /-- m_mapDialogs -/
  dialogs : Id2Client
  pending : PendingRequests
  /-- m_mapTransactionId2Irq -/
  irqs : AList fun _ : String => Irq
  /-- The dialog objects. -/
  legs : AList fun _ : Leg => SipDialog
  /-- m_mapOrq2RIP -/
  rips : AList fun _ : Orq => RequestInProgress
  /-- The transactions for which a `timeoutBye` is queued. -/
  byeTimers : List String
  log : List Delivery

namespace Registries

def empty : Registries := ⟨∅, ∅, ∅, ∅, .empty, ∅, ∅, ∅, [], []⟩

/-! ### The clients -/

/-- lock of a weak pointer -/
def lock (client : Option ClientId) (s : Registries) : Option ClientId := client.filter (· ∉ s.gone)

/-- findClientForDialog. The table of application names that it also looks at is always empty: no client ever
    gets an application name. -/
def findClientForDialog (dialogId : String) (s : Registries) : Option ClientId := s.lock (s.dialogs.lookup dialogId)

def findClientForNetTransaction (transactionId : String) (s : Registries) : Option ClientId :=
  s.lock (s.netTransactions.lookup transactionId)

def findClientForAppTransaction (transactionId : String) (s : Registries) : Option ClientId :=
  s.lock (s.appTransactions.lookup transactionId)

def addNetTransaction (client : ClientId) (transactionId : String) (s : Registries) : Registries :=
  { s with netTransactions := s.netTransactions.insertNew transactionId client }

def removeNetTransaction (transactionId : String) (s : Registries) : Registries :=
  { s with netTransactions := s.netTransactions.erase transactionId }

def addAppTransaction (client : ClientId) (transactionId : String) (s : Registries) : Registries :=
  { s with appTransactions := s.appTransactions.insertNew transactionId client }

def removeAppTransaction (transactionId : String) (s : Registries) : Registries :=
  { s with appTransactions := s.appTransactions.erase transactionId }

def removeDialog (dialogId : String) (s : Registries) : Registries := { s with dialogs := s.dialogs.erase dialogId }

/-- sendSipMessageToClient -/
def send (client : ClientId) (transactionId dialogId : String) (s : Registries) : Registries :=
  { s with log := s.log ++ [⟨client, transactionId, dialogId⟩] }

/-- The dialog is dropped at once when its client is not connected any more. -/
def dropDisconnected (dialogId : String) (s : Registries) : Registries :=
  match s.findClientForDialog dialogId with
  | some _ => s
  | none => s.removeDialog dialogId

def addDialogForTransaction (transactionId dialogId : String) (s : Registries) : Registries :=
  match s.netTransactions.lookup transactionId with
  | some client => { s with dialogs := s.dialogs.insertNew dialogId client }.dropDisconnected dialogId
  | none =>
    if dialogId ∈ s.dialogs then s.dropDisconnected dialogId
    else
      match s.appTransactions.lookup transactionId with
      | some client => { s with dialogs := s.dialogs.insertNew dialogId client }.dropDisconnected dialogId
      | none => s

/-! ### The objects of the dialog controller -/

def modify (leg : Leg) (f : SipDialog → SipDialog) (s : Registries) : Registries :=
  match s.legs.lookup leg with
  | some d => { s with legs := s.legs.insert leg (f d) }
  | none => s

/-- The first object with a property. The containers are hashed, so their order means nothing. -/
def find (p : SipDialog → Bool) (s : Registries) : Option (Leg × SipDialog) :=
  (s.legs.entries.find? fun e => p e.2).map fun e => (e.1, e.2)

/-- SD_FindByDialogId -/
def findDialogById (dialogId : String) (s : Registries) : Option (Leg × SipDialog) :=
  s.find fun d => d.stable && d.dialogId == dialogId

/-- findDialogByCallId makes up a dialog id from the Call-ID and the role. -/
def findDialogByCallId (callId : String) (s : Registries) : Option (Leg × SipDialog) :=
  (s.findDialogById (callId ++ ";uas")).or (s.findDialogById (callId ++ ";uac"))

/-- IIP_FindByTransactionId -/
def findInviteByTransactionId (transactionId : String) (s : Registries) : Option (Leg × SipDialog) :=
  s.find fun d => d.invite.isSome && d.transactionId == transactionId

/-- IIP_FindByOrq -/
def findInviteByOrq (orq : Orq) (s : Registries) : Option (Leg × SipDialog) :=
  s.find fun d => d.invite.any fun i => i.orq == some orq

/-- IIP_FindByReliable -/
def findInviteByReliable (rel : Reliable) (s : Registries) : Option (Leg × SipDialog) :=
  s.find fun d => d.invite.any fun i => i.reliables.contains rel

def findDialogByLeg (leg : Leg) (s : Registries) : Option SipDialog :=
  (s.legs.lookup leg).filter fun d => d.invite.isSome || d.stable

/-- IIP_Insert: there is one invite in progress for a transaction id. -/
def insertInvite (leg : Leg) (i : InviteInProgress) (s : Registries) : Registries :=
  match s.legs.lookup leg with
  | some d =>
    if (s.findInviteByTransactionId d.transactionId).isSome then s
    else s.modify leg fun d => { d with invite := some i }
  | none => s

/-- IIP_Clear -/
def clearInvite (leg : Leg) (s : Registries) : Registries := s.modify leg fun d => { d with invite := none }

/-- SD_Insert: a dialog id is there once. -/
def insertStable (leg : Leg) (s : Registries) : Registries :=
  match s.legs.lookup leg with
  | some d => if (s.findDialogById d.dialogId).isSome then s else s.modify leg fun d => { d with stable := true }
  | none => s

/-- SD_Clear by leg or by object -/
def clearStable (leg : Leg) (s : Registries) : Registries := s.modify leg fun d => { d with stable := false }

/-- SD_Clear by dialog id -/
def clearStableById (dialogId : String) (s : Registries) : Registries :=
  match s.findDialogById dialogId with
  | some (leg, _) => s.clearStable leg
  | none => s

def clearSipTimers (leg : Leg) (s : Registries) : Registries := s.modify leg fun d => { d with timerH := false }

def addDialog (leg : Leg) (d : SipDialog) (s : Registries) : Registries :=
  (s.insertStable leg).addDialogForTransaction d.transactionId d.dialogId

def addIncomingRequestTransaction (transactionId : String) (irq : Irq) (s : Registries) : Registries :=
  { s with irqs := s.irqs.insertNew transactionId irq }

/-- findAndRemoveTransactionIdForIncomingRequest, without the request found -/
def removeIrq (transactionId : String) (s : Registries) : Registries := { s with irqs := s.irqs.erase transactionId }

def addRIP (orq : Orq) (rip : RequestInProgress) (s : Registries) : Registries :=
  { s with rips := s.rips.insertNew orq rip }

def clearRIP (orq : Orq) (s : Registries) : Registries := { s with rips := s.rips.erase orq }

/-- The first request in progress of the dialog goes. -/
def clearRIPByDialogId (dialogId : String) (s : Registries) : Registries :=
  match s.rips.entries.find? fun e => e.2.dialogId == dialogId with
  | some e => s.clearRIP e.1
  | none => s

/-! ### The end of an object -/

/-- A table or a queued timer has a pointer to the object. -/
def referenced (leg : Leg) (d : SipDialog) (s : Registries) : Bool :=
  d.stable || d.invite.isSome || d.timerH || s.rips.entries.any fun e => e.2.dlg == some leg

/-- clearDanglingIncomingRequests -/
def clearDanglingIncomingRequests (transactionIds : List String) (s : Registries) : Registries :=
  transactionIds.foldl (fun s transactionId => (s.removeIrq transactionId).removeNetTransaction transactionId) s

/-- ~SipDialog -/
def destroy (leg : Leg) (d : SipDialog) (s : Registries) : Registries :=
  ({ s with legs := s.legs.erase leg }.clearDanglingIncomingRequests d.incoming).removeNetTransaction d.transactionId

/-- At the end of a handler its own pointers go too, and the objects without any are destroyed. -/
def collect (s : Registries) : Registries :=
  s.legs.entries.foldl (fun s e => if s.referenced e.1 e.2 = true then s else s.destroy e.1 e.2) s

end Registries

end Drachtio.Dialog
