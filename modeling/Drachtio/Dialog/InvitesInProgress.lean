import Drachtio.Dialog.Tables
import Drachtio.Lib.Run
import Drachtio.Lib.Table
import Drachtio.Lib.Walk

/-! The container of invites in progress (invite-in-progress.cpp, invite-in-progress.hpp) and the calls that
    `SipDialogController` makes on it.

    The container has an index for each key. Those of the object and of the transaction id are unique, and an insertion
    that meets an equal element in one of them is refused. The hashed indices return whichever element with the key
    comes first in their bucket, an order that nobody specifies: the order of the list stands for it. Objects and
    handles are numbered as they are made; the addresses of outgoing transactions are used again, since a transaction
    may be destroyed while an IIP still points to it. -/

namespace Drachtio.Dialog

/-- What an IIP has to see destroyed: its nta_incoming_t and its nta_reliable_t. -/
inductive InviteHandle where
  | irq (number : Nat) | reliable (number : Nat)
deriving DecidableEq, Repr

/-- `IIP`: an INVITE that came in has an irq, one that went out an orq. -/
structure IIP where
  serial : Nat
  leg : Leg
  irq : Option Nat
  orq : Option Orq
  transactionId : String
  reliables : List Nat
deriving DecidableEq, Repr

namespace IIP

def reliableHandles (iip : IIP) : List InviteHandle := iip.reliables.map .reliable

def handles (iip : IIP) : List InviteHandle := (iip.irq.map .irq).toList ++ iip.reliableHandles

def addReliable (rel : Nat) (iip : IIP) : IIP := { iip with reliables := iip.reliables ++ [rel] }

def destroyReliable (rel : Nat) (iip : IIP) : IIP := { iip with reliables := iip.reliables.erase rel }

end IIP

/-- `InvitesInProgress_t` -/
structure InvitesInProgress where
  iips : List IIP
deriving DecidableEq, Repr

namespace InvitesInProgress

/-- An element that equals the new one in a unique index. -/
def refuses (iip : IIP) (t : InvitesInProgress) : Bool :=
  t.iips.any fun x => x.serial == iip.serial || x.transactionId == iip.transactionId

/-- IIP_Insert -/
def insert (iip : IIP) (t : InvitesInProgress) : InvitesInProgress :=
  if t.refuses iip = true then t else ⟨iip :: t.iips⟩

/-- IIP_FindByIrq -/
def findByIrq (irq : Nat) (t : InvitesInProgress) : Option IIP := t.iips.find? (·.irq == some irq)

/-- IIP_FindByOrq -/
def findByOrq (orq : Orq) (t : InvitesInProgress) : Option IIP := t.iips.find? (·.orq == some orq)

/-- IIP_FindByLeg -/
def findByLeg (leg : Leg) (t : InvitesInProgress) : Option IIP := t.iips.find? (·.leg == leg)

/-- IIP_FindByReliable -/
def findByReliable (rel : Nat) (t : InvitesInProgress) : Option IIP := t.iips.find? (·.reliables.contains rel)

/-- IIP_FindByTransactionId -/
def findByTransactionId (transactionId : String) (t : InvitesInProgress) : Option IIP :=
  t.iips.find? (·.transactionId == transactionId)

def modify (transactionId : String) (f : IIP → IIP) (t : InvitesInProgress) : InvitesInProgress :=
  ⟨t.iips.map fun x => if x.transactionId = transactionId then f x else x⟩

/-- IIP_AddReliable -/
def addReliable (transactionId : String) (rel : Nat) (t : InvitesInProgress) : InvitesInProgress :=
  t.modify transactionId (·.addReliable rel)

/-- IIP_Clear of an invite, and what is destroyed. The erasure is by its leg, so it takes every invite on that leg;
    the others go with their reliables (~IIP), but not their irq. -/
def clear (iip : IIP) (t : InvitesInProgress) : InvitesInProgress × List InviteHandle :=
  (⟨t.iips.filter (·.leg ≠ iip.leg)⟩,
    iip.handles ++ (t.iips.filter fun x => x.leg = iip.leg ∧ x.serial ≠ iip.serial).flatMap IIP.reliableHandles)

end InvitesInProgress

/-- The container among the dialogs and invites of a run. -/
structure Inviting where
  invites : InvitesInProgress
  /-- The dialogs, by their leg, with the transaction id of the INVITE that has made them. -/
  dialogs : AList fun _ : Leg => String
  /-- How many objects and handles there have been. -/
  next : Nat
  /-- The invites that IIP_Insert was called for and IIP_Clear was not. -/
  outstanding : List IIP
  /-- The handles that an invite of the table has been given. -/
  given : List (Nat × InviteHandle)
  destroyed : List InviteHandle

namespace Inviting

def empty : Inviting := ⟨⟨[]⟩, ∅, 0, [], [], []⟩

inductive Op where
  /-- setupLegForIncomingRequest: an INVITE that came in makes a dialog. -/
  | incoming (leg : Leg) (transactionId : String)
  /-- doSendRequestOutsideDialog: one that goes out makes a dialog. -/
  | outgoing (leg : Leg) (orq : Orq) (transactionId : String)
  /-- doSendRequestInsideDialog: a re-INVITE goes out on the leg of a dialog. -/
  | reinvite (leg : Leg) (orq : Orq)
  /-- A provisional response is sent reliably. -/
  | reliable (transactionId : String)
  /-- processPrack -/
  | prack (rel : Nat)
  /-- IIP_Clear of an invite that has just been found, or whose cancel timer is up -/
  | clear (serial : Nat)
  /-- IIP_Clear by leg -/
  | clearLeg (leg : Leg)
  /-- The object of a dialog is destroyed, which an IIP would prevent. -/
  | endDialog (leg : Leg)

/-- IIP_Insert of a new IIP -/
def insertInvite (iip : IIP) (s : Inviting) : Inviting :=
  { s with
    invites := s.invites.insert iip
    next := s.next + 1
    outstanding := iip :: s.outstanding
    given := if s.invites.refuses iip = true then s.given else iip.handles.map (iip.serial, ·) ++ s.given }

/-- addIncomingInviteTransaction. The irq is made with the IIP, and has its number. -/
def addIncomingInviteTransaction (leg : Leg) (transactionId : String) (s : Inviting) : Inviting :=
  s.insertInvite ⟨s.next, leg, some s.next, none, transactionId, []⟩

/-- addOutgoingInviteTransaction -/
def addOutgoingInviteTransaction (leg : Leg) (orq : Orq) (transactionId : String) (s : Inviting) : Inviting :=
  s.insertInvite ⟨s.next, leg, none, some orq, transactionId, []⟩

def newDialog (leg : Leg) (transactionId : String) (s : Inviting) : Inviting :=
  { s with dialogs := s.dialogs.insert leg transactionId }

/-- IIP_AddReliable, for the invite that the response belongs to -/
def addReliable (iip : IIP) (s : Inviting) : Inviting :=
  { s with
    invites := s.invites.addReliable iip.transactionId s.next
    next := s.next + 1
    given := (iip.serial, .reliable s.next) :: s.given }

def destroyReliable (iip : IIP) (rel : Nat) (s : Inviting) : Inviting :=
  { s with
    invites := s.invites.modify iip.transactionId (·.destroyReliable rel)
    destroyed := .reliable rel :: s.destroyed }

/-- IIP_Clear -/
def clearInvite (iip : IIP) (s : Inviting) : Inviting :=
  { s with
    invites := (s.invites.clear iip).1
    outstanding := s.outstanding.filter (·.serial ≠ iip.serial)
    destroyed := (s.invites.clear iip).2 ++ s.destroyed }

/-- The invite that a call of IIP_Clear is for. -/
def cleared (s : Inviting) : Op → Option IIP
  | .clear serial => s.invites.iips.find? (·.serial == serial)
  | .clearLeg leg => s.invites.findByLeg leg
  | _ => none

/-- The stack hands out no leg that a dialog has. -/
def step (s : Inviting) : Op → Inviting
  | .incoming leg transactionId =>
    if leg ∈ s.dialogs then s else (s.newDialog leg transactionId).addIncomingInviteTransaction leg transactionId
  | .outgoing leg orq transactionId =>
    if leg ∈ s.dialogs then s else (s.newDialog leg transactionId).addOutgoingInviteTransaction leg orq transactionId
  | .reinvite leg orq =>
    match s.dialogs.lookup leg with
    | some transactionId => s.addOutgoingInviteTransaction leg orq transactionId
    | none => s
  | .reliable transactionId =>
    match s.invites.findByTransactionId transactionId with
    | some iip => s.addReliable iip
    | none => s
  | .prack rel =>
    match s.invites.findByReliable rel with
    | some iip => s.destroyReliable iip rel
    | none => s
  | .clear serial =>
    match s.cleared (.clear serial) with
    | some iip => s.clearInvite iip
    | none => s
  | .clearLeg leg =>
    match s.cleared (.clearLeg leg) with
    | some iip => s.clearInvite iip
    | none => s
  | .endDialog leg =>
    if s.invites.iips.any (·.leg == leg) = true then s else { s with dialogs := s.dialogs.erase leg }

end Inviting

end Drachtio.Dialog
