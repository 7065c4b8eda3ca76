import Drachtio.Lib.Run
import Drachtio.Lib.Table
import Drachtio.Proxy.ClientTransaction
import Mathlib.Algebra.Group.Nat.Defs

/-! The retransmission of the 200 for an INVITE that came in: timers G and H, and everything that ends them
    (sip-dialog-controller.cpp, with the accessors of sip-dialog.hpp and IIP_Clear of invite-in-progress.cpp).

    The dialogs are numbered as they are made, and the number stands for the leg, which no other dialog has. The two
    queues are lists of their entries; a handle is the address of an entry, and is used again when the entry is gone. -/

namespace Drachtio.Dialog

open Proxy (ntaSipT1)

/-- NTA_SIP_T2 -/
def ntaSipT2 : Nat := 4000

/-- TIMER_H_MSECS -/
def timerHMsecs : Nat := ntaSipT1 * 64

/-- TimerEventHandle -/
abbrev TimerHandle := Nat

structure QueuedTimer where
  handle : TimerHandle
  /-- The dialog that its callback is bound to -/
  dialog : Nat
  milliseconds : Nat
deriving DecidableEq, Repr

/-- The queues of timer G and timer H -/
structure SipTimers where
  g : List QueuedTimer
  h : List QueuedTimer
deriving DecidableEq, Repr

def addTimer (t : QueuedTimer) (queue : List QueuedTimer) : List QueuedTimer := queue ++ [t]

def removeTimer (handle : TimerHandle) (queue : List QueuedTimer) : List QueuedTimer := queue.filter (·.handle ≠ handle)

/-- removeTimer, if there is a handle -/
def cancelTimer (handle : Option TimerHandle) (queue : List QueuedTimer) : List QueuedTimer :=
  match handle with
  | some handle => removeTimer handle queue
  | none => queue

/-- Whose INVITE is in progress on the leg of the dialog -/
inductive AgentRole where
  | uac | uas
deriving DecidableEq, Repr

/-- What is read of a `SipDialog` that an incoming INVITE has made. -/
structure AnsweredDialog where
  /-- m_recentSipStatus -/
  status : Nat
  timerG : Option TimerHandle
  durationTimerG : Nat
  timerH : Option TimerHandle
  /-- m_irqInvite is not null. -/
  inviteIrq : Bool
  /-- The IIP on its leg. The INVITE that came in has an irq. -/
  invite : Option AgentRole
  /-- The dialog is in m_dialogs. -/
  stable : Bool
  /-- How often the 200 was retransmitted. Nothing in the source reads it, nor the next one. -/
  retransmitted : Nat
  /-- The ACK has been processed, timer H has fired, or the dialog has been removed from m_dialogs. -/
  ended : Bool
deriving DecidableEq, Repr

namespace AnsweredDialog

/-- The dialog of a new INVITE, with its invite in progress -/
def new : AnsweredDialog := ⟨0, none, 0, none, false, some .uas, false, 0, false⟩

def setTimerG (handle : TimerHandle) (dlg : AnsweredDialog) : AnsweredDialog :=
  { dlg with timerG := some handle, durationTimerG := if dlg.durationTimerG = 0 then ntaSipT1 else dlg.durationTimerG }

def bumpTimerG (dlg : AnsweredDialog) : AnsweredDialog :=
  { dlg with durationTimerG := min (dlg.durationTimerG <<< 1 % 2 ^ 32) ntaSipT2 }

/-- IIP_Clear of the invite on the leg, if there is one: its irq is destroyed, and the dialog's with it. -/
def clearInvite (dlg : AnsweredDialog) : AnsweredDialog :=
  { dlg with invite := none, inviteIrq := dlg.inviteIrq && dlg.invite != some .uas }

/-- SD_Clear -/
def clearStable (dlg : AnsweredDialog) : AnsweredDialog := { dlg with stable := false, ended := dlg.ended || dlg.stable }

/-- findDialogByLeg finds the dialog, through its invite in progress or among the stable ones. -/
def findable (dlg : AnsweredDialog) : Bool := dlg.invite.isSome || dlg.stable

def clearSipTimers (dlg : AnsweredDialog) (q : SipTimers) : AnsweredDialog × SipTimers :=
  ({ dlg with timerG := none, timerH := none, inviteIrq := false }, ⟨cancelTimer dlg.timerG q.g, cancelTimer dlg.timerH q.h⟩)

/-- doRespondToSipRequest, for the INVITE: `sent` tells that the stack has taken the response, `dgram` that the
    transport is a datagram one, and the handles are those that the queues would return. -/
def respond (d : Nat) (code : Nat) (sent dgram : Bool) (g h : TimerHandle) (dlg : AnsweredDialog) (q : SipTimers) :
    AnsweredDialog × SipTimers :=
  if dlg.invite = some .uas ∧ dlg.status < 200 then
    let dlg := { dlg with status := code }
    if sent = true ∧ code = 200 then
      let dlg := { dlg with stable := true, timerH := some h, inviteIrq := true }
      let q := { q with h := addTimer ⟨h, d, timerHMsecs⟩ q.h }
      if dgram = true then (dlg.setTimerG g, { q with g := addTimer ⟨g, d, ntaSipT1⟩ q.g }) else (dlg, q)
    else (dlg, q)
  else (dlg, q)

/-- retransmitFinalResponse; its entry has left the queue. -/
def retransmitFinalResponse (d : Nat) (g : TimerHandle) (dlg : AnsweredDialog) (q : SipTimers) : AnsweredDialog × SipTimers :=
  if dlg.inviteIrq = false then
    ({ dlg with timerG := none, timerH := none, inviteIrq := false }, { q with h := cancelTimer dlg.timerH q.h })
  else
    let dlg := { dlg with retransmitted := dlg.retransmitted + 1 }.bumpTimerG
    (dlg.setTimerG g, { q with g := addTimer ⟨g, d, dlg.durationTimerG⟩ q.g })

/-- endRetransmitFinalResponse; its entry has left the queue. -/
def endRetransmitFinalResponse (dlg : AnsweredDialog) (q : SipTimers) : AnsweredDialog × SipTimers :=
  ({ { dlg with timerG := none, timerH := none, inviteIrq := false }.clearInvite.clearStable with ended := true },
    { q with g := cancelTimer dlg.timerG q.g })

/-- The invite in progress and the timers go with an ACK. -/
def acknowledge (dlg : AnsweredDialog) (q : SipTimers) : AnsweredDialog × SipTimers :=
  let (dlg, q) := dlg.clearInvite.clearSipTimers q
  ({ dlg with ended := true }, q)

/-- The timers, the dialog and its invite in progress go. -/
def tearDown (dlg : AnsweredDialog) (q : SipTimers) : AnsweredDialog × SipTimers :=
  let (dlg, q) := dlg.clearSipTimers q
  (dlg.clearStable.clearInvite, q)

/-- processRequestInsideDialog, for an ACK -/
def ack (dlg : AnsweredDialog) (q : SipTimers) : AnsweredDialog × SipTimers :=
  if dlg.findable = true then dlg.acknowledge q else (dlg, q)

/-- processRequestInsideDialog, for a CANCEL after the 200 -/
def cancelAfterAnswer (dlg : AnsweredDialog) (q : SipTimers) : AnsweredDialog × SipTimers :=
  if dlg.findable = true then dlg.tearDown q else (dlg, q)

/-- processRequestInsideDialog, for a BYE, which clears the invite by the transaction id of the dialog -/
def bye (dlg : AnsweredDialog) (q : SipTimers) : AnsweredDialog × SipTimers :=
  if dlg.findable = true then dlg.tearDown q else (dlg, q)

/-- processCancelOrAck, for an ACK -/
def ackOfInvite (dlg : AnsweredDialog) (q : SipTimers) : AnsweredDialog × SipTimers :=
  if dlg.invite = some .uas then dlg.acknowledge q else (dlg, q)

/-- processCancelOrAck, when the INVITE has timed out -/
def timeoutOfInvite (dlg : AnsweredDialog) (q : SipTimers) : AnsweredDialog × SipTimers :=
  if dlg.invite = some .uas then
    let (dlg, q) := dlg.clearSipTimers q
    (dlg.clearInvite, q)
  else (dlg, q)

/-- processCancelOrAck, for a CANCEL -/
def cancelOfInvite (dlg : AnsweredDialog) : AnsweredDialog := if dlg.invite = some .uas then dlg.clearInvite else dlg

/-- A re-INVITE goes out; its IIP is refused when there is one. -/
def sendReinvite (dlg : AnsweredDialog) : AnsweredDialog := { dlg with invite := dlg.invite.or (some .uac) }

/-- A BYE goes out, which cancels a re-INVITE of ours. -/
def sendBye (dlg : AnsweredDialog) : AnsweredDialog := if dlg.invite = some .uac then dlg.clearInvite else dlg

end AnsweredDialog

/-- The dialogs and the queues -/
structure Retransmitting where
  dialogs : AList fun _ : Nat => AnsweredDialog
  timers : SipTimers

namespace Retransmitting

def empty : Retransmitting := ⟨∅, ⟨[], []⟩⟩

inductive Op where
  /-- setupLegForIncomingRequest -/
  | invite (d : Nat)
  | respond (d : Nat) (code : Nat) (sent dgram : Bool) (g h : TimerHandle)
  /-- An entry of the queue of timer G expires; one that its callback adds would get the other handle. -/
  | timerG (handle next : TimerHandle)
  | timerH (handle : TimerHandle)
  | ack (d : Nat)
  | cancelAfterAnswer (d : Nat)
  | bye (d : Nat)
  | timeoutOfInvite (d : Nat)
  | ackOfInvite (d : Nat)
  | cancelOfInvite (d : Nat)
  | sendReinvite (d : Nat)
  | sendBye (d : Nat)
  /-- processResponseInsideDialog: a BYE of the application is answered. -/
  | byeAnswered (d : Nat)
  /-- notifyTerminateStaleDialog: the session is not refreshed. -/
  | terminate (d : Nat)
  /-- IIP_Clear from elsewhere: an ACK of the application, or the end of a CANCEL of ours -/
  | clearInvite (d : Nat)

def on (d : Nat) (f : AnsweredDialog → SipTimers → AnsweredDialog × SipTimers) (s : Retransmitting) : Retransmitting :=
  match s.dialogs.lookup d with
  | some dlg => ⟨s.dialogs.insert d (f dlg s.timers).1, (f dlg s.timers).2⟩
  | none => s

/-- What concerns the dialog only -/
def modify (d : Nat) (f : AnsweredDialog → AnsweredDialog) (s : Retransmitting) : Retransmitting :=
  s.on d fun dlg q => (f dlg, q)

/-- A queue hands out no handle that one of its entries has. -/
def Free (handle : TimerHandle) (queue : List QueuedTimer) : Prop := ∀ t ∈ queue, t.handle ≠ handle

instance (handle : TimerHandle) (queue : List QueuedTimer) : Decidable (Free handle queue) :=
  inferInstanceAs (Decidable (∀ t ∈ queue, t.handle ≠ handle))

def step (s : Retransmitting) : Op → Retransmitting
  | .invite d => if d ∈ s.dialogs then s else { s with dialogs := s.dialogs.insert d .new }
  | .respond d code sent dgram g h =>
    if Free g s.timers.g ∧ Free h s.timers.h then s.on d (AnsweredDialog.respond d code sent dgram g h) else s
  | .timerG handle next =>
    match s.timers.g.find? (·.handle == handle) with
    | some t =>
      let queue := removeTimer handle s.timers.g
      if Free next queue then
        { s with timers := { s.timers with g := queue } }.on t.dialog (AnsweredDialog.retransmitFinalResponse t.dialog next)
      else s
    | none => s
  | .timerH handle =>
    match s.timers.h.find? (·.handle == handle) with
    | some t =>
      let queue := removeTimer handle s.timers.h
      { s with timers := { s.timers with h := queue } }.on t.dialog AnsweredDialog.endRetransmitFinalResponse
    | none => s
  | .ack d => s.on d AnsweredDialog.ack
  | .cancelAfterAnswer d => s.on d AnsweredDialog.cancelAfterAnswer
  | .bye d => s.on d AnsweredDialog.bye
  | .timeoutOfInvite d => s.on d AnsweredDialog.timeoutOfInvite
  | .ackOfInvite d => s.on d AnsweredDialog.ackOfInvite
  | .cancelOfInvite d => s.modify d AnsweredDialog.cancelOfInvite
  | .sendReinvite d => s.modify d AnsweredDialog.sendReinvite
  | .sendBye d => s.modify d AnsweredDialog.sendBye
  | .byeAnswered d => s.modify d AnsweredDialog.clearStable
  | .terminate d => s.modify d AnsweredDialog.clearStable
  | .clearInvite d => s.modify d AnsweredDialog.clearInvite

end Retransmitting

end Drachtio.Dialog
