import Drachtio.Dialog.Tables
import Drachtio.Lib.Run
import Drachtio.Lib.Table

/-! The ACKs that are kept for retransmitted 200s (`TimerDHandler` in sip-dialog-controller.cpp), and what drives it:
    the responses to our INVITEs, the ACKs of the application, timer D and the end of a dialog.

    The handler tells INVITEs apart by their Call-ID and CSeq until it has the ACK, and by the address of their
    transaction from then on. An address is used again once the transaction is destroyed, so the transactions have a
    serial number here that nothing in the source reads. The queue of timer D is the list of what its entries are
    bound to, and any of them may expire next. -/

namespace Drachtio.Dialog

/-- combineCallIdAndCSeq -/
def combineCallIdAndCSeq (callId : String) (cseq : Nat) : String := callId ++ " " ++ toString cseq

/-- The transaction of an INVITE of ours -/
structure OutgoingInvite where
  serial : Nat
  orq : Orq
  callId : String
  cseq : Nat
  /-- Its callback is response_to_request_inside_dialog: it is a re-INVITE. -/
  insideDialog : Bool
deriving DecidableEq, Repr

/-- The transaction of an ACK that the application has sent -/
structure OutgoingAck where
  serial : Nat
  orq : Orq
  callId : String
  cseq : Nat
deriving DecidableEq, Repr

def OutgoingInvite.callIdAndCSeq (i : OutgoingInvite) : String := combineCallIdAndCSeq i.callId i.cseq

def OutgoingAck.callIdAndCSeq (a : OutgoingAck) : String := combineCallIdAndCSeq a.callId a.cseq

/-- What a call of the handler does besides: outgoing_retransmit, nta_outgoing_destroy, a failed assert. -/
inductive AckEffect where
  | retransmitted (ack : OutgoingAck) | destroyed (ack : OutgoingAck) | assertFailed
deriving DecidableEq, Repr

/-- `TimerDHandler`, with its queue. An ACK is a live transaction as long as it is in the map. -/
structure TimerDHandler where
  mapCallIdAndCSeq2Invite : AList fun _ : String => Orq
  mapInvite2Ack : AList fun _ : Orq => OutgoingAck
  timers : List OutgoingInvite

namespace TimerDHandler

def addInvite (invite : OutgoingInvite) (h : TimerDHandler) : TimerDHandler × List AckEffect :=
  ({ h with
      mapCallIdAndCSeq2Invite := h.mapCallIdAndCSeq2Invite.insertNew invite.callIdAndCSeq invite.orq
      timers := h.timers ++ [invite] },
    if invite.callIdAndCSeq ∈ h.mapCallIdAndCSeq2Invite then [.assertFailed] else [])

def addAck (ack : OutgoingAck) (h : TimerDHandler) : TimerDHandler :=
  match h.mapCallIdAndCSeq2Invite.lookup ack.callIdAndCSeq with
  | some invite =>
    { h with
      mapInvite2Ack := h.mapInvite2Ack.insertNew invite ack
      mapCallIdAndCSeq2Invite := h.mapCallIdAndCSeq2Invite.erase ack.callIdAndCSeq }
  | none => h

/-- Whether the response is a retransmitted one, which the handler has dealt with. -/
def resendIfNeeded (invite : OutgoingInvite) (h : TimerDHandler) : Bool × List AckEffect :=
  match h.mapInvite2Ack.lookup invite.orq with
  | some ack => (true, [.retransmitted ack])
  | none => (decide (invite.callIdAndCSeq ∈ h.mapCallIdAndCSeq2Invite), [])

/-- What timerD and clearTimerD have in common: the INVITE is forgotten, and its ACK with it. -/
def drop (invite : Orq) (callIdAndCSeq : String) (h : TimerDHandler) : TimerDHandler × List AckEffect :=
  if callIdAndCSeq ∈ h.mapCallIdAndCSeq2Invite then
    ({ h with mapCallIdAndCSeq2Invite := h.mapCallIdAndCSeq2Invite.erase callIdAndCSeq }, [])
  else match h.mapInvite2Ack.lookup invite with
    | some ack => ({ h with mapInvite2Ack := h.mapInvite2Ack.erase invite }, [.destroyed ack])
    | none => (h, [])

/-- timerD, for an entry that has left the queue -/
def timerD (invite : OutgoingInvite) (h : TimerDHandler) : TimerDHandler × List AckEffect :=
  drop invite.orq invite.callIdAndCSeq { h with timers := h.timers.erase invite }

/-- clearTimerD, which leaves the entry in the queue -/
def clearTimerD (invite : OutgoingInvite) (h : TimerDHandler) : TimerDHandler × List AckEffect :=
  drop invite.orq invite.callIdAndCSeq h

end TimerDHandler

/-- The handler among the INVITEs and ACKs of a run. -/
structure Acking where
  handler : TimerDHandler
  /-- The INVITEs whose transaction is destroyed: it calls nobody back. -/
  ended : List OutgoingInvite
  /-- The ACKs of the application, with the INVITEs that they are for. -/
  supplied : List (OutgoingInvite × OutgoingAck)
  destroyed : List OutgoingAck

namespace Acking

def empty : Acking := ⟨⟨∅, ∅, []⟩, [], [], []⟩

inductive Op where
  /-- A response. It may be a 200 over a datagram transport, and there may be an IIP for its transaction. -/
  | response (invite : OutgoingInvite) (ok found : Bool)
  /-- An ACK goes out over a datagram transport. -/
  | ack (invite : OutgoingInvite) (orq : Orq) (callId : String) (cseq : Nat)
  /-- An entry of the queue expires. -/
  | timerD (invite : OutgoingInvite)
  /-- ~SipDialog of the dialog that the INVITE has made -/
  | endDialog (invite : OutgoingInvite)

/-- processResponseOutsideDialog, for an INVITE -/
def processResponseOutsideDialog (invite : OutgoingInvite) (ok found : Bool) (s : Acking) : Acking × List AckEffect :=
  let (resent, effects) := s.handler.resendIfNeeded invite
  if resent = true then (s, effects)
  else if found = true ∧ ok = true then
    let (handler, effects) := s.handler.addInvite invite
    ({ s with handler := handler }, effects)
  else (s, [])

/-- processResponseInsideDialog, for an INVITE: clearRIP destroys the transaction with the first response. -/
def processResponseInsideDialog (invite : OutgoingInvite) (ok : Bool) (s : Acking) : Acking × List AckEffect :=
  let (handler, effects) := if ok = true then s.handler.addInvite invite else (s.handler, [])
  ({ s with handler := handler, ended := invite :: s.ended }, effects)

/-- The ACK is a transaction of its own. -/
def newAck (orq : Orq) (callId : String) (cseq : Nat) (s : Acking) : OutgoingAck := ⟨s.supplied.length, orq, callId, cseq⟩

def handle (s : Acking) : Op → Acking × List AckEffect
  | .response invite ok found =>
    if invite ∈ s.ended then (s, [])
    else if invite.insideDialog = true then s.processResponseInsideDialog invite ok
    else s.processResponseOutsideDialog invite ok found
  | .ack invite orq callId cseq =>
    let ack := s.newAck orq callId cseq
    ({ s with handler := s.handler.addAck ack, supplied := (invite, ack) :: s.supplied }, [])
  | .timerD invite =>
    if invite ∈ s.handler.timers then
      let (handler, effects) := s.handler.timerD invite
      ({ s with handler := handler }, effects)
    else (s, [])
  | .endDialog invite =>
    if invite ∈ s.ended then (s, [])
    else
      let (handler, effects) := s.handler.clearTimerD invite
      ({ s with handler := handler, ended := invite :: s.ended }, effects)

/-- The ACKs destroyed among the effects -/
def destroyedIn (effects : List AckEffect) : List OutgoingAck :=
  effects.filterMap fun | .destroyed ack => some ack | _ => none

def effects (s : Acking) (op : Op) : List AckEffect := (s.handle op).2

def step (s : Acking) (op : Op) : Acking :=
  { (s.handle op).1 with destroyed := destroyedIn (s.handle op).2 ++ s.destroyed }

end Acking

end Drachtio.Dialog
