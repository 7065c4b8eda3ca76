import Drachtio.Client.Requests
import Drachtio.Dialog.System

/-! `SipDialogController::doRespondToSipRequest` with what the tables do not show: what goes out on the wire, what the
    application is told, the CDRs that are posted, and what a dialog keeps of the responses to its INVITE or SUBSCRIBE
    (sip-dialog-controller.cpp, sip-dialog.cpp). -/

namespace Drachtio.Dialog

open Proxy (Method)
open Client (RespondError)

/-! ### Responses of an application -/

/-- The headers that are looked for in a response of an application, as tag_type_t. -/
inductive HeaderTag where
  | contact | contentType | require | sessionExpires | other
deriving DecidableEq, Repr

/-- What makeTags makes of the headers -/
abbrev Tags := List (HeaderTag × String)

def searchForHeader (tag : HeaderTag) (tags : Tags) : Option String := (tags.find? (·.1 == tag)).map (·.2)

/-- A Session-Expires header: x_delta and x_refresher -/
structure SessionExpires where
  delta : Nat
  refresher : Option String
deriving DecidableEq, Repr

/-- SessionRefresher_t, while there is a session timer -/
inductive Refresher where
  | we | they
deriving DecidableEq, Repr

structure SessionTimer where
  secs : Nat
  refresher : Refresher
deriving DecidableEq, Repr

/-- A response of an application. Its transaction id is an argument of the handler. -/
structure Answer where
  code : Nat
  tags : Tags
  body : String
  /-- containsCseqUpdate -/
  cseqUpdate : Bool
  /-- The method that `FindCSeqMethod` finds in the headers -/
  cseqMethod : Option String

/-- How nta_incoming_treply ends. The stack can accept a response and lose it with the connection: then it has no
    response for the transaction afterwards. -/
inductive Treply where
  | refused | sent | lost
deriving DecidableEq, Repr

/-- What a response of an application meets. -/
structure AnswerEnv where
  /-- The leg that is made for a pending request, the From tag of that request, and how it can fail. -/
  leg : Leg
  fromTag : String
  tportShutdown : Bool
  createFails : Bool
  /-- The leg that `nta_leg_by_call_id` finds. -/
  found : Option Leg
  /-- The transport for the response is gone, or `findTransport` does not find it. -/
  transportGone : Bool
  transportFound : Bool
  /-- getContactUri of the transport, and whether its scheme is downgraded for a peer with best effort TLS. -/
  contactUri : String
  bestEffortTls : Bool
  /-- Of the request: its Session-Expires, whether it has "timer" in Supported, and whether it came over a connection
      and has a Contact. -/
  sessionExpires : Option SessionExpires
  supportsTimer : Bool
  cachesTport : Bool
  /-- sip_session_expires_make -/
  makeSessionExpires : String → SessionExpires
  /-- getSessionTimerDefaultRefresher -/
  defaultRefresher : String
  rel : Option Reliable
  treply : Treply

/-- A response as it goes out: what the handler adds to the headers of the application -/
structure WireResponse where
  code : Nat
  tags : Tags
  body : String
  contact : Option String
  contentType : Option String
  sessionExpires : Option String
  requireTimer : Bool
  reliable : Bool
deriving DecidableEq, Repr

/-- What a dialog keeps of the responses that are sent for it. Its status is kept with the object. -/
structure Recorded where
  /-- m_strLocalContact -/
  localContact : String
  /-- m_localEndpoint -/
  localSdp : String
  localContentType : String
  /-- m_timerSessionRefresh, with m_nSessionExpiresSecs and m_refresher -/
  sessionTimer : Option SessionTimer
deriving DecidableEq, Repr

/-- Of a dialog that has just been made -/
def Recorded.new : Recorded := ⟨"", "", "", none⟩

namespace Answer

/-- The application asks for a reliable provisional response. -/
def requires100rel (a : Answer) : Bool := a.tags.any fun h => h.1 == .require && contains "100rel" h.2

def reliable (isInvite : Bool) (a : Answer) : Bool := decide (100 < a.code ∧ a.code < 200) && isInvite && a.requires100rel

/-- The body looks like a session description. -/
def isSdp (a : Answer) : Bool := "v=0".toList.isPrefixOf a.body.toList

/-- The contact of the transport -/
def ownContact (env : AnswerEnv) : String :=
  "<" ++ (if env.bestEffortTls = true then "sip:" ++ String.ofList (env.contactUri.toList.drop 5) else env.contactUri) ++ ">"

def customContact (a : Answer) : Option String := searchForHeader .contact a.tags

/-- The session timer that a 200 for an INVITE starts, with the Session-Expires header that is added to the 200 when
    the application has none. An offer without a refresher gets the configured one. -/
def sessionTimer (isInvite : Bool) (env : AnswerEnv) (a : Answer) : Option (SessionTimer × Option String) :=
  if a.code = 200 ∧ isInvite = true then
    match searchForHeader .sessionExpires a.tags with
    | some value =>
      let se := env.makeSessionExpires value
      some (⟨max 90 se.delta, if se.refresher.all (· == "uac") then .they else .we⟩, none)
    | none =>
      match env.sessionExpires with
      | none => none
      | some se =>
        let refresher := (se.refresher.filter (· ≠ "")).getD env.defaultRefresher
        if refresher = "none" then none
        else some (⟨max 90 se.delta, if refresher = "uac" then .they else .we⟩,
          some (toString (max 90 se.delta) ++ ";refresher=" ++ refresher))
  else none

/-- Require: timer -/
def requireTimer (isInvite : Bool) (env : AnswerEnv) (a : Answer) : Bool :=
  (a.sessionTimer isInvite env).any fun t => t.1.refresher == .they || env.supportsTimer

/-- The content type that is added when the application gives none. -/
def detectedType (a : Answer) : Option String :=
  if a.body ≠ "" ∧ searchForHeader .contentType a.tags = none ∧ a.isSdp = true then some "application/sdp" else none

/-- The content type of the body, where one is given or detected. -/
def bodyType (a : Answer) : Option String := (searchForHeader .contentType a.tags).or a.detectedType

/-- The contact that the dialog keeps: that of the application, or that of the transport. -/
def contact (env : AnswerEnv) (a : Answer) : String := a.customContact.getD (ownContact env)

/-- A response to an INVITE or SUBSCRIBE in progress. Reliable ones have the contact of the transport. -/
def onInvite (isInvite : Bool) (env : AnswerEnv) (a : Answer) : WireResponse where
  code := a.code
  tags := a.tags
  body := a.body
  contact :=
    if (a.reliable isInvite = true ∨ 200 ≤ a.code ∧ a.code < 300) ∧ a.customContact = none then some (ownContact env)
      else none
  contentType := a.detectedType
  sessionExpires := (a.sessionTimer isInvite env).bind (·.2)
  requireTimer := a.requireTimer isInvite env
  reliable := a.reliable isInvite

/-- A response to another request. The content type is taken for missing even when the application gives one:
    it is looked for under a tag that `makeTags` does not make. -/
def onIrq (method : Method) (env : AnswerEnv) (a : Answer) : WireResponse where
  code := a.code
  tags := a.tags
  body := a.body
  contact := if (method = .invite ∨ method = .subscribe) ∧ a.customContact = none then some (ownContact env) else none
  contentType := if a.body ≠ "" ∧ a.isSdp = true then some "application/sdp" else none
  sessionExpires := none
  requireTimer := false
  reliable := false

/-- A response to an UPDATE before the final response -/
def onUpdate (a : Answer) : WireResponse := ⟨a.code, a.tags, a.body, none, none, none, false, false⟩

/-- What the tables are told of a response and of what it meets. -/
def respondEnv (env : AnswerEnv) (a : Answer) : RespondEnv where
  leg := env.leg
  fromTag := env.fromTag
  tportShutdown := env.tportShutdown
  createFails := env.createFails
  found := env.found
  transportGone := env.transportGone
  requires100rel := a.requires100rel
  rel := env.rel
  replyFails := env.treply == .refused
  cseqUpdate := a.cseqUpdate

/-- What the dialog keeps of a response, which is entered before the response is sent. -/
def record (isInvite : Bool) (env : AnswerEnv) (a : Answer) (r : Recorded) : Recorded where
  localContact := a.contact env
  localSdp := if a.body = "" then r.localSdp else a.body
  localContentType := if a.body = "" then r.localContentType else a.bodyType.getD r.localContentType
  sessionTimer := ((a.sessionTimer isInvite env).map (·.1)).or r.sessionTimer

end Answer

/-! ### The handler -/

/-- CdrStart and CdrStop, the reason of which is call_rejected -/
inductive Cdr where
  | start | stop
deriving DecidableEq, Repr

/-- What an attempt to send a response comes to: why it failed, what went out, and what `nta_incoming_getresponse` finds
    on the irq afterwards. -/
structure Attempt where
  failure : Option RespondError
  sent : Option WireResponse
  response : Option Nat

/-- What a call of the handler shows outside. -/
structure Outcome where
  /-- The transaction that was answered, if any was found. -/
  transaction : Option String
  error : Option RespondError
  dialogId : String
  sent : Option WireResponse
  cdr : Option Cdr
  /-- nta_incoming_destroy was called for the irq. -/
  destroyed : Bool

/-- The tables, with what the dialogs keep of the responses and the last response that the stack has for a
    transaction. -/
structure Answering where
  registries : Registries
  recorded : Leg → Recorded
  responses : String → Option Nat

namespace Attempt

/-- nta_incoming_treply; `last` is the response that the stack had before. -/
def treply (m : WireResponse) (last : Option Nat) : Treply → Attempt
  | .refused => ⟨some .sendError, none, last⟩
  | .sent => ⟨none, some m, some m.code⟩
  | .lost => ⟨none, none, none⟩

/-- The response to a request, except an INVITE or SUBSCRIBE that is in progress. A lost one is noticed at once when
    the transport is to be cached for the contact of the request. -/
def onIrq (irq : Irq) (a : Answer) (env : AnswerEnv) (last : Option Nat) : Attempt :=
  if env.transportGone = true then ⟨some .transportClosed, none, last⟩
  else if env.transportFound = false then ⟨some .noTransport, none, last⟩
  else
    let sent := treply (a.onIrq irq.method env) last env.treply
    if env.treply = .lost ∧ env.cachesTport = true ∧
        (irq.method = .subscribe ∧ (a.code = 202 ∨ a.code = 200) ∨ irq.method = .register ∧ a.code = 200) then
      { sent with failure := some .connectionError }
    else sent

def onUpdate (a : Answer) (env : AnswerEnv) (last : Option Nat) : Attempt :=
  if env.transportGone = true then ⟨some .transportClosed, none, last⟩ else treply a.onUpdate last env.treply

/-- nta_reliable_treply, or nta_incoming_treply for a response that is not reliable -/
def send (isInvite : Bool) (a : Answer) (env : AnswerEnv) (last : Option Nat) : Attempt :=
  let m := a.onInvite isInvite env
  if a.reliable isInvite = true then
    match env.rel with
    | none => ⟨some .no100rel, none, last⟩
    | some _ => if env.treply = .lost then treply m last .lost else treply m last .sent
  else treply m last env.treply

/-- The rejection of a forked INVITE, the result of which nobody looks at. -/
def reject (env : AnswerEnv) (last : Option Nat) : Attempt :=
  { treply ⟨480, [], "", none, none, none, false, false⟩ last env.treply with failure := some .dialogExists }

/-- The answer to the application, once the stack has been asked for the response that was sent -/
def error (attempt : Attempt) : Option RespondError :=
  attempt.failure.or (if attempt.response.isNone = true then some .farEndClosed else none)

end Attempt

/-- The answer to the application -/
def Outcome.reply (data : Client.SipMessageData) (m : Client.Sent) (o : Outcome) : Client.Reply :=
  data.respond ⟨o.error, o.dialogId, false, m⟩

/-- A call of the handler -/
structure Call where
  transactionId : String
  answer : Answer
  env : AnswerEnv

namespace Answering

/-- An INVITE of ours has no irq. -/
def outgoing (d : SipDialog) : Bool := d.invite.any (·.orq.isSome)

/-- nta_incoming_getresponse, on the irq of an invite in progress -/
def lastResponse (d : SipDialog) (s : Answering) : Option Nat :=
  if outgoing d = true then none else s.responses d.transactionId

/-- A pending request gets its irq, and an INVITE or SUBSCRIBE its dialog. -/
def setUp (c : Call) (s : Answering) : Answering :=
  let registries := s.registries.setupLegForIncomingRequest c.transactionId (c.answer.respondEnv c.env)
  { registries := registries
    recorded :=
      if c.env.leg ∈ registries.legs ∧ c.env.leg ∉ s.registries.legs then Function.update s.recorded c.env.leg .new
        else s.recorded
    responses := Function.update s.responses c.transactionId none }

/-- The state in which a transaction without an irq is answered: a request that is still pending is set up first. -/
def enter (c : Call) (s : Answering) : Answering :=
  match s.registries.findInviteByTransactionId c.transactionId with
  | some _ => s
  | none => s.setUp c

/-- The dialog of a request, looked for when the request came in a dialog. -/
def dialogOf (existing : Bool) (env : AnswerEnv) (s : Answering) : Option (Leg × SipDialog) :=
  (if existing = true then env.found else none).bind fun leg => (s.registries.findDialogByLeg leg).map (leg, ·)

/-- A response to a request. The irq is destroyed, whatever the code and however the attempt ends. -/
def answerIrq (irq : Irq) (existing : Bool) (c : Call) (s : Answering) : Answering × Outcome :=
  let attempt := Attempt.onIrq irq c.answer c.env (s.responses c.transactionId)
  let dialog := s.dialogOf existing c.env
  let keepsSdp := irq.method = .invite ∧ c.answer.body ≠ "" ∧ attempt.failure = none
  ({ registries := s.registries.respondToIrq c.transactionId c.answer.code irq existing (c.answer.respondEnv c.env)
     recorded :=
       match dialog with
       | some (leg, _) =>
         if keepsSdp then Function.update s.recorded leg { s.recorded leg with localSdp := c.answer.body } else s.recorded
       | none => s.recorded
     responses := Function.update s.responses c.transactionId attempt.response },
   ⟨some c.transactionId, attempt.error, (dialog.map (·.2.dialogId)).getD "", attempt.sent, none, true⟩)

/-- A response to the UPDATE of an INVITE in progress -/
def answerUpdate (leg : Leg) (updateTransactionId : String) (c : Call) (s : Answering) : Answering × Outcome :=
  let attempt := Attempt.onUpdate c.answer c.env (s.responses updateTransactionId)
  ({ s with
     registries := s.registries.respondToUpdate leg updateTransactionId
     responses := Function.update s.responses updateTransactionId attempt.response },
   ⟨some updateTransactionId, attempt.error, "", attempt.sent, none, true⟩)

/-- The attempt to answer an INVITE or SUBSCRIBE in progress, and whether the dialog keeps the response. After a final
    response nothing is sent, and nothing fails. -/
def attempt (d : SipDialog) (c : Call) (s : Answering) : Attempt × Bool :=
  let last := s.lastResponse d
  if 200 ≤ d.status then (⟨none, none, last⟩, false)
  else if c.env.transportGone = true ∨ outgoing d = true then (⟨some .transportClosed, none, last⟩, false)
  else if (s.registries.findDialogById d.dialogId).isSome then (.reject c.env last, false)
  else (.send d.isInvite c.answer c.env last, true)

/-- The CDR for a response that seems to have been sent -/
def cdr (code : Nat) (attempt : Attempt) : Option Cdr :=
  if attempt.error.isSome = true then none
  else if 300 ≤ code then some .stop
  else if code = 200 then some .start
  else none

/-- The UPDATE that a response is for, if it has the CSeq of one -/
def updateOf (d : SipDialog) (c : Call) : Option String := if c.answer.cseqUpdate = true then d.update else none

/-- A response to an INVITE or SUBSCRIBE in progress -/
def answerInvite (leg : Leg) (d : SipDialog) (c : Call) (s : Answering) : Answering × Outcome :=
  match updateOf d c with
  | some updateTransactionId => s.answerUpdate leg updateTransactionId c
  | none =>
    let attempted := s.attempt d c
    ({ registries := s.registries.respondToInvite leg d c.answer.code (c.answer.respondEnv c.env)
       recorded :=
         if attempted.2 = true then Function.update s.recorded leg (c.answer.record d.isInvite c.env (s.recorded leg))
           else s.recorded
       responses :=
         if outgoing d = true then s.responses else Function.update s.responses d.transactionId attempted.1.response },
     ⟨some d.transactionId, attempted.1.error, if 200 ≤ d.status then "" else d.dialogId, attempted.1.sent,
       cdr c.answer.code attempted.1, false⟩)

/-- No transaction is found: the stack answers CANCELs itself. -/
def answerUnknown (c : Call) (s : Answering) : Answering × Outcome :=
  ({ s with registries := s.registries.flushTransaction c.transactionId c.answer.code .unknown false },
   ⟨none, some (if c.answer.cseqMethod = some "CANCEL" then .cancelAnswered else .unknownTransaction), "", none, none, false⟩)

/-- `doRespondToSipRequest` -/
def answer (s : Answering) (c : Call) : Answering × Outcome :=
  match s.registries.irqs.lookup c.transactionId with
  | some irq => s.answerIrq irq true c
  | none =>
    let s := s.enter c
    match s.registries.findInviteByTransactionId c.transactionId with
    | some (leg, d) => s.answerInvite leg d c
    | none =>
      match s.registries.irqs.lookup c.transactionId with
      | some irq => s.answerIrq irq false c
      | none => s.answerUnknown c

/-- The handler, and the end of the objects that it leaves without pointers. -/
def step (s : Answering) (c : Call) : Answering :=
  let s := (s.answer c).1
  { s with registries := s.registries.collect }

/-- What the calls of a run show outside. -/
def outcomes : Answering → List Call → List Outcome
  | _, [] => []
  | s, c :: cs => (s.answer c).2 :: (s.step c).outcomes cs

end Answering

end Drachtio.Dialog
