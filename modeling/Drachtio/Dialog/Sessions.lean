import Drachtio.Dialog.Respond

/-! The session timers of the dialogs: `setSessionTimer` of sip-dialog.cpp with the places it is called from, and the
    requests on a leg with what they do to the timer of their dialog (sip-dialog-controller.cpp). The timer of a
    dialog object that is destroyed goes with the object. -/

namespace Drachtio.Dialog

/-- m_nSessionTimerDuration as `setSessionTimer` leaves it, for a value of rand(). The product of unsigned longs is
    stored as a su_duration_t, which has a sign. -/
def SessionTimer.duration (rand : Nat) (t : SessionTimer) : Int :=
  let whole := Int.bmod (t.secs * 1000) (2 ^ 64)
  match t.refresher with
  | .we => whole.tdiv 2 + (((rand % 10000 : Nat) : Int) - 5000)
  | .they => whole

/-! ### Requests -/

/-- A request on a leg, with the x_refresher of its Session-Expires header -/
structure SessionRequest extends Request where
  refresher : Option String

/-- The timer that a re-INVITE or an UPDATE asks for, unless it is too small. -/
def SessionRequest.timer (weAreRefresher : Bool) (r : SessionRequest) : Option SessionTimer :=
  if (r.method = .invite ∨ r.method = .update) ∧ r.tooSmall = false then
    r.sessionExpires.map fun delta =>
      ⟨delta, if (r.refresher = none ∧ weAreRefresher = true) ∨ r.refresher = some "uac" then .they else .we⟩
  else none

/-- m_timerSessionRefresh of the dialogs, with m_nSessionExpiresSecs and m_refresher -/
abbrev SessionTimers := AList fun _ : Leg => SessionTimer

def SessionTimers.setSessionTimer (leg : Leg) (t : SessionTimer) (timers : SessionTimers) : SessionTimers :=
  timers.insert leg t

def SessionTimers.cancelSessionTimer (leg : Leg) (timers : SessionTimers) : SessionTimers := timers.erase leg

structure Sessions where
  registries : Registries
  timers : SessionTimers

namespace Sessions

/-- areWeRefresher, while there is a timer -/
def weAreRefresher (leg : Leg) (s : Sessions) : Bool := (s.timers.lookup leg).any fun t => t.refresher == .we

/-- Requests that are neither an ACK nor a CANCEL, with the status of the response when the handler itself rejects a
    request. A re-INVITE or an UPDATE ends the timer that is running and sets one for its own Session-Expires. -/
def otherInsideDialog (leg : Leg) (d : SipDialog) (r : SessionRequest) (s : Sessions) : Sessions × Option Nat :=
  let registries :=
    if r.method = .bye then s.registries
    else s.registries.modify leg fun d => { d with incoming := r.transactionId :: d.incoming }
  let weAreRefresher := s.weAreRefresher leg
  let timers := if r.method = .invite ∨ r.method = .update then s.timers.cancelSessionTimer leg else s.timers
  if r.tooSmall = true then (⟨registries, timers⟩, some 422)
  else
    let timers := match r.timer weAreRefresher with
      | some t => timers.setSessionTimer leg t
      | none => timers
    let routed := registries.routeRequestInsideDialog r.toRequest d.dialogId
    if routed.2 = true then (⟨routed.1.admitRequest leg d r.toRequest true, timers⟩, none)
    else if d.status < 200 then
      (⟨routed.1.earlyRequest leg d r.toRequest, timers⟩, if r.method = .update ∧ d.update.isSome then some 500 else none)
    else if r.method = .bye then (⟨routed.1.admitRequest leg d r.toRequest false, timers⟩, none)
    else (⟨routed.1, timers⟩, some 481)

/-- processRequestInsideDialog -/
def processRequestInsideDialog (leg : Leg) (r : SessionRequest) (s : Sessions) : Sessions × Option Nat :=
  match s.registries.findDialogByLeg leg with
  | none => (s, none)
  | some d =>
    if r.method = .invite ∧ r.arrival.hasToTag = false ∧ 200 ≤ d.status then (s, none)
    else
      match r.method with
      | .ack => ({ s with registries := s.registries.ackInsideDialog leg d r.toRequest }, none)
      | .cancel => ({ s with registries := s.registries.cancelInsideDialog leg d r.toRequest }, none)
      | _ => s.otherInsideDialog leg d r

end Sessions

/-! ### Responses -/

/-- What is read of a response for the session timer -/
structure SessionResponse where
  method : Proxy.Method
  status : Nat
  sessionExpires : Option SessionExpires

/-- The timer for the Session-Expires of a response, where we are the UAC -/
def SessionExpires.timer (se : SessionExpires) : SessionTimer :=
  ⟨se.delta, if se.refresher.all (· == "uac") then .we else .they⟩

namespace SessionResponse

/-- Of a response to an INVITE (`processResponseOutsideDialog`) or to a re-INVITE (`processResponseInsideDialog`) -/
def timer (r : SessionResponse) : Option SessionTimer :=
  if r.method = .invite ∧ r.status = 200 then r.sessionExpires.map (·.timer) else none

/-- Of a response to a re-INVITE that refreshes the session (`processResponseToRefreshingReinvite`). After a 491 the
    session keeps the interval of that re-INVITE, or the one that the dialog has. -/
def refreshTimer (requested : Option SessionExpires) (sessionExpiresSecs : Nat) (r : SessionResponse) : Option SessionTimer :=
  if r.status = 200 then r.sessionExpires.map (·.timer)
  else if r.status = 491 then
    let secs := (requested.map (·.delta)).getD sessionExpiresSecs
    if secs = 0 then none else some ⟨secs, .we⟩
  else none

end SessionResponse

/-- What `setSessionTimer` is called for. -/
inductive TimerSource where
  /-- A 200 of the application for an INVITE (`doRespondToSipRequest`) -/
  | answer (isInvite : Bool) (env : AnswerEnv) (a : Answer)
  | request (weAreRefresher : Bool) (r : SessionRequest)
  | response (r : SessionResponse)
  | refresh (requested : Option SessionExpires) (sessionExpiresSecs : Nat) (r : SessionResponse)

def TimerSource.timer : TimerSource → Option SessionTimer
  | .answer isInvite env a => (a.sessionTimer isInvite env).map (·.1)
  | .request weAreRefresher r => r.timer weAreRefresher
  | .response r => r.timer
  | .refresh requested sessionExpiresSecs r => r.refreshTimer requested sessionExpiresSecs

end Drachtio.Dialog
