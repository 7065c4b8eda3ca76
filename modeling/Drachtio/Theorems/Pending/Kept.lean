import Drachtio.Pending.Disposal
import Drachtio.Theorems.Pending.Tables

/-! What a step of the disposal sends, and what it leaves pending: a request whose flag says whether it was terminated. -/

namespace Drachtio.Pending.Disposal

open Machine PendingRequests
open Sip (Message)

variable {s : Disposal} {op : Op} {p : PendingRequest} {t uuid : String} {sip : Message} {hasToTag : Bool}

/-- The id was not given to a message yet. -/
structure Unused (s : Disposal) (uuid : String) : Prop where
  pending : uuid ∉ s.pending.txnId2Invite
  invites : uuid ∉ s.invites
  answering : uuid ∉ s.answering
  log : ∀ e ∈ s.log, ¬ e.Disposes uuid

/-- A new request is an object of its own, with an unused uuid and handle. -/
def Fresh (s : Disposal) : Op → Prop
  | .arrive a _ =>
    s.Unused a.uuid ∧ a.handle ∉ s.pending.timeouts ∧
      ∀ k p, s.pending.txnId2Invite.lookup k = some p → p.address ≠ a.address
  | .requestInsideDialog q => s.Unused q.uuid
  | _ => True

/-! ### What a step logs -/

/-- The events of a CANCEL, for the INVITE that it finds. -/
def cancelEvents (client : Option Client.ClientId) : Option PendingRequest → List Event
  | some p => (client.toList.map fun client => Event.passCancel client p.transactionId) ++
      [Event.toCancel 200, Event.terminate p.transactionId]
  | none => [.toCancel 481]

/-- The events of a request that comes in. -/
def arriveEvents (s : Disposal) (a : Arrival) (r : Reception) : List Event :=
  if r.dropped = true then []
  else match r.refused with
    | some status => [.respond a.uuid status]
    | none => if s.Processes a then (trying a r).map (Event.respond a.uuid) ++ newRequestEvents a else []

/-- The events of a step. -/
def events (s : Disposal) : Op → List Event
  | .arrive a r => s.arriveEvents a r
  | .requestInsideDialog q =>
    q.statuses.map (Event.respond q.uuid) ++ q.client.toList.map fun client => Event.deliver client q.uuid
  | .cancel callId client => cancelEvents client (s.pending.findInviteByCallId callId)
  | .cancelInsideDialog logsInfo sip client =>
    match s.pending.findInviteByCallIdAndBranch logsInfo sip with
    | none => []
    | some found => cancelEvents client found
  | .respond transactionId status env =>
    if transactionId ∈ s.answering ∨ (s.setupLegForIncomingRequest transactionId env).2 = true then
      status.toList.map (Event.respond transactionId)
    else []
  | .proxy transactionId env =>
    if (s.pending.findAndRemove transactionId false).2.isSome = true then
      if env.maxForwardsUsed = true then [.respond transactionId 483]
      else if env.started = 0 then [.respond transactionId 500]
      else [.forward transactionId]
    else []
  | .routeNewRequestToClient client transactionId =>
    (s.pending.find transactionId).toList.map fun p => .deliver client p.transactionId
  | .fire _ => []

theorem receive_eq (s : Disposal) (uuid : String) (sip : Message) (hasToTag : Bool) :
    ∃ m, s.receive uuid sip hasToTag = { s with invites := m } := by
  unfold receive
  cases inviteName sip hasToTag with
  | none => exact ⟨s.invites, rfl⟩
  | some id => exact ⟨s.invites.insert uuid id, rfl⟩

theorem receive_lookup (h : uuid ∉ s.invites) (t : String) :
    (s.receive uuid sip hasToTag).invites.lookup t = if t = uuid then inviteName sip hasToTag else s.invites.lookup t := by
  unfold receive
  by_cases heq : t = uuid
  · rw [if_pos heq, heq]
    cases inviteName sip hasToTag with
    | none => exact AList.lookup_eq_none.mpr h
    | some id => exact AList.lookup_insert _
  · rw [if_neg heq]
    cases inviteName sip hasToTag with
    | none => rfl
    | some id => exact AList.lookup_insert_ne heq

theorem setupLeg_frame (transactionId : String) (env : LegEnv) (s : Disposal) :
    (s.setupLegForIncomingRequest transactionId env).1.log = s.log ∧
      (s.setupLegForIncomingRequest transactionId env).1.invites = s.invites := by
  unfold setupLegForIncomingRequest
  dsimp only
  split
  · exact ⟨rfl, rfl⟩
  · split
    · exact ⟨rfl, rfl⟩
    · split
      · exact ⟨rfl, rfl⟩
      · split <;> exact ⟨rfl, rfl⟩

theorem step_log (s : Disposal) (op : Op) : (s.step op).log = s.log ++ s.events op := by
  cases op with
  | arrive a r =>
    obtain ⟨m, hm⟩ := s.receive_eq a.uuid a.sip a.hasToTag
    simp only [step, arrive, events, arriveEvents, hm]
    by_cases hdropped : r.dropped = true
    · rw [if_pos hdropped, if_pos hdropped]
      exact (List.append_nil _).symm
    · rw [if_neg hdropped, if_neg hdropped]
      cases r.refused with
      | some status => rfl
      | none =>
        by_cases hprocesses : s.Processes a
        · simp only [if_pos hprocesses]
          rfl
        · simp only [if_neg hprocesses]
          exact (List.append_nil _).symm
  | requestInsideDialog q =>
    obtain ⟨m, hm⟩ := s.receive_eq q.uuid q.sip q.hasToTag
    simp only [step, requestInsideDialog, events, hm]
    rfl
  | cancel callId client =>
    simp only [step, cancel, events]
    cases s.pending.findInviteByCallId callId <;> rfl
  | cancelInsideDialog logsInfo sip client =>
    simp only [step, cancelInsideDialog, events]
    cases s.pending.findInviteByCallIdAndBranch logsInfo sip with
    | none => exact (List.append_nil _).symm
    | some found => cases found <;> rfl
  | respond transactionId status env =>
    simp only [step, respond, events]
    by_cases hmem : transactionId ∈ s.answering
    · rw [if_pos hmem, if_pos (.inl hmem)]
      rfl
    · rw [if_neg hmem]
      by_cases hok : (s.setupLegForIncomingRequest transactionId env).2 = true
      · rw [if_pos hok, if_pos (.inr hok)]
        exact congrArg (· ++ _) (setupLeg_frame transactionId env s).1
      · rw [if_neg hok, if_neg (not_or.mpr ⟨hmem, hok⟩), List.append_nil]
        exact (setupLeg_frame transactionId env s).1
  | proxy transactionId env =>
    simp only [step, proxy, events]
    cases (s.pending.findAndRemove transactionId false).2 with
    | none => exact (List.append_nil _).symm
    | some p =>
      simp only [Option.isSome_some, if_true]
      split
      · rfl
      · split <;> rfl
  | routeNewRequestToClient client transactionId =>
    simp only [step, routeNewRequestToClient, events]
    cases s.pending.find transactionId with
    | none => exact (List.append_nil _).symm
    | some p => rfl
  | fire handle => exact (List.append_nil _).symm

/-- The message that comes in with a step -/
def Op.received : Op → Option String
  | .arrive a _ => some a.uuid
  | .requestInsideDialog q => some q.uuid
  | _ => none

/-- It is known which INVITE a message is just from when it comes in. -/
theorem step_lookup (hfresh : s.Fresh op) (h : op.received ≠ some t) : (s.step op).invites.lookup t = s.invites.lookup t := by
  cases op with
  | arrive a r =>
    have hreceive : (s.receive a.uuid a.sip a.hasToTag).invites.lookup t = s.invites.lookup t :=
      (receive_lookup hfresh.1.invites t).trans (if_neg fun heq => h (congrArg some heq.symm))
    simp only [step, arrive]
    split
    · rfl
    · split
      · exact hreceive
      · split
        · exact hreceive
        · rfl
  | requestInsideDialog q =>
    exact (receive_lookup hfresh.invites t).trans (if_neg fun heq => h (congrArg some heq.symm))
  | cancel callId client =>
    simp only [step, cancel]
    split <;> rfl
  | cancelInsideDialog logsInfo sip client =>
    simp only [step, cancelInsideDialog]
    split <;> rfl
  | respond transactionId status env =>
    have hframe := congrArg (AList.lookup t) (setupLeg_frame transactionId env s).2
    simp only [step, respond]
    split
    · rfl
    · split
      · exact hframe
      · exact hframe
  | proxy transactionId env =>
    simp only [step, proxy]
    split
    · rfl
    · split
      · rfl
      · split <;> rfl
  | routeNewRequestToClient client transactionId =>
    simp only [step, routeNewRequestToClient]
    split <;> rfl
  | fire handle => rfl

theorem terminate_notMem_newRequestEvents (a : Arrival) (t : String) : .terminate t ∉ newRequestEvents a := by
  unfold newRequestEvents
  (repeat' split) <;> simp

theorem disposes_of_mem_singleton {e e' : Event} (he : e ∈ [e']) (hdisposes : e.Disposes t) : e'.Disposes t :=
  List.mem_singleton.mp he ▸ hdisposes

theorem newRequestEvents_disposes {a : Arrival} {e : Event} (he : e ∈ newRequestEvents a) (hdisposes : e.Disposes t) :
    a.uuid = t := by
  unfold newRequestEvents at he
  split at he
  · cases he
  · split at he
    · exact disposes_of_mem_singleton he hdisposes
    · split at he
      · exact disposes_of_mem_singleton he hdisposes
      · split at he
        · cases he
        · split at he
          · exact disposes_of_mem_singleton he hdisposes
          · exact disposes_of_mem_singleton he hdisposes

/-- The request that the events of a step are about -/
def target (s : Disposal) : Op → Option String
  | .arrive a _ => some a.uuid
  | .requestInsideDialog q => some q.uuid
  | .cancel callId _ => (s.pending.findInviteByCallId callId).map (·.transactionId)
  | .cancelInsideDialog logsInfo sip _ => (s.pending.findInviteByCallIdAndBranch logsInfo sip).join.map (·.transactionId)
  | .respond transactionId _ _ => some transactionId
  | .proxy transactionId _ => some transactionId
  | .routeNewRequestToClient _ transactionId => (s.pending.find transactionId).map (·.transactionId)
  | .fire _ => none

/-- The events of a step are about one request. -/
theorem events_target {e : Event} (he : e ∈ s.events op) (hdisposes : e.Disposes t) : s.target op = some t := by
  have hcancel : ∀ client (found : Option PendingRequest), e ∈ cancelEvents client found →
      found.map (·.transactionId) = some t := by
    intro client found he
    cases found with
    | none =>
      rw [List.mem_singleton.mp he] at hdisposes
      cases hdisposes
    | some p =>
      rcases List.mem_append.mp he with he | he
      · obtain ⟨client, -, rfl⟩ := List.mem_map.mp he
        cases hdisposes
      · rcases List.mem_cons.mp he with rfl | he
        · cases hdisposes
        · exact congrArg some (disposes_of_mem_singleton he hdisposes)
  cases op with
  | arrive a r =>
    simp only [events, arriveEvents] at he
    split at he
    · cases he
    · split at he
      · exact congrArg some (disposes_of_mem_singleton he hdisposes)
      · split at he
        · rcases List.mem_append.mp he with he | he
          · obtain ⟨status, -, rfl⟩ := List.mem_map.mp he
            exact congrArg some hdisposes
          · exact congrArg some (newRequestEvents_disposes he hdisposes)
        · cases he
  | requestInsideDialog q =>
    rcases List.mem_append.mp he with he | he
    · obtain ⟨status, -, rfl⟩ := List.mem_map.mp he
      exact congrArg some hdisposes
    · obtain ⟨client, -, rfl⟩ := List.mem_map.mp he
      exact congrArg some hdisposes
  | cancel callId client => exact hcancel client _ he
  | cancelInsideDialog logsInfo sip client =>
    simp only [events, target] at he ⊢
    cases hfound : s.pending.findInviteByCallIdAndBranch logsInfo sip with
    | none => simp [hfound] at he
    | some found =>
      rw [hfound] at he
      exact hcancel client _ he
  | respond transactionId status env =>
    simp only [events] at he
    split at he
    · obtain ⟨status, -, rfl⟩ := List.mem_map.mp he
      exact congrArg some hdisposes
    · cases he
  | proxy transactionId env =>
    simp only [events] at he
    split at he
    · split at he
      · exact congrArg some (disposes_of_mem_singleton he hdisposes)
      · split at he
        · exact congrArg some (disposes_of_mem_singleton he hdisposes)
        · exact congrArg some (disposes_of_mem_singleton he hdisposes)
    · cases he
  | routeNewRequestToClient client transactionId =>
    obtain ⟨p, hp, rfl⟩ := List.mem_map.mp he
    rw [target, Option.mem_toList.mp hp]
    exact congrArg some hdisposes
  | fire handle => cases he

/-- A step is a CANCEL, with or without a pending request that it finds, or it terminates nothing. -/
theorem events_cases (s : Disposal) (op : Op) :
    (∃ client found, s.events op = cancelEvents client found ∧ (∀ p ∈ found, p ∈ s.pending.requests) ∧ op.received = none) ∨
      ∀ t, .terminate t ∉ s.events op := by
  cases op with
  | arrive a r =>
    refine .inr fun t h => ?_
    simp only [events, arriveEvents] at h
    split at h
    · cases h
    · split at h
      · simp at h
      · split at h
        · rcases List.mem_append.mp h with h | h
          · simp at h
          · exact terminate_notMem_newRequestEvents a t h
        · cases h
  | requestInsideDialog q => exact .inr fun t => by simp [events]
  | cancel callId client => exact .inl ⟨client, _, rfl, fun p hp => List.mem_of_find?_eq_some hp, rfl⟩
  | cancelInsideDialog logsInfo sip client =>
    simp only [events]
    cases hfound : s.pending.findInviteByCallIdAndBranch logsInfo sip with
    | none => exact .inr fun t => List.not_mem_nil
    | some found => exact .inl ⟨client, found, rfl, fun p hp => mem_of_findInviteByCallIdAndBranch (hp ▸ hfound), rfl⟩
  | respond transactionId status env =>
    refine .inr fun t => ?_
    simp only [events]
    split <;> simp
  | proxy transactionId env =>
    refine .inr fun t => ?_
    simp only [events]
    (repeat' split) <;> simp
  | routeNewRequestToClient client transactionId => exact .inr fun t => by simp [events]
  | fire handle => exact .inr fun t => List.not_mem_nil

theorem terminate_mem_events (h : .terminate t ∈ s.events op) :
    op.received = none ∧ ∃ p ∈ s.pending.requests, p.transactionId = t := by
  rcases s.events_cases op with ⟨client, found, hevents, hfound, hreceived⟩ | hnone
  · refine ⟨hreceived, ?_⟩
    rw [hevents] at h
    cases found with
    | none => simp [cancelEvents] at h
    | some p => exact ⟨p, hfound p rfl, by simpa [cancelEvents, eq_comm] using h⟩
  · exact absurd h (hnone t)

/-! ### What came in -/

theorem Fresh.unused (hfresh : s.Fresh op) (h : op.received = some uuid) : s.Unused uuid := by
  cases op with
  | arrive a r => exact Option.some.inj h ▸ hfresh.1
  | requestInsideDialog q => exact Option.some.inj h ▸ hfresh
  | cancel callId client => cases h
  | cancelInsideDialog logsInfo sip client => cases h
  | respond transactionId status env => cases h
  | proxy transactionId env => cases h
  | routeNewRequestToClient client transactionId => cases h
  | fire handle => cases h

theorem arrive_named {a : Arrival} {r : Reception} (hfresh : s.Fresh (.arrive a r)) (hdropped : r.dropped = false)
    (hrefused : r.refused = none) (hprocesses : s.Processes a) :
    (s.step (.arrive a r)).invites.lookup a.uuid = inviteName a.sip a.hasToTag := by
  simp only [step, arrive, hdropped, Bool.false_eq_true, if_false, hrefused, if_pos hprocesses]
  exact (receive_lookup hfresh.1.invites a.uuid).trans (if_pos rfl)

/-! ### Requests and their flags -/

theorem lookup_of_mem_requests {c : PendingRequests} (i : c.Paired) (h : p ∈ c.requests) :
    c.txnId2Invite.lookup p.transactionId = some p := by
  obtain ⟨⟨k, q⟩, hq, rfl⟩ := List.mem_map.mp h
  exact (i.callId k q (AList.mem_lookup_iff.mpr hq)).2

theorem findAndRemove_canceled (c : PendingRequests) (t : String) (timeout : Bool) :
    (c.findAndRemove t timeout).1.canceled = c.canceled := by
  unfold findAndRemove
  split
  · rfl
  · dsimp only
    split
    · split <;> rfl
    · split
      · unfold removeTimeout
        split <;> rfl
      · unfold removeTimeout
        split <;> rfl

theorem findAndRemove_found (c : PendingRequests) (t : String) (timeout : Bool) :
    (c.findAndRemove t timeout).2 = c.txnId2Invite.lookup t := by
  unfold findAndRemove
  split <;> (rename_i h; rw [h])

/-- The flag of a pending request says whether it was terminated, and nothing that is being answered was. -/
structure Kept (s : Disposal) : Prop where
  paired : s.pending.Paired
  distinct : ∀ k p k' p', s.pending.txnId2Invite.lookup k = some p → s.pending.txnId2Invite.lookup k' = some p' →
    p.address = p'.address → p = p'
  flag : ∀ k p, s.pending.txnId2Invite.lookup k = some p →
    (p.address ∈ s.pending.canceled ↔ .terminate p.transactionId ∈ s.log)
  answering : ∀ t ∈ s.answering, t ∉ s.pending.txnId2Invite ∧ .terminate t ∉ s.log

theorem kept_empty : empty.Kept where
  paired := paired_empty
  distinct _ _ _ _ h := nomatch (h : none = some _)
  flag _ _ h := nomatch (h : none = some _)
  answering _ h := nomatch h

namespace Kept

/-- The request was terminated just when its flag is set. -/
theorem canceled_iff (k : s.Kept) (hp : s.pending.txnId2Invite.lookup t = some p) :
    s.pending.isCanceled p = false ↔ .terminate t ∉ s.log := by
  rw [isCanceled, decide_eq_false_iff_not, k.flag t p hp, (k.paired.txn t p hp).1]

/-- A leg is set up only for a request that was not terminated. -/
theorem setupLeg_true (k : s.Kept) {env : LegEnv} (h : (s.setupLegForIncomingRequest t env).2 = true) :
    ∃ p, s.pending.txnId2Invite.lookup t = some p ∧ .terminate t ∉ s.log ∧
      (s.setupLegForIncomingRequest t env).1 =
        { s with pending := (s.pending.findAndRemove t false).1, answering := t :: s.answering } := by
  unfold setupLegForIncomingRequest at h ⊢
  dsimp only at h ⊢
  rw [findAndRemove_found] at h ⊢
  cases hp : s.pending.txnId2Invite.lookup t with
  | none =>
    rw [hp] at h
    cases h
  | some p =>
    rw [hp] at h
    dsimp only at h ⊢
    have hsame : (s.pending.findAndRemove t false).1.isCanceled p = s.pending.isCanceled p := by
      rw [isCanceled, findAndRemove_canceled, isCanceled]
    split at h
    · cases h
    · rename_i hflag
      split at h
      · cases h
      · rename_i htport
        split at h
        · cases h
        · rename_i hcreate
          rw [hsame, Bool.not_eq_true] at hflag
          refine ⟨p, rfl, (k.canceled_iff hp).mp hflag, ?_⟩
          rw [hsame, if_neg (by simp [hflag]), if_neg htport, if_neg hcreate]

theorem setupLeg_false {env : LegEnv} (h : (s.setupLegForIncomingRequest t env).2 ≠ true) :
    (s.setupLegForIncomingRequest t env).1 = { s with pending := (s.pending.findAndRemove t false).1 } := by
  unfold setupLegForIncomingRequest at h ⊢
  dsimp only at h ⊢
  split
  · rfl
  · split
    · rfl
    · split
      · rfl
      · split
        · rfl
        · rename_i hp hflag htport hcreate
          rw [hp] at h
          dsimp only at h
          rw [if_neg hflag, if_neg htport, if_neg hcreate] at h
          exact absurd rfl h

/-- A step that takes requests out of the tables and terminates none. -/
theorem shrink (k : s.Kept) {s' : Disposal} (hpaired : s'.pending.Paired)
    (hsub : ∀ t p, s'.pending.txnId2Invite.lookup t = some p → s.pending.txnId2Invite.lookup t = some p)
    (hcanceled : s'.pending.canceled = s.pending.canceled) (hlog : ∀ t, .terminate t ∈ s'.log ↔ .terminate t ∈ s.log)
    (hanswering : ∀ t ∈ s'.answering, t ∉ s'.pending.txnId2Invite ∧ .terminate t ∉ s.log) : s'.Kept where
  paired := hpaired
  distinct t p t' p' hp hp' := k.distinct t p t' p' (hsub t p hp) (hsub t' p' hp')
  flag t p hp := by rw [hcanceled, hlog, k.flag t p (hsub t p hp)]
  answering t ht := by
    rw [hlog]
    exact hanswering t ht

theorem notMem_of_sub {c c' : PendingRequests}
    (hsub : ∀ t p, c'.txnId2Invite.lookup t = some p → c.txnId2Invite.lookup t = some p)
    (h : t ∉ c.txnId2Invite) : t ∉ c'.txnId2Invite := by
  intro hmem
  obtain ⟨p, hp⟩ := Option.isSome_iff_exists.mp (AList.lookup_isSome.mpr hmem)
  exact h (AList.mem_of_lookup (hsub t p hp))

theorem findAndRemove_sub {c : PendingRequests} (i : c.Paired) (t : String) :
    (c.findAndRemove t false).1.Paired ∧ t ∉ (c.findAndRemove t false).1.txnId2Invite ∧
      ∀ t' p, (c.findAndRemove t false).1.txnId2Invite.lookup t' = some p → c.txnId2Invite.lookup t' = some p := by
  refine ⟨@Paired.step c (.findAndRemove t) i trivial, ?_⟩
  cases hp : c.txnId2Invite.lookup t with
  | none =>
    rw [findAndRemove, hp]
    exact ⟨AList.lookup_eq_none.mp hp, fun _ _ h => h⟩
  | some p =>
    rw [i.findAndRemove_eq hp]
    exact ⟨AList.lookup_eq_none.mp (AList.lookup_erase _ _), fun t' q hq => (AList.lookup_erase_eq_some.mp hq).2⟩

/-- The end of a handler that takes the request `t` out of the tables. -/
theorem removed (k : s.Kept) (t : String) {es : List Event} (hes : ∀ t, .terminate t ∉ es) :
    ({ s with pending := (s.pending.findAndRemove t false).1 }.emit es).Kept := by
  obtain ⟨hpaired, -, hsub⟩ := findAndRemove_sub k.paired t
  refine k.shrink hpaired hsub (findAndRemove_canceled _ _ _) (fun t' => ?_) fun t' ht' => ?_
  · exact ⟨fun h => (List.mem_append.mp h).resolve_right (hes t'), List.mem_append_left _⟩
  · exact ⟨notMem_of_sub hsub (k.answering t' ht').1, (k.answering t' ht').2⟩

theorem emitted (k : s.Kept) {es : List Event} (hes : ∀ t, .terminate t ∉ es) : (s.emit es).Kept :=
  k.shrink k.paired (fun _ _ h => h) rfl
    (fun t => ⟨fun h => (List.mem_append.mp h).resolve_right (hes t), List.mem_append_left _⟩) k.answering

theorem cancelFound (k : s.Kept) (client : Option Client.ClientId) (hp : p ∈ s.pending.requests) :
    (s.cancelFound p client).Kept := by
  have hlookup := lookup_of_mem_requests k.paired hp
  have hlog : ∀ t, .terminate t ∈ (s.cancelFound p client).log ↔ .terminate t ∈ s.log ∨ t = p.transactionId := by
    intro t
    simp [Disposal.cancelFound, emit]
  refine ⟨@Paired.step _ (.cancel p) k.paired trivial, k.distinct, fun t q hq => ?_, fun t ht => ⟨(k.answering t ht).1, ?_⟩⟩
  · rw [hlog, ← k.flag t q hq]
    show q.address ∈ p.address :: s.pending.canceled ↔ _
    rw [List.mem_cons, or_comm]
    refine or_congr_right ⟨fun h => ?_, fun h => ?_⟩
    · rw [k.distinct t q _ p hq hlookup h]
    · have hq' : s.pending.txnId2Invite.lookup q.transactionId = some q := by rw [(k.paired.txn t q hq).1]; exact hq
      rw [h, hlookup] at hq'
      rw [Option.some.inj hq']
  · rw [hlog, not_or]
    refine ⟨(k.answering t ht).2, fun h => (k.answering t ht).1 ?_⟩
    exact h ▸ AList.mem_of_lookup hlookup

theorem fire_sub (k : s.Kept) (handle : Nat) (t : String) (p : PendingRequest)
    (hp : (s.pending.fire handle).txnId2Invite.lookup t = some p) : s.pending.txnId2Invite.lookup t = some p := by
  cases ht : s.pending.timeouts.lookup handle with
  | none =>
    rw [PendingRequests.fire, ht] at hp
    exact hp
  | some t' =>
    obtain ⟨q, -, -, heq⟩ := k.paired.fire_eq ht
    rw [heq] at hp
    exact (AList.lookup_erase_eq_some.mp hp).2

theorem received (k : s.Kept) : (s.receive uuid sip hasToTag).Kept := by
  obtain ⟨m, hm⟩ := s.receive_eq uuid sip hasToTag
  rw [hm]
  exact ⟨k.paired, k.distinct, k.flag, k.answering⟩

theorem arrived (k : s.Kept) {a : Arrival} {r : Reception} (hfresh : s.Fresh (.arrive a r)) :
    ({ s with pending := s.pending.arrive a } : Disposal).Kept := by
  obtain ⟨hunused, hhandle, haddress⟩ := hfresh
  by_cases hadmits : s.pending.admits a = true
  · have hadd : s.pending.arrive a = s.pending.add (.of a) := if_pos hadmits
    have htable : (s.pending.add (.of a)).txnId2Invite = s.pending.txnId2Invite.insert a.uuid (.of a) :=
      AList.insertNew_of_notMem hunused.pending
    refine ⟨?_, fun t p t' p' hp hp' heq => ?_, fun t p hp => ?_, fun t ht => ⟨?_, (k.answering t ht).2⟩⟩
    · exact @Paired.step _ (.arrive a) k.paired ⟨hunused.pending, hhandle⟩
    · rw [hadd, htable] at hp hp'
      rcases AList.lookup_insert_eq_some.mp hp with ⟨rfl, rfl⟩ | ⟨-, hp⟩
      · rcases AList.lookup_insert_eq_some.mp hp' with ⟨rfl, rfl⟩ | ⟨-, hp'⟩
        · rfl
        · exact absurd heq.symm (haddress t' p' hp')
      · rcases AList.lookup_insert_eq_some.mp hp' with ⟨rfl, rfl⟩ | ⟨-, hp'⟩
        · exact absurd heq (haddress t p hp)
        · exact k.distinct t p t' p' hp hp' heq
    · rw [hadd, htable] at hp
      rw [hadd]
      show p.address ∈ s.pending.canceled.filter (· ≠ a.address) ↔ _
      rcases AList.lookup_insert_eq_some.mp hp with ⟨rfl, rfl⟩ | ⟨-, hp⟩
      · refine iff_of_false (by simp [PendingRequest.of]) fun h => hunused.log _ h rfl
      · rw [← k.flag t p hp]
        simp [haddress t p hp]
    · rw [hadd, htable, AList.mem_insert, not_or]
      exact ⟨fun h => hunused.answering (h ▸ ht), (k.answering t ht).1⟩
  · have hsame : s.pending.arrive a = s.pending := if_neg hadmits
    rw [hsame]
    exact k

theorem arrive (k : s.Kept) {a : Arrival} {r : Reception} (hfresh : s.Fresh (.arrive a r)) : (s.arrive a r).Kept := by
  unfold Disposal.arrive
  split
  · exact k
  · split
    · exact k.received.emitted (by simp)
    · split
      · obtain ⟨m, hm⟩ := s.receive_eq a.uuid a.sip a.hasToTag
        have harrived := k.arrived hfresh
        have hkept : ({ s with pending := s.pending.arrive a, invites := m } : Disposal).Kept :=
          ⟨harrived.paired, harrived.distinct, harrived.flag, harrived.answering⟩
        rw [hm]
        refine hkept.emitted fun t h => ?_
        rcases List.mem_append.mp h with h | h
        · obtain ⟨status, -, heq⟩ := List.mem_map.mp h
          cases heq
        · exact terminate_notMem_newRequestEvents a t h
      · exact k

theorem requestInsideDialog (k : s.Kept) {q : LegRequest} (hfresh : s.Fresh (.requestInsideDialog q)) :
    (s.requestInsideDialog q).Kept := by
  obtain ⟨m, hm⟩ := s.receive_eq q.uuid q.sip q.hasToTag
  have hkept : ({ s with invites := m, answering := if q.waits = true then q.uuid :: s.answering else s.answering } :
      Disposal).Kept := by
    refine ⟨k.paired, k.distinct, k.flag, fun t ht => ?_⟩
    split at ht
    · rcases List.mem_cons.mp ht with rfl | ht
      · exact ⟨hfresh.pending, fun h => hfresh.log _ h rfl⟩
      · exact k.answering t ht
    · exact k.answering t ht
  simp only [Disposal.requestInsideDialog, hm]
  refine hkept.emitted fun t h => ?_
  rcases List.mem_append.mp h with h | h
  · obtain ⟨status, -, heq⟩ := List.mem_map.mp h
    cases heq
  · obtain ⟨client, -, heq⟩ := List.mem_map.mp h
    cases heq

theorem respond (k : s.Kept) (status : Option Nat) (env : LegEnv) : (s.respond t status env).Kept := by
  have hes : ∀ t', .terminate t' ∉ status.toList.map (Event.respond t) := by
    intro t' h
    obtain ⟨_, -, heq⟩ := List.mem_map.mp h
    cases heq
  unfold Disposal.respond
  split
  · exact k.emitted hes
  · dsimp only
    split
    · rename_i hok
      obtain ⟨p, hp, hnot, heq⟩ := k.setupLeg_true hok
      obtain ⟨hpaired, hout, hsub⟩ := findAndRemove_sub k.paired t
      rw [heq]
      suffices h :
        ({ s with pending := (s.pending.findAndRemove t false).1, answering := t :: s.answering } : Disposal).Kept from
        h.emitted hes
      refine k.shrink hpaired hsub (findAndRemove_canceled _ _ _) (fun _ => Iff.rfl) fun t' ht' => ?_
      rcases List.mem_cons.mp ht' with rfl | ht'
      · exact ⟨hout, hnot⟩
      · exact ⟨notMem_of_sub hsub (k.answering t' ht').1, (k.answering t' ht').2⟩
    · rename_i hok
      rw [setupLeg_false hok]
      have h := @removed s k t [] fun _ => List.not_mem_nil
      rw [emit, List.append_nil] at h
      exact h

theorem step (k : s.Kept) (hfresh : s.Fresh op) : (s.step op).Kept := by
  cases op with
  | arrive a r => exact k.arrive hfresh
  | requestInsideDialog q => exact k.requestInsideDialog hfresh
  | cancel callId client =>
    simp only [Disposal.step, cancel]
    cases hp : s.pending.findInviteByCallId callId with
    | none => exact k.emitted (by simp)
    | some p => exact k.cancelFound client (List.mem_of_find?_eq_some hp)
  | cancelInsideDialog logsInfo sip client =>
    simp only [Disposal.step, cancelInsideDialog]
    split
    · exact k
    · rename_i hp
      exact k.cancelFound client (mem_of_findInviteByCallIdAndBranch hp)
    · exact k.emitted (by simp)
  | respond transactionId status env => exact k.respond status env
  | proxy transactionId env =>
    simp only [Disposal.step, proxy]
    split
    · have h := @removed s k transactionId [] fun _ => List.not_mem_nil
      rw [emit, List.append_nil] at h
      exact h
    · split
      · exact k.removed transactionId (by simp)
      · split
        · exact k.removed transactionId (by simp)
        · exact k.removed transactionId (by simp)
  | routeNewRequestToClient client transactionId =>
    simp only [Disposal.step, routeNewRequestToClient]
    split
    · exact k
    · exact k.emitted (by simp)
  | fire handle =>
    have hpaired := @Paired.step _ (.fire handle) k.paired trivial
    have hcanceled : (s.pending.fire handle).canceled = s.pending.canceled := by
      cases ht : s.pending.timeouts.lookup handle with
      | none => rw [PendingRequests.fire, ht]
      | some t' =>
        obtain ⟨q, -, -, heq⟩ := k.paired.fire_eq ht
        rw [heq]
    refine k.shrink hpaired (k.fire_sub handle) hcanceled (fun _ => Iff.rfl) fun t ht => ?_
    exact ⟨notMem_of_sub (k.fire_sub handle) (k.answering t ht).1, (k.answering t ht).2⟩

end Kept

/-- A pending request was pending before a step, or it has come in with the step. -/
theorem step_pending (k : s.Kept) (hfresh : s.Fresh op) (hp : (s.step op).pending.txnId2Invite.lookup t = some p) :
    s.pending.txnId2Invite.lookup t = some p ∨
      ∃ a r, op = .arrive a r ∧ t = a.uuid ∧ p = .of a ∧ r.dropped = false ∧ r.refused = none ∧ s.Processes a ∧
        s.pending.admits a = true := by
  cases op with
  | arrive a r =>
    obtain ⟨m, hm⟩ := s.receive_eq a.uuid a.sip a.hasToTag
    simp only [step, arrive, hm] at hp
    split at hp
    · exact .inl hp
    · rename_i hdropped
      cases hrefused : r.refused with
      | some status =>
        rw [hrefused] at hp
        exact .inl hp
      | none =>
        rw [hrefused] at hp
        dsimp only at hp
        split at hp
        · rename_i hprocesses
          by_cases hadmits : s.pending.admits a = true
          · have hadd : (s.pending.arrive a).txnId2Invite = s.pending.txnId2Invite.insert a.uuid (.of a) := by
              rw [PendingRequests.arrive, if_pos hadmits]
              exact AList.insertNew_of_notMem hfresh.1.pending
            have hp' : (s.pending.arrive a).txnId2Invite.lookup t = some p := hp
            rw [hadd] at hp'
            rcases AList.lookup_insert_eq_some.mp hp' with ⟨rfl, rfl⟩ | ⟨-, hold⟩
            · exact .inr ⟨a, r, rfl, rfl, rfl, by simpa using hdropped, hrefused, hprocesses, hadmits⟩
            · exact .inl hold
          · have hsame : s.pending.arrive a = s.pending := if_neg hadmits
            exact .inl (hsame ▸ hp)
        · exact .inl hp
  | requestInsideDialog q =>
    obtain ⟨m, hm⟩ := s.receive_eq q.uuid q.sip q.hasToTag
    simp only [step, requestInsideDialog, hm] at hp
    exact .inl hp
  | cancel callId client =>
    simp only [step, cancel] at hp
    split at hp <;> exact .inl hp
  | cancelInsideDialog logsInfo sip client =>
    simp only [step, cancelInsideDialog] at hp
    split at hp <;> exact .inl hp
  | respond transactionId status env =>
    obtain ⟨-, -, hsub⟩ := Kept.findAndRemove_sub k.paired transactionId
    simp only [step, respond] at hp
    split at hp
    · exact .inl hp
    · by_cases hok : (s.setupLegForIncomingRequest transactionId env).2 = true
      · obtain ⟨-, -, -, heq⟩ := k.setupLeg_true hok
        rw [if_pos hok, heq] at hp
        exact .inl (hsub t p hp)
      · rw [if_neg hok, Kept.setupLeg_false hok] at hp
        exact .inl (hsub t p hp)
  | proxy transactionId env =>
    obtain ⟨-, -, hsub⟩ := Kept.findAndRemove_sub k.paired transactionId
    simp only [step, proxy] at hp
    split at hp
    · exact .inl (hsub t p hp)
    · split at hp
      · exact .inl (hsub t p hp)
      · split at hp
        · exact .inl (hsub t p hp)
        · exact .inl (hsub t p hp)
  | routeNewRequestToClient client transactionId =>
    simp only [step, routeNewRequestToClient] at hp
    split at hp <;> exact .inl hp
  | fire handle => exact .inl (k.fire_sub handle t p hp)

/-- A request with which all goes well -/
def taken : Reception := ⟨false, none, false, false⟩

end Drachtio.Pending.Disposal
