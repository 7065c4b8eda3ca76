import Drachtio.Theorems.Pending.Kept

/-! A pending INVITE that was canceled: which handlers leave it alone afterwards, and which do not. -/

namespace Drachtio.Pending

/-- The request that an event terminates -/
def Event.terminated : Event → Option String
  | .terminate t => some t
  | _ => none

theorem Event.mem_terminated {e : Event} {t : String} : t ∈ e.terminated ↔ e = .terminate t := by
  cases e <;> simp [Event.terminated]

namespace Disposal

open Machine PendingRequests
open Sip (Message)

variable {s s' : Disposal} {op : Op} {p q : PendingRequest} {t uuid : String} {sip : Message} {hasToTag : Bool}

/-- Two ids are of one request: of one message, or of an INVITE that was sent twice. -/
def Alike (s : Disposal) (t t' : String) : Prop := t = t' ∨ ∃ id ∈ s.invites.lookup t, id ∈ s.invites.lookup t'

/-- The second event does not answer, forward or deliver a request that the first one has terminated. -/
def Respects (s : Disposal) (e e' : Event) : Prop := ∀ t t', e = .terminate t → e'.Disposes t' → ¬ s.Alike t t'

/-- An INVITE that was canceled while it was pending is left alone from then on, also when it is sent again. -/
def StaysCanceled (s : Disposal) : Prop := s.log.Pairwise s.Respects

/-- The INVITE was answered with 487 to its CANCEL. -/
def Terminated (s : Disposal) (id : String) : Prop := ∃ e ∈ s.log, ∃ t ∈ e.terminated, id ∈ s.invites.lookup t

instance (s : Disposal) (id : String) : Decidable (s.Terminated id) :=
  inferInstanceAs (Decidable (∃ e ∈ s.log, ∃ t ∈ e.terminated, id ∈ s.invites.lookup t))

/-- A request is refused by the first checks, or it is a new one, and an INVITE among these gets its 100. -/
def LetsIn (s : Disposal) (a : Arrival) (r : Reception) : Prop :=
  r.dropped = false ∧ (r.refused.isSome = true ∨
    s.Processes a ∧ (a.tryingFails = true → r.alwaysSend180 = true ∧ r.sentTrying = true))

instance (s : Disposal) (a : Arrival) (r : Reception) : Decidable (s.LetsIn a r) := instDecidableAnd

/-- The handlers that do not look at m_canceled are not run for an INVITE that was canceled: no second CANCEL finds it,
    no proxy command names it, and it is not routed to a client. It does not come in again once it has left the tables,
    and nothing answers what came in of it before. -/
def Heeds (s : Disposal) : Op → Prop
  | .arrive a r => s.LetsIn a r → ∀ id ∈ inviteName a.sip a.hasToTag, ¬ s.Terminated id
  | .requestInsideDialog q =>
    q.statuses ≠ [] ∨ q.client.isSome = true → ∀ id ∈ inviteName q.sip q.hasToTag, ¬ s.Terminated id
  | .cancel callId _ => ∀ p ∈ s.pending.findInviteByCallId callId, s.pending.isCanceled p = false
  | .cancelInsideDialog logsInfo sip _ =>
    ∀ p ∈ (s.pending.findInviteByCallIdAndBranch logsInfo sip).join, s.pending.isCanceled p = false
  | .respond transactionId status _ =>
    transactionId ∈ s.answering → status.isSome = true → ∀ id ∈ s.invites.lookup transactionId, ¬ s.Terminated id
  | .proxy transactionId _ => ∀ p ∈ s.pending.find transactionId, s.pending.isCanceled p = false
  | .routeNewRequestToClient _ transactionId => ∀ p ∈ s.pending.find transactionId, s.pending.isCanceled p = false
  | .fire _ => True

instance (s : Disposal) (op : Op) : Decidable (s.Heeds op) :=
  match op with
  | .arrive a r => inferInstanceAs (Decidable (s.LetsIn a r → ∀ id ∈ inviteName a.sip a.hasToTag, ¬ s.Terminated id))
  | .requestInsideDialog q =>
    inferInstanceAs (Decidable (q.statuses ≠ [] ∨ q.client.isSome = true →
      ∀ id ∈ inviteName q.sip q.hasToTag, ¬ s.Terminated id))
  | .cancel callId _ =>
    inferInstanceAs (Decidable (∀ p ∈ s.pending.findInviteByCallId callId, s.pending.isCanceled p = false))
  | .cancelInsideDialog logsInfo sip _ =>
    inferInstanceAs (Decidable (∀ p ∈ (s.pending.findInviteByCallIdAndBranch logsInfo sip).join,
      s.pending.isCanceled p = false))
  | .respond transactionId status _ =>
    inferInstanceAs (Decidable (transactionId ∈ s.answering → status.isSome = true →
      ∀ id ∈ s.invites.lookup transactionId, ¬ s.Terminated id))
  | .proxy transactionId _ => inferInstanceAs (Decidable (∀ p ∈ s.pending.find transactionId, s.pending.isCanceled p = false))
  | .routeNewRequestToClient _ transactionId =>
    inferInstanceAs (Decidable (∀ p ∈ s.pending.find transactionId, s.pending.isCanceled p = false))
  | .fire _ => isTrue trivial

/-! ### Messages of one INVITE -/

theorem inviteName_eq {id : String} (h : id ∈ inviteName sip hasToTag) : id = Sip.makeUniqueSipTransactionIdentifier sip := by
  unfold inviteName at h
  split at h
  · exact (Option.some.inj h).symm
  · cases h

theorem terminated_iff {id : String} : s.Terminated id ↔ ∃ t, .terminate t ∈ s.log ∧ id ∈ s.invites.lookup t := by
  constructor
  · rintro ⟨e, he, t, ht, hid⟩
    exact ⟨t, Event.mem_terminated.mp ht ▸ he, hid⟩
  · rintro ⟨t, ht, hid⟩
    exact ⟨_, ht, t, rfl, hid⟩

theorem inviteName_of_admits {a : Arrival} (h : s.pending.admits a = true) :
    inviteName a.sip a.hasToTag = inviteName a.sip false := by
  by_cases hinvite : a.sip.request = some .invite
  · have htag : a.hasToTag = false := by
      simp only [admits, hinvite, beq_self_eq_true, Bool.true_and, Bool.and_eq_true, Bool.not_eq_true'] at h
      exact h.1.2
    rw [htag]
  · simp [inviteName, hinvite]

theorem tryingFails_of_admits {a : Arrival} {id : String} (h : s.pending.admits a = true)
    (hid : id ∈ inviteName a.sip a.hasToTag) : ¬ a.tryingFails = true := by
  unfold inviteName at hid
  split at hid
  · rename_i hinvite
    simp only [admits, hinvite.1, beq_self_eq_true, Bool.true_and, Bool.and_eq_true, Bool.not_eq_true'] at h
    simp [h]
  · cases hid

/-- No terminated request is the same as the one with this id, when that was not terminated by itself, just when its
    INVITE was not. -/
theorem apart_iff (hlookup : ∀ t, .terminate t ∈ s.log → s'.invites.lookup t = s.invites.lookup t)
    (hnot : .terminate uuid ∉ s.log) :
    (∀ t, .terminate t ∈ s.log → ¬ s'.Alike t uuid) ↔ ∀ id ∈ s'.invites.lookup uuid, ¬ s.Terminated id := by
  constructor
  · intro h id hid hterminated
    obtain ⟨t, ht, hid'⟩ := terminated_iff.mp hterminated
    exact h t ht (.inr ⟨id, (hlookup t ht).symm ▸ hid', hid⟩)
  · rintro h t ht (rfl | ⟨id, hid, hid'⟩)
    · exact hnot ht
    · exact h id hid' (terminated_iff.mpr ⟨t, ht, hlookup t ht ▸ hid⟩)

/-- Something is sent for an INVITE just when it is let in. -/
theorem letsIn_iff {a : Arrival} {r : Reception} {id : String} (hid : id ∈ inviteName a.sip a.hasToTag) :
    s.LetsIn a r ↔ ∃ e ∈ s.arriveEvents a r, e.Disposes a.uuid := by
  have hinvite : a.sip.request = some .invite := by
    unfold inviteName at hid
    split at hid
    · rename_i h
      exact h.1
    · cases hid
  unfold LetsIn arriveEvents
  cases r.dropped with
  | true => simp
  | false =>
    cases r.refused with
    | some status => simp [Event.Disposes]
    | none =>
      by_cases hprocesses : s.Processes a
      · cases htrying : a.tryingFails with
        | false =>
          refine iff_of_true ⟨rfl, .inr ⟨hprocesses, nofun⟩⟩ ⟨.respond a.uuid 100, ?_, rfl⟩
          simp only [Bool.false_eq_true, if_false, if_pos hprocesses, trying, hinvite, htrying]
          cases r.alwaysSend180 <;> simp
        | true =>
          simp only [Bool.false_eq_true, if_false, if_pos hprocesses, trying, newRequestEvents, hinvite, htrying]
          cases r.alwaysSend180 <;> cases r.sentTrying <;> simp [hprocesses, Event.Disposes]
      · simp [hprocesses]

theorem arrive_lookup {a : Arrival} {r : Reception} (hunused : a.uuid ∉ s.invites)
    (h : ∃ e ∈ s.arriveEvents a r, e.Disposes a.uuid) :
    (s.step (.arrive a r)).invites.lookup a.uuid = inviteName a.sip a.hasToTag := by
  have hname : (s.receive a.uuid a.sip a.hasToTag).invites.lookup a.uuid = inviteName a.sip a.hasToTag :=
    (receive_lookup hunused a.uuid).trans (if_pos rfl)
  obtain ⟨e, he, -⟩ := h
  unfold arriveEvents at he
  simp only [step, arrive]
  split at he
  · cases he
  · rename_i hdropped
    rw [if_neg hdropped]
    cases hrefused : r.refused with
    | some status => exact hname
    | none =>
      rw [hrefused] at he
      dsimp only at he ⊢
      split at he
      · rename_i hprocesses
        rw [if_pos hprocesses]
        exact hname
      · cases he

/-- A step leaves alone what was terminated before it. -/
def Spares (s : Disposal) (op : Op) : Prop :=
  ∀ t, .terminate t ∈ s.log → ∀ e ∈ s.events op, ∀ t', e.Disposes t' → ¬ (s.step op).Alike t t'

theorem spares_iff (htarget : s.target op = some uuid) :
    s.Spares op ↔ ((∃ e ∈ s.events op, e.Disposes uuid) → ∀ t, .terminate t ∈ s.log → ¬ (s.step op).Alike t uuid) := by
  constructor
  · rintro h ⟨e, he, hdisposes⟩ t ht
    exact h t ht e he uuid hdisposes
  · intro h t ht e he t' hdisposes
    obtain rfl := Option.some.inj (htarget.symm.trans (events_target he hdisposes))
    exact h ⟨e, he, hdisposes⟩ t ht

theorem spares_of_target_eq_none (htarget : s.target op = none) : s.Spares op := by
  intro t ht e he t' hdisposes
  exact nomatch htarget.symm.trans (events_target he hdisposes)

theorem spares_of_events_eq_nil (hevents : s.events op = []) : s.Spares op := by
  intro t ht e he
  rw [hevents] at he
  cases he

/-- The messages that are pending are known, and none of them is the same INVITE as a terminated one but itself. -/
structure Traced (s : Disposal) : Prop where
  kept : s.Kept
  named : ∀ k p, s.pending.txnId2Invite.lookup k = some p → s.invites.lookup k = inviteName p.sip false
  sole : ∀ k p t, s.pending.txnId2Invite.lookup k = some p → .terminate t ∈ s.log → s.Alike t k → t = k

theorem traced_empty : empty.Traced where
  kept := kept_empty
  named _ _ h := nomatch (h : none = some _)
  sole _ _ _ h := nomatch (h : none = some _)

namespace Traced

/-- No INVITE is pending twice. -/
theorem unique (i : s.Traced) {k k' : String} (hp : s.pending.txnId2Invite.lookup k = some p)
    (hq : s.pending.txnId2Invite.lookup k' = some q) (h : s.Alike k k') : k = k' := by
  rcases h with rfl | ⟨id, hid, hid'⟩
  · rfl
  · rw [i.named k p hp] at hid
    rw [i.named k' q hq] at hid'
    obtain ⟨hkey, hcall, -⟩ := i.kept.paired.txn k p hp
    obtain ⟨hkey', hcall', -⟩ := i.kept.paired.txn k' q hq
    have hidentifier : p.identifier = q.identifier := (inviteName_eq hid).symm.trans (inviteName_eq hid')
    rw [hidentifier, hcall'] at hcall
    rw [← hkey, ← hkey', Option.some.inj hcall]

/-- Nothing that is the same as a pending request was terminated, just when its flag is not set. -/
theorem pending_apart (i : s.Traced) (hp : s.pending.txnId2Invite.lookup t = some p) :
    (∀ t', .terminate t' ∈ s.log → ¬ s.Alike t' t) ↔ s.pending.isCanceled p = false := by
  rw [i.kept.canceled_iff hp]
  constructor
  · exact fun h hmem => h t hmem (.inl rfl)
  · exact fun h t' ht' halike => h (i.sole t p t' hp ht' halike ▸ ht')

theorem spares_pending (i : s.Traced) (hreceived : op.received = none) (hfresh : s.Fresh op)
    (hp : s.pending.txnId2Invite.lookup t = some p) (htarget : s.target op = some t) :
    s.Spares op ↔ ((∃ e ∈ s.events op, e.Disposes t) → s.pending.isCanceled p = false) := by
  have hlookup : ∀ t, (s.step op).invites.lookup t = s.invites.lookup t :=
    fun t => step_lookup hfresh (hreceived ▸ Option.some_ne_none t |>.symm)
  rw [spares_iff htarget, ← i.pending_apart hp]
  simp only [Alike, hlookup]

theorem spares_cancel (i : s.Traced) (found : Option PendingRequest) (hfound : ∀ p ∈ found, p ∈ s.pending.requests)
    (hreceived : op.received = none) (hfresh : s.Fresh op) (htarget : s.target op = found.map (·.transactionId))
    (hevents : ∃ client, s.events op = cancelEvents client found) :
    s.Spares op ↔ ∀ p ∈ found, s.pending.isCanceled p = false := by
  cases found with
  | none => exact iff_of_true (spares_of_target_eq_none htarget) nofun
  | some p =>
    obtain ⟨client, hevents⟩ := hevents
    have hp := lookup_of_mem_requests i.kept.paired (hfound p rfl)
    rw [i.spares_pending hreceived hfresh hp htarget, hevents]
    constructor
    · rintro h _ ⟨⟩
      exact h ⟨.terminate p.transactionId, List.mem_append_right _ (by simp), rfl⟩
    · exact fun h _ => h p rfl

/-- A handler that is run for a pending request by its id, and sends nothing when it does not find it -/
theorem spares_named (i : s.Traced) (hreceived : op.received = none) (hfresh : s.Fresh op)
    (hnone : s.pending.txnId2Invite.lookup t = none → s.events op = [])
    (hsome : ∀ p, s.pending.txnId2Invite.lookup t = some p → s.target op = some t ∧ ∃ e ∈ s.events op, e.Disposes t) :
    s.Spares op ↔ ∀ p ∈ s.pending.find t, s.pending.isCanceled p = false := by
  cases hp : s.pending.txnId2Invite.lookup t with
  | none =>
    refine iff_of_true (spares_of_events_eq_nil (hnone hp)) fun p hfound => ?_
    cases hp.symm.trans hfound
  | some p =>
    obtain ⟨htarget, hevent⟩ := hsome p hp
    rw [i.spares_pending hreceived hfresh hp htarget]
    constructor
    · intro h q hfound
      rw [← Option.some.inj (hp.symm.trans hfound)]
      exact h hevent
    · exact fun h _ => h p hp

/-- A step leaves alone what was terminated just when it heeds that. -/
theorem spares_iff_heeds (i : s.Traced) (hfresh : s.Fresh op) : s.Spares op ↔ s.Heeds op := by
  cases op with
  | arrive a r =>
    have hlookup : ∀ t, .terminate t ∈ s.log → (s.step (.arrive a r)).invites.lookup t = s.invites.lookup t :=
      fun t ht => step_lookup hfresh fun h => (hfresh.unused h).log _ ht rfl
    have hapart := apart_iff hlookup fun h => hfresh.1.log _ h rfl
    rw [spares_iff rfl]
    -- It is known which INVITE the message is just when something is sent for it.
    constructor
    · intro h hlets id hid
      have hevent := (letsIn_iff hid).mp hlets
      exact hapart.mp (h hevent) id (arrive_lookup hfresh.1.invites hevent ▸ hid)
    · intro h hevent
      refine hapart.mpr fun id hid => ?_
      rw [arrive_lookup hfresh.1.invites hevent] at hid
      exact h ((letsIn_iff hid).mpr hevent) id hid
  | requestInsideDialog q =>
    have hlookup : ∀ t, .terminate t ∈ s.log → (s.step (.requestInsideDialog q)).invites.lookup t = s.invites.lookup t :=
      fun t ht => step_lookup hfresh fun h => (hfresh.unused h).log _ ht rfl
    have hname : (s.step (.requestInsideDialog q)).invites.lookup q.uuid = inviteName q.sip q.hasToTag :=
      (receive_lookup hfresh.invites q.uuid).trans (if_pos rfl)
    rw [spares_iff rfl, apart_iff hlookup fun h => hfresh.log _ h rfl, hname]
    refine imp_congr ?_ Iff.rfl
    constructor
    · rintro ⟨e, he, -⟩
      rcases List.mem_append.mp he with he | he
      · exact .inl fun hnil => by simp [hnil] at he
      · obtain ⟨client, hclient, -⟩ := List.mem_map.mp he
        exact .inr (Option.isSome_iff_exists.mpr ⟨client, Option.mem_toList.mp hclient⟩)
    · rintro (hstatuses | hclient)
      · obtain ⟨status, hstatus⟩ := List.exists_mem_of_ne_nil _ hstatuses
        exact ⟨.respond q.uuid status, List.mem_append_left _ (List.mem_map_of_mem hstatus), rfl⟩
      · obtain ⟨client, hclient⟩ := Option.isSome_iff_exists.mp hclient
        refine ⟨.deliver client q.uuid, List.mem_append_right _ (List.mem_map_of_mem ?_), rfl⟩
        exact Option.mem_toList.mpr hclient
  | cancel callId client =>
    exact i.spares_cancel _ (fun p hp => List.mem_of_find?_eq_some hp) rfl hfresh rfl ⟨client, rfl⟩
  | cancelInsideDialog logsInfo sip client =>
    cases hfound : s.pending.findInviteByCallIdAndBranch logsInfo sip with
    | none =>
      have htarget : s.target (.cancelInsideDialog logsInfo sip client) = none := by
        simp only [target, hfound, Option.join_none, Option.map_none]
      refine iff_of_true (spares_of_target_eq_none htarget) fun p hp => ?_
      rw [hfound] at hp
      cases hp
    | some found =>
      have htarget : s.target (.cancelInsideDialog logsInfo sip client) = found.map (·.transactionId) := by
        simp only [target, hfound, Option.join_some]
      have hevents : s.events (.cancelInsideDialog logsInfo sip client) = cancelEvents client found := by
        simp only [events, hfound]
      rw [Heeds, hfound, Option.join_some]
      exact i.spares_cancel found (fun p hp => mem_of_findInviteByCallIdAndBranch (hp ▸ hfound)) rfl hfresh htarget
        ⟨client, hevents⟩
  | respond transactionId status env =>
    by_cases hmem : transactionId ∈ s.answering
    · have hlookup : ∀ t, (s.step (.respond transactionId status env)).invites.lookup t = s.invites.lookup t :=
        fun t => step_lookup hfresh (Option.some_ne_none t).symm
      have hevents : s.events (.respond transactionId status env) = status.toList.map (Event.respond transactionId) :=
        if_pos (.inl hmem)
      rw [spares_iff rfl, apart_iff (fun t _ => hlookup t) (i.kept.answering _ hmem).2, hlookup, hevents]
      cases status with
      | none =>
        refine iff_of_true (fun hevent => ?_) fun _ hstatus => ?_
        · obtain ⟨e, he, -⟩ := hevent
          cases he
        · cases hstatus
      | some status =>
        constructor
        · exact fun h _ _ => h ⟨.respond transactionId status, List.mem_singleton.mpr rfl, rfl⟩
        · exact fun h _ => h hmem rfl
    · -- setupLegForIncomingRequest looks at m_canceled.
      refine iff_of_true ?_ fun h => absurd h hmem
      by_cases hok : (s.setupLegForIncomingRequest transactionId env).2 = true
      · obtain ⟨p, hp, hnot, -⟩ := i.kept.setupLeg_true hok
        exact (i.spares_pending rfl hfresh hp rfl).mpr fun _ => (i.kept.canceled_iff hp).mpr hnot
      · exact spares_of_events_eq_nil (if_neg (not_or.mpr ⟨hmem, hok⟩))
  | proxy transactionId env =>
    refine i.spares_named rfl hfresh (fun hp => ?_) fun p hp => ⟨rfl, ?_⟩
    · simp only [events, findAndRemove_found, hp, Option.isSome_none, Bool.false_eq_true, if_false]
    · simp only [events, findAndRemove_found, hp, Option.isSome_some, if_true]
      -- A proxy command is answered with 483 or 500, or the request is forwarded.
      split
      · exact ⟨_, List.mem_singleton.mpr rfl, rfl⟩
      · split
        · exact ⟨_, List.mem_singleton.mpr rfl, rfl⟩
        · exact ⟨_, List.mem_singleton.mpr rfl, rfl⟩
  | routeNewRequestToClient client transactionId =>
    refine i.spares_named rfl hfresh (fun hp => ?_) fun p hp => ?_
    · simp only [events, find, hp, Option.toList_none, List.map_nil]
    · have hkey := (i.kept.paired.txn _ p hp).1
      simp only [target, events, find, hp, Option.map_some, hkey]
      exact ⟨trivial, _, List.mem_singleton.mpr rfl, hkey⟩
  | fire handle => exact iff_of_true (spares_of_target_eq_none rfl) trivial

end Traced

theorem Traced.step (i : s.Traced) (hfresh : s.Fresh op) (hheeds : s.Heeds op) : (s.step op).Traced := by
  have hpending : ∀ {k p}, s.pending.txnId2Invite.lookup k = some p → op.received ≠ some k :=
    fun hp h => (hfresh.unused h).pending (AList.mem_of_lookup hp)
  have hlogged : ∀ {t}, .terminate t ∈ s.log → op.received ≠ some t := fun ht h => (hfresh.unused h).log _ ht rfl
  refine ⟨i.kept.step hfresh, fun k p hp => ?_, fun k p t hp ht halike => ?_⟩
  · rcases step_pending i.kept hfresh hp with hold | ⟨a, r, rfl, rfl, rfl, hdropped, hrefused, hprocesses, hadmits⟩
    · rw [step_lookup hfresh (hpending hold)]
      exact i.named k p hold
    · exact (arrive_named hfresh hdropped hrefused hprocesses).trans (inviteName_of_admits hadmits)
  · rw [step_log, List.mem_append] at ht
    rcases ht with ht | ht
    · rcases step_pending i.kept hfresh hp with hold | ⟨a, r, rfl, rfl, rfl, hdropped, hrefused, hprocesses, hadmits⟩
      · rw [Alike, step_lookup hfresh (hlogged ht), step_lookup hfresh (hpending hold)] at halike
        exact i.sole k p t hold ht halike
      · rcases halike with rfl | ⟨id, hid, hid'⟩
        · rfl
        · rw [step_lookup hfresh (hlogged ht)] at hid
          rw [arrive_named hfresh hdropped hrefused hprocesses] at hid'
          have hlets : s.LetsIn a r := ⟨hdropped, .inr ⟨hprocesses, fun hfails => ?_⟩⟩
          · exact absurd (terminated_iff.mpr ⟨t, ht, hid⟩) (hheeds hlets id hid')
          · exact absurd hfails (tryingFails_of_admits hadmits hid')
    · obtain ⟨hreceived, q, hq, rfl⟩ := terminate_mem_events ht
      rcases step_pending i.kept hfresh hp with hold | ⟨a, r, rfl, -⟩
      · have hlookup : ∀ t, (s.step op).invites.lookup t = s.invites.lookup t :=
          fun t => step_lookup hfresh (hreceived ▸ nofun)
        rw [Alike, hlookup, hlookup] at halike
        exact i.unique (lookup_of_mem_requests i.kept.paired hq) hold halike
      · cases hreceived

/-! ### Runs -/

/-- The events of one step respect each other: only the last one can terminate a request. -/
theorem events_respect (s s' : Disposal) (op : Op) : (s.events op).Pairwise s'.Respects := by
  rcases s.events_cases op with ⟨client, found, hevents, -⟩ | hnone
  · rw [hevents]
    cases found with
    | none => exact List.pairwise_singleton _ _
    | some p => cases client <;> simp [cancelEvents, Respects, Event.Disposes]
  · refine List.pairwise_iff_getElem.mpr fun m n hm hn hlt t t' heq => ?_
    exact absurd (heq ▸ List.getElem_mem hm) (hnone t)

theorem staysCanceled_step (hfresh : s.Fresh op) : (s.step op).StaysCanceled ↔ s.StaysCanceled ∧ s.Spares op := by
  have hrespects : ∀ {e e' : Event}, e ∈ s.log → e' ∈ s.log → ((s.step op).Respects e e' ↔ s.Respects e e') := by
    intro e e' he he'
    refine forall_congr' fun t => forall_congr' fun t' => imp_congr_right fun heq => imp_congr_right fun hdisposes => ?_
    have ht : op.received ≠ some t := fun h => (hfresh.unused h).log (.terminate t) (heq ▸ he) rfl
    have ht' : op.received ≠ some t' := fun h => (hfresh.unused h).log _ he' hdisposes
    rw [Alike, Alike, step_lookup hfresh ht, step_lookup hfresh ht']
  rw [StaysCanceled, step_log, List.pairwise_append, List.Pairwise.iff_of_mem hrespects, StaysCanceled]
  refine and_congr_right fun _ => ⟨?_, ?_⟩
  · rintro ⟨-, h⟩ t ht e he t' hdisposes
    exact h _ ht e he t t' rfl hdisposes
  · intro h
    refine ⟨events_respect s (s.step op) op, ?_⟩
    rintro _ ht e he t t' rfl hdisposes
    exact h t ht e he t' hdisposes

theorem staysCanceled_of_run {ops : List Op} (hfresh : Meets step Fresh s ops) (h : (run step s ops).StaysCanceled) :
    s.StaysCanceled := by
  induction ops generalizing s with
  | nil => exact h
  | cons op ops ih => exact ((staysCanceled_step hfresh.1).mp (ih hfresh.2 h)).1

/-- In every run a pending INVITE that was answered with 487 to its CANCEL is not answered again, forwarded or delivered,
    in no message in which it comes, just when no handler that ignores m_canceled was run for it, it did not come in again,
    and nothing was answered in which it had come in before. -/
theorem canceled_iff_heeded (ops : List Op) (hfresh : Meets step Fresh empty ops) :
    (run step empty ops).StaysCanceled ↔ Meets step Heeds empty ops := by
  suffices h : ∀ s : Disposal, s.Traced → s.StaysCanceled → ∀ ops, Meets step Fresh s ops →
      ((run step s ops).StaysCanceled ↔ Meets step Heeds s ops) from
    h empty traced_empty List.Pairwise.nil ops hfresh
  intro s i hlog ops hfresh
  induction ops generalizing s with
  | nil => exact iff_of_true hlog trivial
  | cons op ops ih =>
    have hiff := @staysCanceled_step s op hfresh.1
    rw [i.spares_iff_heeds hfresh.1] at hiff
    rw [run_cons, meets_cons]
    constructor
    · intro h
      have hstep := staysCanceled_of_run hfresh.2 h
      have hheeds := (hiff.mp hstep).2
      exact ⟨hheeds, (ih _ (i.step hfresh.1 hheeds) hstep hfresh.2).mp h⟩
    · rintro ⟨hheeds, hrest⟩
      exact (ih _ (i.step hfresh.1 hheeds) (hiff.mpr ⟨hlog, hheeds⟩) hfresh.2).mpr hrest

/-- An application answers an INVITE that was canceled, and nothing goes out. -/
theorem canceled_answered :
    let ops := [.arrive (inviteArrival ⟨"a", by decide⟩ 0 "t0" 4) taken, .cancel "a" (some 7),
      .respond "t0" (some 200) ⟨false, false⟩]
    Meets step Heeds empty ops ∧ (run step empty ops).StaysCanceled := by
  intro ops
  have hfresh : Meets step Fresh empty ops :=
    ⟨⟨⟨by decide, by decide, by decide, nofun⟩, by decide, nofun⟩, trivial, trivial, trivial⟩
  have hheeds : Meets step Heeds empty ops := by decide
  exact ⟨hheeds, (canceled_iff_heeded ops hfresh).mpr hheeds⟩

/-- The answer has taken it out of the tables, so that a copy of it gets a 100 and goes to an application. -/
example : ¬ Meets step Heeds empty
    [.arrive (inviteArrival ⟨"a", by decide⟩ 0 "t0" 4) taken, .cancel "a" (some 7), .respond "t0" (some 200) ⟨false, false⟩,
      .arrive (inviteArrival ⟨"a", by decide⟩ 1 "t1" 5) taken] := by decide

/-- An INVITE is forwarded by a proxy command that was under way when it was canceled. -/
theorem canceled_forwarded :
    ∃ ops, Meets step Fresh empty ops ∧ ¬ (run step empty ops).StaysCanceled := by
  refine ⟨[.arrive (inviteArrival ⟨"a", by decide⟩ 0 "t0" 4) taken, .cancel "a" (some 7), .proxy "t0" ⟨false, 1⟩], ?_, ?_⟩
  · exact ⟨⟨⟨by decide, by decide, by decide, nofun⟩, by decide, nofun⟩, trivial, trivial, trivial⟩
  · intro h
    have hlog : (run step empty [.arrive (inviteArrival ⟨"a", by decide⟩ 0 "t0" 4) taken, .cancel "a" (some 7),
        .proxy "t0" ⟨false, 1⟩]).log =
      [.respond "t0" 100, .deliver 7 "t0", .passCancel 7 "t0", .toCancel 200, .terminate "t0", .forward "t0"] := by decide
    rw [StaysCanceled, hlog] at h
    have hlast : [Event.terminate "t0", .forward "t0"].Pairwise _ := h.sublist (List.suffix_append [_, _, _, _] _).sublist
    exact (List.pairwise_cons.mp hlast).1 (.forward "t0") List.mem_cons_self "t0" "t0" rfl rfl (.inl rfl)

end Disposal

end Drachtio.Pending
