import Drachtio.Lib.Run
import Drachtio.Pending.PendingRequests

/-! The two tables of pending requests hold the same objects, and each of these has its one timeout. -/

namespace Drachtio.Pending.PendingRequests

open Machine

variable {c : PendingRequests} {p : PendingRequest} {k t : String} {h : Nat}

/-- Every object is in both tables under its own ids, with its own timeout; nothing else is queued. -/
structure Paired (c : PendingRequests) : Prop where
  txn : ∀ k p, c.txnId2Invite.lookup k = some p →
    p.transactionId = k ∧ c.callId2Invite.lookup p.identifier = some p ∧ c.timeouts.lookup p.handle = some k
  callId : ∀ k p, c.callId2Invite.lookup k = some p → p.identifier = k ∧ c.txnId2Invite.lookup p.transactionId = some p
  timeout : ∀ h t, c.timeouts.lookup h = some t → ∃ p, c.txnId2Invite.lookup t = some p ∧ p.handle = h
  faults : c.faults = []

theorem paired_empty : empty.Paired := ⟨nofun, nofun, nofun, rfl⟩

namespace Paired

theorem add (i : c.Paired) (hid : p.identifier ∉ c.callId2Invite) (htxn : p.transactionId ∉ c.txnId2Invite)
    (hhandle : p.handle ∉ c.timeouts) : (c.add p).Paired := by
  have hcall : (c.add p).callId2Invite = c.callId2Invite.insert p.identifier p := AList.insertNew_of_notMem hid
  have htable : (c.add p).txnId2Invite = c.txnId2Invite.insert p.transactionId p := AList.insertNew_of_notMem htxn
  have htimeouts : (c.add p).timeouts = c.timeouts.insert p.handle p.transactionId := rfl
  refine ⟨fun k q hq => ?_, fun k q hq => ?_, fun h t ht => ?_, i.faults⟩
  · rw [htable] at hq
    rw [hcall, htimeouts, AList.lookup_insert_eq_some, AList.lookup_insert_eq_some]
    rcases AList.lookup_insert_eq_some.mp hq with ⟨rfl, rfl⟩ | ⟨-, hold⟩
    · exact ⟨rfl, .inl ⟨rfl, rfl⟩, .inl ⟨rfl, rfl⟩⟩
    · obtain ⟨hkey, hq', htimer⟩ := i.txn k q hold
      refine ⟨hkey, .inr ⟨fun he => hid ?_, hq'⟩, .inr ⟨fun he => hhandle ?_, htimer⟩⟩
      · exact he ▸ AList.mem_of_lookup hq'
      · exact he ▸ AList.mem_of_lookup htimer
  · rw [hcall] at hq
    rw [htable, AList.lookup_insert_eq_some]
    rcases AList.lookup_insert_eq_some.mp hq with ⟨rfl, rfl⟩ | ⟨-, hold⟩
    · exact ⟨rfl, .inl ⟨rfl, rfl⟩⟩
    · obtain ⟨hkey, hq'⟩ := i.callId k q hold
      exact ⟨hkey, .inr ⟨fun he => htxn (he ▸ AList.mem_of_lookup hq'), hq'⟩⟩
  · rw [htimeouts] at ht
    rw [htable]
    rcases AList.lookup_insert_eq_some.mp ht with ⟨rfl, rfl⟩ | ⟨-, hold⟩
    · exact ⟨p, AList.lookup_insert_eq_some.mpr (.inl ⟨rfl, rfl⟩), rfl⟩
    · obtain ⟨q, hq, hhandle'⟩ := i.timeout h t hold
      exact ⟨q, AList.lookup_insert_eq_some.mpr (.inr ⟨fun he => htxn (he ▸ AList.mem_of_lookup hq), hq⟩), hhandle'⟩

/-- An object leaves both tables and the timer queue. -/
theorem erase (i : c.Paired) (hp : c.txnId2Invite.lookup t = some p) :
    { c with
      txnId2Invite := c.txnId2Invite.erase t
      callId2Invite := c.callId2Invite.erase p.identifier
      timeouts := c.timeouts.erase p.handle }.Paired := by
  obtain ⟨hkey, hcall, htimer⟩ := i.txn t p hp
  refine ⟨fun k q hq => ?_, fun k q hq => ?_, fun h k hk => ?_, i.faults⟩
  · obtain ⟨hne, hq⟩ := AList.lookup_erase_eq_some.mp hq
    obtain ⟨hkey', hcall', htimer'⟩ := i.txn k q hq
    refine ⟨hkey', AList.lookup_erase_eq_some.mpr ⟨fun he => hne ?_, hcall'⟩,
      AList.lookup_erase_eq_some.mpr ⟨fun he => hne ?_, htimer'⟩⟩
    · rw [he, hcall] at hcall'
      rw [← hkey', ← hkey, Option.some.inj hcall']
    · rw [he, htimer] at htimer'
      exact (Option.some.inj htimer').symm
  · obtain ⟨hne, hq⟩ := AList.lookup_erase_eq_some.mp hq
    obtain ⟨hkey', htxn'⟩ := i.callId k q hq
    refine ⟨hkey', AList.lookup_erase_eq_some.mpr ⟨fun he => hne ?_, htxn'⟩⟩
    rw [he, hp] at htxn'
    rw [← hkey', Option.some.inj htxn']
  · obtain ⟨hne, hk⟩ := AList.lookup_erase_eq_some.mp hk
    obtain ⟨q, hq, hhandle⟩ := i.timeout h k hk
    refine ⟨q, AList.lookup_erase_eq_some.mpr ⟨fun he => hne ?_, hq⟩, hhandle⟩
    rw [he, hp] at hq
    rw [← hhandle, Option.some.inj hq]

theorem findAndRemove_eq (i : c.Paired) (hp : c.txnId2Invite.lookup t = some p) :
    c.findAndRemove t false =
      ({ c with
        txnId2Invite := c.txnId2Invite.erase t
        callId2Invite := c.callId2Invite.erase p.identifier
        timeouts := c.timeouts.erase p.handle }, some p) := by
  obtain ⟨-, hcall, htimer⟩ := i.txn t p hp
  have hmem : p.identifier ∈ c.callId2Invite := AList.mem_of_lookup hcall
  have hqueued : p.handle ∈ c.timeouts := AList.mem_of_lookup htimer
  simp only [findAndRemove, hp, hmem, if_true, Bool.false_eq_true, if_false, removeTimeout, hqueued]

/-- A timeout takes its own request out of the tables. -/
theorem fire_eq (i : c.Paired) (ht : c.timeouts.lookup h = some t) :
    ∃ p, c.txnId2Invite.lookup t = some p ∧ p.handle = h ∧
      c.fire h =
        { c with
          txnId2Invite := c.txnId2Invite.erase t
          callId2Invite := c.callId2Invite.erase p.identifier
          timeouts := c.timeouts.erase p.handle } := by
  obtain ⟨p, hp, rfl⟩ := i.timeout h t ht
  have hmem : p.identifier ∈ c.callId2Invite := AList.mem_of_lookup (i.txn t p hp).2.1
  refine ⟨p, hp, rfl, ?_⟩
  simp only [fire, ht, findAndRemove, hp, hmem, if_true]

end Paired

theorem mem_of_findByBranch {logsInfo : Bool} {callId branch : String} {l : List PendingRequest}
    (h : findByBranch logsInfo callId branch l = some (some p)) : p ∈ l := by
  induction l with
  | nil => cases h
  | cons q l ih =>
    unfold findByBranch at h
    split at h
    · cases h
    · split at h
      · split at h
        · cases h
        · split at h
          · rw [← Option.some.inj (Option.some.inj h)]
            exact List.mem_cons_self
          · exact List.mem_cons_of_mem _ (ih h)
      · exact List.mem_cons_of_mem _ (ih h)

theorem mem_of_findInviteByCallIdAndBranch {logsInfo : Bool} {sip : Sip.Message}
    (h : c.findInviteByCallIdAndBranch logsInfo sip = some (some p)) : p ∈ c.requests := by
  unfold findInviteByCallIdAndBranch at h
  split at h
  · cases h
  · exact mem_of_findByBranch h

/-- A new request gets a uuid that no other one has, and its timeout a handle that is not in use. -/
def Fresh (c : PendingRequests) : Op → Prop
  | .arrive a => a.uuid ∉ c.txnId2Invite ∧ a.handle ∉ c.timeouts
  | _ => True

instance (c : PendingRequests) (op : Op) : Decidable (c.Fresh op) :=
  match op with
  | .arrive a => inferInstanceAs (Decidable (a.uuid ∉ c.txnId2Invite ∧ a.handle ∉ c.timeouts))
  | .findAndRemove _ => isTrue trivial
  | .cancel _ => isTrue trivial
  | .fire _ => isTrue trivial

theorem admits_not_retransmission {a : Arrival} (h : c.admits a = true) :
    (PendingRequest.of a).identifier ∉ c.callId2Invite := by
  intro hmem
  have hretrans : c.isRetransmission a.sip = true := decide_eq_true hmem
  simp [admits, hretrans] at h

theorem Paired.step {op : Op} (i : c.Paired) (hfresh : c.Fresh op) : (c.step op).Paired := by
  cases op with
  | arrive a =>
    show (c.arrive a).Paired
    unfold arrive
    split
    · rename_i hadmits
      exact i.add (admits_not_retransmission hadmits) hfresh.1 hfresh.2
    · exact i
  | findAndRemove t =>
    show (c.findAndRemove t false).1.Paired
    cases hp : c.txnId2Invite.lookup t with
    | none =>
      rw [findAndRemove, hp]
      exact i
    | some p =>
      rw [i.findAndRemove_eq hp]
      exact i.erase hp
  | cancel p => exact ⟨i.txn, i.callId, i.timeout, i.faults⟩
  | fire h =>
    show (c.fire h).Paired
    cases ht : c.timeouts.lookup h with
    | none =>
      rw [fire, ht]
      exact i
    | some t =>
      obtain ⟨p, hp, -, heq⟩ := i.fire_eq ht
      rw [heq]
      exact i.erase hp

/-- After any requests, dispositions and timeouts the two tables hold the same objects, each under its
    transaction id and under its transaction identifier; each of them has one queued timeout and there is no
    other one; no assert has failed; and a timeout that fires takes out its own request and no other. -/
theorem tables_paired (ops : List Op) (hops : Meets step Fresh empty ops) :
    let c := run step empty ops
    (∀ p, (∃ k, c.txnId2Invite.lookup k = some p) ↔ ∃ k, c.callId2Invite.lookup k = some p) ∧
    (∀ k p, c.txnId2Invite.lookup k = some p → k = p.transactionId ∧ ∃! h, c.timeouts.lookup h = some p.transactionId) ∧
    (∀ k p, c.callId2Invite.lookup k = some p → k = p.identifier) ∧
    c.faults = [] ∧
    ∀ h t, c.timeouts.lookup h = some t → ∃ p, c.txnId2Invite.lookup t = some p ∧ p.handle = h ∧
      (c.fire h).txnId2Invite = c.txnId2Invite.erase p.transactionId ∧
      (c.fire h).callId2Invite = c.callId2Invite.erase p.identifier := by
  intro c
  have i : c.Paired := run_induction (fun _ _ i hfresh => i.step hfresh) paired_empty hops
  refine ⟨fun p => ⟨?_, ?_⟩, fun k p hp => ?_, fun k p hp => (i.callId k p hp).1.symm, i.faults, fun h t ht => ?_⟩
  · rintro ⟨k, hp⟩
    exact ⟨p.identifier, (i.txn k p hp).2.1⟩
  · rintro ⟨k, hp⟩
    exact ⟨p.transactionId, (i.callId k p hp).2⟩
  · obtain ⟨rfl, -, htimer⟩ := i.txn k p hp
    refine ⟨rfl, p.handle, htimer, fun h hh => ?_⟩
    obtain ⟨q, hq, rfl⟩ := i.timeout h _ hh
    rw [hp] at hq
    rw [Option.some.inj hq]
  · obtain ⟨p, hp, hhandle, heq⟩ := i.fire_eq ht
    obtain ⟨rfl, -, -⟩ := i.txn t p hp
    exact ⟨p, hp, hhandle, by rw [heq], by rw [heq]⟩

/-- An INVITE as it arrives for a connected client. -/
def inviteArrival (callId : Sip.Token) (address : Nat) (uuid : String) (handle : Nat) : Arrival where
  sip := .ofMethod .invite callId 1 [⟨some (.ofString "z")⟩]
  hasToTag := false
  proxied := false
  tryingFails := false
  autoAnswered := false
  routed := false
  client := some 7
  address := address
  uuid := uuid
  handle := handle

/-- Of two INVITEs the first, which is sent twice, is answered, and the second times out. -/
theorem tables_paired_calls :
    let ops := [.arrive (inviteArrival ⟨"a", by decide⟩ 0 "t0" 4), .arrive (inviteArrival ⟨"a", by decide⟩ 1 "t1" 5),
      .arrive (inviteArrival ⟨"b", by decide⟩ 1 "t1" 5), .findAndRemove "t0", .fire 5]
    Meets step Fresh empty ops ∧ (run step empty ops).faults = [] ∧
      ∀ k p, (run step empty ops).callId2Invite.lookup k = some p → k = p.identifier := by
  refine ⟨by decide, ?_⟩
  have h := tables_paired
    [.arrive (inviteArrival ⟨"a", by decide⟩ 0 "t0" 4), .arrive (inviteArrival ⟨"a", by decide⟩ 1 "t1" 5),
      .arrive (inviteArrival ⟨"b", by decide⟩ 1 "t1" 5), .findAndRemove "t0", .fire 5] (by decide)
  exact ⟨h.2.2.2.1, h.2.2.1⟩

end Drachtio.Pending.PendingRequests
