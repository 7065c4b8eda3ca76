import Drachtio.Dialog.TimerD
import Mathlib.Data.List.Count

/-! What the timer D handler does for an INVITE is done for that INVITE as long as no queued timer D of another one has
    the same transaction address, or the same Call-ID and CSeq. Every entry of either map then belongs to an INVITE whose
    timer is queued. -/

namespace Drachtio.Dialog

open Machine

namespace TimerDHandler

variable {h : TimerDHandler} {invite : Orq} {key : String}

/-- With an INVITE in one map at most, it is gone from both. -/
theorem drop_eq (hsingle : key ∈ h.mapCallIdAndCSeq2Invite → invite ∉ h.mapInvite2Ack) :
    h.drop invite key =
      ({ h with
          mapCallIdAndCSeq2Invite := h.mapCallIdAndCSeq2Invite.erase key
          mapInvite2Ack := h.mapInvite2Ack.erase invite },
        ((h.mapInvite2Ack.lookup invite).map .destroyed).toList) := by
  unfold drop
  by_cases hkey : key ∈ h.mapCallIdAndCSeq2Invite
  · rw [if_pos hkey, AList.lookup_eq_none.mpr (hsingle hkey), AList.erase_of_notMem (hsingle hkey)]
    rfl
  · rw [if_neg hkey, AList.erase_of_notMem hkey]
    cases hack : h.mapInvite2Ack.lookup invite with
    | none => rw [AList.erase_of_notMem (AList.lookup_eq_none.mp hack)]; rfl
    | some ack => rfl

end TimerDHandler

namespace Acking

/-- The ACK has been supplied for the INVITE and is not destroyed. -/
def Held (s : Acking) (i : OutgoingInvite) (a : OutgoingAck) : Prop := (i, a) ∈ s.supplied ∧ a ∉ s.destroyed

/-- No other INVITE that a queued timer D is for has the address, or the Call-ID and CSeq. -/
def Apart (s : Acking) (i : OutgoingInvite) : Prop :=
  ∀ j ∈ s.handler.timers, j ≠ i → j.orq ≠ i.orq ∧ j.callIdAndCSeq ≠ i.callIdAndCSeq

/-- The inputs that the handler is made for. An ACK is for the INVITE that waits under its Call-ID and CSeq, and a
    re-INVITE, whose transaction is destroyed, gets no further response while its ACK is held. -/
def Expected (s : Acking) : Op → Prop
  | .response i _ _ => (i ∈ s.ended → ∀ a, ¬ s.Held i a) ∧ (i ∉ s.ended → s.Apart i)
  | .ack i _ callId cseq =>
    s.Apart i ∧ s.handler.mapCallIdAndCSeq2Invite.lookup (combineCallIdAndCSeq callId cseq) = some i.orq
  | .timerD _ => True
  | .endDialog i => i ∉ s.ended → s.Apart i

/-- An ACK has been destroyed once, or it will be by the timer of its INVITE. -/
def Once (s : Acking) (i : OutgoingInvite) (a : OutgoingAck) : Prop :=
  s.destroyed.count a = 1 ∨ a ∉ s.destroyed ∧ i ∈ s.handler.timers ∧ s.handler.mapInvite2Ack.lookup i.orq = some a

/-- What a step does right. -/
structure Kept (s : Acking) (op : Op) : Prop where
  /-- An INVITE is in at most one of the maps. -/
  single : ∀ key invite, (s.step op).handler.mapCallIdAndCSeq2Invite.lookup key = some invite →
    invite ∉ (s.step op).handler.mapInvite2Ack
  asserts : .assertFailed ∉ s.effects op
  /-- A response has the ACK of its INVITE sent again, if there is one, and no other. -/
  resends : ∀ i ok found, op = .response i ok found → ∀ a, .retransmitted a ∈ s.effects op ↔ s.Held i a
  /-- A timer destroys no ACK of another INVITE. -/
  expires : ∀ i a, op = .timerD i → .destroyed a ∈ s.effects op → (i, a) ∈ s.supplied
  once : ∀ p ∈ (s.step op).supplied, (s.step op).Once p.1 p.2

/-- Every entry of a map belongs to an INVITE whose timer is queued, and those INVITEs are told apart. -/
structure Tracked (s : Acking) : Prop where
  nodup : s.handler.timers.Nodup
  apart : ∀ i ∈ s.handler.timers, s.Apart i
  waiting : ∀ key invite, s.handler.mapCallIdAndCSeq2Invite.lookup key = some invite →
    ∃ i ∈ s.handler.timers, i.callIdAndCSeq = key ∧ i.orq = invite
  acked : ∀ invite a, s.handler.mapInvite2Ack.lookup invite = some a →
    ∃ i ∈ s.handler.timers, i.orq = invite ∧ s.Held i a
  single : ∀ key invite, s.handler.mapCallIdAndCSeq2Invite.lookup key = some invite → invite ∉ s.handler.mapInvite2Ack
  /-- A timer that is queued for a live transaction has an entry to remove. -/
  known : ∀ i ∈ s.handler.timers, i ∉ s.ended → i.insideDialog = false ∧
    (i.callIdAndCSeq ∈ s.handler.mapCallIdAndCSeq2Invite ∨ i.orq ∈ s.handler.mapInvite2Ack)
  once : ∀ p ∈ s.supplied, s.Once p.1 p.2
  supplied : ∀ a ∈ s.destroyed, ∃ i, (i, a) ∈ s.supplied
  serial : ∀ p ∈ s.supplied, p.2.serial < s.supplied.length
  unique : ∀ p ∈ s.supplied, ∀ q ∈ s.supplied, p.2 = q.2 → p = q

section
variable {s : Acking} {i j : OutgoingInvite} {a : OutgoingAck} {key : String} {invite : Orq}

theorem Apart.eq_of_orq (h : s.Apart i) (hj : j ∈ s.handler.timers) (horq : j.orq = i.orq) : j = i := by
  by_contra hne
  exact (h j hj hne).1 horq

theorem Apart.eq_of_key (h : s.Apart i) (hj : j ∈ s.handler.timers) (hkey : j.callIdAndCSeq = i.callIdAndCSeq) : j = i := by
  by_contra hne
  exact (h j hj hne).2 hkey

namespace Tracked

theorem empty : Tracked empty where
  nodup := List.nodup_nil
  apart _ hi := absurd hi List.not_mem_nil
  waiting _ _ h := nomatch h
  acked _ _ h := nomatch h
  single _ _ h := nomatch h
  known _ hi := absurd hi List.not_mem_nil
  once _ hp := absurd hp List.not_mem_nil
  supplied _ ha := absurd ha List.not_mem_nil
  serial _ hp := absurd hp List.not_mem_nil
  unique _ hp := absurd hp List.not_mem_nil

/-- The entry under the key of an INVITE is its own. -/
theorem eq_of_waiting (hs : s.Tracked) (hi : s.Apart i)
    (h : s.handler.mapCallIdAndCSeq2Invite.lookup i.callIdAndCSeq = some invite) :
    i ∈ s.handler.timers ∧ invite = i.orq := by
  obtain ⟨j, hj, hkey, horq⟩ := hs.waiting _ _ h
  obtain rfl := hi.eq_of_key hj hkey
  exact ⟨hj, horq.symm⟩

/-- The ACK under the address of an INVITE is its own, and the one that is held for it. -/
theorem held_iff (hs : s.Tracked) (hi : s.Apart i) : s.Held i a ↔ s.handler.mapInvite2Ack.lookup i.orq = some a := by
  constructor
  · rintro ⟨hsupplied, halive⟩
    rcases hs.once _ hsupplied with hcount | ⟨-, -, hack⟩
    · exact absurd (List.count_pos_iff.mp (hcount ▸ Nat.one_pos)) halive
    · exact hack
  · intro hack
    obtain ⟨j, hj, horq, hheld⟩ := hs.acked _ _ hack
    obtain rfl := hi.eq_of_orq hj horq
    exact hheld

theorem drop_eq (hs : s.Tracked) (hi : s.Apart i) {timers : List OutgoingInvite} :
    TimerDHandler.drop i.orq i.callIdAndCSeq { s.handler with timers := timers } =
      (⟨s.handler.mapCallIdAndCSeq2Invite.erase i.callIdAndCSeq, s.handler.mapInvite2Ack.erase i.orq, timers⟩,
        ((s.handler.mapInvite2Ack.lookup i.orq).map .destroyed).toList) := by
  refine TimerDHandler.drop_eq fun hkey => ?_
  obtain ⟨invite, hwaiting⟩ := Option.isSome_iff_exists.mp (AList.lookup_isSome.mpr hkey)
  obtain ⟨-, rfl⟩ := hs.eq_of_waiting hi hwaiting
  exact hs.single _ _ hwaiting

/-- An INVITE that no timer is queued for has no entry. -/
theorem notMem (hs : s.Tracked) (hi : s.Apart i) (hfresh : i ∉ s.handler.timers) :
    i.callIdAndCSeq ∉ s.handler.mapCallIdAndCSeq2Invite ∧ i.orq ∉ s.handler.mapInvite2Ack := by
  constructor
  · intro hkey
    obtain ⟨invite, hwaiting⟩ := Option.isSome_iff_exists.mp (AList.lookup_isSome.mpr hkey)
    exact hfresh (hs.eq_of_waiting hi hwaiting).1
  · intro horq
    obtain ⟨a, hack⟩ := Option.isSome_iff_exists.mp (AList.lookup_isSome.mpr horq)
    obtain ⟨j, hj, horq', -⟩ := hs.acked _ _ hack
    exact hfresh (hi.eq_of_orq hj horq' ▸ hj)

/-! ### Steps -/

/-- An INVITE gets its entry and its timer. -/
theorem addInvite (hs : s.Tracked) (hi : s.Apart i) (hfresh : i ∉ s.handler.timers) {ended : List OutgoingInvite}
    (hended : ∀ j ∈ s.ended, j ∈ ended) (hinside : i ∉ ended → i.insideDialog = false) :
    Tracked { s with handler := (s.handler.addInvite i).1, ended := ended } ∧ (s.handler.addInvite i).2 = [] := by
  obtain ⟨hkey, horq⟩ := hs.notMem hi hfresh
  have hmem : ∀ j, j ∈ s.handler.timers ++ [i] ↔ j ∈ s.handler.timers ∨ j = i := fun j => by
    rw [List.mem_append, List.mem_singleton]
  refine ⟨?_, if_neg hkey⟩
  have hlookup : ∀ k invite, (s.handler.mapCallIdAndCSeq2Invite.insertNew i.callIdAndCSeq i.orq).lookup k = some invite →
      (k = i.callIdAndCSeq ∧ i.orq = invite) ∨ s.handler.mapCallIdAndCSeq2Invite.lookup k = some invite := by
    intro k invite h
    rw [AList.insertNew_of_notMem hkey, AList.lookup_insert_eq_some] at h
    exact h.imp_right And.right
  constructor
  case nodup => exact List.nodup_append.mpr ⟨hs.nodup, List.nodup_singleton i, fun a ha b hb => by
    rintro rfl
    exact hfresh (List.mem_singleton.mp hb ▸ ha)⟩
  case apart =>
    intro a ha b hb hne
    rcases (hmem a).mp ha with hold | rfl
    · rcases (hmem b).mp hb with hb | rfl
      · exact hs.apart a hold b hb hne
      · exact (hi a hold hne.symm).imp Ne.symm Ne.symm
    · rcases (hmem b).mp hb with hb | rfl
      · exact hi b hb hne
      · exact absurd rfl hne
  case waiting =>
    intro k invite h
    rcases hlookup k invite h with ⟨rfl, rfl⟩ | h
    · exact ⟨i, (hmem i).mpr (Or.inr rfl), rfl, rfl⟩
    · obtain ⟨j, hj, hk, horq⟩ := hs.waiting k invite h
      exact ⟨j, (hmem j).mpr (Or.inl hj), hk, horq⟩
  case acked =>
    intro invite a h
    obtain ⟨j, hj, horq, hheld⟩ := hs.acked invite a h
    exact ⟨j, (hmem j).mpr (Or.inl hj), horq, hheld⟩
  case single =>
    intro k invite h
    rcases hlookup k invite h with ⟨-, rfl⟩ | h
    · exact horq
    · exact hs.single k invite h
  case known =>
    intro j hj hlive
    rcases (hmem j).mp hj with hj | rfl
    · obtain ⟨hout, hentry⟩ := hs.known j hj fun h => hlive (hended j h)
      refine ⟨hout, hentry.imp_left fun hmem => ?_⟩
      show _ ∈ AList.insertNew _ _ _
      rw [AList.insertNew_of_notMem hkey, AList.mem_insert]
      exact Or.inr hmem
    · refine ⟨hinside hlive, Or.inl ?_⟩
      show _ ∈ AList.insertNew _ _ _
      rw [AList.insertNew_of_notMem hkey, AList.mem_insert]
      exact Or.inl rfl
  case once =>
    intro p hp
    exact (hs.once p hp).imp_right fun ⟨halive, hj, hack⟩ => ⟨halive, (hmem p.1).mpr (Or.inl hj), hack⟩
  case supplied => exact hs.supplied
  case serial => exact hs.serial
  case unique => exact hs.unique

/-- The ACK of the INVITE that waits for it takes its place. -/
theorem addAck (hs : s.Tracked) (hi : s.Apart i) (hserial : a.serial = s.supplied.length)
    (hwaiting : s.handler.mapCallIdAndCSeq2Invite.lookup a.callIdAndCSeq = some i.orq) :
    Tracked { s with handler := s.handler.addAck a, supplied := (i, a) :: s.supplied } := by
  obtain ⟨j, hi', hkey, horq⟩ := hs.waiting _ _ hwaiting
  obtain rfl := hi.eq_of_orq hi' horq
  have hnone : j.orq ∉ s.handler.mapInvite2Ack := hs.single _ _ hwaiting
  have hnew : ∀ p ∈ s.supplied, p.2 ≠ a := by
    rintro p hp rfl
    exact absurd hserial (hs.serial p hp).ne
  have halive : a ∉ s.destroyed := fun hmem =>
    have ⟨k, hk⟩ := hs.supplied a hmem
    hnew _ hk rfl
  have hadd : s.handler.addAck a =
      ⟨s.handler.mapCallIdAndCSeq2Invite.erase j.callIdAndCSeq, s.handler.mapInvite2Ack.insert j.orq a,
      s.handler.timers⟩ := by
    unfold TimerDHandler.addAck
    rw [hwaiting]
    dsimp only
    rw [AList.insertNew_of_notMem hnone, hkey]
  rw [hadd]
  have hheld : ∀ k b, s.Held k b → Held { s with supplied := (j, a) :: s.supplied } k b :=
    fun k b h => ⟨List.mem_cons_of_mem _ h.1, h.2⟩
  constructor
  case nodup => exact hs.nodup
  case apart => exact hs.apart
  case waiting =>
    intro k invite h
    exact hs.waiting k invite (AList.lookup_erase_eq_some.mp h).2
  case acked =>
    intro invite b h
    rcases AList.lookup_insert_eq_some.mp h with ⟨rfl, rfl⟩ | ⟨-, h⟩
    · exact ⟨j, hi', rfl, List.mem_cons_self, halive⟩
    · obtain ⟨k, hk, horq, hb⟩ := hs.acked invite b h
      exact ⟨k, hk, horq, hheld k b hb⟩
  case single =>
    intro k invite h hmem
    obtain ⟨hne, h⟩ := AList.lookup_erase_eq_some.mp h
    rcases (AList.mem_insert _).mp hmem with rfl | hmem
    · -- Its entry in the other map is under its own key.
      obtain ⟨l, hl, rfl, horq⟩ := hs.waiting k _ h
      exact hne (congrArg _ (hi.eq_of_orq hl horq))
    · exact hs.single k invite h hmem
  case known =>
    intro k hk hlive
    obtain ⟨hout, hentry⟩ := hs.known k hk hlive
    refine ⟨hout, ?_⟩
    by_cases hkj : k = j
    · exact Or.inr ((AList.mem_insert _).mpr (Or.inl (congrArg _ hkj)))
    · have hne := (hi k hk hkj).2
      exact hentry.imp (fun h => AList.mem_erase.mpr ⟨hne, h⟩) fun h => (AList.mem_insert _).mpr (Or.inr h)
  case once =>
    intro p hp
    rcases List.mem_cons.mp hp with rfl | hp
    · exact Or.inr ⟨halive, hi', AList.lookup_insert _⟩
    · refine (hs.once p hp).imp_right fun ⟨hp', hmem, hack⟩ => ⟨hp', hmem, ?_⟩
      exact (AList.lookup_insert_ne fun horq => hnone (AList.mem_of_lookup (horq ▸ hack))).trans hack
  case supplied =>
    intro b hb
    obtain ⟨k, hk⟩ := hs.supplied b hb
    exact ⟨k, List.mem_cons_of_mem _ hk⟩
  case serial =>
    intro p hp
    rcases List.mem_cons.mp hp with rfl | hp
    · exact hserial ▸ Nat.lt_succ_self _
    · exact (hs.serial p hp).trans (Nat.lt_succ_self _)
  case unique =>
    intro p hp q hq heq
    rcases List.mem_cons.mp hp with rfl | hp
    · rcases List.mem_cons.mp hq with rfl | hq
      · rfl
      · exact absurd heq.symm (hnew q hq)
    · rcases List.mem_cons.mp hq with rfl | hq
      · exact absurd heq (hnew p hp)
      · exact hs.unique p hp q hq heq

/-- An INVITE leaves both maps, and its ACK is destroyed. Its timer, or its transaction, goes too. -/
theorem forget (hs : s.Tracked) (hi : s.Apart i) {timers ended : List OutgoingInvite}
    (htimers : timers.Sublist s.handler.timers)
    (hkeep : ∀ j ∈ s.handler.timers, j ≠ i → j ∈ timers) (hended : ∀ j ∈ s.ended, j ∈ ended)
    (hgone : i ∈ timers → i ∈ ended) :
    Tracked ⟨⟨s.handler.mapCallIdAndCSeq2Invite.erase i.callIdAndCSeq, s.handler.mapInvite2Ack.erase i.orq, timers⟩, ended,
      s.supplied, (s.handler.mapInvite2Ack.lookup i.orq).toList ++ s.destroyed⟩ := by
  have hmem : ∀ j ∈ timers, j ∈ s.handler.timers := fun j hj => htimers.subset hj
  constructor
  case nodup => exact hs.nodup.sublist htimers
  case apart => exact fun a ha b hb hne => hs.apart a (hmem a ha) b (hmem b hb) hne
  case waiting =>
    intro k invite h
    obtain ⟨hne, h⟩ := AList.lookup_erase_eq_some.mp h
    obtain ⟨j, hj, hk, horq⟩ := hs.waiting k invite h
    refine ⟨j, hkeep j hj ?_, hk, horq⟩
    rintro rfl
    exact hne hk.symm
  case acked =>
    intro invite a h
    obtain ⟨hne, h⟩ := AList.lookup_erase_eq_some.mp h
    obtain ⟨j, hj, horq, hsupplied, halive⟩ := hs.acked invite a h
    refine ⟨j, hkeep j hj ?_, horq, hsupplied, fun hdestroyed => ?_⟩
    · rintro rfl
      exact hne horq.symm
    · rcases List.mem_append.mp hdestroyed with hown | hold
      · -- The ACK that goes is held for the INVITE that goes.
        have hi' := (hs.held_iff hi).mpr (Option.mem_toList.mp hown)
        have hsame := hs.unique _ hsupplied _ hi'.1 rfl
        exact hne (horq.symm.trans (congrArg (fun p => p.1.orq) hsame))
      · exact halive hold
  case single =>
    intro k invite h hack
    exact hs.single k invite (AList.lookup_erase_eq_some.mp h).2 (AList.mem_erase.mp hack).2
  case known =>
    intro j hj hlive
    have hne : j ≠ i := by
      rintro rfl
      exact hlive (hgone hj)
    obtain ⟨hout, hentry⟩ := hs.known j (hmem j hj) fun h => hlive (hended j h)
    obtain ⟨horq, hkey⟩ := hi j (hmem j hj) hne
    exact ⟨hout, hentry.imp (fun h => AList.mem_erase.mpr ⟨hkey, h⟩) fun h => AList.mem_erase.mpr ⟨horq, h⟩⟩
  case once =>
    rintro ⟨j, a⟩ hp
    unfold Once
    rw [List.count_append, List.mem_append, Option.mem_toList]
    by_cases hown : s.handler.mapInvite2Ack.lookup i.orq = some a
    · have halive := ((hs.held_iff hi).mpr hown).2
      refine Or.inl ?_
      rw [hown, List.count_eq_zero_of_not_mem halive]
      exact List.count_singleton_self
    · have hzero : (s.handler.mapInvite2Ack.lookup i.orq).toList.count a = 0 :=
        List.count_eq_zero_of_not_mem fun h => hown (Option.mem_toList.mp h)
      rw [hzero, Nat.zero_add]
      refine (hs.once _ hp).imp_right fun ⟨halive, hj, hack⟩ => ?_
      have hne : j ≠ i := by
        rintro rfl
        exact hown hack
      exact ⟨fun h => h.elim hown halive, hkeep j hj hne, AList.lookup_erase_eq_some.mpr ⟨(hi j hj hne).1, hack⟩⟩
  case supplied =>
    intro a ha
    rcases List.mem_append.mp ha with hown | hold
    · exact ⟨i, ((hs.held_iff hi).mpr (Option.mem_toList.mp hown)).1⟩
    · exact hs.supplied a hold
  case serial => exact hs.serial
  case unique => exact hs.unique

end Tracked

/-! ### Operations -/

@[simp] theorem destroyedIn_drop {ack : Option OutgoingAck} : destroyedIn (ack.map .destroyed).toList = ack.toList := by
  cases ack <;> rfl

theorem assertFailed_notMem {ack : Option OutgoingAck} {f : OutgoingAck → AckEffect} (hf : ∀ a, f a ≠ .assertFailed) :
    .assertFailed ∉ (ack.map f).toList := by
  intro h
  obtain ⟨a, -, ha⟩ := Option.map_eq_some_iff.mp (Option.mem_toList.mp h)
  exact hf a ha

theorem step_of_handle {t : Acking} {effects : List AckEffect} {op : Op} (h : s.handle op = (t, effects)) :
    s.step op = { t with destroyed := destroyedIn effects ++ s.destroyed } ∧ s.effects op = effects :=
  ⟨by rw [step, h], by rw [Acking.effects, h]⟩

/-- A live INVITE with no entry has no timer. -/
theorem Tracked.fresh (hs : s.Tracked) (hlive : i ∉ s.ended) (hkey : i.callIdAndCSeq ∉ s.handler.mapCallIdAndCSeq2Invite)
    (horq : i.orq ∉ s.handler.mapInvite2Ack) : i ∉ s.handler.timers :=
  fun hi => (hs.known i hi hlive).2.elim hkey horq

theorem response_inside (hs : s.Tracked) (hi : s.Apart i) (hlive : i ∉ s.ended) (hinside : i.insideDialog = true)
    (ok found : Bool) :
    (s.step (.response i ok found)).Tracked ∧ s.effects (.response i ok found) = [] ∧ ∀ a, ¬ s.Held i a := by
  have hfresh : i ∉ s.handler.timers := fun hmem => Bool.false_ne_true ((hs.known i hmem hlive).1.symm.trans hinside)
  have hended : ∀ j ∈ s.ended, j ∈ i :: s.ended := fun j hj => List.mem_cons_of_mem _ hj
  have hnone : ∀ a, ¬ s.Held i a := fun a ha =>
    (hs.notMem hi hfresh).2 (AList.mem_of_lookup ((hs.held_iff hi).mp ha))
  cases ok with
  | false =>
    have hhandle : s.handle (.response i false found) = ({ s with ended := i :: s.ended }, []) := by
      simp only [handle, if_neg hlive, if_pos hinside, processResponseInsideDialog, Bool.false_eq_true, if_false]
    obtain ⟨hstep, heffects⟩ := step_of_handle hhandle
    rw [hstep, heffects]
    exact ⟨{ hs with known := fun j hj h => hs.known j hj fun hend => h (hended j hend) }, rfl, hnone⟩
  | true =>
    obtain ⟨htracked, hquiet⟩ := hs.addInvite hi hfresh hended fun h => absurd List.mem_cons_self h
    have hhandle : s.handle (.response i true found) =
        ({ s with handler := (s.handler.addInvite i).1, ended := i :: s.ended }, (s.handler.addInvite i).2) := by
      simp only [handle, if_neg hlive, if_pos hinside, processResponseInsideDialog, if_true]
    obtain ⟨hstep, heffects⟩ := step_of_handle hhandle
    rw [hstep, heffects, hquiet]
    exact ⟨htracked, rfl, hnone⟩

theorem response_outside (hs : s.Tracked) (hi : s.Apart i) (hlive : i ∉ s.ended) (houtside : i.insideDialog = false)
    (ok found : Bool) : (s.step (.response i ok found)).Tracked ∧
      s.effects (.response i ok found) = ((s.handler.mapInvite2Ack.lookup i.orq).map .retransmitted).toList := by
  have hinside : ¬ i.insideDialog = true := fun h => Bool.false_ne_true (houtside.symm.trans h)
  have hhandle : s.handle (.response i ok found) = s.processResponseOutsideDialog i ok found := by
    simp only [handle, if_neg hlive, if_neg hinside]
  have hquiet : s.processResponseOutsideDialog i ok found = (s, []) →
      (s.step (.response i ok found)).Tracked ∧ s.effects (.response i ok found) = [] := fun h => by
    obtain ⟨hstep, heffects⟩ := step_of_handle (hhandle.trans h)
    exact ⟨hstep ▸ hs, heffects⟩
  cases hack : s.handler.mapInvite2Ack.lookup i.orq with
  | some a =>
    have hresend : s.processResponseOutsideDialog i ok found = (s, [.retransmitted a]) := by
      simp only [processResponseOutsideDialog, TimerDHandler.resendIfNeeded, hack, if_true]
    obtain ⟨hstep, heffects⟩ := step_of_handle (hhandle.trans hresend)
    exact ⟨hstep ▸ hs, heffects⟩
  | none =>
    by_cases hkey : i.callIdAndCSeq ∈ s.handler.mapCallIdAndCSeq2Invite
    · refine hquiet ?_
      simp only [processResponseOutsideDialog, TimerDHandler.resendIfNeeded, hack, decide_eq_true hkey, if_true]
    · by_cases hadd : found = true ∧ ok = true
      · have hfresh := hs.fresh hlive hkey (AList.lookup_eq_none.mp hack)
        obtain ⟨htracked, hadded⟩ := hs.addInvite hi hfresh (fun _ h => h) fun _ => houtside
        have hnew : s.processResponseOutsideDialog i ok found =
            ({ s with handler := (s.handler.addInvite i).1 }, (s.handler.addInvite i).2) := by
          simp only [processResponseOutsideDialog, TimerDHandler.resendIfNeeded, hack, decide_eq_false hkey,
            Bool.false_eq_true, if_false, if_pos hadd]
        obtain ⟨hstep, heffects⟩ := step_of_handle (hhandle.trans hnew)
        rw [hstep, heffects, hadded]
        exact ⟨htracked, rfl⟩
      · refine hquiet ?_
        simp only [processResponseOutsideDialog, TimerDHandler.resendIfNeeded, hack, decide_eq_false hkey,
          Bool.false_eq_true, if_false, if_neg hadd]

/-- The ACK of an INVITE goes with its entry, if it has come to that. -/
theorem dropped (hs : s.Tracked) (hi : s.Apart i) (op : Op) {timers ended : List OutgoingInvite}
    (hhandle : s.handle op = ({ s with
        handler := (TimerDHandler.drop i.orq i.callIdAndCSeq { s.handler with timers := timers }).1
        ended := ended }, (TimerDHandler.drop i.orq i.callIdAndCSeq { s.handler with timers := timers }).2))
    (htimers : timers.Sublist s.handler.timers) (hkeep : ∀ j ∈ s.handler.timers, j ≠ i → j ∈ timers)
    (hended : ∀ j ∈ s.ended, j ∈ ended) (hgone : i ∈ timers → i ∈ ended) :
    (s.step op).Tracked ∧ s.effects op = ((s.handler.mapInvite2Ack.lookup i.orq).map .destroyed).toList := by
  rw [hs.drop_eq hi] at hhandle
  obtain ⟨hstep, heffects⟩ := step_of_handle hhandle
  rw [hstep, destroyedIn_drop]
  exact ⟨hs.forget hi htimers hkeep hended hgone, heffects⟩

/-- A step with an expected input keeps the INVITEs apart and does everything right. -/
theorem step_kept {op : Op} (hs : s.Tracked) (hop : s.Expected op) : (s.step op).Tracked ∧ s.Kept op := by
  suffices h : (s.step op).Tracked ∧ .assertFailed ∉ s.effects op ∧
      (∀ i ok found, op = .response i ok found → ∀ a, .retransmitted a ∈ s.effects op ↔ s.Held i a) ∧
      ∀ i a, op = .timerD i → .destroyed a ∈ s.effects op → (i, a) ∈ s.supplied from
    ⟨h.1, ⟨h.1.single, h.2.1, h.2.2.1, h.2.2.2, h.1.once⟩⟩
  cases op with
  | response i ok found =>
    by_cases hended : i ∈ s.ended
    · have hnone := hop.1 hended
      obtain ⟨hstep, heffects⟩ := step_of_handle (show s.handle (.response i ok found) = (s, []) from if_pos hended)
      rw [hstep, heffects]
      refine ⟨hs, List.not_mem_nil, ?_, nofun⟩
      rintro _ _ _ ⟨⟩ a
      exact iff_of_false List.not_mem_nil (hnone a)
    · have hi := hop.2 hended
      cases hinside : i.insideDialog with
      | true =>
        obtain ⟨htracked, heffects, hnone⟩ := response_inside hs hi hended hinside ok found
        rw [heffects]
        refine ⟨htracked, List.not_mem_nil, ?_, nofun⟩
        rintro _ _ _ ⟨⟩ a
        exact iff_of_false List.not_mem_nil (hnone a)
      | false =>
        obtain ⟨htracked, heffects⟩ := response_outside hs hi hended hinside ok found
        rw [heffects]
        refine ⟨htracked, assertFailed_notMem (by simp), ?_, nofun⟩
        rintro _ _ _ ⟨⟩ a
        rw [hs.held_iff hi, Option.mem_toList, Option.map_eq_some_iff]
        constructor
        · rintro ⟨b, hb, hba⟩
          exact AckEffect.retransmitted.inj hba ▸ hb
        · exact fun ha => ⟨a, ha, rfl⟩
  | ack i orq callId cseq =>
    obtain ⟨hi, hwaiting⟩ := hop
    exact ⟨hs.addAck hi rfl hwaiting, List.not_mem_nil, nofun, nofun⟩
  | timerD i =>
    by_cases htimer : i ∈ s.handler.timers
    · have hi := hs.apart i htimer
      obtain ⟨htracked, heffects⟩ := dropped hs hi (.timerD i) (if_pos htimer) List.erase_sublist
        (fun j hj hne => (List.mem_erase_of_ne hne).mpr hj) (fun _ h => h)
        fun h => absurd h hs.nodup.not_mem_erase
      rw [heffects]
      refine ⟨htracked, assertFailed_notMem (by simp), nofun, ?_⟩
      rintro _ a ⟨⟩ h
      obtain ⟨b, hb, hba⟩ := Option.map_eq_some_iff.mp (Option.mem_toList.mp h)
      obtain rfl := AckEffect.destroyed.inj hba
      exact ((hs.held_iff hi).mpr hb).1
    · obtain ⟨hstep, heffects⟩ := step_of_handle (show s.handle (.timerD i) = (s, []) from if_neg htimer)
      rw [hstep, heffects]
      exact ⟨hs, List.not_mem_nil, nofun, fun _ _ _ h => absurd h List.not_mem_nil⟩
  | endDialog i =>
    by_cases hended : i ∈ s.ended
    · obtain ⟨hstep, heffects⟩ := step_of_handle (show s.handle (.endDialog i) = (s, []) from if_pos hended)
      rw [hstep, heffects]
      exact ⟨hs, List.not_mem_nil, nofun, nofun⟩
    · obtain ⟨htracked, heffects⟩ := dropped hs (hop hended) (.endDialog i) (if_neg hended) (List.Sublist.refl _)
        (fun _ hj _ => hj) (fun _ h => List.mem_cons_of_mem _ h) fun _ => List.mem_cons_self
      rw [heffects]
      exact ⟨htracked, assertFailed_notMem (by simp), nofun, nofun⟩

end

/-- In a run of expected inputs every step keeps an INVITE in one map at most, fails no assert, has the ACK of a
    retransmitted 200 sent again and no other, and destroys an ACK once, never by the timer of another INVITE. -/
theorem timer_d_kept (ops : List Op) (h : Meets step Expected empty ops) : Meets step Kept empty ops :=
  h.of_invariant (fun _ _ hs hop => step_kept hs hop) Tracked.empty

/-- An INVITE, a re-INVITE, and an INVITE whose transaction gets the address that the re-INVITE has left. -/
def firstInvite : OutgoingInvite := ⟨0, 7, "a", 1, false⟩

def reinvite : OutgoingInvite := ⟨1, 8, "a", 2, true⟩

def nextInvite : OutgoingInvite := ⟨2, 8, "b", 1, false⟩

theorem timer_d_kept_invite :
    Meets step Kept empty [.response firstInvite true true, .ack firstInvite 9 "a" 1, .response firstInvite true false,
      .timerD firstInvite] := by
  refine timer_d_kept _ ⟨⟨nofun, fun _ => nofun⟩, ⟨?_, rfl⟩, ⟨nofun, fun _ => ?_⟩, trivial, trivial⟩
  · exact fun j hj hne => absurd (List.mem_singleton.mp hj) hne
  · exact fun j hj hne => absurd (List.mem_singleton.mp hj) hne

/-- The 200 of the last INVITE is taken for one of the re-INVITE, whose ACK goes out again. -/
theorem ack_of_other_invite :
    ¬ Meets step Kept empty [.response reinvite true true, .ack reinvite 9 "a" 2, .response nextInvite true true] := by
  rintro ⟨-, -, hkept, -⟩
  have hheld := (hkept.resends nextInvite true true rfl ⟨0, 9, "a", 2⟩).mp List.mem_cons_self
  exact absurd (List.mem_singleton.mp hheld.1) nofun

end Acking

end Drachtio.Dialog
