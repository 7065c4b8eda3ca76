import Drachtio.Theorems.Dialog.Ids

/-! When the handlers keep the registries of dialogs in agreement: the client controller's table of dialog ids, and
    the stable dialogs and invites in progress of the dialog controller. -/

namespace Drachtio.Dialog.Registries

open Proxy (Method)
open Client (ClientId)
open Pending (PendingRequests PendingRequest Arrival)

variable {R : ClientId → ClientId → Prop} {s : Registries} {leg : Leg} {d : SipDialog} {id : String}

/-! ### Who else has a dialog id -/

/-- A stable dialog with the id has an owner that is connected. -/
def owned (id : String) (s : Registries) : Bool :=
  s.legs.entries.any fun e => e.2.dialogId == id && e.2.stable && (s.lock e.2.owner).isSome

/-- The same, on another leg -/
def ownedElsewhere (leg : Leg) (id : String) (s : Registries) : Bool :=
  s.legs.entries.any fun e => e.1 != leg && (e.2.dialogId == id && e.2.stable && (s.lock e.2.owner).isSome)

/-- The id has an invite in progress. -/
def inProgress (id : String) (s : Registries) : Bool := s.legs.entries.any fun e => e.2.dialogId == id && e.2.invite.isSome

/-- Another leg has a stable dialog or an invite in progress with the id. -/
def heldElsewhere (leg : Leg) (id : String) (s : Registries) : Bool :=
  s.legs.entries.any fun e => e.1 != leg && (e.2.dialogId == id && (e.2.stable || e.2.invite.isSome))

theorem view_stable_eq_some {o : Option ClientId} (h : (view s).stable leg = some (id, o)) :
    ∃ d, s.legs.lookup leg = some d ∧ d.stable = true ∧ d.dialogId = id ∧ d.owner = o := by
  obtain ⟨d, hd, hshown⟩ := obs_eq_some.mp h
  unfold shownStable at hshown
  split at hshown
  · rename_i hstable
    cases hshown
    exact ⟨d, hd, hstable, rfl, rfl⟩
  · exact nomatch hshown

theorem view_stable_of_lookup (hd : s.legs.lookup leg = some d) (hstable : d.stable = true) :
    (view s).stable leg = some (d.dialogId, d.owner) := (obs_of_lookup hd).trans (if_pos hstable)

theorem view_invites_of_lookup (hd : s.legs.lookup leg = some d) (hinvite : d.invite.isSome = true) :
    (view s).invites leg = some d.dialogId := (obs_of_lookup hd).trans (if_pos hinvite)

theorem lock_isSome {c : ClientId} (h : c ∉ s.gone) : s.lock (some c) = some c := by
  rw [lock, Option.filter_some, if_pos (decide_eq_true h)]

theorem lock_eq_some {o : Option ClientId} {c : ClientId} (h : s.lock o = some c) : o = some c ∧ c ∉ s.gone := by
  obtain ⟨ho, hc⟩ := Option.filter_eq_some_iff.mp h
  exact ⟨ho, of_decide_eq_true hc⟩

theorem gone_of_owned_eq_false (h : s.owned id = false) {l : Leg} {k : ClientId}
    (hl : (view s).stable l = some (id, some k)) :
    k ∈ (view s).gone := by
  by_contra hk
  obtain ⟨d, hd, hstable, hid, howner⟩ := view_stable_eq_some hl
  have hno := List.any_eq_false.mp h ⟨l, d⟩ (mem_entries.mpr hd)
  exact hno (by simp [hid, hstable, howner, lock_isSome (show k ∉ s.gone from hk)])

theorem gone_of_ownedElsewhere_eq_false (h : s.ownedElsewhere leg id = false) {l : Leg} {k : ClientId} (hne : l ≠ leg)
    (hl : (view s).stable l = some (id, some k)) : k ∈ (view s).gone := by
  by_contra hk
  obtain ⟨d, hd, hstable, hid, howner⟩ := view_stable_eq_some hl
  have hno := List.any_eq_false.mp h ⟨l, d⟩ (mem_entries.mpr hd)
  exact hno (by simp [hne, hid, hstable, howner, lock_isSome (show k ∉ s.gone from hk)])

theorem inProgress_iff :
    s.inProgress id = true ↔ ∃ l d, s.legs.lookup l = some d ∧ d.dialogId = id ∧ d.invite.isSome = true := by
  unfold inProgress
  rw [List.any_eq_true]
  constructor
  · rintro ⟨e, he, hp⟩
    simp only [Bool.and_eq_true, beq_iff_eq] at hp
    exact ⟨e.1, e.2, mem_entries.mp he, hp⟩
  · rintro ⟨l, d, hd, hid, hinvite⟩
    exact ⟨⟨l, d⟩, mem_entries.mpr hd, by simp [hid, hinvite]⟩

theorem heldElsewhere_iff : s.heldElsewhere leg id = true ↔
    ∃ l d, l ≠ leg ∧ s.legs.lookup l = some d ∧ d.dialogId = id ∧ (d.stable = true ∨ d.invite.isSome = true) := by
  unfold heldElsewhere
  rw [List.any_eq_true]
  constructor
  · rintro ⟨e, he, hp⟩
    simp only [Bool.and_eq_true, bne_iff_ne, ne_eq, beq_iff_eq, Bool.or_eq_true] at hp
    exact ⟨e.1, e.2, hp.1, mem_entries.mp he, hp.2⟩
  · rintro ⟨l, d, hne, hd, hid, hheld⟩
    exact ⟨⟨l, d⟩, mem_entries.mpr hd, by simpa [hne, hid] using hheld⟩

theorem elsewhere_of_heldElsewhere (h : s.heldElsewhere leg id = true) : (view s).Elsewhere leg id := by
  obtain ⟨l, d, hne, hd, rfl, hstable | hinvite⟩ := heldElsewhere_iff.mp h
  · exact ⟨l, hne, .inl ⟨d.owner, view_stable_of_lookup hd hstable⟩⟩
  · exact ⟨l, hne, .inr (view_invites_of_lookup hd hinvite)⟩

/-! ### Conditions -/

/-- An invite in progress may go: the dialog is stable, or its id is not known or held by another leg. -/
def MayLeave (leg : Leg) (d : SipDialog) (s : Registries) : Prop :=
  d.stable = true ∨ d.dialogId ∉ s.dialogs ∨ s.heldElsewhere leg d.dialogId = true

/-- The whole dialog may go without its id: this is not known or held by another leg. -/
def MayEnd (leg : Leg) (d : SipDialog) (s : Registries) : Prop :=
  d.dialogId ∉ s.dialogs ∨ s.heldElsewhere leg d.dialogId = true

/-- The client that has the dialog id, or else the transaction, suits an owner that is connected. -/
def Enters (R : ClientId → ClientId → Prop) (d : SipDialog) (s : Registries) : Prop :=
  ∀ c ∈ s.lock d.owner, ∃ c' ∈ s.candidate d.transactionId d.dialogId, R c c'

instance : Decidable (s.MayLeave leg d) := inferInstanceAs (Decidable (_ ∨ _ ∨ _))

instance : Decidable (s.MayEnd leg d) := inferInstanceAs (Decidable (_ ∨ _))

instance [DecidableRel R] : Decidable (s.Enters R d) :=
  inferInstanceAs (Decidable (∀ c ∈ s.lock d.owner, ∃ c' ∈ s.candidate d.transactionId d.dialogId, R c c'))

theorem Enters.of_connected (h : s.Enters R d) {c : ClientId} (howner : d.owner = some c) (hc : c ∉ s.gone) :
    ∃ c', s.candidate d.transactionId d.dialogId = some c' ∧ R c c' := h c (by rw [howner, lock_isSome hc]; rfl)

/-! ### The ways a dialog changes -/

/-- The dialog id is not known, or the dialog is held as before. -/
theorem dialogs_eq_none (h : id ∉ s.dialogs) : (view s).dialogs id = none := AList.lookup_eq_none.mpr h

theorem agree_leave (h : (view s).Agree R) (hd : s.legs.lookup leg = some d) (hmay : s.MayLeave leg d) :
    ((view s).setInvite leg none).Agree R := by
  rw [view_eq_set hd, View.set_setInvite_none]
  refine h.withdraw (view_on hd) ?_ fun hknown => ?_
  · by_cases hstable : d.stable = true
    · rw [if_pos hstable]
      exact .inr (view_stable_of_lookup hd hstable)
    · rw [if_neg hstable]
      exact .inl rfl
  · rcases hmay with hstable | hunknown | helse
    · rw [if_pos hstable]
      exact .inl (Option.some_ne_none _)
    · exact absurd (dialogs_eq_none hunknown) hknown
    · exact .inr (.inr (elsewhere_of_heldElsewhere helse))

/-- A dialog leaves the stable ones, and its id stays. -/
theorem agree_unstable (h : (view s).Agree R) (hd : s.legs.lookup leg = some d)
    (hmay : d.dialogId ∉ s.dialogs ∨ s.inProgress d.dialogId = true) : ((view s).setStable leg none).Agree R := by
  rw [view_eq_set hd, View.set_setStable_none]
  refine h.withdraw (view_on hd) (.inl rfl) fun hknown => .inr ?_
  rcases hmay with hunknown | hprogress
  · exact absurd (dialogs_eq_none hunknown) hknown
  · obtain ⟨l, e, he, hid, hinvite⟩ := inProgress_iff.mp hprogress
    by_cases hl : l = leg
    · subst hl
      rw [hd] at he
      cases he
      exact .inl hinvite
    · exact .inr ⟨l, hl, .inr (hid ▸ view_invites_of_lookup he hinvite)⟩

theorem agree_end (h : (view s).Agree R) (hd : s.legs.lookup leg = some d) (hmay : s.MayEnd leg d) :
    (((view s).setStable leg none).setInvite leg none).Agree R := by
  rw [view_eq_set hd, View.set_setStable_none, View.set_setInvite_none]
  refine h.withdraw (view_on hd) (.inl rfl) fun hknown => ?_
  rcases hmay with hunknown | helse
  · exact absurd (dialogs_eq_none hunknown) hknown
  · exact .inr (.inr (elsewhere_of_heldElsewhere helse))

/-- The dialog leaves the stable ones together with its id. -/
theorem agree_drop (h : (view s).Agree R) (hd : s.legs.lookup leg = some d)
    (hothers : s.ownedElsewhere leg d.dialogId = false) :
    (((view s).setDialog d.dialogId none).setStable leg none).Agree R := by
  rw [view_eq_set hd, View.set_setDialog, View.set_setStable_none]
  exact h.drop (view_on hd) fun l k hne hl => gone_of_ownedElsewhere_eq_false hothers hne hl

theorem agree_drop_all (h : (view s).Agree R) (hd : s.legs.lookup leg = some d)
    (hothers : s.ownedElsewhere leg d.dialogId = false) :
    ((((view s).setDialog d.dialogId none).setStable leg none).setInvite leg none).Agree R := by
  rw [view_eq_set hd, View.set_setDialog, View.set_setStable_none, View.set_setInvite_none]
  exact h.drop (view_on hd) fun l k hne hl => gone_of_ownedElsewhere_eq_false hothers hne hl

/-- The order in which the parts of a dialog go does not matter. -/
theorem agree_drop_all' (h : (view s).Agree R) (hd : s.legs.lookup leg = some d)
    (hothers : s.ownedElsewhere leg d.dialogId = false) :
    ((((view s).setInvite leg none).setDialog d.dialogId none).setStable leg none).Agree R := by
  rw [view_eq_set hd, View.set_setInvite_none, View.set_setDialog, View.set_setStable_none]
  exact h.drop (view_on hd) fun l k hne hl => gone_of_ownedElsewhere_eq_false hothers hne hl

/-- No other leg has a stable dialog with the id of one that is stable. -/
theorem ownedElsewhere_of_stable (h : (view s).Agree R) (hd : s.legs.lookup leg = some d) (hstable : d.stable = true) :
    s.ownedElsewhere leg d.dialogId = false := by
  refine List.any_eq_false.mpr fun e he hp => ?_
  simp only [Bool.and_eq_true, bne_iff_ne, ne_eq, beq_iff_eq] at hp
  obtain ⟨hne, ⟨hid, hstable'⟩, -⟩ := hp
  have hthere : (view s).stable e.1 = some (d.dialogId, e.2.owner) := hid ▸ view_stable_of_lookup (mem_entries.mp he) hstable'
  exact hne (h.once e.1 leg d.dialogId e.2.owner d.owner hthere (view_stable_of_lookup hd hstable))

/-! ### A dialog is entered -/

theorem findDialogById_isSome : (s.findDialogById id).isSome = true ↔ ∃ l o, (view s).stable l = some (id, o) := by
  constructor
  · intro h
    obtain ⟨⟨l, d⟩, hfound⟩ := Option.isSome_iff_exists.mp h
    obtain ⟨hd, hstable, rfl⟩ := findDialogById_eq_some hfound
    exact ⟨l, d.owner, view_stable_of_lookup hd hstable⟩
  · rintro ⟨l, o, hl⟩
    obtain ⟨d, hd, hstable, hid, -⟩ := view_stable_eq_some hl
    by_contra hnone
    exact findDialogById_eq_none (Option.not_isSome_iff_eq_none.mp hnone) hd hstable hid

/-- The dialog is stable, or its id is not that of a stable one, so that it can become stable. -/
def Becomes (d : SipDialog) (s : Registries) : Prop := d.stable = true ∨ (s.findDialogById d.dialogId).isSome = false

instance : Decidable (s.Becomes d) := inferInstanceAs (Decidable (_ ∨ _))

theorem candidate_congr {s' : Registries} {t : String} (hgone : s'.gone = s.gone) (hdialogs : s'.dialogs = s.dialogs)
    (hnet : s'.netTransactions = s.netTransactions) (happ : s'.appTransactions = s.appTransactions) :
    s'.candidate t id = s.candidate t id := by
  unfold candidate lock
  rw [hgone, hdialogs, hnet, happ]

theorem candidate_modify {g : SipDialog → SipDialog} {t : String} : (s.modify leg g).candidate t id = s.candidate t id :=
  candidate_congr (by rw [modify_eq]) (by rw [modify_eq]) (by rw [modify_eq]) (by rw [modify_eq])

theorem candidate_insertStable {t : String} : (s.insertStable leg).candidate t id = s.candidate t id := by
  rcases insertStable_cases leg s with h | h
  · rw [h]
  · rw [h]
    exact candidate_modify

theorem candidate_of_known {t : String} {c : ClientId} (h : s.findClientForDialog id = some c) :
    s.candidate t id = some c := by
  obtain ⟨hlookup, hc⟩ := lock_eq_some h
  unfold candidate
  rw [hlookup]
  exact lock_isSome hc

theorem view_addDialog (hd : s.legs.lookup leg = some d) :
    view (s.addDialog leg d) =
      (view s).set leg d.dialogId (s.candidate d.transactionId d.dialogId) (if s.Becomes d then some d.owner else none)
      d.invite.isSome := by
  unfold addDialog
  rw [view_addDialogForTransaction, candidate_insertStable, view_insertStable hd]
  by_cases hfound : (s.findDialogById d.dialogId).isSome = true
  · rw [if_pos hfound]
    conv_lhs => rw [view_eq_set hd]
    rw [View.set_setDialog]
    by_cases hstable : d.stable = true
    · have hbecomes : s.Becomes d := .inl hstable
      rw [if_pos hstable, if_pos hbecomes]
    · have hnot : ¬s.Becomes d := fun hb => hb.elim hstable fun hfree => nomatch hfree.symm.trans hfound
      rw [if_neg hstable, if_neg hnot]
  · have hbecomes : s.Becomes d := .inr (Bool.eq_false_iff.mpr hfound)
    rw [if_neg hfound, if_pos hbecomes]
    conv_lhs => rw [view_eq_set hd]
    rw [View.set_setStable, View.set_setDialog]

/-- What is said of a dialog in the middle of a change: stable as before, or newly so, or not stable. -/
theorem agree_set {c : Option ClientId} {stable : Option (Option ClientId)} {invite : Bool} (h : (view s).Agree R)
    (hd : s.legs.lookup leg = some d) (hstable : stable = none ∨ (s.Becomes d ∧ stable = some d.owner))
    (hheld : c ≠ none → stable ≠ none ∨ invite = true ∨ (view s).Elsewhere leg d.dialogId)
    (hown : ∀ k, stable = some (some k) → k ∉ s.gone → ∃ k', c = some k' ∧ R k k')
    (hothers : s.ownedElsewhere leg d.dialogId = false ∨ ∃ k', s.findClientForDialog d.dialogId = some k' ∧ c = some k') :
    ((view s).set leg d.dialogId c stable invite).Agree R := by
  refine h.set (view_on hd) hheld hown (fun l k hne hl hgone => ?_) fun hsome l o hne hl => ?_
  · rcases hothers with hno | ⟨k', hknown, hc⟩
    · exact absurd (gone_of_ownedElsewhere_eq_false hno hne hl) hgone
    · obtain ⟨k'', hk'', hR⟩ := h.owned l d.dialogId k hl hgone
      have heq : k' = k'' := Option.some.inj ((lock_eq_some hknown).1.symm.trans hk'')
      exact ⟨k', hc, heq ▸ hR⟩
  · rcases hstable with hnone | ⟨hstable | hfree, -⟩
    · exact hsome hnone
    · exact hne (h.once l leg d.dialogId o d.owner hl (view_stable_of_lookup hd hstable))
    · have hfound := findDialogById_isSome.mpr ⟨l, o, hl⟩
      rw [hfree] at hfound
      exact nomatch hfound

/-- Whoever else has a stable dialog with the id is connected to it. -/
def Known (leg : Leg) (id : String) (s : Registries) : Prop :=
  s.ownedElsewhere leg id = true → (s.findClientForDialog id).isSome = true

instance : Decidable (s.Known leg id) := inferInstanceAs (Decidable (_ → _))

theorem Known.cases {t : String} (h : s.Known leg id) :
    s.ownedElsewhere leg id = false ∨ ∃ k', s.findClientForDialog id = some k' ∧ s.candidate t id = some k' := by
  cases howned : s.ownedElsewhere leg id with
  | false => exact .inl rfl
  | true =>
    obtain ⟨k', hk'⟩ := Option.isSome_iff_exists.mp (h howned)
    exact .inr ⟨k', hk', candidate_of_known hk'⟩

/-- A dialog with the id is stable elsewhere when this one cannot become so. -/
theorem elsewhere_of_not_becomes (h : ¬s.Becomes d) (hd : s.legs.lookup leg = some d) :
    (view s).Elsewhere leg d.dialogId := by
  unfold Becomes at h
  rw [not_or] at h
  obtain ⟨l, o, hl⟩ := findDialogById_isSome.mp (Bool.not_eq_false _ ▸ h.2)
  refine ⟨l, fun he => h.1 ?_, .inl ⟨o, hl⟩⟩
  obtain ⟨e, hd', hstable, -, -⟩ := view_stable_eq_some hl
  rw [he, hd] at hd'
  cases hd'
  exact hstable

/-- A dialog is added, and its invite in progress may be done. -/
theorem agree_enter {invite : Bool} (h : (view s).Agree R) (hd : s.legs.lookup leg = some d)
    (henters : s.Becomes d → s.Enters R d)
    (hknown : s.Known leg d.dialogId) :
    ((view s).set leg d.dialogId (s.candidate d.transactionId d.dialogId) (if s.Becomes d then some d.owner else none)
      invite).Agree R := by
  refine agree_set h hd ?_ (fun _ => ?_) (fun k hk hgone => ?_) hknown.cases
  · by_cases hbecomes : s.Becomes d
    · rw [if_pos hbecomes]
      exact .inr ⟨hbecomes, rfl⟩
    · rw [if_neg hbecomes]
      exact .inl rfl
  · by_cases hbecomes : s.Becomes d
    · rw [if_pos hbecomes]
      exact .inl (Option.some_ne_none _)
    · exact .inr (.inr (elsewhere_of_not_becomes hbecomes hd))
  · by_cases hbecomes : s.Becomes d
    · rw [if_pos hbecomes] at hk
      exact (henters hbecomes).of_connected (Option.some.inj hk) hgone
    · rw [if_neg hbecomes] at hk
      exact nomatch hk

end Drachtio.Dialog.Registries
