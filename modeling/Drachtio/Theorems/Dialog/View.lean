import Drachtio.Theorems.Dialog.Objects

/-! The registries of dialogs as a whole: who has a dialog id, which dialogs are stable and which are still being
    set up. The general part says when a change of one dialog keeps the registries in agreement; the rest says
    what each operation on the tables does to them. -/

namespace Drachtio.Dialog

open Client (ClientId)

/-- The dialog ids with their clients, the clients that are gone, and for each leg the stable dialog it has, with
    its owner, and the dialog that is being set up on it. -/
@[ext] structure View where
  dialogs : String → Option ClientId
  gone : Finset ClientId
  stable : Leg → Option (String × Option ClientId)
  invites : Leg → Option String

namespace View

variable {R : ClientId → ClientId → Prop} {v : View} {leg : Leg} {id : String}

/-- A dialog id is known while the dialog is stable or being set up; a stable dialog whose owner is connected is
    known by its id, with a client that stands in a relation to its owner; and no id is stable twice. -/
structure Agree (R : ClientId → ClientId → Prop) (v : View) : Prop where
  known : ∀ id c, v.dialogs id = some c → (∃ l o, v.stable l = some (id, o)) ∨ ∃ l, v.invites l = some id
  owned : ∀ l id c, v.stable l = some (id, some c) → c ∉ v.gone → ∃ c', v.dialogs id = some c' ∧ R c c'
  once : ∀ l l' id o o', v.stable l = some (id, o) → v.stable l' = some (id, o') → l = l'

/-- Another leg has the dialog id, in a stable dialog or in one that is being set up. -/
def Elsewhere (v : View) (leg : Leg) (id : String) : Prop :=
  ∃ l, l ≠ leg ∧ ((∃ o, v.stable l = some (id, o)) ∨ v.invites l = some id)

def setDialog (id : String) (c : Option ClientId) (v : View) : View := { v with dialogs := Function.update v.dialogs id c }

def setStable (leg : Leg) (o : Option (String × Option ClientId)) (v : View) : View :=
  { v with stable := Function.update v.stable leg o }

def setInvite (leg : Leg) (id : Option String) (v : View) : View := { v with invites := Function.update v.invites leg id }

theorem setDialog_dialogs (id' : String) (c : Option ClientId) :
    (v.setDialog id c).dialogs id' = if id' = id then c else v.dialogs id' := Function.update_apply ..

/-- The entries of one leg and of its dialog id are set anew. -/
def set (v : View) (leg : Leg) (id : String) (c : Option ClientId) (stable : Option (Option ClientId)) (invite : Bool) :
    View :=
  ((v.setDialog id c).setStable leg (stable.map fun o => (id, o))).setInvite leg (if invite = true then some id else none)

section
variable {c c' : Option ClientId} {stable : Option (Option ClientId)} {invite : Bool}

@[simp] theorem set_setDialog : (v.set leg id c stable invite).setDialog id c' = v.set leg id c' stable invite := by
  simp [set, setDialog, setStable, setInvite]

@[simp] theorem set_setStable (o : Option ClientId) :
    (v.set leg id c stable invite).setStable leg (some (id, o)) = v.set leg id c (some o) invite := by
  simp [set, setDialog, setStable, setInvite]

@[simp] theorem set_setStable_none : (v.set leg id c stable invite).setStable leg none = v.set leg id c none invite := by
  simp [set, setDialog, setStable, setInvite]

@[simp] theorem set_setInvite : (v.set leg id c stable invite).setInvite leg (some id) = v.set leg id c stable true := by
  simp [set, setDialog, setStable, setInvite]

@[simp] theorem set_setInvite_none : (v.set leg id c stable invite).setInvite leg none = v.set leg id c stable false := by
  simp [set, setDialog, setStable, setInvite]

end

/-- The leg has no dialog but the one with the id. -/
structure On (v : View) (leg : Leg) (id : String) : Prop where
  stable : ∀ id' o, v.stable leg = some (id', o) → id' = id
  invites : ∀ id', v.invites leg = some id' → id' = id

/-- A change of one dialog keeps the agreement when it does so for its own id: whatever is known by the id is held
    by some leg, and whoever owns a stable dialog with the id is known by it. -/
theorem Agree.set {c : Option ClientId} {stable : Option (Option ClientId)} {invite : Bool} (h : v.Agree R)
    (hon : v.On leg id)
    (hheld : c ≠ none → stable ≠ none ∨ invite = true ∨ v.Elsewhere leg id)
    (hown : ∀ k, stable = some (some k) → k ∉ v.gone → ∃ k', c = some k' ∧ R k k')
    (hothers : ∀ l k, l ≠ leg → v.stable l = some (id, some k) → k ∉ v.gone → ∃ k', c = some k' ∧ R k k')
    (honce : stable ≠ none → ∀ l o, l ≠ leg → v.stable l ≠ some (id, o)) :
    (v.set leg id c stable invite).Agree R := by
  refine ⟨fun id' k hk => ?_, fun l id' k hstable hgone => ?_, fun l l' id' o o' hl hl' => ?_⟩
  · by_cases hid : id' = id
    · subst hid
      have hc : c = some k := by simpa [View.set, setDialog, setStable, setInvite] using hk
      rcases hheld (by rw [hc]; exact Option.some_ne_none k) with hs | hi | ⟨l, hl, ⟨o, ho⟩ | hinv⟩
      · obtain ⟨o, ho⟩ := Option.ne_none_iff_exists'.mp hs
        exact .inl ⟨leg, o, by simp [View.set, setDialog, setStable, setInvite, ho]⟩
      · exact .inr ⟨leg, by simp [View.set, setDialog, setStable, setInvite, hi]⟩
      · exact .inl ⟨l, o, by simpa [View.set, setDialog, setStable, setInvite, Function.update_of_ne hl] using ho⟩
      · exact .inr ⟨l, by simpa [View.set, setDialog, setStable, setInvite, Function.update_of_ne hl] using hinv⟩
    · have hold : v.dialogs id' = some k := by
        simpa [View.set, setDialog, setStable, setInvite, Function.update_of_ne hid] using hk
      rcases h.known id' k hold with ⟨l, o, ho⟩ | ⟨l, hl⟩
      · have hne : l ≠ leg := fun he => hid (hon.stable id' o (he ▸ ho))
        exact .inl ⟨l, o, by simpa [View.set, setDialog, setStable, setInvite, Function.update_of_ne hne] using ho⟩
      · have hne : l ≠ leg := fun he => hid (hon.invites id' (he ▸ hl))
        exact .inr ⟨l, by simpa [View.set, setDialog, setStable, setInvite, Function.update_of_ne hne] using hl⟩
  · by_cases hl : l = leg
    · subst hl
      obtain ⟨o, ho, hpair⟩ : ∃ o, stable = some o ∧ (id, o) = (id', some k) := by
        simpa [View.set, setDialog, setStable, setInvite] using hstable
      cases hpair
      simpa [View.set, setDialog, setStable, setInvite] using hown k ho hgone
    · have hold : v.stable l = some (id', some k) := by
        simpa [View.set, setDialog, setStable, setInvite, Function.update_of_ne hl] using hstable
      by_cases hid : id' = id
      · subst hid
        simpa [View.set, setDialog, setStable, setInvite] using hothers l k hl hold hgone
      · simpa [View.set, setDialog, setStable, setInvite, Function.update_of_ne hid] using h.owned l id' k hold hgone
  · by_cases hleg : l = leg
    · by_cases hleg' : l' = leg
      · rw [hleg, hleg']
      · subst hleg
        obtain ⟨a, ha, hpair⟩ : ∃ a, stable = some a ∧ (id, a) = (id', o) := by
          simpa [View.set, setDialog, setStable, setInvite] using hl
        cases hpair
        have hold : v.stable l' = some (id, o') := by
          simpa [View.set, setDialog, setStable, setInvite, Function.update_of_ne hleg'] using hl'
        exact absurd hold (honce (by rw [ha]; exact Option.some_ne_none _) l' o' hleg')
    · have hold : v.stable l = some (id', o) := by
        simpa [View.set, setDialog, setStable, setInvite, Function.update_of_ne hleg] using hl
      by_cases hleg' : l' = leg
      · subst hleg'
        obtain ⟨a, ha, hpair⟩ : ∃ a, stable = some a ∧ (id, a) = (id', o') := by
          simpa [View.set, setDialog, setStable, setInvite] using hl'
        cases hpair
        exact absurd hold (honce (by rw [ha]; exact Option.some_ne_none _) l o hleg)
      · have hold' : v.stable l' = some (id', o') := by
          simpa [View.set, setDialog, setStable, setInvite, Function.update_of_ne hleg'] using hl'
        exact h.once l l' id' o o' hold hold'

/-- A dialog that stops being stable or being set up, while its id stays known, must be held by another leg or by
    what is left of it. -/
theorem Agree.withdraw {stable : Option (Option ClientId)} {invite : Bool} (h : v.Agree R) (hon : v.On leg id)
    (hstable : stable = none ∨ v.stable leg = stable.map fun o => (id, o))
    (hheld : v.dialogs id ≠ none → stable ≠ none ∨ invite = true ∨ v.Elsewhere leg id) :
    (v.set leg id (v.dialogs id) stable invite).Agree R := by
  refine h.set hon hheld (fun k hk hgone => ?_) (fun l k _ hk hgone => h.owned l id k hk hgone) fun hne l o hl ho => ?_
  · rcases hstable with hnone | hsame
    · rw [hnone] at hk
      exact nomatch hk
    · rw [hk] at hsame
      exact h.owned leg id k hsame hgone
  · rcases hstable with hnone | hsame
    · exact hne hnone
    · obtain ⟨o', ho'⟩ := Option.ne_none_iff_exists'.mp hne
      rw [ho'] at hsame
      exact hl (h.once l leg id o o' ho hsame)

/-- A dialog that ends together with the entry of its id. -/
theorem Agree.drop {invite : Bool} (h : v.Agree R) (hon : v.On leg id)
    (hothers : ∀ l k, l ≠ leg → v.stable l = some (id, some k) → k ∈ v.gone) : (v.set leg id none none invite).Agree R :=
  h.set hon (fun hne => absurd rfl hne) (fun _ hk => nomatch hk) (fun l k hl hk hgone => absurd (hothers l k hl hk) hgone)
    fun hne => absurd rfl hne

/-- A dialog that is being set up on its leg -/
theorem Agree.invite (h : v.Agree R) (hon : v.On leg id) : (v.setInvite leg (some id)).Agree R := by
  refine ⟨fun id' k hk => ?_, h.owned, h.once⟩
  rcases h.known id' k hk with hstable | ⟨l, hl⟩
  · exact .inl hstable
  · by_cases hleg : l = leg
    · exact .inr ⟨leg, by rw [hon.invites id' (hleg ▸ hl)]; exact Function.update_self ..⟩
    · exact .inr ⟨l, (Function.update_of_ne hleg _ _).trans hl⟩

/-- Forgetting a dialog id that no connected owner has a stable dialog with keeps the agreement. -/
theorem Agree.forget (h : v.Agree R) (hown : ∀ l k, v.stable l = some (id, some k) → k ∈ v.gone) :
    (v.setDialog id none).Agree R := by
  refine ⟨fun id' k hk => ?_, fun l id' k hstable hgone => ?_, h.once⟩
  · by_cases hid : id' = id
    · rw [hid] at hk
      simp [setDialog] at hk
    · exact h.known id' k (by simpa [setDialog, Function.update_of_ne hid] using hk)
  · by_cases hid : id' = id
    · exact absurd (hown l k (hid ▸ hstable)) hgone
    · simpa [setDialog, Function.update_of_ne hid] using h.owned l id' k hstable hgone

/-- More clients may leave. -/
theorem Agree.leave {gone : Finset ClientId} (h : v.Agree R) (hsub : v.gone ⊆ gone) : { v with gone := gone }.Agree R :=
  ⟨h.known, fun l id c hstable hgone => h.owned l id c hstable fun hc => hgone (hsub hc), h.once⟩

end View

namespace Registries

variable {α : Type} {s : Registries} {leg : Leg} {d : SipDialog} {g : SipDialog → SipDialog} {id t : String}

def shownStable (d : SipDialog) : Option (String × Option ClientId) :=
  if d.stable = true then some (d.dialogId, d.owner) else none

def shownInvite (d : SipDialog) : Option String := if d.invite.isSome = true then some d.dialogId else none

def view (s : Registries) : View := ⟨fun id => s.dialogs.lookup id, s.gone, obs shownStable s, obs shownInvite s⟩

/-! ### The dialog ids -/

/-- The client that `addDialogForTransaction` leaves the dialog id with: the one it has, or that of the transaction. -/
def candidate (t id : String) (s : Registries) : Option ClientId :=
  s.lock (((s.dialogs.lookup id).or (s.netTransactions.lookup t)).or (s.appTransactions.lookup t))

theorem lookup_removeDialog (id' : String) :
    (s.removeDialog id).dialogs.lookup id' = if id' = id then none else s.dialogs.lookup id' := by
  split
  · rename_i h
    rw [h]
    exact AList.lookup_erase ..
  · rename_i h
    exact AList.lookup_erase_ne h

theorem lookup_dropDisconnected (id' : String) :
    (s.dropDisconnected id).dialogs.lookup id' = if id' = id then s.findClientForDialog id else s.dialogs.lookup id' := by
  unfold dropDisconnected
  cases h : s.findClientForDialog id with
  | none => exact lookup_removeDialog id'
  | some c =>
    dsimp only
    split
    · rename_i hid
      rw [hid]
      exact (Option.filter_eq_some_iff.mp h).1
    · rfl

/-- A dialog id that is not there is entered and dropped again unless its client is connected. -/
theorem lookup_enter {c : ClientId} (id' : String) :
    ({ s with dialogs := s.dialogs.insertNew id c }.dropDisconnected id).dialogs.lookup id' =
      if id' = id then s.lock (some ((s.dialogs.lookup id).getD c)) else s.dialogs.lookup id' := by
  rw [lookup_dropDisconnected]
  split
  · exact congrArg s.lock AList.lookup_insertNew_self
  · rename_i hid
    exact AList.lookup_insertNew_ne hid

theorem lookup_addDialogForTransaction (id' : String) :
    (s.addDialogForTransaction t id).dialogs.lookup id' = if id' = id then s.candidate t id else s.dialogs.lookup id' := by
  unfold addDialogForTransaction candidate
  cases hn : s.netTransactions.lookup t with
  | some c =>
    dsimp only
    rw [lookup_enter]
    cases s.dialogs.lookup id <;> rfl
  | none =>
    dsimp only
    by_cases hid : id ∈ s.dialogs
    · obtain ⟨c, hc⟩ := Option.isSome_iff_exists.mp (AList.lookup_isSome.mpr hid)
      rw [if_pos hid, lookup_dropDisconnected, findClientForDialog, hc]
      rfl
    · have hnone : s.dialogs.lookup id = none := AList.lookup_eq_none.mpr hid
      rw [if_neg hid, hnone]
      cases ha : s.appTransactions.lookup t with
      | some c =>
        dsimp only
        rw [lookup_enter, hnone]
        rfl
      | none =>
        dsimp only
        split
        · rename_i h
          rw [h, hnone]
          rfl
        · rfl

theorem dropDisconnected_eq (id : String) (s : Registries) :
    s.dropDisconnected id = { s with dialogs := (s.dropDisconnected id).dialogs } := by
  unfold dropDisconnected
  cases s.findClientForDialog id <;> rfl

/-- Only the table of dialog ids changes. -/
theorem addDialogForTransaction_eq (t id : String) (s : Registries) :
    s.addDialogForTransaction t id = { s with dialogs := (s.addDialogForTransaction t id).dialogs } := by
  unfold addDialogForTransaction
  cases s.netTransactions.lookup t with
  | some c =>
    dsimp only
    rw [dropDisconnected_eq]
  | none =>
    dsimp only
    split
    · rw [dropDisconnected_eq]
    · cases s.appTransactions.lookup t with
      | some c =>
        dsimp only
        rw [dropDisconnected_eq]
      | none => rfl

/-! ### What the operations do to the view -/

theorem view_modify_of_eq (hstable : ∀ d, shownStable (g d) = shownStable d)
    (hinvite : ∀ d, shownInvite (g d) = shownInvite d) :
    view (s.modify leg g) = view s := by
  have h1 : obs shownStable (s.modify leg g) = obs shownStable s := obs_modify_of_eq hstable
  have h2 : obs shownInvite (s.modify leg g) = obs shownInvite s := obs_modify_of_eq hinvite
  unfold view
  rw [h1, h2, modify_eq]

@[simp] theorem view_clearSipTimers : view (s.clearSipTimers leg) = view s := view_modify_of_eq (fun _ => rfl) fun _ => rfl

@[simp] theorem view_clearInvite :
    view (s.clearInvite leg) = (view s).setInvite leg none := by
  have h1 : obs shownStable (s.clearInvite leg) = obs shownStable s := obs_modify_of_eq fun _ => rfl
  have h2 : obs shownInvite (s.clearInvite leg) = Function.update (obs shownInvite s) leg none := obs_modify_none fun _ => rfl
  unfold view
  rw [h1, h2, clearInvite, modify_eq]
  rfl

@[simp] theorem view_clearStable :
    view (s.clearStable leg) = (view s).setStable leg none := by
  have h1 : obs shownStable (s.clearStable leg) = Function.update (obs shownStable s) leg none := obs_modify_none fun _ => rfl
  have h2 : obs shownInvite (s.clearStable leg) = obs shownInvite s := obs_modify_of_eq fun _ => rfl
  unfold view
  rw [h1, h2, clearStable, modify_eq]
  rfl

@[simp] theorem view_removeDialog :
    view (s.removeDialog id) = (view s).setDialog id none := by
  refine View.ext ?_ rfl rfl rfl
  funext id'
  rw [View.setDialog_dialogs]
  exact lookup_removeDialog id'

@[simp] theorem view_addDialogForTransaction :
    view (s.addDialogForTransaction t id) = (view s).setDialog id (s.candidate t id) := by
  have hgone : (s.addDialogForTransaction t id).gone = s.gone := by rw [addDialogForTransaction_eq]
  have hlegs : (s.addDialogForTransaction t id).legs = s.legs := by rw [addDialogForTransaction_eq]
  refine View.ext ?_ hgone (obs_congr hlegs) (obs_congr hlegs)
  funext id'
  rw [View.setDialog_dialogs]
  exact lookup_addDialogForTransaction id'

@[simp] theorem view_collect : view s.collect = view s := by
  have h1 : obs shownStable s.collect = obs shownStable s := obs_collect fun d hstable _ =>
    if_neg (Bool.eq_false_iff.mp hstable)
  have h2 : obs shownInvite s.collect = obs shownInvite s := obs_collect fun d _ hinvite => by rw [shownInvite, hinvite]; rfl
  have h3 : s.collect.dialogs = s.dialogs ∧ s.collect.gone = s.gone := by
    refine collect_induction (P := fun s' => s'.dialogs = s.dialogs ∧ s'.gone = s.gone) ⟨rfl, rfl⟩
      fun s' leg d h _ _ _ _ => ?_
    rw [destroy_eq]
    exact h
  unfold view
  rw [h1, h2, h3.1, h3.2]

/-- A dialog that becomes stable, unless its id is stable already. -/
theorem view_insertStable (hd : s.legs.lookup leg = some d) :
    view (s.insertStable leg) =
      if (s.findDialogById d.dialogId).isSome then view s
      else (view s).setStable leg (some (d.dialogId, d.owner)) := by
  unfold insertStable
  rw [hd]
  dsimp only
  split
  · rfl
  · have h1 : obs shownStable (s.modify leg fun d => { d with stable := true }) =
        Function.update (obs shownStable s) leg (some (d.dialogId, d.owner)) := obs_modify hd
    have h2 : obs shownInvite (s.modify leg fun d => { d with stable := true }) = obs shownInvite s :=
      obs_modify_of_eq fun _ => rfl
    unfold view
    rw [h1, h2, modify_eq]
    rfl

theorem view_insertInvite {i : InviteInProgress} (hd : s.legs.lookup leg = some d) :
    view (s.insertInvite leg i) = view s ∨
      view (s.insertInvite leg i) = (view s).setInvite leg (some d.dialogId) := by
  rcases insertInvite_cases leg i s with h | h
  · exact .inl (congrArg view h)
  · right
    have h1 : obs shownStable (s.modify leg fun d => { d with invite := some i }) = obs shownStable s :=
      obs_modify_of_eq fun _ => rfl
    have h2 : obs shownInvite (s.modify leg fun d => { d with invite := some i }) =
        Function.update (obs shownInvite s) leg (some d.dialogId) := obs_modify hd
    rw [h]
    unfold view
    rw [h1, h2, modify_eq]
    rfl

/-- The view of a leg is that of its object. -/
theorem view_on (hd : s.legs.lookup leg = some d) : (view s).On leg d.dialogId := by
  refine ⟨fun id' o h => ?_, fun id' h => ?_⟩
  · have hs : shownStable d = some (id', o) := (obs_of_lookup hd).symm.trans h
    unfold shownStable at hs
    split at hs
    · cases hs
      rfl
    · exact nomatch hs
  · have hi : shownInvite d = some id' := (obs_of_lookup hd).symm.trans h
    unfold shownInvite at hi
    split at hi
    · cases hi
      rfl
    · exact nomatch hi

/-- A leg without an object shows nothing. -/
theorem view_on_of_none (hfree : s.legs.lookup leg = none) : (view s).On leg id := by
  refine ⟨fun id' o h => ?_, fun id' h => ?_⟩
  · obtain ⟨e, he, -⟩ := obs_eq_some.mp h
    exact nomatch hfree.symm.trans he
  · obtain ⟨e, he, -⟩ := obs_eq_some.mp h
    exact nomatch hfree.symm.trans he

/-- The view shows an object as it is. -/
theorem view_eq_set (hd : s.legs.lookup leg = some d) :
    view s = (view s).set leg d.dialogId ((view s).dialogs d.dialogId) (if d.stable = true then some d.owner else none)
    d.invite.isSome := by
  have hstable : (view s).stable leg = shownStable d := obs_of_lookup hd
  have hinvite : (view s).invites leg = shownInvite d := obs_of_lookup hd
  refine View.ext ?_ rfl ?_ ?_
  · exact (Function.update_eq_self ..).symm
  · have hshown : ((if d.stable = true then some d.owner else none).map fun o => (d.dialogId, o)) = (view s).stable leg := by
      rw [hstable, shownStable]
      split <;> rfl
    exact (congrArg (Function.update (view s).stable leg) hshown).trans (Function.update_eq_self ..) |>.symm
  · have hshown : (if d.invite.isSome = true then some d.dialogId else none) = (view s).invites leg := hinvite.symm
    exact (congrArg (Function.update (view s).invites leg) hshown).trans (Function.update_eq_self ..) |>.symm

end Registries

end Drachtio.Dialog
