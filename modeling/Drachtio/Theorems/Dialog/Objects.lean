import Drachtio.Dialog.System

/-! What the dialog objects show of themselves, and how the tables of objects are searched and changed. -/

namespace Drachtio.Dialog.Registries

open Client (ClientId)
open Pending (PendingRequests PendingRequest Arrival)

variable {α : Type} {s : Registries} {leg leg' : Leg} {d : SipDialog}

/-! ### Search -/

theorem mem_entries : (⟨leg, d⟩ : Sigma fun _ : Leg => SipDialog) ∈ s.legs.entries ↔ s.legs.lookup leg = some d :=
  AList.mem_lookup_iff.symm

theorem find_eq_some {p : SipDialog → Bool} (h : s.find p = some (leg, d)) : s.legs.lookup leg = some d ∧ p d = true := by
  obtain ⟨e, he, hpair⟩ := Option.map_eq_some_iff.mp h
  have hp : p e.2 = true := List.find?_some (p := fun e : Sigma fun _ : Leg => SipDialog => p e.2) he
  cases hpair
  exact ⟨mem_entries.mp (List.mem_of_find?_eq_some he), hp⟩

theorem find_eq_none {p : SipDialog → Bool} (h : s.find p = none) (hd : s.legs.lookup leg = some d) : p d = false := by
  have hnone := List.find?_eq_none.mp (Option.map_eq_none_iff.mp h)
  exact Bool.eq_false_iff.mpr (hnone _ (mem_entries.mpr hd))

theorem findDialogById_eq_some {id : String} (h : s.findDialogById id = some (leg, d)) :
    s.legs.lookup leg = some d ∧ d.stable = true ∧ d.dialogId = id := by
  obtain ⟨hd, hp⟩ := find_eq_some h
  simp only [Bool.and_eq_true, beq_iff_eq] at hp
  exact ⟨hd, hp⟩

theorem findDialogById_eq_none {id : String} (h : s.findDialogById id = none) (hd : s.legs.lookup leg = some d)
    (hstable : d.stable = true) : d.dialogId ≠ id := by
  intro hid
  have hp := find_eq_none h hd
  simp [hstable, hid] at hp

theorem findInviteByTransactionId_eq_some {t : String} (h : s.findInviteByTransactionId t = some (leg, d)) :
    s.legs.lookup leg = some d ∧ d.invite.isSome = true ∧ d.transactionId = t := by
  obtain ⟨hd, hp⟩ := find_eq_some h
  simp only [Bool.and_eq_true, beq_iff_eq] at hp
  exact ⟨hd, hp⟩

theorem findInviteByTransactionId_eq_none {t : String} (h : s.findInviteByTransactionId t = none)
    (hd : s.legs.lookup leg = some d)
    (hinvite : d.invite.isSome = true) : d.transactionId ≠ t := by
  intro ht
  have hp := find_eq_none h hd
  simp [hinvite, ht] at hp

theorem isSome_of_any {β : Type} {o : Option β} {p : β → Bool} (h : o.any p = true) : o.isSome = true := by
  cases o with
  | none => exact nomatch h
  | some _ => rfl

theorem findInviteByOrq_eq_some {orq : Orq} (h : s.findInviteByOrq orq = some (leg, d)) :
    s.legs.lookup leg = some d ∧ d.invite.isSome = true := by
  obtain ⟨hd, hp⟩ := find_eq_some h
  exact ⟨hd, isSome_of_any hp⟩

theorem findInviteByReliable_eq_some {rel : Reliable} (h : s.findInviteByReliable rel = some (leg, d)) :
    s.legs.lookup leg = some d ∧ d.invite.isSome = true := by
  obtain ⟨hd, hp⟩ := find_eq_some h
  exact ⟨hd, isSome_of_any hp⟩

theorem filter_lookup_eq_some {p : SipDialog → Bool} (h : (s.legs.lookup leg).filter p = some d) :
    s.legs.lookup leg = some d ∧ p d = true := Option.filter_eq_some_iff.mp h

theorem findDialogByLeg_eq_some (h : s.findDialogByLeg leg = some d) :
    s.legs.lookup leg = some d ∧ (d.invite.isSome = true ∨ d.stable = true) := by
  obtain ⟨hd, hp⟩ := filter_lookup_eq_some h
  exact ⟨hd, Bool.or_eq_true_iff.mp hp⟩

/-! ### Change -/

theorem modify_of_lookup (f : SipDialog → SipDialog) (hd : s.legs.lookup leg = some d) :
    s.modify leg f = { s with legs := s.legs.insert leg (f d) } := by rw [modify, hd]

theorem modify_of_none (f : SipDialog → SipDialog) (hd : s.legs.lookup leg = none) : s.modify leg f = s := by
  rw [modify, hd]

/-- A request of an application changes the table of its transactions only. -/
theorem addTransactionFor_eq (client : ClientId) (m : Proxy.Method) (t : String) (s : Registries) :
    s.addTransactionFor client m t = { s with appTransactions := (s.addTransactionFor client m t).appTransactions } := by
  unfold addTransactionFor
  split <;> rfl

/-- A change of an object is a change of the table of objects. -/
theorem modify_eq (leg : Leg) (f : SipDialog → SipDialog) (s : Registries) :
    s.modify leg f = { s with legs := (s.modify leg f).legs } := by
  cases hd : s.legs.lookup leg with
  | none => rw [modify_of_none f hd]
  | some d => rw [modify_of_lookup f hd]

theorem lookup_modify (f : SipDialog → SipDialog) :
    (s.modify leg f).legs.lookup leg' = if leg' = leg then (s.legs.lookup leg).map f else s.legs.lookup leg' := by
  cases hd : s.legs.lookup leg with
  | none =>
    rw [modify_of_none f hd]
    split
    · rename_i h
      rw [h, hd, Option.map_none]
    · rfl
  | some d =>
    rw [modify_of_lookup f hd]
    split
    · rename_i h
      rw [h, AList.lookup_insert, Option.map_some]
    · rename_i h
      exact AList.lookup_insert_ne h

@[simp] theorem lookup_modify_self (f : SipDialog → SipDialog) :
    (s.modify leg f).legs.lookup leg = (s.legs.lookup leg).map f := by
  rw [lookup_modify, if_pos rfl]

theorem insertInvite_cases (leg : Leg) (i : InviteInProgress) (s : Registries) :
    s.insertInvite leg i = s ∨ s.insertInvite leg i = s.modify leg fun d => { d with invite := some i } := by
  unfold insertInvite
  split
  · split
    · exact .inl rfl
    · exact .inr rfl
  · exact .inl rfl

theorem insertStable_cases (leg : Leg) (s : Registries) :
    s.insertStable leg = s ∨ s.insertStable leg = s.modify leg fun d => { d with stable := true } := by
  unfold insertStable
  split
  · split
    · exact .inl rfl
    · exact .inr rfl
  · exact .inl rfl

theorem clearStableById_cases (id : String) (s : Registries) :
    (s.clearStableById id = s ∧ s.findDialogById id = none) ∨
      ∃ leg d, s.findDialogById id = some (leg, d) ∧ s.clearStableById id = s.clearStable leg := by
  unfold clearStableById
  cases h : s.findDialogById id with
  | none => exact .inl ⟨rfl, rfl⟩
  | some e => exact .inr ⟨e.1, e.2, rfl, rfl⟩

/-! ### Observations -/

/-- What an observation of the objects sees at a leg. -/
def obs (f : SipDialog → Option α) (s : Registries) (leg : Leg) : Option α := (s.legs.lookup leg).bind f

variable {f : SipDialog → Option α} {g : SipDialog → SipDialog}

theorem obs_of_lookup (hd : s.legs.lookup leg = some d) : obs f s leg = f d := by rw [obs, hd, Option.bind_some]

theorem obs_eq_some {a : α} : obs f s leg = some a ↔ ∃ d, s.legs.lookup leg = some d ∧ f d = some a := Option.bind_eq_some_iff

theorem obs_congr {s' : Registries} (h : s'.legs = s.legs) : obs f s' = obs f s := by
  unfold obs
  rw [h]

/-- An observation does not see a change that the objects do not show to it. -/
theorem obs_modify_of_eq (h : ∀ d, f (g d) = f d) : obs f (s.modify leg g) = obs f s := by
  funext l
  unfold obs
  rw [lookup_modify]
  split
  · rename_i hl
    rw [hl, Option.bind_map]
    exact congrArg _ (funext h)
  · rfl

theorem obs_modify (hd : s.legs.lookup leg = some d) : obs f (s.modify leg g) = Function.update (obs f s) leg (f (g d)) := by
  funext l
  unfold obs
  rw [lookup_modify]
  by_cases hl : l = leg
  · rw [if_pos hl, hl, Function.update_self, hd, Option.map_some, Option.bind_some]
  · rw [if_neg hl, Function.update_of_ne hl]

theorem obs_modify_none (h : ∀ d, f (g d) = none) : obs f (s.modify leg g) = Function.update (obs f s) leg none := by
  cases hd : s.legs.lookup leg with
  | some d => rw [obs_modify hd, h]
  | none =>
    rw [modify_of_none g hd]
    funext l
    by_cases hl : l = leg
    · rw [hl, Function.update_self, obs, hd, Option.bind_none]
    · rw [Function.update_of_ne hl]

/-! ### The end of an object -/

/-- The destruction of an object touches the objects, the incoming requests and the net transactions. -/
theorem clearDanglingIncomingRequests_eq (ts : List String) (s : Registries) :
    s.clearDanglingIncomingRequests ts = { s with
      irqs := (s.clearDanglingIncomingRequests ts).irqs
      netTransactions := (s.clearDanglingIncomingRequests ts).netTransactions } := by
  induction ts generalizing s with
  | nil => rfl
  | cons t ts ih => exact ih ((s.removeIrq t).removeNetTransaction t)

theorem destroy_eq (leg : Leg) (d : SipDialog) (s : Registries) :
    s.destroy leg d = { s with
      legs := s.legs.erase leg
      irqs := (s.destroy leg d).irqs
      netTransactions := (s.destroy leg d).netTransactions } := by
  unfold destroy
  rw [clearDanglingIncomingRequests_eq]
  rfl

/-- What the destruction of one object without pointers keeps holds after the end of a handler. The other
    objects and the requests in progress stay. -/
theorem collect_induction {P : Registries → Prop} (hs : P s)
    (hdestroy : ∀ s' leg d, P s' → s'.legs.lookup leg = some d → s.legs.lookup leg = some d → s'.rips = s.rips →
      s'.referenced leg d = false → P (s'.destroy leg d)) : P s.collect := by
  have hfold : ∀ (es : List (Sigma fun _ : Leg => SipDialog)) (s' : Registries), es.NodupKeys →
      (∀ e ∈ es, s.legs.lookup e.1 = some e.2 ∧ s'.legs.lookup e.1 = some e.2) → s'.rips = s.rips → P s' →
      P (es.foldl (fun s e => if s.referenced e.1 e.2 = true then s else s.destroy e.1 e.2) s') := by
    intro es
    induction es with
    | nil => exact fun s' _ _ _ h => h
    | cons e es ih =>
      intro s' hnodup hes hrips h
      obtain ⟨hnot, hnodup⟩ := List.nodupKeys_cons.mp hnodup
      have hes' : ∀ e' ∈ es, s.legs.lookup e'.1 = some e'.2 ∧ s'.legs.lookup e'.1 = some e'.2 :=
        fun e' he' => hes e' (List.mem_cons_of_mem e he')
      obtain ⟨hold, hnow⟩ := hes e List.mem_cons_self
      rw [List.foldl_cons]
      split
      · exact ih s' hnodup hes' hrips h
      · rename_i href
        refine ih _ hnodup (fun e' he' => ⟨(hes' e' he').1, ?_⟩) ?_
          (hdestroy s' e.1 e.2 h hnow hold hrips (Bool.eq_false_iff.mpr href))
        · rw [destroy_eq]
          have hne : e'.1 ≠ e.1 := fun he => hnot (he ▸ List.mem_keys_of_mem he')
          exact (AList.lookup_erase_ne hne).trans (hes' e' he').2
        · rw [destroy_eq]
          exact hrips
  exact hfold s.legs.entries s s.legs.nodupKeys
    (fun e he => ⟨mem_entries.mp he, mem_entries.mp he⟩) rfl hs

theorem referenced_eq_false (h : s.referenced leg d = false) :
    d.stable = false ∧ d.invite = none ∧ d.timerH = false ∧ ∀ orq rip, s.rips.lookup orq = some rip → rip.dlg ≠ some leg := by
  simp only [referenced, Bool.or_eq_false_iff] at h
  obtain ⟨⟨⟨hstable, hinvite⟩, htimer⟩, hrips⟩ := h
  refine ⟨hstable, Option.not_isSome_iff_eq_none.mp (Bool.eq_false_iff.mp hinvite), htimer, fun orq rip hrip hleg => ?_⟩
  have hmem : (⟨orq, rip⟩ : Sigma fun _ : Orq => RequestInProgress) ∈ s.rips.entries := AList.mem_lookup_iff.mp hrip
  have hno := List.any_eq_false.mp hrips _ hmem
  exact hno (by simp [hleg])

/-- An observation that shows nothing of an object without pointers does not see the end of a handler. -/
theorem obs_collect (h : ∀ d : SipDialog, d.stable = false → d.invite = none → f d = none) : obs f s.collect = obs f s := by
  refine collect_induction (P := fun s' => obs f s' = obs f s) rfl fun s' leg d hs' hd _ _ href => ?_
  obtain ⟨hstable, hinvite, -, -⟩ := referenced_eq_false href
  rw [← hs', destroy_eq]
  funext l
  by_cases hl : l = leg
  · have herase : (s'.legs.erase leg).lookup l = none := hl ▸ AList.lookup_erase ..
    have hnow : obs f s' l = none := by rw [hl, obs_of_lookup hd, h d hstable hinvite]
    rw [hnow]
    exact congrArg (Option.bind · f) herase
  · exact congrArg (Option.bind · f) (AList.lookup_erase_ne hl)

end Drachtio.Dialog.Registries
