import Drachtio.Dialog.InvitesInProgress
import Mathlib.Data.List.Nodup
import Mathlib.Data.List.Perm.Lattice

/-! Invites in progress are found by each of their keys, and cleared one at a time with all their handles, as long as no
    invite is inserted while the table has one with its transaction id or with the address of its transaction. The first
    is what a re-INVITE meets on a dialog whose earlier invite is still there. -/

namespace Drachtio.Dialog

open Machine

def InviteHandle.number : InviteHandle → Nat
  | .irq n | .reliable n => n

namespace Inviting

/-- The invite that a step inserts. -/
def inserted (s : Inviting) : Op → Option IIP
  | .incoming leg transactionId => if leg ∈ s.dialogs then none else some ⟨s.next, leg, some s.next, none, transactionId, []⟩
  | .outgoing leg orq transactionId => if leg ∈ s.dialogs then none else some ⟨s.next, leg, none, some orq, transactionId, []⟩
  | .reinvite leg orq => (s.dialogs.lookup leg).map fun transactionId => ⟨s.next, leg, none, some orq, transactionId, []⟩
  | _ => none

/-- No invite of the table has the transaction id of one that is inserted, or the address of its transaction. -/
def Apart (s : Inviting) (op : Op) : Prop :=
  ∀ i ∈ s.inserted op, ∀ x ∈ s.invites.iips, x.transactionId ≠ i.transactionId ∧ ∀ orq ∈ i.orq, x.orq ≠ some orq

/-- The invite is the one that each of its keys finds, whatever the order in the buckets. -/
def Findable (s : Inviting) (i : IIP) : Prop :=
  ∀ t : InvitesInProgress, t.iips.Perm s.invites.iips →
    (t.findByLeg i.leg).map IIP.serial = some i.serial ∧
      (∀ irq ∈ i.irq, (t.findByIrq irq).map IIP.serial = some i.serial) ∧
      (∀ orq ∈ i.orq, (t.findByOrq orq).map IIP.serial = some i.serial) ∧
      (t.findByTransactionId i.transactionId).map IIP.serial = some i.serial

/-- What a step does right. -/
structure Kept (s : Inviting) (op : Op) : Prop where
  findable : ∀ i ∈ (s.step op).outstanding, (s.step op).Findable i
  /-- An invite is cleared, and no other. -/
  clears : ∀ i, s.cleared op = some i → ∀ x, x ∈ (s.step op).invites.iips ↔ x ∈ s.invites.iips ∧ x ≠ i
  /-- The handles of an invite that has left the table have been destroyed once. -/
  once : ∀ p ∈ (s.step op).given, (∀ x ∈ (s.step op).invites.iips, x.serial ≠ p.1) → (s.step op).destroyed.count p.2 = 1

/-- The table has the invites of the list, each on the leg of its dialog and under the transaction id of the dialog. The
    handles that were given to invites are those destroyed and those in the table. -/
structure Placed (l : List IIP) (s : Inviting) : Prop where
  perm : s.invites.iips.Perm l
  dialog : ∀ x ∈ l, s.dialogs.lookup x.leg = some x.transactionId
  transactions : (l.map IIP.transactionId).Nodup
  serials : (l.map IIP.serial).Nodup
  made : ∀ x ∈ l, x.serial < s.next
  handles : (s.destroyed ++ l.flatMap IIP.handles).Perm (s.given.map Prod.snd)
  distinct : (s.given.map Prod.snd).Nodup
  given : ∀ x ∈ l, ∀ h ∈ x.handles, (x.serial, h) ∈ s.given
  numbers : ∀ p ∈ s.given, p.2.number < s.next

section
variable {s : Inviting} {l rest : List IIP} {i x y : IIP} {op : Op}

namespace Placed

theorem empty : Placed [] empty :=
  ⟨List.Perm.refl _, fun _ h => absurd h List.not_mem_nil, List.nodup_nil, List.nodup_nil, fun _ h => absurd h
    List.not_mem_nil,
    List.Perm.refl _, List.nodup_nil, fun _ h => absurd h List.not_mem_nil, fun _ h => absurd h List.not_mem_nil⟩

theorem of_perm (h : Placed l s) (hl : l.Perm rest) : Placed rest s where
  perm := h.perm.trans hl
  dialog x hx := h.dialog x (hl.mem_iff.mpr hx)
  transactions := (hl.map _).nodup_iff.mp h.transactions
  serials := (hl.map _).nodup_iff.mp h.serials
  made x hx := h.made x (hl.mem_iff.mpr hx)
  handles := ((hl.flatMap_right _).symm.append_left _).trans h.handles
  distinct := h.distinct
  given x hx := h.given x (hl.mem_iff.mpr hx)
  numbers := h.numbers

theorem focus (h : Placed l s) (hx : x ∈ s.invites.iips) : ∃ rest, Placed (x :: rest) s := by
  obtain ⟨before, behind, rfl⟩ := List.append_of_mem (h.perm.mem_iff.mp hx)
  exact ⟨before ++ behind, h.of_perm List.perm_middle⟩

/-- The others have another transaction id, another number and another leg. -/
theorem others (h : Placed (x :: rest) s) (hy : y ∈ rest) :
    y.transactionId ≠ x.transactionId ∧ y.serial ≠ x.serial ∧ y.leg ≠ x.leg := by
  have htransactions := List.nodup_cons.mp h.transactions
  have hserials := List.nodup_cons.mp h.serials
  have hne : y.transactionId ≠ x.transactionId := fun heq => htransactions.1 (heq ▸ List.mem_map_of_mem hy)
  refine ⟨hne, fun heq => hserials.1 (heq ▸ List.mem_map_of_mem hy), fun heq => hne ?_⟩
  have hx := h.dialog x List.mem_cons_self
  rw [← heq, h.dialog y (List.mem_cons_of_mem _ hy)] at hx
  exact Option.some.inj hx

/-- A handle belongs to one invite. -/
theorem owner (h : Placed l s) {n m : Nat} {handle : InviteHandle} (hn : (n, handle) ∈ s.given)
    (hm : (m, handle) ∈ s.given) : n = m :=
  congrArg Prod.fst (List.inj_on_of_nodup_map h.distinct hn hm rfl)

/-- The handles of an invite that is not in the table have been destroyed once. -/
theorem count_destroyed (h : Placed l s) {n : Nat} {handle : InviteHandle} (hgiven : (n, handle) ∈ s.given)
    (hleft : ∀ x ∈ l, x.serial ≠ n) : s.destroyed.count handle = 1 := by
  have hone : (s.given.map Prod.snd).count handle = 1 :=
    List.count_eq_one_of_mem h.distinct (List.mem_map.mpr ⟨_, hgiven, rfl⟩)
  have hnone : (l.flatMap IIP.handles).count handle = 0 := by
    rw [List.count_eq_zero, List.mem_flatMap]
    rintro ⟨x, hx, hmem⟩
    exact hleft x hx (h.owner (h.given x hx handle hmem) hgiven)
  rw [← h.handles.count_eq, List.count_append, hnone] at hone
  exact hone

end Placed

/-! ### Steps on the table -/

/-- What is known of an invite that is about to be inserted. -/
structure New (s : Inviting) (dialogs : AList fun _ : Leg => String) (i : IIP) : Prop where
  serial : i.serial = s.next
  irq : ∀ q ∈ i.irq, q = s.next
  reliables : i.reliables = []
  dialog : dialogs.lookup i.leg = some i.transactionId
  keeps : ∀ leg t, s.dialogs.lookup leg = some t → dialogs.lookup leg = some t

theorem cleared_of_inserted (h : s.inserted op = some i) : s.cleared op = none := by
  cases op with
  | clear | clearLeg => exact nomatch h
  | _ => rfl

theorem step_of_inserted (h : s.inserted op = some i) :
    ∃ dialogs, New s dialogs i ∧ s.step op = { s with dialogs := dialogs }.insertInvite i := by
  have hnew : ∀ {leg : Leg} {t : String}, leg ∉ s.dialogs → ∀ leg' t', s.dialogs.lookup leg' = some t' →
      (s.dialogs.insert leg t).lookup leg' = some t' := fun {leg} _ hleg leg' t' hlookup =>
    (AList.lookup_insert_ne fun heq : leg' = leg => hleg (heq ▸ AList.mem_of_lookup hlookup)).trans hlookup
  cases op with
  | incoming leg transactionId =>
    obtain ⟨hleg, ⟨⟩⟩ := Option.ite_none_left_eq_some.mp h
    exact ⟨_, ⟨rfl, fun q hq => (Option.some.inj hq).symm, rfl, AList.lookup_insert _, hnew hleg⟩, if_neg hleg⟩
  | outgoing leg orq transactionId =>
    obtain ⟨hleg, ⟨⟩⟩ := Option.ite_none_left_eq_some.mp h
    exact ⟨_, ⟨rfl, nofun, rfl, AList.lookup_insert _, hnew hleg⟩, if_neg hleg⟩
  | reinvite leg orq =>
    obtain ⟨transactionId, hdialog, rfl⟩ := Option.map_eq_some_iff.mp h
    refine ⟨s.dialogs, ⟨rfl, nofun, rfl, hdialog, fun _ _ h => h⟩, ?_⟩
    simp only [step, hdialog]
    rfl
  | _ => exact nomatch h

namespace Placed

variable {dialogs : AList fun _ : Leg => String}

theorem refuses_iff (h : Placed l s) (hnew : New s dialogs i) :
    s.invites.refuses i = true ↔ ∃ x ∈ l, x.transactionId = i.transactionId := by
  unfold InvitesInProgress.refuses
  simp only [List.any_eq_true, Bool.or_eq_true, beq_iff_eq]
  constructor
  · rintro ⟨x, hx, hserial | htransaction⟩
    · exact absurd (hserial.trans hnew.serial) (h.made x (h.perm.mem_iff.mp hx)).ne
    · exact ⟨x, h.perm.mem_iff.mp hx, htransaction⟩
  · rintro ⟨x, hx, htransaction⟩
    exact ⟨x, h.perm.mem_iff.mpr hx, Or.inr htransaction⟩

/-- An invite that is refused leaves the table alone. -/
theorem insert_refused (h : Placed l s) (hnew : New s dialogs i) (hrefused : s.invites.refuses i = true) :
    Placed l ({ s with dialogs := dialogs }.insertInvite i) where
  perm := by
    show (s.invites.insert i).iips.Perm l
    rw [InvitesInProgress.insert, if_pos hrefused]
    exact h.perm
  dialog x hx := hnew.keeps _ _ (h.dialog x hx)
  transactions := h.transactions
  serials := h.serials
  made x hx := (h.made x hx).trans (Nat.lt_succ_self _)
  handles := by
    show (s.destroyed ++ _).Perm (List.map _ (if s.invites.refuses i = true then s.given else _))
    rw [if_pos hrefused]
    exact h.handles
  distinct := by
    show (List.map _ (if s.invites.refuses i = true then s.given else _)).Nodup
    rw [if_pos hrefused]
    exact h.distinct
  given x hx handle hmem := by
    show _ ∈ (if s.invites.refuses i = true then s.given else _)
    rw [if_pos hrefused]
    exact h.given x hx handle hmem
  numbers p hp := by
    replace hp : p ∈ (if s.invites.refuses i = true then s.given else _) := hp
    rw [if_pos hrefused] at hp
    exact (h.numbers p hp).trans (Nat.lt_succ_self _)

theorem handles_eq (hnew : New s dialogs i) : i.handles = (i.irq.map .irq).toList := by
  rw [IIP.handles, IIP.reliableHandles, hnew.reliables, List.map_nil, List.append_nil]

theorem insert_accepted (h : Placed l s) (hnew : New s dialogs i) (haccepted : ¬ s.invites.refuses i = true) :
    Placed (i :: l) ({ s with dialogs := dialogs }.insertInvite i) := by
  have htransaction : ∀ x ∈ l, x.transactionId ≠ i.transactionId := fun x hx heq =>
    haccepted ((h.refuses_iff hnew).mpr ⟨x, hx, heq⟩)
  have hgiven : ({ s with dialogs := dialogs }.insertInvite i).given = i.handles.map (i.serial, ·) ++ s.given :=
    if_neg haccepted
  have hnumber : ∀ handle ∈ i.handles, handle.number = s.next := by
    intro handle hmem
    rw [handles_eq hnew, Option.mem_toList] at hmem
    obtain ⟨q, hq, rfl⟩ := Option.map_eq_some_iff.mp hmem
    exact hnew.irq q hq
  have hsnd : ({ s with dialogs := dialogs }.insertInvite i).given.map Prod.snd = i.handles ++ s.given.map Prod.snd := by
    rw [hgiven, List.map_append, List.map_map]
    exact congrArg (· ++ _) (List.map_id _)
  constructor
  case perm =>
    show (s.invites.insert i).iips.Perm (i :: l)
    rw [InvitesInProgress.insert, if_neg haccepted]
    exact h.perm.cons i
  case dialog =>
    intro x hx
    rcases List.mem_cons.mp hx with rfl | hx
    · exact hnew.dialog
    · exact hnew.keeps _ _ (h.dialog x hx)
  case transactions =>
    refine List.nodup_cons.mpr ⟨fun hmem => ?_, h.transactions⟩
    obtain ⟨x, hx, heq⟩ := List.mem_map.mp hmem
    exact htransaction x hx heq
  case serials =>
    refine List.nodup_cons.mpr ⟨fun hmem => ?_, h.serials⟩
    obtain ⟨x, hx, heq⟩ := List.mem_map.mp hmem
    exact absurd (heq.trans hnew.serial) (h.made x hx).ne
  case made =>
    intro x hx
    rcases List.mem_cons.mp hx with rfl | hx
    · exact hnew.serial ▸ Nat.lt_succ_self _
    · exact (h.made x hx).trans (Nat.lt_succ_self _)
  case handles =>
    rw [hsnd, List.flatMap_cons]
    exact (List.perm_append_comm_assoc _ _ _).trans (h.handles.append_left _)
  case distinct =>
    rw [hsnd]
    refine List.nodup_append.mpr ⟨?_, h.distinct, ?_⟩
    · rw [handles_eq hnew]
      cases i.irq with
      | none => exact List.nodup_nil
      | some q => exact List.nodup_singleton _
    · rintro handle hown _ hold rfl
      obtain ⟨p, hp, rfl⟩ := List.mem_map.mp hold
      exact absurd (hnumber _ hown) (h.numbers p hp).ne
  case given =>
    intro x hx handle hmem
    rw [hgiven]
    rcases List.mem_cons.mp hx with rfl | hx
    · exact List.mem_append_left _ (List.mem_map.mpr ⟨handle, hmem, rfl⟩)
    · exact List.mem_append_right _ (h.given x hx handle hmem)
  case numbers =>
    intro p hp
    rw [hgiven] at hp
    rcases List.mem_append.mp hp with hp | hp
    · obtain ⟨handle, hmem, rfl⟩ := List.mem_map.mp hp
      exact (hnumber handle hmem) ▸ Nat.lt_succ_self _
    · exact (h.numbers p hp).trans (Nat.lt_succ_self _)

/-- Only the one invite has the transaction id that is modified. -/
theorem modify_perm (h : Placed (x :: rest) s) (f : IIP → IIP) :
    (s.invites.modify x.transactionId f).iips.Perm (f x :: rest) := by
  refine (h.perm.map _).trans ?_
  rw [List.map_cons, if_pos rfl]
  refine List.Perm.cons _ (List.Perm.of_eq ?_)
  exact (List.map_congr_left fun y hy => if_neg (h.others hy).1).trans (List.map_id _)

theorem addReliable (h : Placed (x :: rest) s) : Placed (x.addReliable s.next :: rest) (s.addReliable x) where
  perm := h.modify_perm _
  dialog y hy := by
    rcases List.mem_cons.mp hy with rfl | hy
    · exact h.dialog x List.mem_cons_self
    · exact h.dialog y (List.mem_cons_of_mem _ hy)
  transactions := h.transactions
  serials := h.serials
  made y hy := by
    rcases List.mem_cons.mp hy with rfl | hy
    · exact (h.made x List.mem_cons_self).trans (Nat.lt_succ_self _)
    · exact (h.made y (List.mem_cons_of_mem _ hy)).trans (Nat.lt_succ_self _)
  handles := by
    have hnew : (x.addReliable s.next).handles = x.handles ++ [.reliable s.next] := by
      simp only [IIP.handles, IIP.reliableHandles, IIP.addReliable, List.map_append, List.map_cons, List.map_nil,
        List.append_assoc]
    refine List.perm_iff_count.mpr fun handle => ?_
    have hcount := h.handles.count_eq handle
    show List.count handle (s.destroyed ++ _) = List.count handle (.reliable s.next :: s.given.map Prod.snd)
    simp only [List.flatMap_cons, hnew, List.count_append, List.count_cons, List.count_nil] at hcount ⊢
    omega
  distinct := by
    refine List.nodup_cons.mpr ⟨fun hmem => ?_, h.distinct⟩
    obtain ⟨p, hp, heq⟩ := List.mem_map.mp hmem
    exact absurd (congrArg InviteHandle.number heq) (h.numbers p hp).ne
  given y hy handle hmem := by
    rcases List.mem_cons.mp hy with rfl | hy
    · simp only [IIP.handles, IIP.reliableHandles, IIP.addReliable, List.map_append, List.map_cons, List.map_nil,
        ← List.append_assoc, List.mem_append, List.mem_singleton] at hmem
      rcases hmem with hmem | rfl
      · exact List.mem_cons_of_mem _ (h.given x List.mem_cons_self handle (List.mem_append.mpr hmem))
      · exact List.mem_cons_self
    · exact List.mem_cons_of_mem _ (h.given y (List.mem_cons_of_mem _ hy) handle hmem)
  numbers p hp := by
    rcases List.mem_cons.mp hp with rfl | hp
    · exact Nat.lt_succ_self _
    · exact (h.numbers p hp).trans (Nat.lt_succ_self _)

theorem destroyReliable (h : Placed (x :: rest) s) {rel : Nat} (hrel : rel ∈ x.reliables) :
    Placed (x.destroyReliable rel :: rest) (s.destroyReliable x rel) where
  perm := h.modify_perm _
  dialog y hy := by
    rcases List.mem_cons.mp hy with rfl | hy
    · exact h.dialog x List.mem_cons_self
    · exact h.dialog y (List.mem_cons_of_mem _ hy)
  transactions := h.transactions
  serials := h.serials
  made y hy := by
    rcases List.mem_cons.mp hy with rfl | hy
    · exact h.made x List.mem_cons_self
    · exact h.made y (List.mem_cons_of_mem _ hy)
  handles := by
    have hsplit : x.reliableHandles.Perm (.reliable rel :: (x.destroyReliable rel).reliableHandles) :=
      (List.perm_cons_erase hrel).map _
    refine List.perm_iff_count.mpr fun handle => ?_
    have hcount := h.handles.count_eq handle
    have hrels := hsplit.count_eq handle
    show List.count handle (.reliable rel :: s.destroyed ++ _) = List.count handle (s.given.map Prod.snd)
    simp only [List.flatMap_cons, IIP.handles, List.count_append, List.count_cons, List.cons_append] at hcount hrels ⊢
    simp only [IIP.destroyReliable] at hrels ⊢
    omega
  distinct := h.distinct
  given y hy handle hmem := by
    rcases List.mem_cons.mp hy with rfl | hy
    · refine h.given x List.mem_cons_self handle ?_
      rcases List.mem_append.mp hmem with hirq | hrels
      · exact List.mem_append_left _ hirq
      · obtain ⟨r, hr, rfl⟩ := List.mem_map.mp hrels
        exact List.mem_append_right _ (List.mem_map_of_mem (List.mem_of_mem_erase hr))
    · exact h.given y (List.mem_cons_of_mem _ hy) handle hmem
  numbers := h.numbers

/-- No other invite is on the leg of one that is cleared. -/
theorem clear_eq (h : Placed (x :: rest) s) : (s.invites.clear x).1.iips.Perm rest ∧ (s.invites.clear x).2 = x.handles := by
  constructor
  · refine (h.perm.filter _).trans (List.Perm.of_eq ?_)
    rw [List.filter_cons_of_neg (by simp)]
    exact List.filter_eq_self.mpr fun y hy => decide_eq_true (h.others hy).2.2
  · have hnone : (s.invites.iips.filter fun y => y.leg = x.leg ∧ y.serial ≠ x.serial) = [] := by
      refine List.filter_eq_nil_iff.mpr fun y hy => ?_
      rw [decide_eq_true_iff]
      rintro ⟨hleg, hserial⟩
      rcases List.mem_cons.mp (h.perm.mem_iff.mp hy) with rfl | hy
      · exact hserial rfl
      · exact (h.others hy).2.2 hleg
    unfold InvitesInProgress.clear
    rw [hnone, List.flatMap_nil, List.append_nil]

theorem clearInvite (h : Placed (x :: rest) s) : Placed rest (s.clearInvite x) where
  perm := h.clear_eq.1
  dialog y hy := h.dialog y (List.mem_cons_of_mem _ hy)
  transactions := (List.nodup_cons.mp h.transactions).2
  serials := (List.nodup_cons.mp h.serials).2
  made y hy := h.made y (List.mem_cons_of_mem _ hy)
  handles := by
    refine List.perm_iff_count.mpr fun handle => ?_
    have hcount := h.handles.count_eq handle
    show List.count handle ((s.invites.clear x).2 ++ s.destroyed ++ _) = _
    simp only [h.clear_eq.2, List.flatMap_cons, List.count_append] at hcount ⊢
    exact (Nat.add_assoc _ _ _).trans ((Nat.add_left_comm _ _ _).trans hcount)
  distinct := h.distinct
  given y hy := h.given y (List.mem_cons_of_mem _ hy)
  numbers := h.numbers

/-- A dialog goes when no invite is on its leg. -/
theorem endDialog (h : Placed l s) {leg : Leg} (hleg : ∀ x ∈ l, x.leg ≠ leg) :
    Placed l { s with dialogs := s.dialogs.erase leg } :=
  { h with dialog := fun x hx => (AList.lookup_erase_ne (hleg x hx)).trans (h.dialog x hx) }

end Placed

/-- What a step does to the table: it inserts an invite, gives or takes a reliable response, clears an invite, or leaves
    the table alone. -/
theorem step_cases (s : Inviting) (op : Op) :
    (∃ i, s.inserted op = some i) ∨
    (∃ x ∈ s.invites.iips, s.inserted op = none ∧ s.cleared op = none ∧ s.step op = s.addReliable x) ∨
    (∃ x ∈ s.invites.iips, ∃ rel ∈ x.reliables, s.inserted op = none ∧ s.cleared op = none ∧ s.step op =
      s.destroyReliable x rel) ∨
    (∃ x ∈ s.invites.iips, s.inserted op = none ∧ s.cleared op = some x ∧ s.step op = s.clearInvite x) ∨
    (s.inserted op = none ∧ s.cleared op = none ∧ (s.step op = s ∨ ∃ leg, (∀ x ∈ s.invites.iips, x.leg ≠ leg) ∧
      s.step op = { s with dialogs := s.dialogs.erase leg })) := by
  cases op with
  | incoming leg transactionId =>
    by_cases hleg : leg ∈ s.dialogs
    · exact Or.inr (Or.inr (Or.inr (Or.inr ⟨if_pos hleg, rfl, Or.inl (if_pos hleg)⟩)))
    · exact Or.inl ⟨_, if_neg hleg⟩
  | outgoing leg orq transactionId =>
    by_cases hleg : leg ∈ s.dialogs
    · exact Or.inr (Or.inr (Or.inr (Or.inr ⟨if_pos hleg, rfl, Or.inl (if_pos hleg)⟩)))
    · exact Or.inl ⟨_, if_neg hleg⟩
  | reinvite leg orq =>
    cases hleg : s.dialogs.lookup leg with
    | none =>
      refine Or.inr (Or.inr (Or.inr (Or.inr ⟨congrArg (Option.map _) hleg, rfl, Or.inl ?_⟩)))
      simp only [step, hleg]
    | some transactionId => exact Or.inl ⟨_, congrArg (Option.map _) hleg⟩
  | reliable transactionId =>
    cases hfound : s.invites.findByTransactionId transactionId with
    | none =>
      refine Or.inr (Or.inr (Or.inr (Or.inr ⟨rfl, rfl, Or.inl ?_⟩)))
      simp only [step, hfound]
    | some x =>
      refine Or.inr (Or.inl ⟨x, List.mem_of_find?_eq_some hfound, rfl, rfl, ?_⟩)
      simp only [step, hfound]
  | prack rel =>
    cases hfound : s.invites.findByReliable rel with
    | none =>
      refine Or.inr (Or.inr (Or.inr (Or.inr ⟨rfl, rfl, Or.inl ?_⟩)))
      simp only [step, hfound]
    | some x =>
      have hrel : rel ∈ x.reliables :=
        List.contains_iff_mem.mp (List.find?_some (p := fun x : IIP => x.reliables.contains rel) hfound)
      refine Or.inr (Or.inr (Or.inl ⟨x, List.mem_of_find?_eq_some hfound, rel, hrel, rfl, rfl, ?_⟩))
      simp only [step, hfound]
  | clear serial =>
    cases hfound : s.cleared (.clear serial) with
    | none =>
      refine Or.inr (Or.inr (Or.inr (Or.inr ⟨rfl, rfl, Or.inl ?_⟩)))
      simp only [step, hfound]
    | some x =>
      refine Or.inr (Or.inr (Or.inr (Or.inl ⟨x, List.mem_of_find?_eq_some hfound, rfl, rfl, ?_⟩)))
      simp only [step, hfound]
  | clearLeg leg =>
    cases hfound : s.cleared (.clearLeg leg) with
    | none =>
      refine Or.inr (Or.inr (Or.inr (Or.inr ⟨rfl, rfl, Or.inl ?_⟩)))
      simp only [step, hfound]
    | some x =>
      refine Or.inr (Or.inr (Or.inr (Or.inl ⟨x, List.mem_of_find?_eq_some hfound, rfl, rfl, ?_⟩)))
      simp only [step, hfound]
  | endDialog leg =>
    by_cases hleg : s.invites.iips.any (·.leg == leg) = true
    · exact Or.inr (Or.inr (Or.inr (Or.inr ⟨rfl, rfl, Or.inl (if_pos hleg)⟩)))
    · refine Or.inr (Or.inr (Or.inr (Or.inr ⟨rfl, rfl, Or.inr ⟨leg, fun x hx heq => hleg ?_, if_neg hleg⟩⟩)))
      exact List.any_eq_true.mpr ⟨x, hx, beq_iff_eq.mpr heq⟩

/-- Every step keeps the invites in their places. -/
theorem Placed.step (h : Placed l s) (op : Op) : ∃ l', Placed l' (s.step op) := by
  rcases step_cases s op with ⟨i, hi⟩ | ⟨x, hx, -, -, heq⟩ | ⟨x, hx, rel, hrel, -, -, heq⟩ | ⟨x, hx, -, -, heq⟩ |
      ⟨-, -, heq | ⟨leg, hleg, heq⟩⟩
  · obtain ⟨dialogs, hnew, heq⟩ := step_of_inserted hi
    rw [heq]
    by_cases hrefused : s.invites.refuses i = true
    · exact ⟨l, h.insert_refused hnew hrefused⟩
    · exact ⟨i :: l, h.insert_accepted hnew hrefused⟩
  · obtain ⟨rest, hfocus⟩ := h.focus hx
    exact ⟨_, heq.symm ▸ hfocus.addReliable⟩
  · obtain ⟨rest, hfocus⟩ := h.focus hx
    exact ⟨_, heq.symm ▸ hfocus.destroyReliable hrel⟩
  · obtain ⟨rest, hfocus⟩ := h.focus hx
    exact ⟨_, heq.symm ▸ hfocus.clearInvite⟩
  · exact ⟨l, heq.symm ▸ h⟩
  · exact ⟨l, heq.symm ▸ h.endDialog fun x hx => hleg x (h.perm.mem_iff.mpr hx)⟩

/-! ### Keys -/

/-- The first one in any order that the predicate finds is the invite with the number. -/
def FoundBy (l : List IIP) (p : IIP → Bool) (serial : Nat) : Prop :=
  (∃ x ∈ l, p x = true) ∧ ∀ x ∈ l, p x = true → x.serial = serial

/-- The invites have a key in common. -/
def Shares (x y : IIP) : Prop :=
  x.leg = y.leg ∨ x.transactionId = y.transactionId ∨ (∃ irq, x.irq = some irq ∧ y.irq = some irq) ∨
    ∃ orq, x.orq = some orq ∧ y.orq = some orq

/-- The predicates that an invite is to be found by. -/
inductive Key (i : IIP) : (IIP → Bool) → Prop where
  | leg : Key i (·.leg == i.leg)
  | transactionId : Key i (·.transactionId == i.transactionId)
  | irq (irq : Nat) (h : i.irq = some irq) : Key i (·.irq == some irq)
  | orq (orq : Orq) (h : i.orq = some orq) : Key i (·.orq == some orq)

theorem findable_iff : s.Findable i ↔ ∀ p, Key i p → FoundBy s.invites.iips p i.serial := by
  have horder : ∀ p : IIP → Bool, (∀ t : InvitesInProgress, t.iips.Perm s.invites.iips →
      (t.iips.find? p).map IIP.serial = some i.serial) ↔ FoundBy s.invites.iips p i.serial := fun p =>
    ⟨fun h => Walk.forall_found_iff.mp fun l' hl' => h ⟨l'⟩ hl', fun h t ht => Walk.forall_found_iff.mpr h t.iips ht⟩
  constructor
  · intro h p hp
    refine (horder p).mp fun t ht => ?_
    obtain ⟨hleg, hirq, horq, htransaction⟩ := h t ht
    cases hp with
    | leg => exact hleg
    | transactionId => exact htransaction
    | irq irq heq => exact hirq irq heq
    | orq orq heq => exact horq orq heq
  · intro h t ht
    exact ⟨(horder _).mpr (h _ .leg) t ht, fun irq heq => (horder _).mpr (h _ (.irq irq heq)) t ht,
      fun orq heq => (horder _).mpr (h _ (.orq orq heq)) t ht, (horder _).mpr (h _ .transactionId) t ht⟩

theorem Key.self {p : IIP → Bool} (h : Key i p) : p i = true := by
  cases h with
  | leg | transactionId => exact beq_self_eq_true _
  | irq _ heq | orq _ heq => exact beq_iff_eq.mpr heq

/-- Invites with the same keys are found by the same predicates. -/
theorem Key.congr {p : IIP → Bool} (h : Key i p) (hleg : x.leg = y.leg) (htransaction : x.transactionId = y.transactionId)
    (hirq : x.irq = y.irq) (horq : x.orq = y.orq) : p x = p y := by
  cases h with
  | leg => exact congrArg (· == i.leg) hleg
  | transactionId => exact congrArg (· == i.transactionId) htransaction
  | irq irq => exact congrArg (· == some irq) hirq
  | orq orq => exact congrArg (· == some orq) horq

theorem Key.shares {p : IIP → Bool} (h : Key i p) (hx : p x = true) (hy : p y = true) : Shares x y := by
  cases h with
  | leg => exact Or.inl ((beq_iff_eq.mp hx).trans (beq_iff_eq.mp hy).symm)
  | transactionId => exact Or.inr (Or.inl ((beq_iff_eq.mp hx).trans (beq_iff_eq.mp hy).symm))
  | irq irq => exact Or.inr (Or.inr (Or.inl ⟨irq, beq_iff_eq.mp hx, beq_iff_eq.mp hy⟩))
  | orq orq => exact Or.inr (Or.inr (Or.inr ⟨orq, beq_iff_eq.mp hx, beq_iff_eq.mp hy⟩))

/-- An invite is still found when one of the others has been changed in its reliables. -/
theorem Findable.modify {s' : Inviting} {x' : IIP} (h : s.Findable i) (hs : s.invites.iips.Perm (x :: rest))
    (hs' : s'.invites.iips.Perm (x' :: rest)) (hserial : x'.serial = x.serial) (hleg : x'.leg = x.leg)
    (htransaction : x'.transactionId = x.transactionId) (hirq : x'.irq = x.irq) (horq : x'.orq = x.orq) : s'.Findable i := by
  refine findable_iff.mpr fun p hp => ?_
  have hsame : p x' = p x := hp.congr hleg htransaction hirq horq
  obtain ⟨⟨y, hy, hpy⟩, hall⟩ := findable_iff.mp h p hp
  constructor
  · rcases List.mem_cons.mp (hs.mem_iff.mp hy) with rfl | hy
    · exact ⟨x', hs'.mem_iff.mpr List.mem_cons_self, hsame.trans hpy⟩
    · exact ⟨y, hs'.mem_iff.mpr (List.mem_cons_of_mem _ hy), hpy⟩
  · intro z hz hpz
    rcases List.mem_cons.mp (hs'.mem_iff.mp hz) with rfl | hz
    · exact hserial.trans (hall x (hs.mem_iff.mpr List.mem_cons_self) (hsame.symm.trans hpz))
    · exact hall z (hs.mem_iff.mpr (List.mem_cons_of_mem _ hz)) hpz

/-- An invite is still found when another one is gone. -/
theorem Findable.clear {s' : Inviting} (h : s.Findable i) (hs : s.invites.iips.Perm (x :: rest))
    (hs' : s'.invites.iips.Perm rest)
    (hne : i.serial ≠ x.serial) : s'.Findable i := by
  refine findable_iff.mpr fun p hp => ?_
  obtain ⟨⟨y, hy, hpy⟩, hall⟩ := findable_iff.mp h p hp
  refine ⟨⟨y, hs'.mem_iff.mpr ?_, hpy⟩, fun z hz => hall z (hs.mem_iff.mpr (List.mem_cons_of_mem _ (hs'.mem_iff.mp hz)))⟩
  rcases List.mem_cons.mp (hs.mem_iff.mp hy) with rfl | hy'
  · exact absurd (hall y hy hpy).symm hne
  · exact hy'

/-- With no key in common both the old invites and the new one are found. -/
theorem Findable.insert {s' : Inviting} (hs' : s'.invites.iips.Perm (i :: l)) (hshares : ∀ x ∈ l, ¬ Shares x i) :
    s'.Findable i ∧ ∀ j, s.invites.iips.Perm l → s.Findable j → s'.Findable j := by
  constructor
  · refine findable_iff.mpr fun p hp => ⟨⟨i, hs'.mem_iff.mpr List.mem_cons_self, hp.self⟩, fun z hz hpz => ?_⟩
    rcases List.mem_cons.mp (hs'.mem_iff.mp hz) with rfl | hz
    · rfl
    · exact absurd (hp.shares hpz hp.self) (hshares z hz)
  · intro j hs h
    refine findable_iff.mpr fun p hp => ?_
    obtain ⟨⟨y, hy, hpy⟩, hall⟩ := findable_iff.mp h p hp
    have hy' := hs.mem_iff.mp hy
    refine ⟨⟨y, hs'.mem_iff.mpr (List.mem_cons_of_mem _ hy'), hpy⟩, fun z hz hpz => ?_⟩
    rcases List.mem_cons.mp (hs'.mem_iff.mp hz) with rfl | hz
    · exact absurd (hp.shares hpy hpz) (hshares y hy')
    · exact hall z (hs.mem_iff.mpr hz) hpz

/-- What the condition leaves: a leg has one dialog, and a transaction that is made has a number of its own. -/
theorem not_shares {dialogs : AList fun _ : Leg => String} (h : Placed l s) (hnew : New s dialogs i)
    (hapart : ∀ x ∈ l, x.transactionId ≠ i.transactionId ∧ ∀ orq ∈ i.orq, x.orq ≠ some orq) : ∀ x ∈ l, ¬ Shares x i := by
  rintro x hx (hleg | htransaction | ⟨irq, hirq, hirq'⟩ | ⟨orq, horq, horq'⟩)
  · have hdialog := hnew.keeps _ _ (h.dialog x hx)
    rw [hleg, hnew.dialog] at hdialog
    exact (hapart x hx).1 (Option.some.inj hdialog).symm
  · exact (hapart x hx).1 htransaction
  · have hgiven := h.given x hx (.irq irq) (List.mem_append_left _ (by rw [hirq]; exact List.mem_singleton_self _))
    exact absurd (hnew.irq irq hirq') (h.numbers _ hgiven).ne
  · exact (hapart x hx).2 orq horq' horq

/-- An invite that is found once it is inserted had a transaction id and an address that no other one had. -/
theorem apart_of_findable {dialogs : AList fun _ : Leg => String} (h : Placed l s) (hnew : New s dialogs i)
    (hfound : ({ s with dialogs := dialogs }.insertInvite i).Findable i) :
    ∀ x ∈ l, x.transactionId ≠ i.transactionId ∧ ∀ orq ∈ i.orq, x.orq ≠ some orq := by
  have hfresh : ∀ x ∈ l, x.serial ≠ i.serial := fun x hx heq => absurd (heq.trans hnew.serial) (h.made x hx).ne
  have haccepted : ¬ s.invites.refuses i = true := by
    intro hrefused
    obtain ⟨⟨x, hx, htransaction⟩, hall⟩ := findable_iff.mp hfound _ .transactionId
    exact hfresh x ((h.insert_refused hnew hrefused).perm.mem_iff.mp hx) (hall x hx htransaction)
  have hperm := (h.insert_accepted hnew haccepted).perm
  intro x hx
  have hx' := hperm.mem_iff.mpr (List.mem_cons_of_mem i hx)
  constructor
  · intro heq
    exact hfresh x hx ((findable_iff.mp hfound _ .transactionId).2 x hx' (beq_iff_eq.mpr heq))
  · intro orq horq heq
    exact hfresh x hx ((findable_iff.mp hfound _ (.orq orq horq)).2 x hx' (beq_iff_eq.mpr heq))

/-! ### Runs -/

/-- The invites that are outstanding can be found, and are numbered. -/
structure Tracked (s : Inviting) : Prop where
  placed : ∃ l, Placed l s
  findable : ∀ i ∈ s.outstanding, s.Findable i

theorem Tracked.empty : Tracked empty := ⟨⟨[], Placed.empty⟩, fun _ hi => absurd hi List.not_mem_nil⟩

theorem step_apart (h : s.Tracked) (hop : s.Apart op) : (s.step op).Tracked := by
  obtain ⟨l, hplaced⟩ := h.placed
  refine ⟨hplaced.step op, ?_⟩
  rcases step_cases s op with ⟨i, hi⟩ | ⟨x, hx, -, -, heq⟩ | ⟨x, hx, rel, hrel, -, -, heq⟩ | ⟨x, hx, -, -, heq⟩ |
      ⟨-, -, heq | ⟨leg, hleg, heq⟩⟩
  · obtain ⟨dialogs, hnew, heq⟩ := step_of_inserted hi
    have hapart := fun x hx => hop i hi x (hplaced.perm.mem_iff.mpr hx)
    have haccepted : ¬ s.invites.refuses i = true := fun hrefused =>
      have ⟨x, hx, htransaction⟩ := (hplaced.refuses_iff hnew).mp hrefused
      (hapart x hx).1 htransaction
    obtain ⟨hfound, hothers⟩ := Findable.insert (s := s) (hplaced.insert_accepted hnew haccepted).perm
      (not_shares hplaced hnew hapart)
    rw [heq]
    intro j hj
    rcases List.mem_cons.mp hj with rfl | hj
    · exact hfound
    · exact hothers j hplaced.perm (h.findable j hj)
  · obtain ⟨rest, hfocus⟩ := hplaced.focus hx
    rw [heq]
    exact fun j hj => (h.findable j hj).modify hfocus.perm hfocus.addReliable.perm rfl rfl rfl rfl rfl
  · obtain ⟨rest, hfocus⟩ := hplaced.focus hx
    rw [heq]
    exact fun j hj => (h.findable j hj).modify hfocus.perm (hfocus.destroyReliable hrel).perm rfl rfl rfl rfl rfl
  · obtain ⟨rest, hfocus⟩ := hplaced.focus hx
    rw [heq]
    intro j hj
    obtain ⟨hj, hne⟩ := List.mem_filter.mp hj
    exact (h.findable j hj).clear hfocus.perm hfocus.clearInvite.perm (of_decide_eq_true hne)
  · rw [heq]
    exact h.findable
  · rw [heq]
    exact h.findable

/-- A step is right exactly when the invite it inserts, if it does, can be told from those in the table. -/
theorem kept_iff_apart (h : s.Tracked) : s.Kept op ↔ s.Apart op := by
  obtain ⟨l, hplaced⟩ := h.placed
  constructor
  · intro hkept i hi x hx
    obtain ⟨dialogs, hnew, heq⟩ := step_of_inserted hi
    have hfound := hkept.findable i (by rw [heq]; exact List.mem_cons_self)
    rw [heq] at hfound
    exact apart_of_findable hplaced hnew hfound x (hplaced.perm.mem_iff.mp hx)
  · intro hop
    have hnext := step_apart h hop
    obtain ⟨l', hplaced'⟩ := hnext.placed
    refine ⟨hnext.findable, fun i hi x => ?_, fun p hp hleft => ?_⟩
    · rcases step_cases s op with ⟨j, hj⟩ | ⟨y, -, -, hnone, -⟩ | ⟨y, -, rel, -, -, hnone, -⟩ | 
        ⟨y, hy, -, hsome, heq⟩ | ⟨-, hnone, -⟩
      · exact nomatch (cleared_of_inserted hj).symm.trans hi
      · exact nomatch hnone.symm.trans hi
      · exact nomatch hnone.symm.trans hi
      · obtain rfl := Option.some.inj (hsome.symm.trans hi)
        obtain ⟨rest, hfocus⟩ := hplaced.focus hy
        rw [heq, hfocus.clearInvite.perm.mem_iff, hfocus.perm.mem_iff, List.mem_cons]
        constructor
        · exact fun hx => ⟨Or.inr hx, fun heq => (hfocus.others hx).1 (congrArg _ heq)⟩
        · exact fun ⟨hx, hne⟩ => hx.resolve_left hne
      · exact nomatch hnone.symm.trans hi
    · exact hplaced'.count_destroyed hp fun x hx => hleft x (hplaced'.perm.mem_iff.mpr hx)

end

/-- Over a run of calls the invites are found by all their keys until they are cleared, one at a time, with all their
    handles exactly when each is inserted into a table that has neither its transaction id nor the address of its
    transaction. -/
theorem invites_kept_iff (ops : List Op) : Meets step Kept empty ops ↔ Meets step Apart empty ops :=
  meets_iff (fun _ _ h => kept_iff_apart h) (fun _ _ h hop => step_apart h hop) Tracked.empty

/-- A re-INVITE on a dialog whose own INVITE has not been acknowledged is not in the table. -/
theorem reinvite_not_found : ¬ Meets step Kept empty [.incoming 1 "t", .reinvite 1 7] := by
  rintro ⟨hfirst, hsecond, -⟩
  have htracked := step_apart Tracked.empty ((kept_iff_apart Tracked.empty).mp hfirst)
  exact ((kept_iff_apart htracked).mp hsecond _ rfl _ (List.mem_singleton_self _)).1 rfl

end Inviting

end Drachtio.Dialog
