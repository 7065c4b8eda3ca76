import Drachtio.Theorems.Dialog.Frames

/-! When a transaction id is backed: what is in the table of net transactions belongs to an incoming request, a pending
    request or an INVITE that is answered, and an incoming request has its net transaction. The end of a handler takes
    the ids of the objects it destroys along. -/

namespace Drachtio.Dialog.Registries

open Client (ClientId)

variable {s s' : Registries} {leg : Leg} {d : SipDialog} {t : String} {X Y : String → Prop}

/-- The client has disconnected. -/
def Lost (client : Option ClientId) (s : Registries) : Prop := ∃ c ∈ client, c ∈ s.gone

instance {client : Option ClientId} : Decidable (s.Lost client) := inferInstanceAs (Decidable (∃ c ∈ client, c ∈ s.gone))

structure BackedAt (t : String) (s : Registries) : Prop where
  net : t ∈ s.netTransactions →
    t ∈ s.irqs ∨ t ∈ s.pending.txnId2Invite ∨ ∃ l, obs shownTransaction s l = some (t, none)
  sent : ∀ l orq, obs shownTransaction s l = some (t, some orq) → t ∉ s.netTransactions
  irq : ∀ irq, s.irqs.lookup t = some irq → t ∈ s.netTransactions ∨ s.Lost irq.owner

def Backed (s : Registries) : Prop := ∀ t, s.BackedAt t

/-- The object of the transaction is destroyed at the end of the handler. -/
def Leaving (t : String) (s : Registries) : Prop :=
  ∃ l d, s.legs.lookup l = some d ∧ d.transactionId = t ∧ s.referenced l d = false

/-- What holds at the end of a handler, before the objects without pointers are destroyed. -/
def Handled (s : Registries) : Prop := ∀ t, s.BackedAt t ∨ (t ∉ s.irqs ∧ s.Leaving t)

theorem Backed.handled (h : s.Backed) : s.Handled := fun t => .inl (h t)

theorem obs_shownTransaction {l : Leg} {o : Option Orq} (h : obs shownTransaction s l = some (t, o)) :
    ∃ d, s.legs.lookup l = some d ∧ d.transactionId = t ∧ d.invite.any (fun i => i.orq == o) = true := by
  obtain ⟨d, hd, hshown⟩ := obs_eq_some.mp h
  obtain ⟨i, hi, hpair⟩ := Option.map_eq_some_iff.mp hshown
  cases hpair
  exact ⟨d, hd, rfl, by simp [hi]⟩

/-! ### Ids that are backed -/

theorem BackedAt.absent (hnet : t ∉ s.netTransactions) (hirq : t ∉ s.irqs) : s.BackedAt t :=
  ⟨fun h => absurd h hnet, fun _ _ _ => hnet, fun _ h => absurd (AList.mem_of_lookup h) hirq⟩

/-- An incoming request has no object. -/
theorem BackedAt.of_irq (hdistinct : s.Distinct) (ht : t ∈ s.irqs)
    (h : ∀ irq, s.irqs.lookup t = some irq → t ∈ s.netTransactions ∨ s.Lost irq.owner) : s.BackedAt t := by
  refine ⟨fun _ => .inl ht, fun l orq hl => ?_, h⟩
  obtain ⟨d, hd, htxn, -⟩ := obs_shownTransaction hl
  exact absurd (htxn ▸ ht) (hdistinct.irqs l d hd)

theorem BackedAt.of_pending (hdistinct : s.Distinct) (ht : t ∈ s.pending.txnId2Invite) : s.BackedAt t := by
  refine ⟨fun _ => .inr (.inl ht), fun l orq hl => ?_, fun irq hirq => ?_⟩
  · obtain ⟨d, hd, htxn, -⟩ := obs_shownTransaction hl
    exact absurd (htxn ▸ ht) (hdistinct.pending l d hd)
  · exact absurd (AList.mem_of_lookup hirq) (hdistinct.apart t ht)

theorem BackedAt.of_incoming (hdistinct : s.Distinct) {l : Leg} (hl : obs shownTransaction s l = some (t, none)) :
    s.BackedAt t := by
  obtain ⟨d, hd, htxn, -⟩ := obs_shownTransaction hl
  refine ⟨fun _ => .inr (.inr ⟨l, hl⟩), fun l' orq hl' => ?_, fun irq hirq => ?_⟩
  · obtain ⟨d', hd', htxn', -⟩ := obs_shownTransaction hl'
    cases hdistinct.once l l' d d' hd hd' (htxn.trans htxn'.symm)
    exact nomatch hl.symm.trans hl'
  · exact absurd (htxn ▸ AList.mem_of_lookup hirq) (hdistinct.irqs l d hd)

theorem mem_congr {α : Type} {m m' : AList fun _ : String => α} (h : m'.lookup t = m.lookup t) : t ∈ m' ↔ t ∈ m := by
  rw [← AList.lookup_isSome, ← AList.lookup_isSome, h]

theorem BackedAt.frame (h : s.BackedAt t) (hf : Frame X Y s s') (hX : ¬X t) (hY : ¬Y t) : s'.BackedAt t := by
  have hnet := mem_congr (hf.net t hX)
  have hirqs := mem_congr (hf.irqs t hX)
  refine ⟨fun ht => ?_, fun l orq hl => ?_, fun irq hirq => ?_⟩
  · rcases h.net (hnet.mp ht) with hirq | hpending | ⟨l, hl⟩
    · exact .inl (hirqs.mpr hirq)
    · exact .inr (.inl (hf.pending ▸ hpending))
    · exact .inr (.inr ⟨l, (hf.invites l t none hY).mpr hl⟩)
  · exact fun ht => h.sent l orq ((hf.invites l t (some orq) hY).mp hl) (hnet.mp ht)
  · rcases h.irq irq ((hf.irqs t hX).symm.trans hirq) with ht | hlost
    · exact .inl (hnet.mpr ht)
    · unfold Lost
      rw [hf.gone]
      exact .inr hlost

/-- A net transaction without an incoming request may go. -/
theorem BackedAt.removeNetTransaction {u : String} (h : s.BackedAt t) (hirq : u ∉ s.irqs) :
    (s.removeNetTransaction u).BackedAt t := by
  by_cases htu : t = u
  · subst htu
    refine .absent (fun hmem => ?_) hirq
    exact (AList.mem_erase.mp hmem).1 rfl
  · exact h.frame (X := (· = u)) (Y := fun _ => False) (Frame.removeNetTransaction rfl) htu id

theorem Backed.frame (h : s.Backed) (hf : Frame (fun _ => False) (fun _ => False) s s') : s'.Backed :=
  fun t => (h t).frame hf id id

/-- Of the objects only an INVITE that is answered has a net transaction. -/
theorem Backed.incoming (h : s.Backed) (hdistinct : s.Distinct) (hd : s.legs.lookup leg = some d)
    (ht : d.transactionId ∈ s.netTransactions) : d.invite.any (·.orq.isNone) = true := by
  rcases (h d.transactionId).net ht with hirq | hpending | ⟨l, hl⟩
  · exact absurd hirq (hdistinct.irqs leg d hd)
  · exact absurd hpending (hdistinct.pending leg d hd)
  · obtain ⟨e, he, htxn, hinvite⟩ := obs_shownTransaction hl
    cases hdistinct.once l leg e d he hd htxn
    cases he.symm.trans hd
    cases hi : d.invite with
    | none =>
      rw [hi] at hinvite
      exact nomatch hinvite
    | some i =>
      rw [hi] at hinvite
      have horq : i.orq = none := beq_iff_eq.mp hinvite
      show i.orq.isNone = true
      rw [horq]
      rfl

/-! ### The end of a handler -/

theorem lookup_clearDangling_irqs {ts : List String} (ht : t ∉ ts) :
    (s.clearDanglingIncomingRequests ts).irqs.lookup t = s.irqs.lookup t := by
  induction ts generalizing s with
  | nil => rfl
  | cons u ts ih =>
    obtain ⟨hu, hts⟩ := not_or.mp (mt List.mem_cons.mpr ht)
    exact (@ih ((s.removeIrq u).removeNetTransaction u) hts).trans (AList.lookup_erase_ne hu)

theorem lookup_clearDangling_net {ts : List String} (ht : t ∉ ts) :
    (s.clearDanglingIncomingRequests ts).netTransactions.lookup t = s.netTransactions.lookup t := by
  induction ts generalizing s with
  | nil => rfl
  | cons u ts ih =>
    obtain ⟨hu, hts⟩ := not_or.mp (mt List.mem_cons.mpr ht)
    exact (@ih ((s.removeIrq u).removeNetTransaction u) hts).trans (AList.lookup_erase_ne hu)

/-- The ids of the requests in a dialog leave both tables, and no others come. -/
theorem mem_clearDangling {ts : List String} :
    (t ∈ (s.clearDanglingIncomingRequests ts).irqs → t ∉ ts ∧ t ∈ s.irqs) ∧
      (t ∈ (s.clearDanglingIncomingRequests ts).netTransactions → t ∉ ts ∧ t ∈ s.netTransactions) := by
  induction ts generalizing s with
  | nil => exact ⟨fun h => ⟨List.not_mem_nil, h⟩, fun h => ⟨List.not_mem_nil, h⟩⟩
  | cons u ts ih =>
    obtain ⟨hirqs, hnet⟩ := @ih ((s.removeIrq u).removeNetTransaction u)
    refine ⟨fun h => ?_, fun h => ?_⟩
    · obtain ⟨hts, hmem⟩ := hirqs h
      obtain ⟨hu, hold⟩ := AList.mem_erase.mp hmem
      exact ⟨mt List.mem_cons.mp (not_or.mpr ⟨hu, hts⟩), hold⟩
    · obtain ⟨hts, hmem⟩ := hnet h
      obtain ⟨hu, hold⟩ := AList.mem_erase.mp hmem
      exact ⟨mt List.mem_cons.mp (not_or.mpr ⟨hu, hts⟩), hold⟩

theorem net_destroy (h : t ∈ (s.destroy leg d).netTransactions) :
    t ≠ d.transactionId ∧ t ∉ d.incoming ∧ t ∈ s.netTransactions := by
  obtain ⟨hne, hmem⟩ := AList.mem_erase.mp h
  obtain ⟨hincoming, hold⟩ := mem_clearDangling.2 hmem
  exact ⟨hne, hincoming, hold⟩

theorem BackedAt.destroy (h : s.BackedAt t) (hd : s.legs.lookup leg = some d) (hirq : d.transactionId ∉ s.irqs)
    (href : s.referenced leg d = false) : (s.destroy leg d).BackedAt t := by
  by_cases hincoming : t ∈ d.incoming
  · exact .absent (fun hnet => (net_destroy hnet).2.1 hincoming) fun hmem => (mem_clearDangling.1 hmem).1 hincoming
  · have hirqs : (s.destroy leg d).irqs.lookup t = s.irqs.lookup t := lookup_clearDangling_irqs hincoming
    by_cases ht : t = d.transactionId
    · refine .absent (fun hnet => (net_destroy hnet).1 ht) fun hmem => hirq ?_
      exact ht ▸ (mem_congr hirqs).mp hmem
    · have hnet : (s.destroy leg d).netTransactions.lookup t = s.netTransactions.lookup t :=
        (AList.lookup_erase_ne ht).trans (lookup_clearDangling_net hincoming)
      have hinvite : d.invite = none := (referenced_eq_false href).2.1
      refine h.frame (X := (· ≠ t)) (Y := fun _ => False) ⟨?_, ?_, fun u hu => ?_, fun u hu => ?_, fun l u o _ => ?_⟩
        (fun hne => hne rfl) id
      · rw [destroy_eq]
      · rw [destroy_eq]
      · rw [of_not_not hu]
        exact hnet
      · rw [of_not_not hu]
        exact hirqs
      · rw [destroy_eq]
        by_cases hl : l = leg
        · have hnow : obs shownTransaction s l = none := by
            rw [hl, obs_of_lookup hd, shownTransaction, hinvite, Option.map_none]
          have hgone : obs shownTransaction (s.destroy leg d) l = none := by
            have herase : (s.legs.erase leg).lookup l = none := hl ▸ AList.lookup_erase ..
            rw [destroy_eq]
            exact congrArg (Option.bind · shownTransaction) herase
          rw [← destroy_eq, hgone, hnow]
        · have hsame : (s.legs.erase leg).lookup l = s.legs.lookup l := AList.lookup_erase_ne hl
          exact Eq.congr_left (congrArg (Option.bind · shownTransaction) hsame)

/-- The net transaction of an object that is destroyed goes with it. -/
theorem net_collect (hd : s.legs.lookup leg = some d) (href : s.referenced leg d = false) :
    d.transactionId ∉ s.collect.netTransactions := by
  have hfold : ∀ (es : List (Sigma fun _ : Leg => SipDialog)) (s' : Registries), s'.rips = s.rips →
      ((⟨leg, d⟩ : Sigma fun _ : Leg => SipDialog) ∈ es ∨ d.transactionId ∉ s'.netTransactions) →
      d.transactionId ∉
        (es.foldl (fun s e => if s.referenced e.1 e.2 = true then s else s.destroy e.1 e.2) s').netTransactions := by
    intro es
    induction es with
    | nil => exact fun s' _ h => h.resolve_left List.not_mem_nil
    | cons e es ih =>
      intro s' hrips h
      have hrips' : (s'.destroy e.1 e.2).rips = s.rips := by
        rw [destroy_eq]
        exact hrips
      rw [List.foldl_cons]
      split
      · rename_i he
        refine ih s' hrips (h.imp_left fun hmem => (List.mem_cons.mp hmem).resolve_left fun heq => ?_)
        subst heq
        have hsame : s'.referenced leg d = s.referenced leg d := by rw [referenced, referenced, hrips]
        cases (hsame.trans href).symm.trans he
      · refine ih _ hrips' ?_
        rcases h with hmem | hnet
        · rcases List.mem_cons.mp hmem with heq | hmem
          · subst heq
            exact .inr fun hmem => (net_destroy hmem).1 rfl
          · exact .inl hmem
        · exact .inr fun hmem => hnet (net_destroy hmem).2.2
  exact hfold s.legs.entries s rfl (.inl (mem_entries.mpr hd))

theorem Handled.collect (h : s.Handled) (hdistinct : s.Distinct) : s.collect.Backed := by
  intro t
  rcases h t with hbacked | ⟨hirq, l, d, hd, rfl, href⟩
  · refine (collect_induction (P := fun s' => s'.BackedAt t ∧ s'.Distinct) ⟨hbacked, hdistinct⟩ fun s' leg d h
      hd _ _ href => ?_).1
    exact ⟨h.1.destroy hd (h.2.irqs leg d hd) href, h.2.shrinks Grows.destroy⟩
  · have hg : Grows (fun _ => False) (fun _ => False) s s.collect := Grows.collect
    exact .absent (net_collect hd href) fun hmem => hirq ((hg.irqs _ hmem).resolve_right id)

end Drachtio.Dialog.Registries
