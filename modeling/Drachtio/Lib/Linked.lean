import Mathlib.Data.List.Basic

/-! Doubly linked chains: a list of nodes whose `next` and `prev` links lead from each to its neighbours. -/

namespace Linked

variable {α : Type}

/-- The nodes of the list are linked to each other, the first one back to `p` and the last one on to `n`. -/
def Chain (next prev : α → Option α) : Option α → List α → Option α → Prop
  | _, [], _ => True
  | p, a :: l, n => prev a = p ∧ next a = l.head?.or n ∧ Chain next prev (some a) l n

section
variable {next prev next' prev' : α → Option α} {p n : Option α} {a : α} {l l₁ l₂ : List α}

@[simp] theorem chain_nil : Chain next prev p [] n := trivial

@[simp] theorem chain_cons :
    Chain next prev p (a :: l) n ↔ prev a = p ∧ next a = l.head?.or n ∧ Chain next prev (some a) l n := Iff.rfl

theorem chain_append :
    Chain next prev p (l₁ ++ l₂) n ↔ Chain next prev p l₁ (l₂.head?.or n) ∧ Chain next prev (l₁.getLast?.or p) l₂ n := by
  induction l₁ generalizing p with
  | nil => simp
  | cons a l₁ ih =>
    have hlast : (a :: l₁).getLast?.or p = l₁.getLast?.or (some a) := by
      cases l₁ with
      | nil => rfl
      | cons b l₁ => simp [List.getLast?_cons]
    have hhead : (l₁ ++ l₂).head?.or n = l₁.head?.or (l₂.head?.or n) := by
      cases l₁ with
      | nil => rfl
      | cons b l₁ => rfl
    rw [List.cons_append, chain_cons, chain_cons, ih, hlast, hhead, and_assoc, and_assoc]

/-- The links of a node inside a chain. -/
theorem Chain.links (h : Chain next prev p (l₁ ++ a :: l₂) n) : prev a = l₁.getLast?.or p ∧ next a = l₂.head?.or n := by
  obtain ⟨-, hprev, hnext, -⟩ := chain_append.mp h
  exact ⟨hprev, hnext⟩

/-- A chain only depends on the links of its nodes. -/
theorem Chain.congr (h : Chain next prev p l n) (hnext : ∀ a ∈ l, next' a = next a) (hprev : ∀ a ∈ l, prev' a = prev a) :
    Chain next' prev' p l n := by
  induction l generalizing p with
  | nil => trivial
  | cons a l ih =>
    obtain ⟨hp, hn, hl⟩ := h
    have hl' := ih hl (fun b hb => hnext b (List.mem_cons_of_mem _ hb)) (fun b hb => hprev b (List.mem_cons_of_mem _ hb))
    exact ⟨(hprev a List.mem_cons_self).trans hp, (hnext a List.mem_cons_self).trans hn, hl'⟩

/-- A chain that ends is determined by its first node. -/
theorem Chain.eq_of_head? {l' : List α} {p' : Option α} (h : Chain next prev p l none) (h' : Chain next prev p' l' none)
    (hhead : l.head? = l'.head?) : l = l' := by
  induction l generalizing p p' l' with
  | nil => exact (List.head?_eq_none_iff.mp hhead.symm).symm
  | cons a l ih =>
    obtain ⟨b, l', rfl⟩ : ∃ b l'', l' = b :: l'' := List.exists_cons_of_ne_nil fun h => by
      rw [h] at hhead
      exact nomatch hhead
    obtain rfl := Option.some.inj hhead
    obtain ⟨-, hn, hl⟩ := h
    obtain ⟨-, hn', hl'⟩ := h'
    rw [Option.or_none] at hn hn'
    rw [ih hl hl' (hn.symm.trans hn')]

/-- A chain that ends differently differs in the link of its last node. -/
theorem Chain.relink_last {n' : Option α} (h : Chain next prev p (l ++ [a]) n) (hnext : ∀ b ∈ l, next' b = next b)
    (hlast : next' a = n') (hprev : ∀ b ∈ l ++ [a], prev' b = prev b) : Chain next' prev' p (l ++ [a]) n' := by
  obtain ⟨hl, hp, -, -⟩ := chain_append.mp h
  refine chain_append.mpr ⟨hl.congr hnext fun b hb => hprev b (List.mem_append_left _ hb), ?_, ?_, trivial⟩
  · exact (hprev a (List.mem_append_right _ List.mem_cons_self)).trans hp
  · simpa using hlast

/-- A chain that starts differently differs in the back link of its first node. -/
theorem Chain.relink_first {p' : Option α} (h : Chain next prev p (a :: l) n) (hnext : ∀ b ∈ a :: l, next' b = next b)
    (hfirst : prev' a = p') (hprev : ∀ b ∈ l, prev' b = prev b) : Chain next' prev' p' (a :: l) n := by
  obtain ⟨-, hn, hl⟩ := h
  exact ⟨hfirst, (hnext a List.mem_cons_self).trans hn, hl.congr (fun b hb => hnext b (List.mem_cons_of_mem _ hb)) hprev⟩

/-- The part of a chain before a place, with the link of its last node set to `n'`. -/
theorem Chain.relink_before [DecidableEq α] {n' : Option α} (h : Chain next prev p l₁ n) (hnodup : l₁.Nodup)
    (hnext : ∀ b ∈ l₁, next' b = if l₁.getLast? = some b then n' else next b) (hprev : ∀ b ∈ l₁, prev' b = prev b) :
    Chain next' prev' p l₁ n' := by
  rcases List.eq_nil_or_concat l₁ with rfl | ⟨l, a, rfl⟩
  · trivial
  · rw [List.concat_eq_append] at h hnodup hnext hprev ⊢
    have hlast : (l ++ [a]).getLast? = some a := List.getLast?_concat
    refine h.relink_last (fun b hb => ?_) ?_ hprev
    · have hne : a ≠ b := by
        rintro rfl
        exact (List.nodup_append.mp hnodup).2.2 a hb a List.mem_cons_self rfl
      rw [hnext b (List.mem_append_left _ hb), hlast, if_neg fun he => hne (Option.some.inj he)]
    · rw [hnext a (List.mem_append_right _ List.mem_cons_self), hlast, if_pos rfl]

/-- The part of a chain behind a place, with the back link of its first node set to `p'`. -/
theorem Chain.relink_behind [DecidableEq α] {p' : Option α} (h : Chain next prev p l₂ n) (hnodup : l₂.Nodup)
    (hnext : ∀ b ∈ l₂, next' b = next b) (hprev : ∀ b ∈ l₂, prev' b = if l₂.head? = some b then p' else prev b) :
    Chain next' prev' p' l₂ n := by
  cases l₂ with
  | nil => trivial
  | cons a l =>
    refine h.relink_first hnext ?_ fun b hb => ?_
    · rw [hprev a List.mem_cons_self, List.head?_cons, if_pos rfl]
    · have hne : a ≠ b := by
        rintro rfl
        exact (List.nodup_cons.mp hnodup).1 hb
      rw [hprev b (List.mem_cons_of_mem _ hb), List.head?_cons, if_neg fun he => hne (Option.some.inj he)]

theorem getLast?_ne_of_mem_right (hnodup : (l₁ ++ l₂).Nodup) {b : α} (hb : b ∈ l₂) : l₁.getLast? ≠ some b := fun h =>
  (List.nodup_append.mp hnodup).2.2 b (List.mem_of_getLast? h) b hb rfl

theorem head?_ne_of_mem_left (hnodup : (l₁ ++ l₂).Nodup) {b : α} (hb : b ∈ l₁) : l₂.head? ≠ some b := fun h =>
  (List.nodup_append.mp hnodup).2.2 b hb b (List.mem_of_head? h) rfl

section
variable [DecidableEq α]

/-- What relinking the neighbours of a place in a list does: the node before it leads to `n'`, the node
    behind it back to `p'`, and nothing else changes. -/
structure Relinked (next prev next' prev' : α → Option α) (l₁ l₂ : List α) (p' n' : Option α) : Prop where
  next : ∀ b ∈ l₁ ++ l₂, next' b = if l₁.getLast? = some b then n' else next b
  prev : ∀ b ∈ l₁ ++ l₂, prev' b = if l₂.head? = some b then p' else prev b

theorem Relinked.before {p' n' : Option α} (r : Relinked next prev next' prev' l₁ l₂ p' n') (hnodup : (l₁ ++ l₂).Nodup)
    (h : Chain next prev p l₁ n) : Chain next' prev' p l₁ n' := by
  refine h.relink_before (List.nodup_append.mp hnodup).1 (fun b hb => r.next b (List.mem_append_left _ hb)) fun b hb => ?_
  rw [r.prev b (List.mem_append_left _ hb), if_neg (head?_ne_of_mem_left hnodup hb)]

theorem Relinked.behind {p' n' : Option α} (r : Relinked next prev next' prev' l₁ l₂ p' n') (hnodup : (l₁ ++ l₂).Nodup)
    (h : Chain next prev p l₂ n) : Chain next' prev' p' l₂ n := by
  refine h.relink_behind (List.nodup_append.mp hnodup).2.1 (fun b hb => ?_) fun b hb => r.prev b (List.mem_append_right _ hb)
  rw [r.next b (List.mem_append_right _ hb), if_neg (getLast?_ne_of_mem_right hnodup hb)]

/-- A node between its neighbours. -/
theorem Chain.insert (h : Chain next prev none (l₁ ++ l₂) none) (hnodup : (l₁ ++ l₂).Nodup)
    (r : Relinked next prev next' prev' l₁ l₂ (some a) (some a)) (hnext : next' a = l₂.head?)
    (hprev : prev' a = l₁.getLast?) : Chain next' prev' none (l₁ ++ a :: l₂) none := by
  obtain ⟨h₁, h₂⟩ := chain_append.mp h
  refine chain_append.mpr ⟨r.before hnodup h₁, ?_, ?_, r.behind hnodup h₂⟩
  · rw [hprev, Option.or_none]
  · rw [hnext, Option.or_none]

/-- The neighbours of a node that has gone. -/
theorem Chain.remove (h : Chain next prev none (l₁ ++ a :: l₂) none) (hnodup : (l₁ ++ l₂).Nodup)
    (r : Relinked next prev next' prev' l₁ l₂ l₁.getLast? l₂.head?) : Chain next' prev' none (l₁ ++ l₂) none := by
  obtain ⟨h₁, -, -, h₂⟩ := chain_append.mp h
  refine chain_append.mpr ⟨?_, ?_⟩
  · rw [Option.or_none]
    exact r.before hnodup h₁
  · rw [Option.or_none]
    exact r.behind hnodup h₂

end

end

end Linked
