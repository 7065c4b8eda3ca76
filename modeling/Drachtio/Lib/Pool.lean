import Drachtio.Lib.Run
import Mathlib.Data.List.Nodup
import Mathlib.Data.List.Range

/-! A pool of numbered resources that grows on demand: a resource is taken from the front of the free ones, or is made when
    none is free, and is given back behind them. Every resource is free or taken, and only once; none is made while
    another one is free. -/

/-- The free resources in the order they are taken in, those that are taken, and how many were made. -/
structure Pool where
  free : List Nat
  taken : List Nat
  made : Nat

namespace Pool

/-- A pool with some resources, all of them free -/
def init (n : Nat) : Pool := ⟨List.range n, [], n⟩

/-- The resource that is taken next -/
def next (p : Pool) : Nat := p.free.headD p.made

def take (p : Pool) : Pool where
  free := p.free.tail
  taken := p.next :: p.taken
  made := if p.free = [] then p.made + 1 else p.made

/-- Nothing is given back that is not taken. -/
def give (r : Nat) (p : Pool) : Pool :=
  if r ∈ p.taken then { p with free := p.free ++ [r], taken := p.taken.erase r } else p

/-- The same pool, whatever the order of what is taken -/
structure Same (p q : Pool) : Prop where
  free : p.free = q.free
  taken : p.taken.Perm q.taken
  made : p.made = q.made

/-- What becomes of a pool in a step: nothing, or something is taken or given back. -/
def Moves (p q : Pool) : Prop := q.Same p ∨ q.Same p.take ∨ ∃ r, q.Same (p.give r)

/-- Every resource that was made is free or taken, and is so once. -/
def Sound (p : Pool) : Prop := (p.free ++ p.taken).Perm (List.range p.made)

section
variable {p : Pool} {r n : Nat}

theorem sound_init : (init n).Sound := by
  unfold Sound init
  rw [List.append_nil]

theorem Sound.nodup (h : p.Sound) : (p.free ++ p.taken).Nodup := h.nodup_iff.mpr List.nodup_range

theorem Sound.lt_made (h : p.Sound) (hr : r ∈ p.taken) : r < p.made :=
  List.mem_range.mp (h.mem_iff.mp (List.mem_append_right _ hr))

theorem Sound.length (h : p.Sound) : p.free.length + p.taken.length = p.made := by
  have hlen := h.length_eq
  rwa [List.length_append, List.length_range] at hlen

theorem Sound.same {q : Pool} (h : p.Sound) (hsame : q.Same p) : q.Sound := by
  unfold Sound at h ⊢
  rw [hsame.free, hsame.made]
  exact (hsame.taken.append_left _).trans h

/-- The resource that is taken next is not taken. -/
theorem Sound.next_notMem (h : p.Sound) : p.next ∉ p.taken := by
  intro hmem
  unfold next at hmem
  cases hfree : p.free with
  | nil =>
    rw [hfree] at hmem
    exact (h.lt_made hmem).ne rfl
  | cons a rest =>
    rw [hfree] at hmem
    have hnd := h.nodup
    rw [hfree] at hnd
    exact List.disjoint_of_nodup_append hnd List.mem_cons_self hmem

theorem Sound.take (h : p.Sound) : p.take.Sound := by
  unfold Sound at h ⊢
  cases hfree : p.free with
  | nil =>
    rw [hfree, List.nil_append] at h
    have htake : p.take = ⟨[], p.made :: p.taken, p.made + 1⟩ := by simp [Pool.take, next, hfree]
    rw [htake, List.nil_append, List.range_succ]
    exact (List.Perm.cons _ h).trans (List.perm_append_singleton _ _).symm
  | cons a rest =>
    rw [hfree] at h
    have htake : p.take = ⟨rest, a :: p.taken, p.made⟩ := by simp [Pool.take, next, hfree]
    rw [htake]
    exact List.perm_middle.trans h

theorem Sound.give (h : p.Sound) : (p.give r).Sound := by
  unfold Pool.give
  split
  · rename_i hr
    unfold Sound
    rw [List.append_assoc, List.singleton_append]
    exact ((List.perm_cons_erase hr).symm.append_left p.free).trans h
  · exact h

/-- More are made only when all of them are taken. -/
theorem take_made_gt (h : p.Sound) (hgt : p.made < p.take.made) : p.take.taken.length = p.take.made := by
  have hfree : p.free = [] := by
    by_contra hne
    exact hgt.ne (by rw [Pool.take, if_neg hne])
  have hlen := h.take.length
  have htail : p.take.free = [] := by rw [Pool.take, hfree]; rfl
  rwa [htail, List.length_nil, Nat.zero_add] at hlen

theorem le_take_made : p.made ≤ p.take.made := by
  simp only [Pool.take]
  split <;> omega

theorem give_made : (p.give r).made = p.made := by
  unfold Pool.give
  split <;> rfl

theorem Moves.sound {q : Pool} (hmoves : p.Moves q) (h : p.Sound) : q.Sound := by
  rcases hmoves with hsame | hsame | ⟨r, hsame⟩
  · exact h.same hsame
  · exact h.take.same hsame
  · exact h.give.same hsame

/-- After a step there are as many resources as before, or as many as are taken. -/
theorem Moves.made {q : Pool} (hmoves : p.Moves q) (h : p.Sound) : q.made = p.made ∨ q.taken.length = q.made := by
  rcases hmoves with hsame | hsame | ⟨r, hsame⟩
  · exact Or.inl hsame.made
  · rw [hsame.made, hsame.taken.length_eq]
    rcases le_take_made.eq_or_lt with heq | hgt
    · exact Or.inl heq.symm
    · exact Or.inr (take_made_gt h hgt)
  · exact Or.inl (hsame.made.trans give_made)

end

/-! ### Machines with a pool -/

section
variable {σ ι : Type} {step : σ → ι → σ} {view : σ → Pool} {s : σ} {is : List ι}

theorem run_sound (hstep : ∀ s i, (view s).Moves (view (step s i))) (hs : (view s).Sound) :
    (view (Machine.run step s is)).Sound :=
  Machine.run_invariant (fun s i h => (hstep s i).sound h) hs

/-- In every run there are as many resources as at the beginning, or as many as were taken at some time. -/
theorem run_made (hstep : ∀ s i, (view s).Moves (view (step s i))) (hs : (view s).Sound) :
    (view (Machine.run step s is)).made = (view s).made ∨ ∃ done, done <+: is ∧
      (view (Machine.run step s done)).taken.length = (view (Machine.run step s is)).made := by
  induction is using List.reverseRecOn with
  | nil => exact Or.inl rfl
  | append_singleton is i ih =>
    have hsound : (view (Machine.run step s is)).Sound := run_sound hstep hs
    rw [Machine.run_append, Machine.run_cons, Machine.run_nil]
    rcases (hstep _ i).made hsound with heq | hfull
    · rw [heq]
      rcases ih with hmade | ⟨done, hdone, hlen⟩
      · exact Or.inl hmade
      · exact Or.inr ⟨done, hdone.trans (List.prefix_append _ _), hlen⟩
    · refine Or.inr ⟨is ++ [i], List.prefix_rfl, ?_⟩
      rwa [Machine.run_append, Machine.run_cons, Machine.run_nil]

end

end Pool
