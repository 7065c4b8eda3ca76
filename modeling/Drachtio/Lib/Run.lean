import Mathlib.Data.List.Basic

/-! Runs of a deterministic machine: a step function, a list of inputs, and a condition on the steps that
    reads the state before the step. The rules turn what one step keeps into what a run keeps. -/

namespace Machine

variable {σ ι : Type}

/-- The state after a list of inputs. -/
def run (step : σ → ι → σ) (s : σ) (is : List ι) : σ := is.foldl step s

/-- Every step of the run from `s` meets the condition. -/
def Meets (step : σ → ι → σ) (ok : σ → ι → Prop) : σ → List ι → Prop
  | _, [] => True
  | s, i :: is => ok s i ∧ Meets step ok (step s i) is

instance instDecidableMeets {step : σ → ι → σ} {ok : σ → ι → Prop} [∀ s i, Decidable (ok s i)] :
    ∀ s is, Decidable (Meets step ok s is)
  | _, [] => isTrue trivial
  | s, i :: is =>
    have : Decidable (Meets step ok (step s i) is) := instDecidableMeets (step s i) is
    inferInstanceAs (Decidable (ok s i ∧ Meets step ok (step s i) is))

theorem forall_prefix_cons {α : Type} {a : α} {l : List α} {P : List α → Prop} :
    (∀ done, done <+: a :: l → P done) ↔ P [] ∧ ∀ done, done <+: l → P (a :: done) := by
  constructor
  · intro hall
    exact ⟨hall [] List.nil_prefix, fun done hdone => hall _ (List.cons_prefix_cons.mpr ⟨rfl, hdone⟩)⟩
  · rintro ⟨hnil, hcons⟩ done hdone
    rcases List.prefix_cons_iff.mp hdone with rfl | ⟨t, rfl, ht⟩
    · exact hnil
    · exact hcons t ht

section
variable {step : σ → ι → σ} {ok ok' : σ → ι → Prop} {s : σ} {i : ι} {is js : List ι}

@[simp] theorem run_nil : run step s [] = s := rfl

@[simp] theorem run_cons : run step s (i :: is) = run step (step s i) is := rfl

@[simp] theorem run_append : run step s (is ++ js) = run step (run step s is) js := List.foldl_append

@[simp] theorem meets_nil : Meets step ok s [] := trivial

@[simp] theorem meets_cons : Meets step ok s (i :: is) ↔ ok s i ∧ Meets step ok (step s i) is := Iff.rfl

theorem meets_append : Meets step ok s (is ++ js) ↔ Meets step ok s is ∧ Meets step ok (run step s is) js := by
  induction is generalizing s with
  | nil => simp
  | cons i is ih => simp [ih, and_assoc]

theorem Meets.and (h : Meets step ok s is) (h' : Meets step ok' s is) : Meets step (fun s i => ok s i ∧ ok' s i) s is := by
  induction is generalizing s with
  | nil => trivial
  | cons i is ih => exact ⟨⟨h.1, h'.1⟩, ih h.2 h'.2⟩

theorem Meets.mono (h : Meets step ok s is) (himp : ∀ s i, ok s i → ok' s i) : Meets step ok' s is := by
  induction is generalizing s with
  | nil => trivial
  | cons i is ih => exact ⟨himp s i h.1, ih h.2⟩

/-- What a step keeps under the condition holds after every run whose steps all meet it. -/
theorem run_induction {I : σ → Prop} (hstep : ∀ s i, I s → ok s i → I (step s i)) (hs : I s)
    (h : Meets step ok s is) : I (run step s is) := by
  induction is generalizing s with
  | nil => exact hs
  | cons i is ih => exact ih (hstep s i hs h.1) h.2

/-- What a step does under the condition, given what it keeps, every step of a run does. -/
theorem Meets.of_invariant {I : σ → Prop} (h : Meets step ok s is) (hstep : ∀ s i, I s → ok s i → I (step s i) ∧ ok' s i)
    (hs : I s) : Meets step ok' s is := by
  induction is generalizing s with
  | nil => trivial
  | cons i is ih =>
    obtain ⟨hkept, hok⟩ := hstep s i hs h.1
    exact ⟨hok, ih h.2 hkept⟩

/-- What every step does, given what every step keeps, the steps of every run do. -/
theorem meets_invariant {I : σ → Prop} (hstep : ∀ s i, I s → I (step s i) ∧ ok s i) (hs : I s) : Meets step ok s is := by
  induction is generalizing s with
  | nil => trivial
  | cons i is ih => exact ⟨(hstep s i hs).2, ih (hstep s i hs).1⟩

/-- What a step does exactly under the condition, given what it keeps under it, the steps of a run do exactly when all of
    them meet the condition. -/
theorem meets_iff {I : σ → Prop} (hiff : ∀ s i, I s → (ok' s i ↔ ok s i)) (hstep : ∀ s i, I s → ok s i → I (step s i))
    (hs : I s) : Meets step ok' s is ↔ Meets step ok s is := by
  induction is generalizing s with
  | nil => exact Iff.rfl
  | cons i is ih =>
    rw [meets_cons, meets_cons, hiff s i hs]
    exact and_congr_right fun hok => ih (hstep s i hs hok)

/-- The same for the runs whose steps are all legal. -/
theorem Meets.iff_of_legal {I : σ → Prop} {legal : σ → ι → Prop} (h : Meets step legal s is)
    (hiff : ∀ s i, I s → legal s i → (ok' s i ↔ ok s i)) (hstep : ∀ s i, I s → legal s i → ok s i → I (step s i)) (hs : I s) :
    Meets step ok' s is ↔ Meets step ok s is := by
  induction is generalizing s with
  | nil => exact Iff.rfl
  | cons i is ih =>
    rw [meets_cons, meets_cons, hiff s i hs h.1]
    exact and_congr_right fun hok => ih h.2 (hstep s i hs h.1 hok)

/-- What every step keeps holds after every run. -/
theorem run_invariant {I : σ → Prop} (hstep : ∀ s i, I s → I (step s i)) (hs : I s) : I (run step s is) := by
  induction is generalizing s with
  | nil => exact hs
  | cons i is ih => exact ih (hstep s i hs)

/-- What a step keeps exactly under the condition holds after a run exactly when it held before and all steps meet
    the condition. -/
theorem run_iff {I P : σ → Prop} (hstep : ∀ s i, I s → I (step s i)) (hiff : ∀ s i, I s → (P (step s i) ↔ P s ∧ ok s i))
    (hs : I s) : P (run step s is) ↔ P s ∧ Meets step ok s is := by
  induction is generalizing s with
  | nil => exact (and_iff_left trivial).symm
  | cons i is ih => rw [run_cons, ih (hstep s i hs), hiff s i hs, meets_cons, and_assoc]

/-- A fallible loop comes through when every round may be made, and then it has made the rounds. -/
theorem foldlM_eq_ok_iff {ε : Type} {f : σ → ι → Except ε σ} {s' : σ}
    (hf : ∀ s i s', f s i = .ok s' ↔ ok s i ∧ s' = step s i) :
    is.foldlM f s = .ok s' ↔ Meets step ok s is ∧ s' = run step s is := by
  induction is generalizing s with
  | nil => exact ⟨fun h => ⟨trivial, (Except.ok.inj h).symm⟩, fun h => congrArg Except.ok h.2.symm⟩
  | cons i is ih =>
    rw [List.foldlM_cons, meets_cons, run_cons, and_assoc, ← ih]
    constructor
    · intro h
      cases hi : f s i with
      | error e => rw [hi] at h; exact nomatch h
      | ok s₁ =>
        obtain ⟨hok, rfl⟩ := (hf s i s₁).mp hi
        rw [hi] at h
        exact ⟨hok, h⟩
    · rintro ⟨hok, h⟩
      rw [(hf s i _).mpr ⟨hok, rfl⟩]
      exact h

end

/-! ### Machines with outputs -/

section
variable {ω : Type} {step : σ → ι → σ × ω} {s : σ} {i : ι} {is : List ι}

/-- The inputs of a run, each with the output to it. -/
def trace (step : σ → ι → σ × ω) : σ → List ι → List (ι × ω)
  | _, [] => []
  | s, i :: is => (i, (step s i).2) :: trace step (step s i).1 is

/-- The state after a list of inputs, whatever is put out. -/
def final (step : σ → ι → σ × ω) (s : σ) (is : List ι) : σ := run (fun s i => (step s i).1) s is

theorem final_cons : final step s (i :: is) = final step (step s i).1 is := rfl

theorem forall_mem_trace {P : ι × ω → Prop} (h : ∀ s i, P (i, (step s i).2)) : ∀ x ∈ trace step s is, P x := by
  induction is generalizing s with
  | nil => exact fun _ hx => absurd hx List.not_mem_nil
  | cons i is ih => exact List.forall_mem_cons.mpr ⟨h s i, ih⟩

/-- Inputs that change nothing can be left out: the state is the same, and so are the outputs to the others. -/
theorem leave_out (s : σ) (is : List ι) {idle : ι → Bool} (h : ∀ s i, idle i = true → (step s i).1 = s) :
    final step s is = final step s (is.filter fun i => !idle i) ∧
      (trace step s is).filter (fun x => !idle x.1) = trace step s (is.filter fun i => !idle i) := by
  induction is generalizing s with
  | nil => exact ⟨rfl, rfl⟩
  | cons i is ih =>
    cases hi : idle i with
    | true =>
      have hfilter : (i :: is).filter (fun i => !idle i) = is.filter fun i => !idle i := by simp [hi]
      have htrace : (trace step s (i :: is)).filter (fun x => !idle x.1) =
          (trace step (step s i).1 is).filter fun x => !idle x.1 := by simp [trace, hi]
      rw [final_cons, hfilter, htrace, h s i hi]
      exact ih s
    | false =>
      have hfilter : (i :: is).filter (fun i => !idle i) = i :: is.filter fun i => !idle i := by simp [hi]
      have htrace : (trace step s (i :: is)).filter (fun x => !idle x.1) =
          (i, (step s i).2) :: (trace step (step s i).1 is).filter fun x => !idle x.1 := by simp [trace, hi]
      obtain ⟨hfinal, hrest⟩ := ih (step s i).1
      rw [final_cons, hfilter, htrace, hrest, hfinal]
      exact ⟨rfl, rfl⟩

end

end Machine
