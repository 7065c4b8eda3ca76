import Drachtio.Lib.Ranked
import Drachtio.Theorems.Proxy.Search

/-! The response that is sent upstream when no target is left. The order that the client transactions are sorted by
    is a comparison of ranks in which equal ranks precede each other, so it is no strict ordering: up to sixteen
    transactions are sorted all the same, the last one of the best rank to the front, and of more nothing is promised. -/

namespace Drachtio.Proxy

open ProxyCore ClientTransaction

/-- The place of a status among final responses: 6xx, then 401, 407, 415, 420 and 484, then the other 4xx, then 5xx,
    then the rest. -/
def statusClass (status : Nat) : Nat :=
  if 600 ≤ status then 0
  else if status ∈ [401, 407, 415, 420, 484] then 1
  else if 400 ≤ status ∧ status ≤ 499 then 2
  else if 500 ≤ status ∧ status ≤ 599 then 3
  else 4

namespace ClientTransaction

/-- What the order of best responses compares: the class of the status, and behind all classes what is not
    completed. -/
def bestRank (c : ClientTransaction) : Nat := if c.state = .completed then statusClass c.sipStatus else 5

/-- The transaction has a final response. -/
def IsFinal (c : ClientTransaction) : Prop := c.state = .completed ∧ 200 ≤ c.sipStatus

end ClientTransaction

/-- The order of best responses is a strict weak ordering of the list, as `std::sort` needs it. -/
def WeaklyOrdered (l : List ClientTransaction) : Prop :=
  IsStrictWeakOrder { c // c ∈ l } fun c₁ c₂ => c₁.val.bestResponseOrder c₂.val = true

/-- When there is a final response, the sort ends and its first transaction is a completed one of the least class that
    was not given up without a response. -/
def SelectsBest (s : BestSort) (l : List ClientTransaction) : Prop :=
  (∃ c ∈ l, c.IsFinal) → ∃ c, (s.sort l).bind List.head? = some c ∧ c.state = .completed ∧
    (∀ d ∈ l, d.state = .completed → statusClass c.sipStatus ≤ statusClass d.sipStatus) ∧ c.sipStatus ≠ 0

/-- When there is a final response, there are few transactions, and one has a response of 400 or more, or the last of
    the completed ones was not given up without a response. -/
def Decided (l : List ClientTransaction) : Prop :=
  (∃ c ∈ l, c.IsFinal) → l.length ≤ sortThreshold ∧ ((∃ c ∈ l, c.state = .completed ∧ 400 ≤ c.sipStatus) ∨
    ∀ c ∈ l.reverse.find? (·.state == .completed), c.sipStatus ≠ 0)

section
variable {l : List ClientTransaction} {c : ClientTransaction}

theorem statusClass_le (status : Nat) : statusClass status ≤ 4 := by
  unfold statusClass
  split_ifs <;> omega

/-- Only a status below 400 is in the last class. -/
theorem statusClass_eq_four {status : Nat} : statusClass status = 4 ↔ status < 400 := by
  simp only [statusClass, List.mem_cons, List.not_mem_nil, or_false]
  split_ifs
  · exact iff_of_false nofun (by omega)
  · exact iff_of_false nofun (by omega)
  · exact iff_of_false nofun (by omega)
  · exact iff_of_false nofun (by omega)
  · exact iff_of_true rfl (by omega)

theorem bestResponseOrder_iff {c₁ c₂ : ClientTransaction} : c₁.bestResponseOrder c₂ = true ↔ c₁.bestRank ≤ c₂.bestRank := by
  have h₁ := statusClass_le c₁.sipStatus
  unfold bestResponseOrder bestRank
  by_cases hc₁ : c₁.state = .completed <;> by_cases hc₂ : c₂.state = .completed
  · simp only [hc₁, hc₂, statusClass, decide_eq_true_eq, not_true, and_false, false_and, and_self, if_true, if_false, ne_eq]
    split_ifs <;> simp_all
  · simp only [hc₁, hc₂, ne_eq, not_false_eq_true, and_self, if_true, if_false, true_iff]
    omega
  · simp only [hc₁, hc₂, ne_eq, not_false_eq_true, not_true, and_self, if_true, if_false, false_and]
    have h₂ := statusClass_le c₂.sipStatus
    simp only [Bool.false_eq_true, false_iff]
    omega
  · simp only [hc₁, hc₂, ne_eq, not_false_eq_true, and_false, false_and, if_false, le_refl]

/-- Each transaction precedes itself. -/
theorem bestResponseOrder_self : c.bestResponseOrder c = true := bestResponseOrder_iff.mpr le_rfl

theorem weaklyOrdered_iff : WeaklyOrdered l ↔ l = [] := by
  constructor
  · intro hordered
    refine List.eq_nil_iff_forall_not_mem.mpr fun c hc => ?_
    exact hordered.irrefl ⟨c, hc⟩ bestResponseOrder_self
  · rintro rfl
    have hnone : ∀ c : { c : ClientTransaction // c ∈ [] }, False := fun c => absurd c.property List.not_mem_nil
    exact { irrefl c := (hnone c).elim, trans c := (hnone c).elim, incomp_trans c := (hnone c).elim }

/-- The sort takes the list from its front, so it is an insertion sort of the reversed list. -/
theorem sortBest_eq : sortBest l = l.reverse.insertionSort fun c₁ c₂ => c₁.bestResponseOrder c₂ = true := by
  unfold sortBest List.insertionSort
  rw [List.foldr_reverse]

theorem head?_sortBest : (sortBest l).head? = l.reverse.argmin bestRank := by
  have hr : ∀ c₁ c₂ : ClientTransaction, c₁.bestResponseOrder c₂ = true ↔ c₁.bestRank ≤ c₂.bestRank :=
    fun _ _ => bestResponseOrder_iff
  rw [sortBest_eq]
  exact Ranked.head?_insertionSort hr _

/-- The first transaction after the sort has the least rank. -/
theorem bestRank_le_of_head? (hc : (sortBest l).head? = some c) {d : ClientTransaction} (hd : d ∈ l) :
    c.bestRank ≤ d.bestRank :=
  List.le_of_mem_argmin (List.mem_reverse.mpr hd) (head?_sortBest.symm.trans hc)

/-- A completed transaction is sorted to the front, and it is one of the least class. -/
theorem best_completed {d : ClientTransaction} (hd : d ∈ l) (hcompleted : d.state = .completed)
    (hc : (sortBest l).head? = some c) : c.state = .completed ∧
      ∀ d ∈ l, d.state = .completed → statusClass c.sipStatus ≤ statusClass d.sipStatus := by
  have hrank : ∀ {e : ClientTransaction}, e.state = .completed → e.bestRank = statusClass e.sipStatus := fun h => if_pos h
  have hc' : c.state = .completed := by
    by_contra hnot
    have hle := bestRank_le_of_head? hc hd
    rw [hrank hcompleted, bestRank, if_neg hnot] at hle
    exact absurd (hle.trans (statusClass_le _)) (by decide)
  refine ⟨hc', fun e he hstate => ?_⟩
  rw [← hrank hc', ← hrank hstate]
  exact bestRank_le_of_head? hc he

/-- Where no completed transaction has a status of 400 or more, the last of them is sorted to the front. -/
theorem head?_sortBest_of_lt (hlow : ∀ d ∈ l, d.state = .completed → d.sipStatus < 400)
    (hsome : ∃ d ∈ l, d.state = .completed) : (sortBest l).head? = l.reverse.find? (·.state == .completed) := by
  rw [head?_sortBest]
  refine Ranked.argmin_eq_find? (m := 4) (fun d hd hp => ?_) (fun d hd hp => ?_) ?_
  · have hstate : d.state = .completed := beq_iff_eq.mp hp
    rw [bestRank, if_pos hstate]
    exact statusClass_eq_four.mpr (hlow d (List.mem_reverse.mp hd) hstate)
  · have hstate : d.state ≠ .completed := beq_eq_false_iff_ne.mp hp
    rw [bestRank, if_neg hstate]
    exact Nat.lt_succ_self 4
  · obtain ⟨d, hd, hstate⟩ := hsome
    exact ⟨d, List.mem_reverse.mpr hd, beq_iff_eq.mpr hstate⟩

/-- Up to the threshold a given up transaction is selected just when it is the last of the completed ones and none of
    them has a response of 400 or more. -/
theorem sortBest_selects (h : ∃ c ∈ l, c.IsFinal) :
    (∃ c, (sortBest l).head? = some c ∧ c.state = .completed ∧
      (∀ d ∈ l, d.state = .completed → statusClass c.sipStatus ≤ statusClass d.sipStatus) ∧ c.sipStatus ≠ 0) ↔
    (∃ c ∈ l, c.state = .completed ∧ 400 ≤ c.sipStatus) ∨
      ∀ c ∈ l.reverse.find? (·.state == .completed), c.sipStatus ≠ 0 := by
  obtain ⟨d, hd, hstate, -⟩ := h
  obtain ⟨c, hc⟩ : ∃ c, (sortBest l).head? = some c :=
    Option.ne_none_iff_exists'.mp fun h => List.not_mem_nil
      (List.head?_eq_none_iff.mp h ▸ (sortBest_perm l).mem_iff.mpr hd)
  obtain ⟨hcompleted, hle⟩ := best_completed hd hstate hc
  have hselects : (∃ c, (sortBest l).head? = some c ∧ c.state = .completed ∧
      (∀ d ∈ l, d.state = .completed → statusClass c.sipStatus ≤ statusClass d.sipStatus) ∧ c.sipStatus ≠ 0) ↔
      c.sipStatus ≠ 0 := by
    constructor
    · rintro ⟨e, he, -, -, hne⟩
      obtain rfl := Option.some.inj (hc.symm.trans he)
      exact hne
    · exact fun hne => ⟨c, hc, hcompleted, hle, hne⟩
  rw [hselects]
  by_cases hhigh : ∃ e ∈ l, e.state = .completed ∧ 400 ≤ e.sipStatus
  · refine iff_of_true (fun hzero => ?_) (Or.inl hhigh)
    -- A status of 400 or more is of a class before that of no status.
    obtain ⟨e, he, hstate, h400⟩ := hhigh
    have hclass := hle e he hstate
    rw [statusClass_eq_four.mpr (hzero ▸ by decide)] at hclass
    have hlow := statusClass_eq_four.mp (le_antisymm (statusClass_le _) hclass)
    omega
  · have hlow : ∀ e ∈ l, e.state = .completed → e.sipStatus < 400 :=
      fun e he hstate => not_le.mp fun h400 => hhigh ⟨e, he, hstate, h400⟩
    rw [or_iff_right hhigh, ← head?_sortBest_of_lt hlow ⟨d, hd, hstate⟩, hc]
    simp only [Option.mem_some, forall_eq']

theorem ProxyCore.BestSort.head?_of_le (s : BestSort) (hl : l.length ≤ sortThreshold) :
    (s.sort l).bind List.head? = (sortBest l).head? := by
  rw [s.sort_of_le l hl, Option.bind_some]

/-- The sort that leaves the vector as soon as it is no insertion sort. -/
def leavingSort : BestSort where
  sort l := if l.length ≤ sortThreshold then some (sortBest l) else none
  sort_of_le _ hl := if_pos hl

theorem selectsBest_iff : (∀ s : BestSort, SelectsBest s l) ↔ Decided l := by
  constructor
  · intro hselects hfinal
    have hl : l.length ≤ sortThreshold := by
      by_contra hlong
      obtain ⟨c, hc, -⟩ := hselects leavingSort hfinal
      have hnone : leavingSort.sort l = none := if_neg hlong
      rw [hnone] at hc
      exact nomatch hc
    obtain ⟨c, hc, hbest⟩ := hselects leavingSort hfinal
    rw [leavingSort.head?_of_le hl] at hc
    exact ⟨hl, (sortBest_selects hfinal).mp ⟨c, hc, hbest⟩⟩
  · intro hdecided s hfinal
    obtain ⟨hl, hdecided⟩ := hdecided hfinal
    obtain ⟨c, hc, hbest⟩ := (sortBest_selects hfinal).mpr hdecided
    exact ⟨c, (s.head?_of_le hl).trans hc, hbest⟩

end

/-- The order of best responses is one that can be sorted by for no transaction at all, and whatever the sort that
    takes it does above the threshold, it selects the right response just when there are no more transactions than that
    and one that was given up is not the last of the completed ones with no response of 400 or more. -/
theorem best_response_iff (l : List ClientTransaction) :
    ((WeaklyOrdered l ∧ ∀ s : BestSort, SelectsBest s l) ↔ l = []) ∧ (WeaklyOrdered l ↔ l = []) ∧
      ((∀ s : BestSort, SelectsBest s l) ↔ Decided l) := by
  refine ⟨?_, weaklyOrdered_iff, selectsBest_iff⟩
  constructor
  · exact fun h => weaklyOrdered_iff.mp h.1
  · rintro rfl
    refine ⟨weaklyOrdered_iff.mpr rfl, fun s hfinal => ?_⟩
    obtain ⟨c, hc, -⟩ := hfinal
    exact nomatch hc

/-- A client transaction in a state, with the status of its last response. -/
def answeredWith (state : TransactionState) (status : Nat) : ClientTransaction :=
  { ClientTransaction.new .reliable 0 "sip:a.example.org" with state := state, sipStatus := status }

/-- A target answered with 302, and the next one was given up: 408 is sent. -/
theorem abandoned_preferred :
    let l := [answeredWith .completed 302, answeredWith .completed 0]
    ¬ WeaklyOrdered l ∧ ∀ s : BestSort, ¬ SelectsBest s l := by
  refine ⟨fun hordered => ?_, fun s hselects => ?_⟩
  · exact hordered.irrefl ⟨_, List.mem_cons_self⟩ (by decide)
  · obtain ⟨c, hc, -, -, hne⟩ := hselects ⟨_, List.mem_cons_self, rfl, by decide⟩
    rw [s.head?_of_le (by decide)] at hc
    obtain rfl := Option.some.inj hc
    exact hne rfl

end Drachtio.Proxy
