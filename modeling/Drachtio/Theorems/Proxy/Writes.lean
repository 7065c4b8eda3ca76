import Drachtio.Theorems.Proxy.Vector

/-! What an operation writes, seen through a function that picks the outputs of interest. -/

namespace Drachtio.Proxy
open ProxyCore

/-- What the caller gets, and the selections. -/
def Output.isVerdict : Output → Bool
  | .forwardResponse _ _ | .generateResponse _ | .reply _ | .bestResponse _ => true
  | _ => false

/-- Nothing but verdicts is picked. -/
def Picks {α : Type} (f : Output → Option α) : Prop := ∀ x, x.isVerdict = false → f x = none

/-- Neither a verdict nor a reply to the application. -/
def Output.isPlain : Output → Bool
  | .api _ => false
  | x => !x.isVerdict

/-- Nothing plain is picked. -/
def Plain {α : Type} (f : Output → Option α) : Prop := ∀ x, x.isPlain = true → f x = none

/-- `t` follows `s`, and `u` is what `f` picks of what was written in between. -/
def Writes {α : Type} (f : Output → Option α) (s t : ProxyCore) (u : List α) : Prop :=
  ∃ w, t.log = s.log ++ w ∧ w.filterMap f = u

section
variable {α : Type} {f : Output → Option α} {s t v : ProxyCore} {u u' : List α} {env : Env} {r : Response} {i : Input}
  {c : ClientTransaction}

theorem Writes.refl : Writes f s s [] := ⟨[], (List.append_nil _).symm, rfl⟩

theorem Writes.trans (h : Writes f s t u) (h' : Writes f t v u') : Writes f s v (u ++ u') := by
  obtain ⟨w, hw, hu⟩ := h
  obtain ⟨w', hw', hu'⟩ := h'
  refine ⟨w ++ w', by rw [hw', hw, List.append_assoc], ?_⟩
  rw [List.filterMap_append, hu, hu']

/-- The second part writes nothing. -/
theorem Writes.then (h : Writes f s t u) (h' : Writes f t v []) : Writes f s v u := by
  have := h.trans h'
  rwa [List.append_nil] at this

theorem Writes.written (h : Writes f s (s.step i) u) : (s.written i).filterMap f = u := by
  obtain ⟨w, hlog, hw⟩ := h
  rw [step_log] at hlog
  rw [List.append_cancel_left hlog, hw]

theorem writes_emit {w : List Output} : Writes f s (s.emit w) (w.filterMap f) := ⟨w, rfl, rfl⟩

theorem writes_put {x : ClientTransaction × List Output} : Writes f s (s.put x) (x.2.filterMap f) := ⟨x.2, rfl, rfl⟩

theorem writes_removeTerminated {b : Bool} : Writes f s (s.removeTerminated b) [] := ⟨[], (List.append_nil _).symm, rfl⟩

theorem Picks.plain (hf : Picks f) : Plain f := fun x hx => hf x (by cases x <;> first | rfl | cases hx)

section
variable (hf : Plain f)
include hf

theorem Plain.eq_nil {w : List Output} (h : ∀ x ∈ w, x.isPlain = true) : w.filterMap f = [] :=
  List.filterMap_eq_nil_iff.mpr fun x hx => hf x (h x hx)

theorem Plain.actions {w : List Output} (h : ∀ x ∈ w, x.isNote = false) : w.filterMap f = [] :=
  hf.eq_nil fun x hx => by
    have := h x hx
    cases x <;> simp_all [Output.isNote, Output.isPlain, Output.isVerdict]

theorem writes_quiet {w : List Output} (h : ∀ x ∈ w, x.isPlain = true) : Writes f s (s.emit w) [] :=
  ⟨w, rfl, hf.eq_nil h⟩

theorem writes_startRequests : Writes f s (s.startRequests env).1 [] := by
  unfold ProxyCore.startRequests
  split
  · exact ⟨_, rfl, hf.actions launch_notes⟩
  · exact .refl

theorem writes_endSearch : Writes f s s.endSearch [] :=
  ⟨[.searchOver], rfl, hf.eq_nil (by simp [Output.isPlain, Output.isVerdict])⟩

theorem writes_cancelOutstandingRequests : Writes f s (s.cancelOutstandingRequests env) [] := by
  refine ⟨_, cancelOutstandingRequests_log, hf.eq_nil fun x hx => ?_⟩
  simp only [List.mem_cons, List.mem_flatMap] at hx
  rcases hx with rfl | rfl | ⟨c, -, hx⟩
  · rfl
  · rfl
  · have := (cancelRequest_outputs hx).2
    cases x <;> simp_all [Output.isNote, Output.isPlain, Output.isVerdict]

theorem writes_addClientTransactions {added : List ClientTransaction} {target : String} :
    Writes f s (s.addClientTransactions added target) [] := by
  unfold addClientTransactions
  split
  · exact ⟨[], (List.append_nil _).symm, rfl⟩
  · exact writes_quiet hf (by simp [Output.isPlain, Output.isVerdict])

theorem writes_relaunch : Writes f s (s.relaunch env r) [] := by
  unfold ProxyCore.relaunch
  split
  · exact writes_removeTerminated.trans (writes_startRequests hf)
  · exact writes_removeTerminated

end

section
variable (hf : Picks f)
include hf

/-- An action on a client transaction writes no verdict, timer C apart. -/
theorem Picks.acts {x : ClientTransaction × List Output} (hr : Reached s) (ha : Acts s i c x)
    (ht : ∀ id, i.event ≠ .timer .timerC id) : x.2.filterMap f = [] := by
  refine hf.plain.actions fun y hy => ?_
  by_contra hn
  obtain ⟨-, id, hid⟩ := (ha.outputs (hr.classified c ha.mem) y hy).2 (by simpa using hn)
  exact ht id hid

theorem writes_reportFinal : Writes f s (s.reportFinal r) [] := by
  unfold ProxyCore.reportFinal
  split
  · refine ⟨_, rfl, List.filterMap_eq_nil_iff.mpr fun x hx => hf x ?_⟩
    split at hx
    · simp only [List.mem_cons, List.not_mem_nil, or_false] at hx
      rcases hx with rfl | rfl <;> rfl
    · rw [List.mem_singleton.mp hx]
      rfl
  · exact .refl

omit hf in
/-- A response that goes upstream, whatever RSeq it carries there. -/
theorem writes_forwardResponse {v : Option α} (hv : ∀ rseq, f (.forwardResponse r rseq) = v) :
    Writes f s (s.forwardResponse env r) (if env.sendResponse then v.toList else []) := by
  refine ⟨_, forwardResponse_log, ?_⟩
  split
  · rw [List.filterMap_cons, hv]
    cases v <;> rfl
  · rfl

/-- What is picked of a response when it is handed over: it goes upstream at once, or not. -/
theorem writes_handOver {v : Option α} (hr : Reached s) (he : i.event = .response r) (hc : s.taker r = some c)
    (hv : ∀ rseq, f (.forwardResponse r rseq) = v) : Writes f s (s.handOver i.env r c)
      (if i.env.sendResponse = true ∧ ((c.processResponse s.settings i.env r).2 = .forward ∨
        (c.processResponse s.settings i.env r).2 = .answered) then v.toList else []) := by
  have ha : Acts s i c (c.processResponse s.settings i.env r).1 := .response he hc
  have h0 : Writes f s ((s.emit [.received r]).put (c.processResponse s.settings i.env r).1) [] := by
    have hput := writes_put (f := f) (s := s.emit [.received r]) (x := (c.processResponse s.settings i.env r).1)
    rw [hf.acts hr ha (by simp [he])] at hput
    exact (writes_quiet hf.plain (by simp [Output.isPlain, Output.isVerdict])).trans hput
  unfold ProxyCore.handOver
  cases hverdict : (c.processResponse s.settings i.env r).2 with
  | discard => simpa [ProxyCore.conclude] using h0
  | forward => simpa [ProxyCore.conclude] using h0.trans (writes_forwardResponse hv)
  | answered =>
    have h1 :
      Writes f s (((s.emit [.received r]).put (c.processResponse s.settings i.env r).1).notifyForwarded200OK i.env) [] :=
      ((h0.trans (writes_endSearch hf.plain)).trans (writes_cancelOutstandingRequests hf.plain)).trans writes_removeTerminated
    simpa [ProxyCore.conclude] using (h1.trans (writes_reportFinal hf)).trans (writes_forwardResponse hv)
  | rejected =>
    simp only [reduceCtorEq, or_self, and_false, if_false]
    dsimp only [ProxyCore.conclude]
    split
    · exact h0.trans (writes_reportFinal hf)
    · exact (h0.trans (writes_addClientTransactions hf.plain)).trans (writes_reportFinal hf)

/-- A timer of a client transaction, timer C apart. -/
theorem writes_fired {t : TimerName} (hr : Reached s) (ha : Acts s i c (c.timerFires s.settings i.env s.request t))
    (ht : ∀ id, i.event ≠ .timer .timerC id) :
    Writes f s ((s.emit [.timerFired t c.id]).put (c.timerFires s.settings i.env s.request t)) [] := by
  have hput := writes_put (f := f) (s := s.emit [.timerFired t c.id]) (x := c.timerFires s.settings i.env s.request t)
  rw [hf.acts hr ha ht] at hput
  exact (writes_quiet hf.plain (by simp [Output.isPlain, Output.isVerdict])).trans hput

/-- An INFO or a PRACK goes to a target, and no verdict follows from it. -/
theorem writes_request (hr : Reached s) (he : (∃ req, i.event = .info req) ∨ ∃ rack, i.event = .prack rack) :
    Writes f s (s.step i) [] := by
  have hne : ∀ id, i.event ≠ .timer .timerC id := fun id hid => by
    rcases he with ⟨req, he⟩ | ⟨rack, he⟩ <;> rw [he] at hid <;> cases hid
  have quiet : ∀ {c : ClientTransaction} {x : ClientTransaction × List Output}, Acts s i c x → Writes f s (s.put x) [] :=
    fun {c x} ha => by
      have hput := writes_put (f := f) (s := s) (x := x)
      rwa [hf.acts hr ha hne] at hput
  unfold ProxyCore.step
  rcases he with ⟨req, he⟩ | ⟨rack, he⟩
  · rw [he]
    dsimp only
    split
    · unfold ProxyCore.forwardRequest
      split
      · exact .refl
      · rename_i c hc
        exact quiet (.info he hc)
    · exact .refl
  · rw [he]
    dsimp only
    split
    · unfold ProxyCore.forwardPrack
      dsimp only
      split
      · exact .refl
      · rename_i c hc
        exact quiet (.prack he hc)
    · exact .refl

end

end

end Drachtio.Proxy
