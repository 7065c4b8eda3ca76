import Drachtio.Proxy.ProxyCore
import Drachtio.Theorems.Proxy.Client

/-! The operations of the proxy core on its parts: which fields each leaves alone, and what it makes of the
    lists of client transactions. -/

namespace Drachtio.Proxy
open ProxyCore

namespace ProxyCore

/-! ### Fields -/

section
variable {s : ProxyCore} {env : Env} {r : Response}

@[simp] theorem emit_settings {w : List Output} : (s.emit w).settings = s.settings := rfl
@[simp] theorem emit_request {w : List Output} : (s.emit w).request = s.request := rfl
@[simp] theorem emit_canceled {w : List Output} : (s.emit w).canceled = s.canceled := rfl
@[simp] theorem emit_searching {w : List Output} : (s.emit w).searching = s.searching := rfl
@[simp] theorem emit_server {w : List Output} : (s.emit w).server = s.server := rfl
@[simp] theorem emit_clients {w : List Output} : (s.emit w).clients = s.clients := rfl
@[simp] theorem emit_gone {w : List Output} : (s.emit w).gone = s.gone := rfl
@[simp] theorem emit_nextId {w : List Output} : (s.emit w).nextId = s.nextId := rfl
@[simp] theorem emit_registered {w : List Output} : (s.emit w).registered = s.registered := rfl

@[simp] theorem generateResponse_settings {n : Nat} : (s.generateResponse n).settings = s.settings := rfl
@[simp] theorem generateResponse_request {n : Nat} : (s.generateResponse n).request = s.request := rfl
@[simp] theorem generateResponse_canceled {n : Nat} : (s.generateResponse n).canceled = s.canceled := rfl
@[simp] theorem generateResponse_searching {n : Nat} : (s.generateResponse n).searching = s.searching := rfl
@[simp] theorem generateResponse_server {n : Nat} : (s.generateResponse n).server = s.server := rfl
@[simp] theorem generateResponse_clients {n : Nat} : (s.generateResponse n).clients = s.clients := rfl
@[simp] theorem generateResponse_gone {n : Nat} : (s.generateResponse n).gone = s.gone := rfl
@[simp] theorem generateResponse_nextId {n : Nat} : (s.generateResponse n).nextId = s.nextId := rfl
@[simp] theorem generateResponse_registered {n : Nat} : (s.generateResponse n).registered = s.registered := rfl

@[simp] theorem endSearch_settings : s.endSearch.settings = s.settings := rfl
@[simp] theorem endSearch_request : s.endSearch.request = s.request := rfl
@[simp] theorem endSearch_canceled : s.endSearch.canceled = s.canceled := rfl
@[simp] theorem endSearch_server : s.endSearch.server = s.server := rfl
@[simp] theorem endSearch_clients : s.endSearch.clients = s.clients := rfl
@[simp] theorem endSearch_gone : s.endSearch.gone = s.gone := rfl
@[simp] theorem endSearch_nextId : s.endSearch.nextId = s.nextId := rfl
@[simp] theorem endSearch_registered : s.endSearch.registered = s.registered := rfl

@[simp] theorem put_settings {x : ClientTransaction × List Output} : (s.put x).settings = s.settings := rfl
@[simp] theorem put_request {x : ClientTransaction × List Output} : (s.put x).request = s.request := rfl
@[simp] theorem put_canceled {x : ClientTransaction × List Output} : (s.put x).canceled = s.canceled := rfl
@[simp] theorem put_searching {x : ClientTransaction × List Output} : (s.put x).searching = s.searching := rfl
@[simp] theorem put_server {x : ClientTransaction × List Output} : (s.put x).server = s.server := rfl
@[simp] theorem put_nextId {x : ClientTransaction × List Output} : (s.put x).nextId = s.nextId := rfl
@[simp] theorem put_registered {x : ClientTransaction × List Output} : (s.put x).registered = s.registered := rfl

@[simp] theorem removeTerminated_settings {b : Bool} : (s.removeTerminated b).settings = s.settings := rfl
@[simp] theorem removeTerminated_request {b : Bool} : (s.removeTerminated b).request = s.request := rfl
@[simp] theorem removeTerminated_canceled {b : Bool} : (s.removeTerminated b).canceled = s.canceled := rfl
@[simp] theorem removeTerminated_searching {b : Bool} : (s.removeTerminated b).searching = s.searching := rfl
@[simp] theorem removeTerminated_server {b : Bool} : (s.removeTerminated b).server = s.server := rfl
@[simp] theorem removeTerminated_nextId {b : Bool} : (s.removeTerminated b).nextId = s.nextId := rfl
@[simp] theorem removeTerminated_log {b : Bool} : (s.removeTerminated b).log = s.log := rfl

@[simp] theorem emit_all {w : List Output} : (s.emit w).all = s.all := rfl
@[simp] theorem emit_log {w : List Output} : (s.emit w).log = s.log ++ w := rfl
@[simp] theorem generateResponse_log {n : Nat} : (s.generateResponse n).log = s.log ++ [.generateResponse n] := rfl
@[simp] theorem endSearch_searching : s.endSearch.searching = false := rfl
@[simp] theorem endSearch_log : s.endSearch.log = s.log ++ [.searchOver] := rfl
@[simp] theorem put_log {x : ClientTransaction × List Output} : (s.put x).log = s.log ++ x.2 := rfl

theorem forwardResponse_frame : (s.forwardResponse env r).settings = s.settings ∧
    (s.forwardResponse env r).request = s.request ∧ (s.forwardResponse env r).canceled = s.canceled ∧
    (s.forwardResponse env r).searching = s.searching ∧ (s.forwardResponse env r).clients = s.clients ∧
    (s.forwardResponse env r).gone = s.gone ∧ (s.forwardResponse env r).nextId = s.nextId ∧
    (s.forwardResponse env r).registered = s.registered := by
  unfold forwardResponse
  dsimp only
  split <;> simp

@[simp] theorem forwardResponse_settings : (s.forwardResponse env r).settings = s.settings :=
  forwardResponse_frame.1
@[simp] theorem forwardResponse_request : (s.forwardResponse env r).request = s.request :=
  forwardResponse_frame.2.1
@[simp] theorem forwardResponse_searching : (s.forwardResponse env r).searching = s.searching :=
  forwardResponse_frame.2.2.2.1
@[simp] theorem forwardResponse_clients : (s.forwardResponse env r).clients = s.clients :=
  forwardResponse_frame.2.2.2.2.1
@[simp] theorem forwardResponse_gone : (s.forwardResponse env r).gone = s.gone :=
  forwardResponse_frame.2.2.2.2.2.1
@[simp] theorem forwardResponse_nextId : (s.forwardResponse env r).nextId = s.nextId :=
  forwardResponse_frame.2.2.2.2.2.2.1
@[simp] theorem forwardResponse_registered : (s.forwardResponse env r).registered = s.registered :=
  forwardResponse_frame.2.2.2.2.2.2.2

@[simp] theorem startRequests_searching : (s.startRequests env).1.searching = s.searching := by
  unfold startRequests
  split <;> rfl

@[simp] theorem startRequests_nextId : (s.startRequests env).1.nextId = s.nextId := by
  unfold startRequests
  split <;> rfl

@[simp] theorem cancelOutstandingRequests_clients : (s.cancelOutstandingRequests env).clients =
    s.clients.map fun c => (c.cancelRequest s.settings env).1 := by
  simp [cancelOutstandingRequests, Function.comp_def]

@[simp] theorem cancelOutstandingRequests_log : (s.cancelOutstandingRequests env).log =
    s.log ++ .searchOver :: .cancelOutstanding :: s.clients.flatMap fun c => (c.cancelRequest s.settings env).2 := by
  simp [cancelOutstandingRequests, List.flatMap_map]

@[simp] theorem cancelOutstandingRequests_searching : (s.cancelOutstandingRequests env).searching = false := rfl
@[simp] theorem cancelOutstandingRequests_gone : (s.cancelOutstandingRequests env).gone = s.gone := rfl
@[simp] theorem cancelOutstandingRequests_nextId : (s.cancelOutstandingRequests env).nextId = s.nextId := rfl
@[simp] theorem cancelOutstandingRequests_settings : (s.cancelOutstandingRequests env).settings = s.settings := rfl
@[simp] theorem cancelOutstandingRequests_request : (s.cancelOutstandingRequests env).request = s.request := rfl

end

end ProxyCore

/-! ### Lists of client transactions -/

theorem mem_put {s : ProxyCore} {x : ClientTransaction × List Output} {c : ClientTransaction}
    (h : c ∈ (s.put x).all) : c = x.1 ∨ c ∈ s.all := by
  simp only [all, put, List.mem_append, List.mem_map] at h ⊢
  rcases h with ⟨d, hd, rfl⟩ | ⟨d, hd, rfl⟩ <;> split <;> simp [hd]

theorem mem_removeTerminated {s : ProxyCore} {b : Bool} {c : ClientTransaction}
    (h : c ∈ (s.removeTerminated b).all) : c ∈ s.all := by
  simp only [all, removeTerminated, List.mem_append, List.mem_filter] at h ⊢
  rcases h with ⟨h, -⟩ | h | ⟨h, -⟩
  · exact Or.inl h
  · exact Or.inr h
  · exact Or.inl h

theorem sortBest_perm (l : List ClientTransaction) : (sortBest l).Perm l := by
  suffices h : ∀ acc : List ClientTransaction, (l.foldl (fun sorted c =>
      List.orderedInsert (fun c₁ c₂ => c₁.bestResponseOrder c₂ = true) c sorted) acc).Perm (acc ++ l) by
    simpa [sortBest] using h []
  induction l with
  | nil => intro acc; simp
  | cons c l ih =>
    intro acc
    refine (ih _).trans ?_
    refine ((List.perm_orderedInsert _ c acc).append_right l).trans ?_
    exact List.perm_middle.symm

theorem mem_insertAfter {target : String} {added : List ClientTransaction} {c : ClientTransaction} :
    ∀ {l : List ClientTransaction}, c ∈ insertAfter target added l → c ∈ l ∨ c ∈ added
  | [], h => by simp [insertAfter] at h
  | d :: l, h => by
    unfold insertAfter at h
    split at h
    · simp only [List.mem_cons, List.mem_append] at h ⊢
      tauto
    · rcases List.mem_cons.mp h with rfl | h
      · exact Or.inl List.mem_cons_self
      · rcases mem_insertAfter h with h | h
        · exact Or.inl (List.mem_cons_of_mem _ h)
        · exact Or.inr h

theorem mem_newClients {env : Env} {next : Nat} {targets : List String} {c : ClientTransaction}
    (h : c ∈ newClients env next targets) : ∃ id target, next ≤ id ∧ c = .new env id target := by
  obtain ⟨x, -, rfl⟩ := List.mem_map.mp h
  exact ⟨_, _, Nat.le_add_right _ _, rfl⟩

/-- A predicate that launching keeps holds of the whole list after the loop of `startRequests`. The predicate may
    read the log. -/
theorem launch_forall {k : Settings} {env : Env} {req : Request} {P : List Output → ClientTransaction → Prop}
    {Q : List Output → Prop} (mono : ∀ {l w : List Output} {c : ClientTransaction}, P l c → P (l ++ w) c) (nil : Q [])
    (append : ∀ {w w' : List Output}, Q w → Q w' → Q (w ++ w'))
    (hlaunch : ∀ {l : List Output} {c : ClientTransaction}, c.state = .notStarted → P l c →
      P (l ++ (c.forwardRequest k env req).1.2) (c.forwardRequest k env req).1.1 ∧ Q (c.forwardRequest k env req).1.2)
    {l : List Output} {cs : List ClientTransaction} (h : ∀ c ∈ cs, P l c) :
    (∀ c ∈ (launch k env req cs).1, P (l ++ (launch k env req cs).2.1) c) ∧ Q (launch k env req cs).2.1 := by
  induction cs generalizing l with
  | nil => exact ⟨by simp [launch], nil⟩
  | cons c cs ih =>
    have hc := h c List.mem_cons_self
    have hcs : ∀ d ∈ cs, P l d := fun d hd => h d (List.mem_cons_of_mem _ hd)
    unfold launch
    split
    · rename_i hs
      obtain ⟨hsent, hout⟩ := hlaunch hs hc
      dsimp only
      split
      · refine ⟨fun d hd => ?_, hout⟩
        rcases List.mem_cons.mp hd with rfl | hd
        · exact hsent
        · exact mono (hcs d hd)
      · obtain ⟨hrest, hrestout⟩ := ih (l := l ++ (c.forwardRequest k env req).1.2) fun d hd => mono (hcs d hd)
        rw [← List.append_assoc]
        refine ⟨fun d hd => ?_, append hout hrestout⟩
        rcases List.mem_cons.mp hd with rfl | hd
        · exact mono hsent
        · exact hrest d hd
    · obtain ⟨hrest, hrestout⟩ := ih hcs
      refine ⟨fun d hd => ?_, hrestout⟩
      rcases List.mem_cons.mp hd with rfl | hd
      · exact mono hc
      · exact hrest d hd

/-- The same for the loop of `cancelOutstandingRequests`. -/
theorem cancel_forall {k : Settings} {env : Env} {P : List Output → ClientTransaction → Prop} {Q : List Output → Prop}
    (mono : ∀ {l w : List Output} {c : ClientTransaction}, P l c → P (l ++ w) c) (nil : Q [])
    (append : ∀ {w w' : List Output}, Q w → Q w' → Q (w ++ w')) {l : List Output} {cs : List ClientTransaction}
    (hcancel : ∀ {w : List Output} {c : ClientTransaction}, P (l ++ w) c →
      P (l ++ w ++ (c.cancelRequest k env).2) (c.cancelRequest k env).1 ∧ Q (c.cancelRequest k env).2)
    (h : ∀ c ∈ cs, P l c) : (∀ c ∈ cs.map fun c => (c.cancelRequest k env).1,
      P (l ++ cs.flatMap fun c => (c.cancelRequest k env).2) c) ∧ Q (cs.flatMap fun c => (c.cancelRequest k env).2) := by
  suffices hall : ∀ w, (∀ c ∈ cs, P (l ++ w) c) → (∀ c ∈ cs.map fun c => (c.cancelRequest k env).1,
      P (l ++ w ++ cs.flatMap fun c => (c.cancelRequest k env).2) c) ∧
        Q (cs.flatMap fun c => (c.cancelRequest k env).2) by
    simpa using hall [] (by simpa using h)
  clear h
  induction cs with
  | nil => exact fun _ _ => ⟨by simp, nil⟩
  | cons c cs ih =>
    intro w h
    obtain ⟨hdone, hout⟩ := hcancel (h c List.mem_cons_self)
    obtain ⟨hrest, hrestout⟩ := ih (w ++ (c.cancelRequest k env).2) fun d hd => by
      rw [← List.append_assoc]
      exact mono (h d (List.mem_cons_of_mem _ hd))
    rw [List.flatMap_cons, ← List.append_assoc]
    refine ⟨fun d hd => ?_, append hout hrestout⟩
    rcases List.mem_cons.mp hd with rfl | hd
    · exact mono hdone
    · rw [List.append_assoc l w]
      exact hrest d hd

end Drachtio.Proxy
