import Drachtio.Lib.Run
import Drachtio.Theorems.Proxy.Micro

/-! The identities of client transactions: they are distinct and never reused, so a client transaction can be
    followed through a run by its identity. -/

namespace Drachtio.Proxy
open ProxyCore

/-- Identities are distinct, and the next one is fresh. -/
structure WellKeyed (s : ProxyCore) : Prop where
  nodup : (s.all.map (·.id)).Nodup
  fresh : ∀ c ∈ s.all, c.id < s.nextId

/-! ### Identities under the operations -/

theorem ids_put {s : ProxyCore} {x : ClientTransaction × List Output} :
    (s.put x).all.map (·.id) = s.all.map (·.id) := by
  simp only [all, put, List.map_append, List.map_map]
  congr 1 <;> refine List.map_congr_left fun c _ => ?_ <;> simp only [Function.comp_apply] <;> split <;> simp_all

theorem ids_launch {k : Settings} {env : Env} {req : Request} :
    ∀ l : List ClientTransaction, (launch k env req l).1.map (·.id) = l.map (·.id)
  | [] => rfl
  | c :: l => by
    have ih : (launch k env req l).1.map (·.id) = l.map (·.id) := ids_launch l
    unfold launch
    split
    · dsimp only
      split
      · simp
      · simpa using ih
    · simpa using ih

theorem perm_removeTerminated {s : ProxyCore} {b : Bool} : (s.removeTerminated b).all.Perm s.all := by
  simp only [all, removeTerminated]
  refine (List.perm_append_comm_assoc _ _ _).trans ?_
  refine List.perm_append_comm.trans (List.Perm.append_right _ ?_)
  exact List.perm_append_comm.trans (List.filter_append_perm _ _)

theorem insertAfter_perm {target : String} {added : List ClientTransaction} :
    ∀ {l : List ClientTransaction}, l.any (·.target == target) = true →
      (insertAfter target added l).Perm (added ++ l)
  | [], h => by simp at h
  | c :: l, h => by
    unfold insertAfter
    split
    · exact List.perm_middle.symm
    · rename_i hne
      have hl : l.any (·.target == target) = true := by simpa [hne] using h
      exact ((insertAfter_perm hl).cons c).trans List.perm_middle.symm

theorem ids_newClients {env : Env} {next : Nat} {targets : List String} :
    (newClients env next targets).map (·.id) = List.range' next targets.length := by
  simp only [newClients, List.map_map]
  rw [List.range'_eq_map_range]
  have h : (targets.zipIdx.map fun x => next + x.2) = (targets.zipIdx.map (·.2)).map (next + ·) := by
    rw [List.map_map]
    rfl
  calc (targets.zipIdx.map ((·.id) ∘ fun x => ClientTransaction.new env (next + x.2) x.1))
      = targets.zipIdx.map fun x => next + x.2 := rfl
    _ = (targets.zipIdx.map (·.2)).map (next + ·) := h
    _ = _ := by rw [List.zipIdx_map_snd, List.range_eq_range']

/-! ### The invariant -/

theorem WellKeyed.of_perm {s t : ProxyCore} (h : WellKeyed s) (hp : (t.all.map (·.id)).Perm (s.all.map (·.id)))
    (hn : s.nextId = t.nextId) : WellKeyed t where
  nodup := hp.nodup_iff.mpr h.nodup
  fresh c hc := by
    obtain ⟨d, hd, hid⟩ := List.mem_map.mp (hp.mem_iff.mp (List.mem_map_of_mem hc))
    rw [← hid, ← hn]
    exact h.fresh d hd

theorem Micro.wellKeyed {s₀ s t : ProxyCore} {i : Input} (hm : Micro s₀ i s t) (h : WellKeyed s) : WellKeyed t := by
  cases hm with
  | note x _ _ _ => exact h.of_perm (.refl _) rfl
  | best _ => exact h.of_perm (.refl _) rfl
  | mark b => exact h.of_perm (.refl _) rfl
  | forward r _ => exact h.of_perm (by simp [all]) (by simp)
  | act _ _ => exact h.of_perm (by rw [ids_put]) rfl
  | remove b _ => exact h.of_perm (perm_removeTerminated.map _) rfl
  | start =>
    unfold startRequests
    dsimp only
    split
    · exact h.of_perm (by simp [all, ids_launch]) rfl
    · exact h
  | endSearch => exact h.of_perm (.refl _) rfl
  | cancelOutstanding =>
    refine h.of_perm ?_ rfl
    simp [all, Function.comp_def]
  | sort => exact h.of_perm (((sortBest_perm s.clients).append_right _).map _) rfl
  | add targets target =>
    unfold addClientTransactions
    split
    · rename_i hany
      -- The new identities start at `nextId`, above all identities in use.
      have hp : ((insertAfter target (newClients i.env s.nextId targets) s.clients ++ s.gone).map (·.id)).Perm
          (List.range' s.nextId targets.length ++ s.all.map (·.id)) := by
        refine (((insertAfter_perm hany).append_right s.gone).map _).trans ?_
        simp [all, ids_newClients]
      have hlen : (newClients i.env s.nextId targets).length = targets.length := by simp [newClients]
      constructor
      · refine hp.nodup_iff.mpr (List.nodup_append.mpr ⟨List.nodup_range', h.nodup, ?_⟩)
        intro a ha b hb hab
        obtain ⟨c, hc, rfl⟩ := List.mem_map.mp hb
        have := h.fresh c hc
        have := (List.mem_range'_1.mp ha).1
        omega
      · intro c hc
        show c.id < s.nextId + (newClients i.env s.nextId targets).length
        rw [hlen]
        rcases List.mem_append.mp (hp.mem_iff.mp (List.mem_map_of_mem hc)) with hc | hc
        · exact (List.mem_range'_1.mp hc).2
        · obtain ⟨d, hd, hid⟩ := List.mem_map.mp hc
          have := h.fresh d hd
          omega
    · exact h.of_perm (.refl _) rfl

theorem step_wellKeyed {s : ProxyCore} (h : WellKeyed s) (i : Input) : WellKeyed (s.step i) := by
  suffices ht : ∀ {t : ProxyCore}, Chain s i s t → WellKeyed t from ht (step_chain s i)
  intro t hc
  induction hc with
  | refl => exact h
  | tail _ hm ih => exact hm.wellKeyed ih

theorem addProxy_wellKeyed {k : Settings} {env : Env} {req : Request} {destinations : List String} :
    WellKeyed (addProxy k env req destinations) where
  nodup := by simp [addProxy, all, ids_newClients, List.nodup_range']
  fresh c hc := by
    have hmem : c ∈ newClients env 0 destinations := by simpa [addProxy, all] using hc
    have := List.mem_map_of_mem (f := (·.id)) hmem
    rw [ids_newClients] at this
    show c.id < destinations.length
    have := (List.mem_range'_1.mp this).2
    omega

/-- What a property of the core needs to hold when `doProxy` returns. -/
theorem doProxy_induction {P : ProxyCore → Prop} {k : Settings} {env : Env} {req : Request} {destinations : List String}
    (init : P (addProxy k env req destinations))
    (start : P (addProxy k env req destinations) → P ((addProxy k env req destinations).startRequests env).1)
    (emit : ∀ s (w : List Output), (∀ x ∈ w, x.isNote = true ∧ x.isMark = false ∧ x.isForward = false) →
      P s → P (s.emit w))
    (remove : ∀ s, P s → P s.removeProxy) : P (doProxy k env req destinations) := by
  unfold doProxy
  dsimp only
  split
  · exact remove _ (emit _ _ (by simp [Output.isNote, Output.isMark, Output.isForward]) init)
  · split
    · exact remove _ (emit _ _ (by simp [Output.isNote, Output.isMark, Output.isForward]) (start init))
    · split
      · exact start init
      · exact emit _ _ (by simp [Output.isNote, Output.isMark, Output.isForward]) (start init)

/-- The invariant rule for client transactions, at the start. -/
theorem Launches.doProxy {P : List Output → ClientTransaction → Prop} {Q : List Output → Prop} {k : Settings} {env : Env}
    {req : Request} {destinations : List String} (hl : Launches P Q 0 k env req) :
    Good P Q (doProxy k env req destinations) := by
  refine doProxy_induction ⟨fun c hc => ?_, hl.nil⟩ (fun h => ?_) (fun s w hw h => ?_)
    fun s h => ⟨h.clients, h.log⟩
  · have hmem : c ∈ newClients env 0 destinations := by simpa [addProxy, all] using hc
    obtain ⟨id, target, hid, rfl⟩ := mem_newClients hmem
    exact hl.new hid
  · obtain ⟨w, hlog, hw, hcl⟩ := Launches.startRequests (s := addProxy k env req destinations) hl h.clients
    exact ⟨hcl, hlog ▸ hl.append h.log hw⟩
  · refine ⟨fun c hc => hl.mono (h.clients c hc), hl.append h.log ?_⟩
    clear h
    induction w with
    | nil => exact hl.nil
    | cons x w ih =>
      exact hl.append (hl.note (hw x List.mem_cons_self).1) (ih fun y hy => hw y (List.mem_cons_of_mem _ hy))

theorem doProxy_wellKeyed {k : Settings} {env : Env} {req : Request} {destinations : List String} :
    WellKeyed (doProxy k env req destinations) := by
  refine doProxy_induction addProxy_wellKeyed (fun h => ?_) (fun s w _ h => ?_) (fun s h => ?_)
  · have hm : Micro (addProxy k env req destinations) ⟨env, .cancel⟩ (addProxy k env req destinations)
        ((addProxy k env req destinations).startRequests env).1 := .start
    exact hm.wellKeyed h
  · exact h.of_perm (.refl _) rfl
  · exact h.of_perm (.refl _) rfl

@[simp] theorem doProxy_settings {k : Settings} {env : Env} {req : Request} {destinations : List String} :
    (doProxy k env req destinations).settings = k := by
  refine doProxy_induction (P := fun s => s.settings = k) rfl (fun _ => ?_) (fun _ _ _ h => h) (fun _ h => h)
  unfold startRequests
  split <;> rfl

@[simp] theorem doProxy_request {k : Settings} {env : Env} {req : Request} {destinations : List String} :
    (doProxy k env req destinations).request = req := by
  refine doProxy_induction (P := fun s => s.request = req) rfl (fun _ => ?_) (fun _ _ _ h => h) (fun _ h => h)
  unfold startRequests
  split <;> rfl

section
variable {s : ProxyCore} {c d : ClientTransaction}

/-- Two client transactions with one identity are the same. -/
theorem WellKeyed.eq_of_id (h : WellKeyed s) (hc : c ∈ s.all) (hd : d ∈ s.all) (hid : c.id = d.id) : c = d :=
  List.inj_on_of_nodup_map h.nodup hc hd hid

end

end Drachtio.Proxy
