import Drachtio.Theorems.Proxy.Orphans

/-! The translation of RSeq numbers. Upstream every reliable provisional response gets a number of the server
    transaction, and the map leads back to the number the target sent. The numbers are distinct as long as the counter
    does not wrap; a PRACK finds its target as long as the target's last number tells it from the others. -/

namespace Drachtio.Proxy
open ProxyCore

/-- The RSeq of a reliable provisional response that went upstream. -/
def Output.upstreamRSeq : Output → Option UInt32
  | .forwardResponse r (some rseq) => if r.status < 200 then some rseq else none
  | _ => none

/-- The reliable provisional response that went upstream with a number. -/
def Output.upstreamResponse (rseq : UInt32) : Output → Option Response
  | .forwardResponse r (some rseq') => if r.status < 200 ∧ rseq' = rseq then some r else none
  | _ => none

/-- The numbers that went upstream are distinct and not zero. -/
structure DistinctRSeqs (s : ProxyCore) : Prop where
  distinct : (s.log.filterMap Output.upstreamRSeq).Nodup
  nonzero : ∀ rseq ∈ s.log.filterMap Output.upstreamRSeq, rseq ≠ 0

/-- A PRACK goes to the target whose response it acknowledges, with the number that the target sent, and to no other
    one; a PRACK for a number that never went upstream goes nowhere. -/
structure RoutesPrack (s : ProxyCore) (i : Input) (rack : UInt32) : Prop where
  sent : ∀ r original, .forwardResponse r (some rack) ∈ s.log → r.status < 200 → r.rseq = some original →
    .sendPrack r.branch rack original ∈ s.written i ∧
      ∀ c rseq, .sendPrack c rack rseq ∈ s.written i → c = r.branch ∧ rseq = original
  unsent : rack ∉ s.log.filterMap Output.upstreamRSeq → ∀ c rseq, .sendPrack c rack rseq ∉ s.written i

/-- The target of a response can be told by its last RSeq: its transaction is in the vector, and none before it has
    the same one. -/
def ToldApart (s : ProxyCore) (r : Response) : Prop :=
  (∃ c ∈ s.clients, c.id = r.branch ∧ r.rseq = some c.rseq) ∧
    ∀ d ∈ s.clients.takeWhile (·.id != r.branch), r.rseq ≠ some d.rseq

instance (s : ProxyCore) (r : Response) : Decidable (ToldApart s r) := inferInstanceAs (Decidable (_ ∧ _))

/-- The counter does not wrap on a reliable provisional response, and a PRACK finds its target told apart, or, for a
    number that never went upstream, no target with the number that the map gives. -/
def Translates (s : ProxyCore) (env : Env) : Event → Prop
  | .response r => ∀ c ∈ s.taker r, c.state ≠ .terminated → c.isLate r = false →
      101 ≤ r.status ∧ r.status ≤ 199 ∧ r.rseq.isSome = true →
      (if s.server.rseq = 0 then env.suRandom else s.server.rseq) ≠ 0xFFFFFFFF
  | .prack rack =>
      (∀ x ∈ s.log, ∀ r ∈ x.upstreamResponse rack, s.registered = true ∧ ToldApart s r ∧ env.sendPrack r.branch = true) ∧
      (rack ∉ s.log.filterMap Output.upstreamRSeq → s.registered = true →
        ∀ c ∈ s.clients, c.rseq ≠ (s.server.mapAleg2BlegRseq.lookup rack).getD 0)
  | _ => True

instance (s : ProxyCore) (env : Env) : ∀ e, Decidable (Translates s env e)
  | .response r => inferInstanceAs (Decidable (∀ c ∈ s.taker r, _ → _ → _ → _))
  | .prack _ => inferInstanceAs (Decidable ((∀ x ∈ s.log, _) ∧ (_ → _ → ∀ c ∈ s.clients, _)))
  | .timer _ _ | .cancel | .info _ => isTrue trivial

/-! ### The counter and the map -/

/-- Every number that went upstream is in the map, and all keys are below the counter. -/
structure Mapped (t : ServerTransaction) (l : List Output) : Prop where
  keys : ∀ p ∈ t.mapAleg2BlegRseq, p.1 ≠ 0 ∧ p.1 ≤ t.rseq
  sent : ∀ r rseq, .forwardResponse r (some rseq) ∈ l → r.status < 200 →
    ∃ original, r.rseq = some original ∧ t.mapAleg2BlegRseq.lookup rseq = some original
  distinct : (l.filterMap Output.upstreamRSeq).Nodup

theorem succ_of_ne_max {a : UInt32} (h : a ≠ 0xFFFFFFFF) : a + 1 ≠ 0 ∧ a < a + 1 := by
  have hlt : a.toNat < 4294967295 := by
    have h1 := a.toNat_lt
    have h2 : a.toNat ≠ 4294967295 := fun e => h (UInt32.toNat.inj e)
    omega
  have hadd : (a + 1).toNat = a.toNat + 1 := by
    rw [UInt32.toNat_add]
    simp
    omega
  refine ⟨fun e => ?_, ?_⟩
  · rw [e] at hadd
    simp at hadd
  · rw [UInt32.lt_iff_toNat_lt]
    omega

section
variable {t : ServerTransaction} {l w : List Output}

theorem Mapped.bounds (h : Mapped t l) : ∀ rseq ∈ l.filterMap Output.upstreamRSeq, rseq ≠ 0 ∧ rseq ≤ t.rseq := by
  intro rseq hmem
  obtain ⟨x, hx, he⟩ := List.mem_filterMap.mp hmem
  unfold Output.upstreamRSeq at he
  split at he
  · rename_i r q
    split at he
    · rename_i hst
      cases he
      obtain ⟨original, -, hl⟩ := h.sent r rseq hx hst
      obtain ⟨l₁, l₂, hm, -⟩ := List.lookup_eq_some_iff.mp hl
      exact h.keys (rseq, original) (by simp [hm])
    · cases he
  · cases he

/-- Outputs that carry no number upstream change nothing. -/
theorem Mapped.quiet (h : Mapped t l) (hw : ∀ x ∈ w, x.upstreamRSeq = none) : Mapped t (l ++ w) where
  keys := h.keys
  sent r rseq hmem hst := by
    rcases List.mem_append.mp hmem with hmem | hmem
    · exact h.sent r rseq hmem hst
    · have := hw _ hmem
      simp [Output.upstreamRSeq, hst] at this
  distinct := by
    rw [List.filterMap_append, List.filterMap_eq_nil_iff.mpr hw, List.append_nil]
    exact h.distinct

/-- A new number above the counter. -/
theorem Mapped.assign (h : Mapped t l) {rseq original : UInt32} (hne : rseq ≠ 0) (hlt : t.rseq < rseq)
    (hw : w = [] ∨ ∃ r, w = [.forwardResponse r (some rseq)] ∧ r.rseq = some original) :
    Mapped { t with rseq := rseq, mapAleg2BlegRseq := (rseq, original) :: t.mapAleg2BlegRseq } (l ++ w) where
  keys p hp := by
    rcases List.mem_cons.mp hp with rfl | hp
    · exact ⟨hne, UInt32.le_refl _⟩
    · exact ⟨(h.keys p hp).1, UInt32.le_trans (h.keys p hp).2 (UInt32.le_of_lt hlt)⟩
  sent r q hmem hst := by
    rcases List.mem_append.mp hmem with hmem | hmem
    · obtain ⟨o, ho, hl⟩ := h.sent r q hmem hst
      refine ⟨o, ho, ?_⟩
      obtain ⟨l₁, l₂, hm, -⟩ := List.lookup_eq_some_iff.mp hl
      have hle : q ≤ t.rseq := (h.keys (q, o) (by simp [hm])).2
      have hneq : (q == rseq) = false := by
        rw [beq_eq_false_iff_ne]
        rintro rfl
        exact absurd hlt (UInt32.not_lt.mpr hle)
      rw [List.lookup_cons, hneq]
      exact hl
    · rcases hw with rfl | ⟨r', rfl, ho⟩
      · simp at hmem
      · simp only [List.mem_singleton, Output.forwardResponse.injEq, Option.some.injEq] at hmem
        obtain ⟨rfl, rfl⟩ := hmem
        exact ⟨original, ho, by simp⟩
  distinct := by
    rw [List.filterMap_append, List.nodup_append]
    refine ⟨h.distinct, ?_, ?_⟩
    · rcases hw with rfl | ⟨r', rfl, -⟩
      · simp
      · simp only [Output.upstreamRSeq, List.filterMap_cons, List.filterMap_nil]
        split <;> simp
    · intro a ha b hb
      rcases hw with rfl | ⟨r', rfl, -⟩
      · simp at hb
      · have hle := (h.bounds a ha).2
        have hb : b = rseq := by
          simp only [Output.upstreamRSeq, List.filterMap_cons, List.filterMap_nil] at hb
          split at hb
          · simp at hb
          · rename_i q hq
            split at hq
            · cases hq
              simpa using hb
            · cases hq
        rw [hb]
        rintro rfl
        exact absurd hlt (UInt32.not_lt.mpr hle)

/-- Forwarding a response keeps the map, unless the counter wraps. -/
theorem forwardResponse_mapped {s : ProxyCore} {env : Env} {r : Response} (h : Mapped s.server s.log)
    (hwrap : r.status < 200 → r.rseq.isSome = true →
      (if s.server.rseq = 0 then env.suRandom else s.server.rseq) ≠ 0xFFFFFFFF) :
    Mapped (s.forwardResponse env r).server (s.forwardResponse env r).log := by
  have note : ∀ {t : ServerTransaction} {l : List Output}, Mapped t l → Mapped (t.noteStatus r.status) l := by
    intro t l ht
    unfold ServerTransaction.noteStatus
    split
    · exact ht
    · exact ⟨ht.keys, ht.sent, ht.distinct⟩
  -- Sent or not, the server transaction is the same but for the status it notes.
  suffices hw : ∀ w, w = [] ∨ w = [.forwardResponse r (s.server.replaceRSeq env r).2] →
      Mapped (s.server.replaceRSeq env r).1 (s.log ++ w) by
    unfold ProxyCore.forwardResponse
    dsimp only
    split
    · exact note (hw _ (Or.inr rfl))
    · have := hw [] (Or.inl rfl)
      rwa [List.append_nil] at this
  intro w hw
  by_cases hrel : r.status < 200 ∧ r.rseq.isSome = true
  · obtain ⟨hst, hsome⟩ := hrel
    obtain ⟨original, ho⟩ := Option.isSome_iff_exists.mp hsome
    obtain ⟨hne, hlt⟩ := succ_of_ne_max (hwrap hst hsome)
    have habove : s.server.rseq < (if s.server.rseq = 0 then env.suRandom else s.server.rseq) + 1 := by
      by_cases h0 : s.server.rseq = 0
      · rw [h0] at hne ⊢
        exact UInt32.pos_iff_ne_zero.mpr hne
      · rw [if_neg h0] at hlt ⊢
        exact hlt
    have hfree :
        s.server.mapAleg2BlegRseq.lookup ((if s.server.rseq = 0 then env.suRandom else s.server.rseq) + 1) = none := by
      rw [List.lookup_eq_none_iff]
      intro p hp
      rw [bne_iff_ne]
      rintro heq
      exact absurd habove (UInt32.not_lt.mpr (heq ▸ (h.keys p hp).2))
    have hrep : s.server.replaceRSeq env r = ({ s.server with
        rseq := (if s.server.rseq = 0 then env.suRandom else s.server.rseq) + 1
        mapAleg2BlegRseq := ((if s.server.rseq = 0 then env.suRandom else s.server.rseq) + 1, original) ::
          s.server.mapAleg2BlegRseq }, some ((if s.server.rseq = 0 then env.suRandom else s.server.rseq) + 1)) := by
      simp only [ServerTransaction.replaceRSeq, ho, hst, if_true, hfree, Option.isSome_none, Bool.false_eq_true, if_false]
    rw [hrep] at hw ⊢
    exact h.assign hne habove (hw.imp_right fun hw => ⟨r, hw, ho⟩)
  · have hsame : (s.server.replaceRSeq env r).1 = s.server ∧ (r.status < 200 → (s.server.replaceRSeq env r).2 = none) := by
      unfold ServerTransaction.replaceRSeq
      split
      · exact ⟨rfl, fun _ => rfl⟩
      · rename_i original ho
        have hst : ¬r.status < 200 := fun hst => hrel ⟨hst, by simp [ho]⟩
        rw [if_neg hst]
        exact ⟨rfl, fun h => absurd h hst⟩
    rw [hsame.1]
    refine h.quiet fun x hx => ?_
    rcases hw with rfl | rfl
    · simp at hx
    · rw [List.mem_singleton.mp hx]
      by_cases hst : r.status < 200
      · rw [hsame.2 hst]
        rfl
      · cases (s.server.replaceRSeq env r).2 with
        | none => rfl
        | some rseq => exact if_neg hst

end

/-! ### Steps -/

section
variable {s₀ s t : ProxyCore} {i : Input} {c : ClientTransaction} {r : Response}

/-- Only a provisional response that a transaction takes as a new one is forwarded at once. -/
theorem verdict_forward {k : Settings} {env : Env} (h : (c.processResponse k env r).2 = .forward) :
    c.state ≠ .terminated ∧ c.isLate r = false ∧ 101 ≤ r.status ∧ r.status ≤ 199 := by
  obtain ⟨hterm, hlate, -, hnew⟩ := ClientTransaction.processResponse_taken (by rw [h]; simp)
  rw [hnew, ClientTransaction.processNewResponse_verdict] at h
  refine ⟨hterm, hlate, ?_⟩
  by_contra hst
  rw [if_neg hst] at h
  split at h
  · cases h
  · split at h <;> cases h

theorem verdict_answered {k : Settings} {env : Env} (h : (c.processResponse k env r).2 = .answered) :
    200 ≤ r.status ∧ r.status ≤ 299 := by
  obtain ⟨-, -, -, hnew⟩ := ClientTransaction.processResponse_taken (by rw [h]; simp)
  rw [hnew, ClientTransaction.processNewResponse_verdict] at h
  by_contra hst
  rw [if_neg hst] at h
  split at h
  · cases h
  · split at h <;> cases h

theorem upstreamRSeq_of_not_forward {x : Output} (h : x.isForward = false) : x.upstreamRSeq = none := by
  cases x <;> simp_all [Output.isForward, Output.upstreamRSeq]

theorem upstreamRSeq_of_not_note {x : Output} (h : x.isNote = false) : x.upstreamRSeq = none := by
  cases x <;> simp_all [Output.isNote, Output.upstreamRSeq]

theorem startRequests_mapped {env : Env} (h : Mapped s.server s.log) :
    Mapped (s.startRequests env).1.server (s.startRequests env).1.log := by
  unfold ProxyCore.startRequests
  split
  · exact h.quiet fun y hy => upstreamRSeq_of_not_note (launch_notes y hy)
  · exact h

theorem Micro.mapped (hr : Reached s₀) (htr : Translates s₀ i.env i.event) (hm : Micro s₀ i s t)
    (hf : ∀ c ∈ s.all, ∀ r, c.msgFinal = some r → 300 ≤ r.status) (h : Mapped s.server s.log) :
    Mapped t.server t.log := by
  cases hm with
  | note x _ _ hfwd =>
    refine h.quiet fun y hy => ?_
    rw [List.mem_singleton.mp hy]
    exact upstreamRSeq_of_not_forward hfwd
  | best _ =>
    rw [endSearch_log, emit_log, List.append_assoc]
    exact h.quiet fun y hy => by
      simp at hy
      rcases hy with rfl | rfl <;> rfl
  | mark b => exact ⟨h.keys, h.sent, h.distinct⟩
  | forward r hfw =>
    refine forwardResponse_mapped h fun hst hsome => ?_
    rcases hfw with ⟨⟨he, c, hc, hv | hv⟩, hsrv⟩ | ⟨c, hc, hfin⟩
    · obtain ⟨hterm, hlate, h₁, h₂⟩ := verdict_forward hv
      rw [he] at htr
      rw [hsrv]
      exact htr c hc hterm hlate ⟨h₁, h₂, hsome⟩
    · have := verdict_answered hv
      omega
    · have := hf c hc r hfin
      omega
  | @act c x _ ha =>
    refine h.quiet fun y hy => ?_
    by_cases hnote : y.isNote = true
    · rw [((ha.outputs (hr.classified c ha.mem) y hy).2 hnote).1]
      rfl
    · exact upstreamRSeq_of_not_note (by simpa using hnote)
  | remove b _ => exact h
  | start => exact startRequests_mapped h
  | endSearch => exact h.quiet (by simp [Output.upstreamRSeq])
  | cancelOutstanding =>
    rw [cancelOutstandingRequests_log]
    refine h.quiet fun y hy => ?_
    simp only [List.mem_cons] at hy
    rcases hy with rfl | rfl | hy
    · rfl
    · rfl
    · obtain ⟨c, -, hy⟩ := List.mem_flatMap.mp hy
      exact upstreamRSeq_of_not_note (cancelRequest_outputs hy).2
  | sort => exact h
  | add targets target =>
    unfold addClientTransactions
    split
    · exact h
    · exact h.quiet (by simp [Output.upstreamRSeq])

theorem step_mapped (hr : Reached s) (htr : Translates s i.env i.event) (h : Mapped s.server s.log) :
    Mapped (s.step i).server (s.step i).log := by
  suffices ht : ∀ {t : ProxyCore}, Chain s i s t → Mapped t.server t.log from ht (step_chain s i)
  intro t hc
  induction hc with
  | refl => exact h
  | tail hc hm ih => exact hm.mapped hr htr (closed_keepsFailure.chain hr.failures hc).clients ih

theorem doProxy_mapped {k : Settings} {env : Env} {req : Request} {destinations : List String} :
    Mapped (doProxy k env req destinations).server (doProxy k env req destinations).log := by
  refine doProxy_induction (P := fun s => Mapped s.server s.log) ?_ (fun h => startRequests_mapped h)
    (fun s w hw h => ?_) (fun s h => h)
  · exact ⟨by simp [addProxy], by simp [addProxy], by simp [addProxy]⟩
  · exact h.quiet fun y hy => upstreamRSeq_of_not_forward (hw y hy).2.2

/-! ### Routing -/

/-- The first transaction with the number is the one that is told apart. -/
theorem find_toldApart {l : List ClientTransaction} {id : Nat} {rseq : UInt32} (hc : c ∈ l) (hid : c.id = id)
    (hrseq : c.rseq = rseq) (hnodup : (l.map (·.id)).Nodup) (hbefore : ∀ d ∈ l.takeWhile (·.id != id), d.rseq ≠ rseq) :
    l.find? (·.rseq == rseq) = some c := by
  induction l with
  | nil => cases hc
  | cons d l ih =>
    by_cases hd : d.id = id
    · have hdc : c = d := List.inj_on_of_nodup_map hnodup hc List.mem_cons_self (hid.trans hd.symm)
      rw [List.find?_cons, ← hdc, show (c.rseq == rseq) = true by simp [hrseq]]
    · have hd' : (d.id != id) = true := by simpa using hd
      rw [List.takeWhile_cons, hd'] at hbefore
      have hne : (d.rseq == rseq) = false := by simpa using hbefore d List.mem_cons_self
      have hc' : c ∈ l := (List.mem_cons.mp hc).resolve_left fun e => hd (e ▸ hid)
      rw [List.find?_cons, hne]
      exact ih hc' (List.nodup_cons.mp hnodup).2 fun e he => hbefore e (List.mem_cons_of_mem _ he)

theorem step_prack {rack : UInt32} (he : i.event = .prack rack) :
    s.step i = if s.registered = true then s.forwardPrack i.env rack else s := by
  unfold ProxyCore.step
  rw [he]

theorem step_routesPrack {rack : UInt32} (hr : Reached s) (h : Mapped s.server s.log) (he : i.event = .prack rack)
    (htr : Translates s i.env i.event) : RoutesPrack s i rack := by
  rw [he] at htr
  obtain ⟨hsent, hunsent⟩ := htr
  refine ⟨fun r original hmem hst ho => ?_, fun hnot c rseq => ?_⟩
  · obtain ⟨hreg, ⟨⟨c, hc, hid, hrseq⟩, hbefore⟩, hsend⟩ := hsent _ hmem r (by simp [Output.upstreamResponse, hst])
    obtain ⟨o, ho', hl⟩ := h.sent r rack hmem hst
    obtain rfl : original = o := by simpa [ho] using ho'
    obtain rfl : original = c.rseq := by simpa [ho] using hrseq
    have hnodup : (s.clients.map (·.id)).Nodup := by
      have := hr.keyed.nodup
      rw [ProxyCore.all, List.map_append, List.nodup_append] at this
      exact this.1
    have hfind := find_toldApart hc hid rfl hnodup fun d hd e => hbefore d hd (by rw [ho, e])
    have hw : s.written i = (c.forwardPrack i.env rack).2 := by
      rw [ProxyCore.written, step_prack he, if_pos hreg]
      have hrep : s.server.getReplacedRSeq rack = c.rseq := by rw [ServerTransaction.getReplacedRSeq, hl, Option.getD_some]
      simp only [ProxyCore.forwardPrack, hrep, hfind]
      exact List.drop_left
    rw [hw, ← hid]
    refine ⟨?_, fun c' rseq hx => ?_⟩
    · rw [← hid] at hsend
      simp [ClientTransaction.forwardPrack, hsend]
    · rcases ClientTransaction.mem_forwardPrack hx with hx | hx
      · cases hx
      · cases hx
        exact ⟨rfl, rfl⟩
  · have hstep : s.step i = s := by
      rw [step_prack he]
      split
      · rename_i hreg
        have hnone : s.clients.find? (·.rseq == s.server.getReplacedRSeq rack) = none :=
          List.find?_eq_none.mpr fun c hc => by
            simpa [ServerTransaction.getReplacedRSeq] using hunsent hnot hreg c hc
        simp only [ProxyCore.forwardPrack, hnone]
      · rfl
    rw [ProxyCore.written, hstep, List.drop_length]
    exact List.not_mem_nil

end

/-! ### Runs -/

/-- In every state of a run whose steps all meet the condition the numbers upstream are distinct and not zero, and
    the next PRACK is routed right if it meets the condition. -/
theorem rseq_translated (k : Settings) (env : Env) (req : Request) (destinations : List String) (is : List Input)
    (h : Machine.Meets step (fun s i => Translates s i.env i.event) (doProxy k env req destinations) is) :
    DistinctRSeqs (Machine.run step (doProxy k env req destinations) is) ∧
      ∀ i rack, i.event = .prack rack → Translates (Machine.run step (doProxy k env req destinations) is) i.env i.event →
        RoutesPrack (Machine.run step (doProxy k env req destinations) is) i rack := by
  have hm : Mapped (Machine.run step (doProxy k env req destinations) is).server
      (Machine.run step (doProxy k env req destinations) is).log := by
    refine (Machine.run_induction (I := fun s => Reached s ∧ Mapped s.server s.log) (fun s i hs htr => ?_) ?_ h).2
    · exact ⟨step_reached hs.1 i, step_mapped hs.1 htr hs.2⟩
    · exact ⟨doProxy_reached, doProxy_mapped⟩
  refine ⟨⟨hm.distinct, fun rseq hmem => (hm.bounds rseq hmem).1⟩, fun i rack he htr => ?_⟩
  exact step_routesPrack (run_reached k env req destinations is) hm he htr

/-- Two targets send a reliable 183 with RSeq 1; the PRACK for the second goes to the first. -/
theorem rseq_translated_equal :
    let s := Machine.run step (doProxy { launchType := .simultaneous } .reliable { method := .invite }
      ["sip:a.example.org", "sip:b.example.org"])
      [⟨.reliable, .response { status := 183, method := .invite, branch := 0, rseq := some 1 }⟩,
        ⟨.reliable, .response { status := 183, method := .invite, branch := 1, rseq := some 1 }⟩]
    ¬RoutesPrack s ⟨.reliable, .prack 9⟩ 9 := by
  intro s h
  have := (h.sent { status := 183, method := .invite, branch := 1, rseq := some 1 } 1 (by decide) (by decide) rfl).1
  exact absurd this (by decide)

/-- The same with different numbers. -/
theorem rseq_translated_different :
    let is : List Input := [⟨.reliable, .response { status := 183, method := .invite, branch := 0, rseq := some 1 }⟩,
      ⟨.reliable, .response { status := 183, method := .invite, branch := 1, rseq := some 2 }⟩]
    let s := doProxy { launchType := .simultaneous } .reliable { method := .invite }
      ["sip:a.example.org", "sip:b.example.org"]
    DistinctRSeqs (Machine.run step s is) ∧ RoutesPrack (Machine.run step s is) ⟨.reliable, .prack 9⟩ 9 :=
  ⟨(rseq_translated _ _ _ _ _ (by decide)).1, (rseq_translated _ _ _ _ _ (by decide)).2 _ _ rfl (by decide)⟩

end Drachtio.Proxy
