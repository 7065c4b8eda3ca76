import Drachtio.Theorems.Proxy.Core
import Mathlib.Logic.Relation

/-! What a step of the proxy core can do, said once: every step is a chain of elementary updates
    (`Micro`), each of which touches one part of the core. An invariant of the core is then a case
    analysis over the elementary updates, and an invariant of the client transactions is what the actions
    on one client transaction keep (`Closed.step`). -/

namespace Drachtio.Proxy
open ProxyCore

/-- Outputs that the core writes without touching a client transaction. -/
def Output.isNote : Output → Bool
  | .received _ | .timerFired _ _ | .forwardResponse _ _ | .generateResponse _ | .reply _ | .okToCancel
  | .forwardStateless _ | .searchOver | .cancelOutstanding | .bestResponse _ | .challenge _ _ _ | .api _
  | .assertFailed .finalResponse | .assertFailed .redirectTarget => true
  | _ => false

/-- Outputs that say where the search stands. -/
def Output.isMark : Output → Bool
  | .searchOver | .cancelOutstanding | .bestResponse _ => true
  | _ => false

def Output.isForward : Output → Bool
  | .forwardResponse _ _ => true
  | _ => false

/-- The client transaction that a response is handed to. -/
def ProxyCore.taker (r : Response) (s : ProxyCore) : Option ClientTransaction :=
  if s.registered = true ∧ r.method = s.request.method ∧ r.method ≠ .prack then s.clients.find? (·.accepts r) else none

theorem taker_eq_some {r : Response} {s : ProxyCore} {c : ClientTransaction} : s.taker r = some c ↔
    s.registered = true ∧ r.method = s.request.method ∧ r.method ≠ .prack ∧ s.clients.find? (·.accepts r) = some c := by
  unfold ProxyCore.taker
  split
  · rename_i h
    exact ⟨fun hc => ⟨h.1, h.2.1, h.2.2, hc⟩, fun hc => hc.2.2.2⟩
  · rename_i h
    simp only [reduceCtorEq, false_iff]
    exact fun hc => h ⟨hc.1, hc.2.1, hc.2.2.1⟩

/-- The action on one client transaction that the event of a step begins with. -/
inductive Acts (s₀ : ProxyCore) (i : Input) : ClientTransaction → ClientTransaction × List Output → Prop
  | response {r : Response} {c : ClientTransaction} (he : i.event = .response r) (hc : s₀.taker r = some c) :
      Acts s₀ i c (c.processResponse s₀.settings i.env r).1
  | timer {t : TimerName} {c : ClientTransaction} (he : i.event = .timer t c.id)
      (hc : s₀.all.find? (·.id == c.id) = some c) (ha : c.armed t = true) :
      Acts s₀ i c (c.timerFires s₀.settings i.env s₀.request t)
  | info {req : Request} {c : ClientTransaction} (he : i.event = .info req)
      (hc : s₀.clients.find? (·.isCallingOrProceeding) = some c) :
      Acts s₀ i c (c.forwardRequest s₀.settings i.env req).1
  | prack {rack : UInt32} {c : ClientTransaction} (he : i.event = .prack rack)
      (hc : s₀.clients.find? (·.rseq == s₀.server.getReplacedRSeq rack) = some c) :
      Acts s₀ i c (c.forwardPrack i.env rack)

/-- A client transaction takes the response of the step and it goes upstream. -/
def Relays (s₀ : ProxyCore) (i : Input) (r : Response) : Prop :=
  i.event = .response r ∧ ∃ c, s₀.taker r = some c ∧ ((c.processResponse s₀.settings i.env r).2 = .forward ∨
    (c.processResponse s₀.settings i.env r).2 = .answered)

/-- An elementary update of the core during the step with input `i` from `s₀`. -/
inductive Micro (s₀ : ProxyCore) (i : Input) : ProxyCore → ProxyCore → Prop
  | note {s : ProxyCore} (x : Output) (hx : x.isNote = true) (hm : x.isMark = false) (hf : x.isForward = false) :
      Micro s₀ i s (s.emit [x])
  | best {s : ProxyCore} (h : (s.searching = true ∧ s.exhaustedAllTargets = true) ∨
      ∃ r, i.event = .response r ∧ (savedChallenge r).isSome = true) :
      Micro s₀ i s (s.emit [.bestResponse (s.all.map (·.state))]).endSearch
  | mark {s : ProxyCore} (b : Bool) : Micro s₀ i s { s with canceled := true, server.canceled := b }
  | forward {s : ProxyCore} (r : Response)
      (h : (Relays s₀ i r ∧ s.server = s₀.server) ∨ ∃ c ∈ s.all, c.msgFinal = some r) :
      Micro s₀ i s (s.forwardResponse i.env r)
  | act {s : ProxyCore} {c : ClientTransaction} {x : ClientTransaction × List Output}
      (hs : s.clients = s₀.clients ∧ s.gone = s₀.gone) (h : Acts s₀ i c x) : Micro s₀ i s (s.put x)
  | remove {s : ProxyCore} (b : Bool) (hb : b = true → s.searching = false ∨
      ∃ r, i.event = .response r ∧ (savedChallenge r).isSome = true) : Micro s₀ i s (s.removeTerminated b)
  | start {s : ProxyCore} : Micro s₀ i s (s.startRequests i.env).1
  | endSearch {s : ProxyCore} : Micro s₀ i s s.endSearch
  | cancelOutstanding {s : ProxyCore} : Micro s₀ i s (s.cancelOutstandingRequests i.env)
  | sort {s : ProxyCore} : Micro s₀ i s { s with clients := sortBest s.clients }
  | add {s : ProxyCore} (targets : List String) (target : String) :
      Micro s₀ i s (s.addClientTransactions (newClients i.env s.nextId targets) target)

theorem Micro.prune {s₀ s : ProxyCore} {i : Input} : Micro s₀ i s (s.removeTerminated false) := .remove false nofun

/-- A chain of elementary updates. -/
abbrev Chain (s₀ : ProxyCore) (i : Input) : ProxyCore → ProxyCore → Prop := Relation.ReflTransGen (Micro s₀ i)

namespace Chain
variable {s₀ s t : ProxyCore} {i : Input}

theorem note (h : Chain s₀ i s t) (x : Output) (hx : x.isNote = true) (hm : x.isMark = false)
    (hf : x.isForward = false) : Chain s₀ i s (t.emit [x]) := h.tail (.note x hx hm hf)

theorem reportFinal (h : Chain s₀ i s t) (r : Response) : Chain s₀ i s (t.reportFinal r) := by
  unfold ProxyCore.reportFinal
  split
  · have hc := h.note (.api (.continued r)) rfl rfl rfl
    split
    · have := hc.note (.api .done) rfl rfl rfl
      simpa [emit] using this
    · simpa [emit] using hc
  · exact h

theorem forwardBestResponse (h : Chain s₀ i s t) (hb : (t.searching = true ∧ t.exhaustedAllTargets = true) ∨
    ∃ r, i.event = .response r ∧ (savedChallenge r).isSome = true) : Chain s₀ i s (t.forwardBestResponse i.env) := by
  have h2 : Chain s₀ i s _ := (h.tail (.best hb)).tail .sort
  unfold ProxyCore.forwardBestResponse
  dsimp only
  have done : ∀ {u : ProxyCore}, Chain s₀ i s u →
      Chain s₀ i s (if u.settings.fullResponse then u.emit [.api .done] else u) := fun hu => by
    split
    · exact hu.note _ rfl rfl rfl
    · exact hu
  apply done
  split
  · exact h2.note _ rfl rfl rfl
  · rename_i c hc
    split
    · exact h2.note _ rfl rfl rfl
    · rename_i r hr
      have hmem := List.mem_of_mem_head? (Option.filter_eq_some_iff.mp hc).1
      exact h2.tail (.forward _ (Or.inr ⟨c, List.mem_append_left _ hmem, hr⟩))

theorem finishSearch (h : Chain s₀ i s t) : Chain s₀ i s (t.finishSearch i.env) := by
  unfold ProxyCore.finishSearch
  split
  · rename_i hb
    exact h.forwardBestResponse (Or.inl hb)
  · exact h

theorem conclude (h : Chain s₀ i s t) (ht : t.server = s₀.server) (r : Response) (target : String)
    (v : ClientTransaction.Verdict) (hv : v = .forward ∨ v = .answered → Relays s₀ i r) :
    Chain s₀ i s (t.conclude i.env r target v) := by
  cases v with
  | discard => exact h
  | forward => exact h.tail (.forward r (Or.inl ⟨hv (by simp), ht⟩))
  | answered =>
    have h1 : Chain s₀ i s (t.notifyForwarded200OK i.env) :=
      ((h.tail .endSearch).tail .cancelOutstanding).tail (.remove true fun _ => Or.inl rfl)
    have h2 : ((t.notifyForwarded200OK i.env).reportFinal r).server = s₀.server := by
      unfold ProxyCore.reportFinal
      split <;> exact ht
    exact (h1.reportFinal r).tail (.forward r (Or.inl ⟨hv (by simp), h2⟩))
  | rejected =>
    simp only [ProxyCore.conclude]
    split
    · exact h.reportFinal r
    · exact Chain.reportFinal (h.tail (.add _ _)) r

end Chain

/-- Every step is a chain of elementary updates. -/
theorem step_chain (s : ProxyCore) (i : Input) : Chain s i s (s.step i) := by
  unfold ProxyCore.step
  cases he : i.event with
  | response r =>
    simp only
    split
    · rename_i hreq
      have h0 : Chain s i s (s.emit [.received r]) := .single (.note _ rfl rfl rfl)
      have stateless : ∀ {u : ProxyCore}, Chain s i s u → Chain s i s (u.emit [.forwardStateless r]) :=
        fun hu => hu.note _ rfl rfl rfl
      unfold ProxyCore.receive
      dsimp only
      split
      · exact stateless h0
      · rename_i hprack
        -- The transaction that takes the response, and what the verdict leads to
        have hd : s.registered = true → Chain s i s ((s.emit [.received r]).dispatch i.env r) := fun hr => by
          unfold ProxyCore.dispatch
          split
          · exact h0
          · rename_i c hc
            have ht : s.taker r = some c := taker_eq_some.mpr ⟨hr, hreq, hprack, hc⟩
            exact Chain.conclude (h0.tail (.act ⟨rfl, rfl⟩ (.response he ht))) rfl r _ _ fun hv => ⟨he, c, ht, hv⟩
        have hp : s.registered = true → Chain s i s ((s.emit [.received r]).processResponse i.env r) := fun hr => by
          have hd := hd hr
          unfold ProxyCore.processResponse
          dsimp only
          split
          · -- A challenge that is saved leads to a selection at once.
            rename_i hch
            have hsaved : ∃ r, i.event = .response r ∧ (savedChallenge r).isSome = true := ⟨r, he, by simp [hch]⟩
            exact Chain.forwardBestResponse ((hd.note _ rfl rfl rfl).tail (.remove true fun _ => Or.inr hsaved))
              (Or.inr hsaved)
          · apply Chain.finishSearch
            split
            · exact (hd.tail .prune).tail .start
            · exact hd.tail .prune
        split
        · rename_i hr
          split
          · exact hp hr
          · exact stateless (hp hr)
        · exact stateless h0
    · exact .refl
  | timer t id =>
    simp only
    split
    · exact .refl
    · rename_i c hc
      have hid : c.id = id := by simpa using List.find?_some hc
      subst hid
      split
      · rename_i ha
        have h0 : Chain s i s (s.emit [.timerFired t c.id]) := .single (.note _ rfl rfl rfl)
        have h1 := h0.tail (.act ⟨rfl, rfl⟩ (.timer he hc ha))
        cases t with
        | timerA => exact h1
        | timerE => exact h1
        | timerD => exact h1.tail .prune
        | timerF => exact h1.tail .prune
        | timerK => exact h1.tail .prune
        | timerB => exact Chain.finishSearch (h1.tail .prune)
        | timerC => exact Chain.finishSearch (h1.tail .prune)
        | timerProvisional =>
          -- The server transaction is marked before the transaction is canceled.
          have hm := h0.tail (.mark (s.emit [.timerFired .timerProvisional c.id]).server.canceled)
          have h2 := hm.tail (.act ⟨rfl, rfl⟩ (.timer he hc ha))
          exact Chain.finishSearch ((h2.tail .prune).tail .start)
      · exact .refl
  | cancel =>
    simp only
    split
    · have h0 : Chain s i s { s with canceled := true, server.canceled := true } := .single (.mark true)
      exact ((h0.note .okToCancel rfl rfl rfl).note (.generateResponse 487) rfl rfl rfl).tail
        .cancelOutstanding
    · exact .refl
  | info req =>
    simp only
    split
    · unfold ProxyCore.forwardRequest
      split
      · exact .refl
      · rename_i c hc
        exact .single (.act ⟨rfl, rfl⟩ (.info he hc))
    · exact .refl
  | prack rack =>
    simp only
    split
    · unfold ProxyCore.forwardPrack
      dsimp only
      split
      · exact .refl
      · rename_i c hc
        exact .single (.act ⟨rfl, rfl⟩ (.prack he hc))
    · exact .refl

/-! ### What an elementary update keeps -/

section
variable {s₀ s t : ProxyCore} {i : Input}

theorem Acts.mem {c : ClientTransaction} {x : ClientTransaction × List Output} (h : Acts s₀ i c x) : c ∈ s₀.all := by
  cases h with
  | response _ hc => exact List.mem_append_left _ (List.mem_of_find?_eq_some (taker_eq_some.mp hc).2.2.2)
  | timer _ hc _ => exact List.mem_of_find?_eq_some hc
  | info _ hc => exact List.mem_append_left _ (List.mem_of_find?_eq_some hc)
  | prack _ hc => exact List.mem_append_left _ (List.mem_of_find?_eq_some hc)

theorem Acts.id_eq {c : ClientTransaction} {x : ClientTransaction × List Output} (h : Acts s₀ i c x) :
    x.1.id = c.id := by
  cases h <;> simp

/-- The settings and the request are never changed. -/
theorem Micro.const (h : Micro s₀ i s t) : t.settings = s.settings ∧ t.request = s.request := by
  cases h with
  | forward r _ => unfold ProxyCore.forwardResponse; dsimp only; split <;> exact ⟨rfl, rfl⟩
  | start => unfold startRequests; dsimp only; split <;> exact ⟨rfl, rfl⟩
  | add targets target => unfold addClientTransactions; split <;> exact ⟨rfl, rfl⟩
  | _ => exact ⟨rfl, rfl⟩

theorem Chain.const (h : Chain s₀ i s t) : t.settings = s.settings ∧ t.request = s.request := by
  induction h with
  | refl => exact ⟨rfl, rfl⟩
  | tail _ hm ih => exact ⟨hm.const.1.trans ih.1, hm.const.2.trans ih.2⟩

@[simp] theorem step_settings : (s.step i).settings = s.settings := (step_chain s i).const.1
@[simp] theorem step_request : (s.step i).request = s.request := (step_chain s i).const.2

end

/-! ### Invariants of the client transactions -/

/-- Each client transaction satisfies `P`, which may read the log, and the log satisfies `Q`. -/
structure Good (P : List Output → ClientTransaction → Prop) (Q : List Output → Prop) (s : ProxyCore) : Prop where
  clients : ∀ c ∈ s.all, P s.log c
  log : Q s.log

/-- What launching client transactions has to keep: those not started yet, and new ones from `next` on. -/
structure Launches (P : List Output → ClientTransaction → Prop) (Q : List Output → Prop) (next : Nat) (k : Settings)
    (env : Env) (req : Request) : Prop where
  mono : ∀ {l w : List Output} {c : ClientTransaction}, P l c → P (l ++ w) c
  nil : Q []
  append : ∀ {w w' : List Output}, Q w → Q w' → Q (w ++ w')
  note : ∀ {x : Output}, x.isNote = true → Q [x]
  new : ∀ {l : List Output} {id : Nat} {target : String}, next ≤ id → P l (.new env id target)
  launch : ∀ {l : List Output} {c : ClientTransaction}, c.state = .notStarted → P l c →
    P (l ++ (c.forwardRequest k env req).1.2) (c.forwardRequest k env req).1.1 ∧ Q (c.forwardRequest k env req).1.2

/-- What the actions on one client transaction have to keep in the step with input `i` from `s`. -/
structure Closed (P : List Output → ClientTransaction → Prop) (Q : List Output → Prop) (s : ProxyCore) (i : Input) :
    Prop extends Launches P Q s.nextId s.settings i.env s.request where
  act : ∀ {l : List Output} {c : ClientTransaction} {x : ClientTransaction × List Output}, Acts s i c x → s.log <+: l →
    P l c → P (l ++ x.2) x.1 ∧ Q x.2
  cancel : ∀ {l : List Output} {c : ClientTransaction}, .searchOver ∈ l ∧ .cancelOutstanding ∈ l → P l c →
    P (l ++ (c.cancelRequest s.settings i.env).2) (c.cancelRequest s.settings i.env).1 ∧
      Q (c.cancelRequest s.settings i.env).2

section
variable {P : List Output → ClientTransaction → Prop} {Q : List Output → Prop} {s₀ s t : ProxyCore} {i : Input}

/-- What a chain of elementary updates leaves of the part of the core that the rule reads. -/
structure Tracks (P : List Output → ClientTransaction → Prop) (Q : List Output → Prop) (s₀ s : ProxyCore) : Prop where
  clients : ∀ c ∈ s.all, P s.log c
  log : ∃ w, s.log = s₀.log ++ w ∧ Q w
  settings : s.settings = s₀.settings
  request : s.request = s₀.request
  nextId : s₀.nextId ≤ s.nextId

theorem Launches.startRequests {next : Nat} {env : Env} (hl : Launches P Q next s.settings env s.request)
    (h : ∀ c ∈ s.all, P s.log c) : ∃ w, (s.startRequests env).1.log = s.log ++ w ∧ Q w ∧
      ∀ c ∈ (s.startRequests env).1.all, P (s.startRequests env).1.log c := by
  unfold ProxyCore.startRequests
  split
  · obtain ⟨hcl, hw⟩ := launch_forall hl.mono hl.nil hl.append hl.launch fun c hm => h c (List.mem_append_left _ hm)
    refine ⟨_, rfl, hw, fun d hd => ?_⟩
    rcases List.mem_append.mp hd with hd | hd
    · exact hcl d hd
    · exact hl.mono (h d (List.mem_append_right _ hd))
  · exact ⟨[], (List.append_nil _).symm, hl.nil, h⟩

theorem Micro.tracks (hc : Closed P Q s₀ i) (hg : ∀ c ∈ s₀.all, P s₀.log c) (hm : Micro s₀ i s t)
    (h : Tracks P Q s₀ s) : Tracks P Q s₀ t := by
  have hconst := hm.const
  obtain ⟨w₀, hlog₀, hw₀⟩ := h.log
  suffices hgrow : (∃ w, t.log = s.log ++ w ∧ Q w ∧ ∀ c ∈ t.all, P t.log c) ∧ s.nextId ≤ t.nextId by
    obtain ⟨⟨w, hlog, hw, hcl⟩, hid⟩ := hgrow
    refine ⟨hcl, ⟨w₀ ++ w, ?_, hc.append hw₀ hw⟩, hconst.1.trans h.settings, hconst.2.trans h.request, h.nextId.trans hid⟩
    rw [hlog, hlog₀, List.append_assoc]
  have same : ∀ {u : ProxyCore} (w : List Output), u.all = s.all → u.log = s.log ++ w → Q w → s.nextId ≤ u.nextId →
      (∃ w, u.log = s.log ++ w ∧ Q w ∧ ∀ c ∈ u.all, P u.log c) ∧ s.nextId ≤ u.nextId := by
    intro u w hall hlog hw hid
    refine ⟨⟨w, hlog, hw, fun c hmem => ?_⟩, hid⟩
    rw [hlog]
    exact hc.mono (h.clients c (hall ▸ hmem))
  cases hm with
  | note x hx _ _ => exact same [x] rfl rfl (hc.note hx) le_rfl
  | best _ =>
    exact same [.bestResponse (s.all.map (·.state)), .searchOver] rfl (by simp)
      (hc.append (hc.note (x := .bestResponse _) rfl) (hc.note (x := .searchOver) rfl)) le_rfl
  | mark b => exact same [] rfl (List.append_nil _).symm hc.nil le_rfl
  | forward r _ =>
    unfold ProxyCore.forwardResponse
    dsimp only
    split
    · exact same [_] rfl rfl (hc.note rfl) le_rfl
    · exact same [] rfl (List.append_nil _).symm hc.nil le_rfl
  | @act c x hs ha =>
    have hpre : s₀.log <+: s.log := hlog₀ ▸ List.prefix_append _ _
    have hP : P s.log c := hlog₀ ▸ hc.mono (hg c ha.mem)
    obtain ⟨hx, hw⟩ := hc.act ha hpre hP
    refine ⟨⟨x.2, rfl, hw, fun d hd => ?_⟩, le_rfl⟩
    rcases mem_put hd with rfl | hd
    · exact hx
    · exact hc.mono (h.clients d hd)
  | remove b _ =>
    refine ⟨⟨[], (List.append_nil _).symm, hc.nil, fun d hd => ?_⟩, le_rfl⟩
    exact h.clients d (mem_removeTerminated hd)
  | start =>
    have hl : Launches P Q s₀.nextId s.settings i.env s.request := by
      rw [h.settings, h.request]
      exact hc.toLaunches
    obtain ⟨w, hlog, hw, hcl⟩ := hl.startRequests h.clients
    exact ⟨⟨w, hlog, hw, hcl⟩, by simp⟩
  | endSearch => exact same [.searchOver] rfl rfl (hc.note rfl) le_rfl
  | cancelOutstanding =>
    -- The marker is in the log before the first transaction is canceled.
    have hlog : (s.cancelOutstandingRequests i.env).log = (s.log ++ [.searchOver, .cancelOutstanding]) ++
        s.clients.flatMap fun c => (c.cancelRequest s.settings i.env).2 := by
      simp
    have hcancel : ∀ {w : List Output} {c : ClientTransaction},
        P (s.log ++ [.searchOver, .cancelOutstanding] ++ w) c →
        P (s.log ++ [.searchOver, .cancelOutstanding] ++ w ++ (c.cancelRequest s.settings i.env).2)
          (c.cancelRequest s.settings i.env).1 ∧ Q (c.cancelRequest s.settings i.env).2 := fun hP => by
      rw [h.settings]
      exact hc.cancel (by simp) hP
    obtain ⟨hcl, hw⟩ := cancel_forall hc.mono hc.nil hc.append hcancel
      fun c hmem => hc.mono (h.clients c (List.mem_append_left _ hmem))
    refine ⟨⟨.searchOver :: .cancelOutstanding :: s.clients.flatMap fun c => (c.cancelRequest s.settings i.env).2,
      cancelOutstandingRequests_log, ?_, fun d hd => ?_⟩, le_rfl⟩
    · exact hc.append (hc.note (x := .searchOver) rfl) (hc.append (hc.note (x := .cancelOutstanding) rfl) hw)
    · rw [hlog]
      rcases List.mem_append.mp hd with hd | hd
      · rw [cancelOutstandingRequests_clients] at hd
        exact hcl d hd
      · exact hc.mono (hc.mono (h.clients d (List.mem_append_right _ hd)))
  | sort =>
    refine ⟨⟨[], (List.append_nil _).symm, hc.nil, fun d hd => ?_⟩, le_rfl⟩
    refine h.clients d ?_
    rcases List.mem_append.mp hd with hd | hd
    · exact List.mem_append_left _ ((sortBest_perm s.clients).mem_iff.mp hd)
    · exact List.mem_append_right _ hd
  | add targets target =>
    unfold addClientTransactions
    split
    · refine ⟨⟨[], (List.append_nil _).symm, hc.nil, fun d hd => ?_⟩, Nat.le_add_right _ _⟩
      rcases List.mem_append.mp hd with hd | hd
      · rcases mem_insertAfter hd with hd | hd
        · exact h.clients d (List.mem_append_left _ hd)
        · obtain ⟨id, target', hid, rfl⟩ := mem_newClients hd
          exact hc.new (h.nextId.trans hid)
      · exact h.clients d (List.mem_append_right _ hd)
    · exact same [_] rfl rfl (hc.note rfl) le_rfl

theorem Closed.chain (hc : Closed P Q s i) (h : ∀ c ∈ s.all, P s.log c) (hchain : Chain s i s t) : Tracks P Q s t := by
  induction hchain with
  | refl => exact ⟨h, ⟨[], (List.append_nil _).symm, hc.nil⟩, rfl, rfl, le_rfl⟩
  | tail _ hm ih => exact hm.tracks hc h ih

theorem Closed.tracks (hc : Closed P Q s i) (h : ∀ c ∈ s.all, P s.log c) : Tracks P Q s (s.step i) :=
  hc.chain h (step_chain s i)

/-- The invariant rule for client transactions: what the actions on one of them keep, a step keeps. -/
theorem Closed.step (hc : Closed P Q s i) (h : Good P Q s) : Good P Q (s.step i) := by
  obtain ⟨hcl, ⟨w, hlog, hw⟩, -⟩ := hc.tracks h.clients
  exact ⟨hcl, hlog ▸ hc.append h.log hw⟩

/-- What a step adds to the log. -/
def ProxyCore.written (s : ProxyCore) (i : Input) : List Output := (s.step i).log.drop s.log.length

/-- A step only adds to the log. -/
theorem step_log (s : ProxyCore) (i : Input) : (s.step i).log = s.log ++ s.written i := by
  have hc : Closed (fun _ _ => True) (fun _ => True) s i :=
    ⟨⟨fun _ => trivial, trivial, fun _ _ => trivial, fun _ => trivial, fun _ => trivial, fun _ _ => ⟨trivial, trivial⟩⟩,
      fun _ _ _ => ⟨trivial, trivial⟩, fun _ _ => ⟨trivial, trivial⟩⟩
  obtain ⟨w, hlog, -⟩ := (hc.tracks fun _ _ => trivial).log
  rw [ProxyCore.written, hlog, List.drop_left]

theorem Closed.written (hc : Closed P Q s i) (h : ∀ c ∈ s.all, P s.log c) : Q (s.written i) := by
  obtain ⟨w, hlog, hw⟩ := (hc.tracks h).log
  rwa [ProxyCore.written, hlog, List.drop_left]

end

end Drachtio.Proxy
