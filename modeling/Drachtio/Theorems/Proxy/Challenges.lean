import Drachtio.Proxy.Challenges
import Drachtio.Theorems.Proxy.Search
import Drachtio.Theorems.Proxy.Response
import Drachtio.Theorems.Timer.Runs

/-! The table of challenges and its timers: what pairs them, and what a step does to the pairs. -/

namespace Drachtio.Proxy.Challenges
open Machine
open Drachtio.Timer Drachtio.Timer.TimerQueue

variable {τ : Type} [LinearOrder τ] {suTimeAdd : τ → UInt32 → τ} {c : Challenges τ} {op : Op τ}

/-- The timer queue with its live handles. -/
def used (c : Challenges τ) : Used τ := ⟨c.timerQueue, c.timers.keys⟩

/-- The handles of the timers whose function an operation calls. -/
def fired (suTimeAdd : τ → UInt32 → τ) (c : Challenges τ) (op : Op τ) : List Nat :=
  (c.step suTimeAdd op).timerQueue.fired.drop c.timerQueue.fired.length

/-- The queue holds exactly the live timers, and there is an entry for a nonce exactly when one timer for it is live. -/
structure Paired (c : Challenges τ) : Prop where
  sound : c.used.Sound
  entries : ∀ nonce, nonce ∈ c.nonce2Challenge ↔ ∃! handle, c.timers.lookup handle = some nonce

/-- A request with the nonce and the realm of an entry would be proxied to the target that issued the challenge. -/
def Targeted (suTimeAdd : τ → UInt32 → τ) (c : Challenges τ) : Prop :=
  ∀ sip destinations realm nonce e, sip.given = some (realm, nonce) → c.nonce2Challenge.lookup nonce = some e →
    e.realm = realm →
      ∃ target, c.issued.lookup nonce = some (realm, some target) ∧ (c.doProxy suTimeAdd sip destinations).2 = [target]

/-- An entry is removed only by its own timer, or by a request with its nonce and realm. -/
def RemovesOwn (suTimeAdd : τ → UInt32 → τ) (c : Challenges τ) (op : Op τ) : Prop :=
  ∀ nonce e, c.nonce2Challenge.lookup nonce = some e → (c.step suTimeAdd op).nonce2Challenge.lookup nonce ≠ some e →
    match op with
    | .response _ _ _ _ => False
    | .proxy sip _ => sip.given = some (e.realm, nonce)
    | .doTimer _ _ => e.timerHandle ∈ c.fired suTimeAdd op

/-- A step that removes nothing wrongly, and leaves the pairs and their targets in order. -/
structure Right (suTimeAdd : τ → UInt32 → τ) (c : Challenges τ) (op : Op τ) : Prop where
  removes : RemovesOwn suTimeAdd c op
  paired : (c.step suTimeAdd op).Paired
  targeted : (c.step suTimeAdd op).Targeted suTimeAdd

/-- A challenge comes for a nonce that has no entry, in a response that a client transaction takes, and not at the very
    time of the last one queued; the nonce of a timer that expires is still there to be read. -/
def Proper (suTimeAdd : τ → UInt32 → τ) (c : Challenges τ) : Op τ → Prop
  | .response core r _ now =>
    ∀ x ∈ ProxyCore.savedChallenge r, x.2 ∉ c.nonce2Challenge ∧ (core.taking r).isSome = true ∧
      ∀ e ∈ c.timerQueue.entry c.timerQueue.tail, suTimeAdd now 2000 ≠ e.when
  | .proxy _ _ => True
  | .doTimer now reads =>
    ∀ a ∈ c.timerQueue.head, ∀ e ∈ c.timerQueue.entry (some a), e.when < now → c.timers.lookup a = some (reads a)

instance (op : Op τ) : Decidable (c.Proper suTimeAdd op) :=
  match op with
  | .response core r _ now =>
    inferInstanceAs (Decidable (∀ x ∈ ProxyCore.savedChallenge r, x.2 ∉ c.nonce2Challenge ∧ (core.taking r).isSome = true ∧
      ∀ e ∈ c.timerQueue.entry c.timerQueue.tail, suTimeAdd now 2000 ≠ e.when))
  | .proxy _ _ => isTrue trivial
  | .doTimer now reads =>
    inferInstanceAs (Decidable (∀ a ∈ c.timerQueue.head, ∀ e ∈ c.timerQueue.entry (some a), e.when < now →
      c.timers.lookup a = some (reads a)))

/-- The core writes the challenge that the table is given. -/
theorem challenge_written {core : ProxyCore} {env : Env} {r : Response} {realm nonce : String}
    (hr : ProxyCore.savedChallenge r = some (realm, nonce)) :
    .challenge realm nonce (((core.taking r).map (·.target)).getD "") ∈ (core.processResponse env r).log := by
  unfold ProxyCore.processResponse
  simp only [hr]
  exact prefix_forwardBestResponse.subset (List.mem_append_right _ List.mem_cons_self)

/-! ### The invariant -/

/-- Every entry has its own timer and every live timer its entry, and an entry has the realm and the target of the last
    challenge with its nonce. -/
structure Kept (c : Challenges τ) : Prop where
  sound : c.used.Sound
  timed : ∀ nonce e, c.nonce2Challenge.lookup nonce = some e → c.timers.lookup e.timerHandle = some nonce
  owned : ∀ handle nonce, c.timers.lookup handle = some nonce →
    ∃ e, c.nonce2Challenge.lookup nonce = some e ∧ e.timerHandle = handle
  issued : ∀ nonce e, c.nonce2Challenge.lookup nonce = some e → c.issued.lookup nonce = some (e.realm, some e.remoteAddress)

theorem Kept.empty : (Challenges.empty : Challenges τ).Kept where
  sound := ⟨⟨[], represents_empty, List.Perm.nil⟩, List.forall_mem_nil _⟩
  timed := by simp [Challenges.empty]
  owned := by simp [Challenges.empty]
  issued := by simp [Challenges.empty]

theorem Kept.paired (h : c.Kept) : c.Paired := by
  refine ⟨h.sound, fun nonce => ⟨fun hmem => ?_, ?_⟩⟩
  · obtain ⟨e, he⟩ := Option.isSome_iff_exists.mp (AList.lookup_isSome.mpr hmem)
    refine ⟨e.timerHandle, h.timed nonce e he, fun handle hhandle => ?_⟩
    obtain ⟨e', he', rfl⟩ := h.owned handle nonce hhandle
    rw [he, Option.some.injEq] at he'
    rw [he']
  · rintro ⟨handle, hhandle, -⟩
    obtain ⟨e, he, -⟩ := h.owned handle nonce hhandle
    exact AList.mem_of_lookup he

/-- The credentials match an entry. -/
theorem isResponseToChallenge_of {sip : Credentials} {nonce : String} {e : ChallengedRequest}
    (hsip : sip.given = some (e.realm, nonce)) (he : c.nonce2Challenge.lookup nonce = some e) :
    c.isResponseToChallenge suTimeAdd sip =
      ({ c with
          nonce2Challenge := c.nonce2Challenge.erase nonce
          timerQueue := c.timerQueue.step suTimeAdd (.remove e.timerHandle)
          timers := c.timers.erase e.timerHandle }, some e.remoteAddress) := by
  unfold isResponseToChallenge
  simp only [hsip, he, if_true]

/-- The credentials match an entry, or the request is none of the table's concern. -/
theorem isResponseToChallenge_cases (suTimeAdd : τ → UInt32 → τ) (c : Challenges τ) (sip : Credentials) :
    c.isResponseToChallenge suTimeAdd sip = (c, none) ∨
    ∃ nonce e, sip.given = some (e.realm, nonce) ∧ c.nonce2Challenge.lookup nonce = some e := by
  cases hsip : sip.given with
  | none =>
    left
    simp only [isResponseToChallenge, hsip]
  | some x =>
    obtain ⟨realm, nonce⟩ := x
    cases he : c.nonce2Challenge.lookup nonce with
    | none =>
      left
      simp only [isResponseToChallenge, hsip, he]
    | some e =>
      by_cases hrealm : e.realm = realm
      · exact .inr ⟨nonce, e, hrealm ▸ rfl, he⟩
      · left
        simp only [isResponseToChallenge, hsip, he, if_neg hrealm]

theorem Kept.targeted (h : c.Kept) : c.Targeted suTimeAdd := by
  rintro sip destinations realm nonce e hsip he rfl
  refine ⟨e.remoteAddress, h.issued nonce e he, ?_⟩
  rw [doProxy, isResponseToChallenge_of hsip he]

/-! ### Responses -/

section
variable {core : ProxyCore} {r : Response} {handle : Nat} {now : τ} {realm nonce : String}

theorem processResponse_of (hr : ProxyCore.savedChallenge r = some (realm, nonce)) :
    c.processResponse suTimeAdd core r handle now =
      { c.addChallenge suTimeAdd realm nonce (((core.taking r).map (·.target)).getD "") handle now with
        issued := c.issued.insert nonce (realm, (core.taking r).map (·.target)) } := by
  unfold processResponse
  simp only [hr]

section
variable (hr : ProxyCore.savedChallenge r = some (realm, nonce))
include hr

theorem response_entries : (c.step suTimeAdd (.response core r handle now)).nonce2Challenge =
    c.nonce2Challenge.insertNew nonce ⟨realm, nonce, ((core.taking r).map (·.target)).getD "", handle⟩ := by
  rw [step, processResponse_of hr]
  rfl

theorem response_timers : (c.step suTimeAdd (.response core r handle now)).timers = c.timers.insert handle nonce := by
  rw [step, processResponse_of hr]
  rfl

theorem response_issued : (c.step suTimeAdd (.response core r handle now)).issued =
    c.issued.insert nonce (realm, (core.taking r).map (·.target)) := by
  rw [step, processResponse_of hr]

end

theorem keys_insert_fresh {a : Nat} {m : AList fun _ : Nat => String} (h : a ∉ m) (s : String) :
    (m.insert a s).keys = a :: m.keys := by
  rw [AList.keys_insert, List.erase_of_not_mem h]

/-- The timers that are live after one more was queued. -/
theorem used_response (suTimeAdd : τ → UInt32 → τ) (core : ProxyCore) (now : τ)
    (hr : ProxyCore.savedChallenge r = some (realm, nonce)) (hfresh : handle ∉ c.timers) :
    (c.step suTimeAdd (.response core r handle now)).used = c.used.step suTimeAdd (.add handle 2000 now) := by
  rw [step, processResponse_of hr]
  exact congrArg (Used.mk _) (keys_insert_fresh hfresh nonce)

/-- A live timer has its entry in the heap of the queue. -/
theorem notMem_timers (h : c.used.Sound) (hfresh : handle ∉ c.timerQueue.heap) : handle ∉ c.timers := by
  obtain ⟨⟨l, r, hperm⟩, -⟩ := h
  intro hmem
  exact hfresh (r.mem_heap (hperm.symm.subset (AList.mem_keys.mp hmem)))

theorem Kept.response (h : c.Kept) (hlegal : c.Legal (.response core r handle now))
    (hproper : c.Proper suTimeAdd (.response core r handle now)) : (c.step suTimeAdd (.response core r handle now)).Kept := by
  cases hr : ProxyCore.savedChallenge r with
  | none =>
    have hsame : c.step suTimeAdd (.response core r handle now) = c := by
      simp only [step, processResponse, hr]
    rw [hsame]
    exact h
  | some x =>
    obtain ⟨realm, nonce⟩ := x
    obtain ⟨hnew, htaken, hapart⟩ := hproper (realm, nonce) hr
    obtain ⟨taker, htaker⟩ := Option.isSome_iff_exists.mp htaken
    have hfresh : handle ∉ c.timers := notMem_timers h.sound hlegal
    have hused := used_response suTimeAdd core now hr hfresh
    refine ⟨?_, ?_, ?_, ?_⟩
    · rw [hused]
      exact Used.Sound.step h.sound hlegal hapart
    all_goals
      simp only [response_entries hr, response_timers hr, response_issued hr, AList.insertNew_of_notMem hnew, htaker,
        AList.lookup_insert_eq_some, Option.map_some, Option.getD_some]
    · rintro n e (⟨rfl, rfl⟩ | ⟨-, he⟩)
      · exact .inl ⟨rfl, rfl⟩
      · have hold := h.timed n e he
        exact .inr ⟨fun heq => hfresh (heq ▸ AList.mem_of_lookup hold), hold⟩
    · rintro a n (⟨rfl, rfl⟩ | ⟨-, ha⟩)
      · exact ⟨_, .inl ⟨rfl, rfl⟩, rfl⟩
      · obtain ⟨e, he, hhandle⟩ := h.owned a n ha
        exact ⟨e, .inr ⟨fun heq => hnew (heq ▸ AList.mem_of_lookup he), he⟩, hhandle⟩
    · rintro n e (⟨rfl, rfl⟩ | ⟨hne, he⟩)
      · exact .inl ⟨rfl, rfl⟩
      · exact .inr ⟨hne, h.issued n e he⟩

/-- A challenge for a nonce that has an entry leaves two timers, one that nobody takes leaves no target, and one at the
    very time of the last one queued has no timer. -/
theorem Kept.response_proper (h : c.Kept) (hlegal : c.Legal (.response core r handle now))
    (hright : c.Right suTimeAdd (.response core r handle now)) : c.Proper suTimeAdd (.response core r handle now) := by
  rintro ⟨realm, nonce⟩ hr
  have hfresh : handle ∉ c.timers := notMem_timers h.sound hlegal
  have hused := used_response suTimeAdd core now hr hfresh
  have hpaired := hright.paired.entries nonce
  have htargeted := hright.targeted ⟨some ⟨some realm, some nonce⟩, none⟩ [] realm nonce
  have hnew : nonce ∉ c.nonce2Challenge := by
    intro hmem
    obtain ⟨e, he⟩ := Option.isSome_iff_exists.mp (AList.lookup_isSome.mpr hmem)
    have hmem' : nonce ∈ (c.step suTimeAdd (.response core r handle now)).nonce2Challenge := by
      rw [response_entries hr, AList.insertNew_of_mem hmem]
      exact hmem
    obtain ⟨a, -, hunique⟩ := hpaired.mp hmem'
    rw [response_timers hr] at hunique
    have hold := h.timed nonce e he
    have hne : e.timerHandle ≠ handle := fun heq => hfresh (heq ▸ AList.mem_of_lookup hold)
    have h₁ := hunique handle (AList.lookup_insert c.timers)
    have h₂ := hunique e.timerHandle ((AList.lookup_insert_ne hne).trans hold)
    exact hne (h₂.trans h₁.symm)
  refine ⟨hnew, ?_, ?_⟩
  · rw [response_entries hr, response_issued hr, AList.insertNew_of_notMem hnew] at htargeted
    obtain ⟨target, htarget, -⟩ := htargeted _ rfl (AList.lookup_insert _) rfl
    rw [AList.lookup_insert, Option.some.injEq, Prod.mk.injEq] at htarget
    cases htaking : core.taking r with
    | none =>
      rw [htaking] at htarget
      cases htarget.2
    | some taker => rfl
  · by_contra hnot
    have hfault : (c.used.step suTimeAdd (.add handle 2000 now)).queue.faults = c.timerQueue.faults ++ [.addPosition] :=
      h.sound.not_apart hlegal hnot
    have hsound := hright.paired.sound
    rw [hused] at hsound
    have hhead := hsound.2 .addPosition (by rw [hfault]; simp)
    cases hhead

end

/-! ### Requests -/

section
variable {sip : Credentials} {destinations : List String} {nonce : String} {e : ChallengedRequest}

theorem step_proxy : c.step suTimeAdd (.proxy sip destinations) = (c.isResponseToChallenge suTimeAdd sip).1 := by
  show (c.doProxy suTimeAdd sip destinations).1 = _
  unfold doProxy
  split <;> rename_i hcase <;> rw [hcase]

/-- The entry and its timer go. -/
theorem Kept.take (h : c.Kept) (hsip : sip.given = some (e.realm, nonce)) (he : c.nonce2Challenge.lookup nonce = some e) :
    (c.step suTimeAdd (.proxy sip destinations)).Kept := by
  have htimed := h.timed nonce e he
  rw [step_proxy, isResponseToChallenge_of hsip he]
  refine ⟨?_, fun n d hd => ?_, fun a n ha => ?_, fun n d hd => ?_⟩
  · have hsound : (c.used.step suTimeAdd (.remove e.timerHandle)).Sound :=
      h.sound.step (AList.mem_keys.mpr (AList.mem_of_lookup htimed)) trivial
    show Used.Sound ⟨_, (c.timers.erase e.timerHandle).keys⟩
    rw [AList.keys_erase]
    exact hsound
  · obtain ⟨hne, hd⟩ := AList.lookup_erase_eq_some.mp hd
    have hold := h.timed n d hd
    refine AList.lookup_erase_eq_some.mpr ⟨fun heq => ?_, hold⟩
    rw [heq, htimed, Option.some.injEq] at hold
    exact hne hold.symm
  · obtain ⟨hne, ha⟩ := AList.lookup_erase_eq_some.mp ha
    obtain ⟨d, hd, rfl⟩ := h.owned a n ha
    refine ⟨d, AList.lookup_erase_eq_some.mpr ⟨fun heq => ?_, hd⟩, rfl⟩
    rw [heq, he, Option.some.injEq] at hd
    exact hne (hd ▸ rfl)
  · exact h.issued n d (AList.lookup_erase_eq_some.mp hd).2

theorem Kept.proxy (h : c.Kept) : (c.step suTimeAdd (.proxy sip destinations)).Kept := by
  rcases isResponseToChallenge_cases suTimeAdd c sip with hnone | ⟨nonce, e, hsip, he⟩
  · rw [step_proxy, hnone]
    exact h
  · exact h.take hsip he

end

/-! ### Timers -/

section
variable {now : τ} {reads : Nat → String}

/-- What a firing of the timer leaves when no timer has expired. -/
structure Quiet (c c' : Challenges τ) : Prop where
  sound : c'.used.Sound
  nonce2Challenge : c'.nonce2Challenge = c.nonce2Challenge
  timers : c'.timers = c.timers
  issued : c'.issued = c.issued

/-- What it leaves when a timer has expired whose function got some nonce. -/
structure Expired (handle : Nat) (nonce : String) (c c' : Challenges τ) : Prop where
  sound : c'.used.Sound
  live : handle ∈ c.timers
  nonce2Challenge : c'.nonce2Challenge = c.nonce2Challenge.erase nonce
  timers : c'.timers = c.timers.erase handle
  issued : c'.issued = c.issued

theorem doTimer_of {handles : List Nat} (reads : Nat → String)
    (h : (c.timerQueue.step suTimeAdd (.doTimer now)).fired = c.timerQueue.fired ++ handles) :
    c.step suTimeAdd (.doTimer now reads) =
      handles.foldl (fun c handle => { c.timeoutChallenge (reads handle) with timers := c.timers.erase handle })
        { c with timerQueue := c.timerQueue.step suTimeAdd (.doTimer now) } := by
  rw [step, doTimer, h, List.drop_left]

/-- Nothing expires, or the first timer does, whose function gets what its pointer leads to. -/
theorem doTimer_cases (suTimeAdd : τ → UInt32 → τ) (now : τ) (reads : Nat → String) (h : c.used.Sound) :
    (Quiet c (c.step suTimeAdd (.doTimer now reads)) ∧
      ∀ a ∈ c.timerQueue.head, ∀ e ∈ c.timerQueue.entry (some a), ¬ e.when < now) ∨
    ∃ a e, c.timerQueue.head = some a ∧ c.timerQueue.entry (some a) = some e ∧ e.when < now ∧
      c.fired suTimeAdd (.doTimer now reads) = [a] ∧ Expired a (reads a) c (c.step suTimeAdd (.doTimer now reads)) := by
  have hsound : (c.used.step suTimeAdd (.doTimer now)).Sound := h.step trivial trivial
  obtain ⟨⟨l, r, hperm⟩, hfaults⟩ := h
  obtain ⟨rfl, hqueue, hlive⟩ | ⟨⟨a, w⟩, l', rfl, hearly, hleaves, hlive⟩ | ⟨⟨a, w⟩, l', rfl, hlate, hleaves, -⟩ :=
    @step_doTimer _ _ suTimeAdd _ _ now r hperm
  · left
    have hfired : (c.timerQueue.step suTimeAdd (.doTimer now)).fired = c.timerQueue.fired ++ [] := by
      have hsame := congrArg TimerQueue.fired hqueue
      exact hsame.trans (List.append_nil _).symm
    rw [doTimer_of reads hfired]
    have hhead : c.timerQueue.head = none := r.head
    refine ⟨⟨?_, rfl, rfl, rfl⟩, fun a ha => ?_⟩
    · rw [Used.Sound, hlive] at hsound
      exact hsound
    · rw [hhead] at ha
      cases ha
  · left
    rw [doTimer_of reads hleaves.fired]
    have hhead : c.timerQueue.head = some a := r.head
    refine ⟨⟨?_, rfl, rfl, rfl⟩, fun b hb e he => ?_⟩
    · rw [Used.Sound, hlive] at hsound
      exact hsound
    · obtain ⟨e', he', hwhen, -⟩ := Represents.entry_of (show Represents c.timerQueue ([] ++ (a, w) :: l') from r)
      rw [hhead] at hb
      cases hb
      have hheap : c.timerQueue.heap.lookup a = some e' := he'
      rw [entry_some, hheap] at he
      cases he
      rw [hwhen]
      exact hearly
  · right
    obtain ⟨e, he, hwhen, -⟩ := Represents.entry_of (show Represents c.timerQueue ([] ++ (a, w) :: l') from r)
    have hfired : (c.timerQueue.step suTimeAdd (.doTimer now)).fired = c.timerQueue.fired ++ [a] := hleaves.fired
    have hstep := doTimer_of reads hfired
    refine ⟨a, e, r.head, he, hwhen ▸ hlate, ?_, ?_⟩
    · rw [fired, hstep]
      have hdrop := congrArg (List.drop c.timerQueue.fired.length) hfired
      rw [List.drop_left] at hdrop
      exact hdrop
    · rw [hstep]
      refine ⟨⟨⟨l', hleaves.represents, ?_⟩, ?_⟩, ?_, rfl, rfl, rfl⟩
      · have herase := hperm.erase a
        rw [addrs_cons, List.erase_cons_head] at herase
        show (addrs l').Perm (c.timers.erase a).keys
        rw [AList.keys_erase]
        exact herase
      · intro f hf
        have hold : f ∈ c.used.queue.faults := hleaves.faults ▸ hf
        exact hfaults f hold
      · exact AList.mem_keys.mp (hperm.subset List.mem_cons_self)

theorem Kept.quiet {c' : Challenges τ} (h : c.Kept) (hq : Quiet c c') : c'.Kept := by
  refine ⟨hq.sound, ?_, ?_, ?_⟩
  · rw [hq.nonce2Challenge, hq.timers]
    exact h.timed
  · rw [hq.nonce2Challenge, hq.timers]
    exact h.owned
  · rw [hq.nonce2Challenge, hq.issued]
    exact h.issued

/-- The timer read its own nonce: its entry goes with it. -/
theorem Kept.expired {c' : Challenges τ} {a : Nat} {nonce : String} (h : c.Kept) (he : Expired a nonce c c')
    (hreads : c.timers.lookup a = some nonce) : c'.Kept := by
  obtain ⟨e, hentry, rfl⟩ := h.owned a nonce hreads
  refine ⟨he.sound, fun n d hd => ?_, fun b n hb => ?_, fun n d hd => ?_⟩
  · rw [he.nonce2Challenge] at hd
    obtain ⟨hne, hd⟩ := AList.lookup_erase_eq_some.mp hd
    have hold := h.timed n d hd
    rw [he.timers]
    refine AList.lookup_erase_eq_some.mpr ⟨fun heq => ?_, hold⟩
    rw [heq, hreads, Option.some.injEq] at hold
    exact hne hold.symm
  · rw [he.timers] at hb
    obtain ⟨hne, hb⟩ := AList.lookup_erase_eq_some.mp hb
    obtain ⟨d, hd, rfl⟩ := h.owned b n hb
    rw [he.nonce2Challenge]
    refine ⟨d, AList.lookup_erase_eq_some.mpr ⟨fun heq => ?_, hd⟩, rfl⟩
    rw [heq, hentry, Option.some.injEq] at hd
    exact hne (hd ▸ rfl)
  · rw [he.nonce2Challenge] at hd
    rw [he.issued]
    exact h.issued n d (AList.lookup_erase_eq_some.mp hd).2

theorem Kept.doTimer (h : c.Kept) (hproper : c.Proper suTimeAdd (.doTimer now reads)) :
    (c.step suTimeAdd (.doTimer now reads)).Kept := by
  rcases doTimer_cases suTimeAdd now reads h.sound with ⟨hquiet, -⟩ | ⟨a, e, hhead, he, hlate, -, hexpired⟩
  · exact h.quiet hquiet
  · exact h.expired hexpired (hproper a hhead e he hlate)

/-- When a timer reads something else, the entry for its nonce stays without a timer. -/
theorem Kept.doTimer_proper (h : c.Kept) (hright : c.Right suTimeAdd (.doTimer now reads)) :
    c.Proper suTimeAdd (.doTimer now reads) := by
  intro a ha e he hlate
  rcases doTimer_cases suTimeAdd now reads h.sound with ⟨-, hearly⟩ | ⟨b, e', hhead, -, -, -, hexpired⟩
  · exact absurd hlate (hearly a ha e he)
  · rw [Option.mem_def, hhead, Option.some.injEq] at ha
    subst ha
    obtain ⟨nonce, hnonce⟩ := Option.isSome_iff_exists.mp (AList.lookup_isSome.mpr hexpired.live)
    obtain ⟨d, hd, hhandle⟩ := h.owned b nonce hnonce
    by_contra hne
    have hstays : nonce ∈ (c.step suTimeAdd (.doTimer now reads)).nonce2Challenge := by
      refine AList.mem_of_lookup (w := d) ?_
      rw [hexpired.nonce2Challenge]
      exact AList.lookup_erase_eq_some.mpr ⟨fun heq => hne (heq ▸ hnonce), hd⟩
    obtain ⟨b', hb', -⟩ := (hright.paired.entries nonce).mp hstays
    rw [hexpired.timers] at hb'
    obtain ⟨hother, hb'⟩ := AList.lookup_erase_eq_some.mp hb'
    obtain ⟨d', hd', hhandle'⟩ := h.owned b' nonce hb'
    rw [hd, Option.some.injEq] at hd'
    exact hother (by rw [← hhandle', ← hd', hhandle])

end

/-! ### Steps and runs -/

theorem Kept.step (h : c.Kept) (hlegal : c.Legal op) (hproper : c.Proper suTimeAdd op) : (c.step suTimeAdd op).Kept := by
  cases op with
  | response core r handle now => exact h.response hlegal hproper
  | proxy sip destinations => exact h.proxy
  | doTimer now reads => exact h.doTimer hproper

/-- What goes is the entry that the operation is about. -/
theorem Kept.removes (h : c.Kept) (hproper : c.Proper suTimeAdd op) : c.RemovesOwn suTimeAdd op := by
  intro nonce e he hgone
  cases op with
  | response core r handle now =>
    refine hgone ?_
    cases hr : ProxyCore.savedChallenge r with
    | none => simpa only [Challenges.step, processResponse, hr] using he
    | some x =>
      rw [response_entries hr, AList.insertNew_of_notMem (hproper x hr).1]
      exact AList.lookup_insert_eq_some.mpr (.inr ⟨fun heq => (hproper x hr).1 (heq ▸ AList.mem_of_lookup he), he⟩)
  | proxy sip destinations =>
    rcases isResponseToChallenge_cases suTimeAdd c sip with hnone | ⟨nonce', e', hsip, he'⟩
    · rw [step_proxy, hnone] at hgone
      exact absurd he hgone
    · rw [step_proxy, isResponseToChallenge_of hsip he'] at hgone
      have hsame : nonce = nonce' := by
        by_contra hne
        exact hgone (AList.lookup_erase_eq_some.mpr ⟨hne, he⟩)
      subst hsame
      rw [he, Option.some.injEq] at he'
      rw [he']
      exact hsip
  | doTimer now reads =>
    rcases doTimer_cases suTimeAdd now reads h.sound with ⟨hquiet, -⟩ | ⟨a, d, hhead, hd, hlate, hfired, hexpired⟩
    · rw [hquiet.nonce2Challenge] at hgone
      exact absurd he hgone
    · have hreads := hproper a hhead d hd hlate
      rw [hexpired.nonce2Challenge] at hgone
      have hsame : nonce = reads a := by
        by_contra hne
        exact hgone (AList.lookup_erase_eq_some.mpr ⟨hne, he⟩)
      subst hsame
      obtain ⟨e', he', hhandle⟩ := h.owned a _ hreads
      rw [he, Option.some.injEq] at he'
      show e.timerHandle ∈ c.fired suTimeAdd (.doTimer now reads)
      rw [hfired, he', hhandle]
      exact List.mem_singleton_self a

theorem Kept.right_iff (h : c.Kept) (hlegal : c.Legal op) : c.Right suTimeAdd op ↔ c.Proper suTimeAdd op := by
  constructor
  · intro hright
    cases op with
    | response core r handle now => exact h.response_proper hlegal hright
    | proxy sip destinations => exact trivial
    | doTimer now reads => exact h.doTimer_proper hright
  · intro hproper
    have hkept := h.step hlegal hproper
    exact ⟨h.removes hproper, hkept.paired, hkept.targeted⟩

/-- In every run the table and its timers stay paired, every entry goes with its own timer or with a request that has its
    nonce and realm, and such a request is proxied to the target that issued the challenge, just when no challenge comes
    for a nonce that has an entry, at the very time of the last one queued, or in a response that no client transaction
    takes, and every timer that expires still reads its nonce. -/
theorem challenges_paired_iff (suTimeAdd : τ → UInt32 → τ) (ops : List (Op τ))
    (hlegal : Meets (step suTimeAdd) Legal empty ops) :
    Meets (step suTimeAdd) (Right suTimeAdd) empty ops ↔ Meets (step suTimeAdd) (Proper suTimeAdd) empty ops :=
  hlegal.iff_of_legal (fun _ _ h hl => h.right_iff hl) (fun _ _ h hl hp => h.step hl hp) Kept.empty

/-! A request that is forked to two targets, which get their nonces from one place. -/

private def forked : ProxyCore := .doProxy { launchType := .simultaneous } .reliable ⟨.invite, none⟩ ["sip:one", "sip:two"]

private def unauthorized (branch : Nat) (nonce : String) : Response :=
  { status := 401, method := .invite, branch := branch, wwwAuthenticate := some ⟨some "home", some nonce⟩ }

private def answer (nonce : String) : Credentials := { authorization := some ⟨some "home", some nonce⟩ }

private def milliseconds (now : Nat) (ms : UInt32) : Nat := now + ms.toNat

/-- Two targets challenge with nonces of their own; the caller answers one challenge and lets the other expire. -/
theorem challenges_paired :
    let ops : List (Op Nat) := [.response forked (unauthorized 0 "a") 0 0, .response forked (unauthorized 1 "b") 1 5,
      .proxy (answer "b") [], .doTimer 2001 fun _ => "a"]
    Meets (step milliseconds) Legal empty ops ∧ Meets (step milliseconds) (Right milliseconds) empty ops :=
  ⟨by decide, (challenges_paired_iff milliseconds _ (by decide)).mpr (by decide)⟩

/-- Two targets challenge with one nonce. The caller answers, and is challenged with that nonce again; the second timer,
    which is still queued, removes the new entry. -/
theorem repeated_nonce :
    let ops : List (Op Nat) := [.response forked (unauthorized 0 "a") 0 0, .response forked (unauthorized 1 "a") 1 5,
      .proxy (answer "a") [], .response forked (unauthorized 0 "a") 2 1000, .doTimer 2006 fun _ => "a"]
    Meets (step milliseconds) Legal empty ops ∧ ¬ Meets (step milliseconds) (Right milliseconds) empty ops ∧
      ¬ Meets (step milliseconds) (RemovesOwn milliseconds) empty ops := by
  refine ⟨by decide, fun h => ?_, fun h => ?_⟩
  · obtain ⟨handle, -, hunique⟩ := (h.2.1.paired.entries "a").mp (by decide)
    exact absurd ((hunique 0 (by decide)).trans (hunique 1 (by decide)).symm) (by decide)
  · have hown := h.2.2.2.2.1 "a" ⟨"home", "a", "sip:one", 2⟩ (by decide) (by decide)
    exact absurd hown (by decide)

end Drachtio.Proxy.Challenges
