import Drachtio.Theorems.Client.Selection

/-! What a removal takes out of the table of registrations, and who is eligible for the requests of a verb after any
    registrations and removals. -/

namespace Drachtio.Client
open Machine

/-- Whether the event is a registration of the client. -/
def Registry.Event.registers (client : ClientId) : Registry.Event → Bool
  | .wantsRequests c _ => c == client
  | _ => false

/-- Whether the client has a registration for the verb, as its last call for that verb says. -/
def Registry.Event.noted (client : ClientId) (verb : String) (known : Bool) : Registry.Event → Bool
  | .wantsRequests c v => known || (c == client && v == verb)
  | .noLongerWantsRequests c v => known && !(c == client && v == verb)
  | _ => known

/-- A registry with the events so far. -/
structure Traced where
  registry : Registry
  past : List Registry.Event

namespace Traced

def step (s : Traced) (e : Registry.Event) : Traced := ⟨s.registry.step e, s.past ++ [e]⟩

/-- The client has registered the verb since it last removed it. -/
def registered (client : ClientId) (verb : String) (s : Traced) : Bool :=
  s.past.foldl (Registry.Event.noted client verb) false

/-- A connection is accepted before it registers anything, and only once. -/
def Legal (s : Traced) : Registry.Event → Prop
  | .join client => ∀ e ∈ s.past, e.registers client = false
  | _ => True

instance (s : Traced) (e : Registry.Event) : Decidable (s.Legal e) :=
  match e with
  | .join client => inferInstanceAs (Decidable (∀ e ∈ s.past, e.registers client = false))
  | .select _ _ | .wantsRequests _ _ | .noLongerWantsRequests _ _ | .leave _ | .authenticate _ _ => isTrue trivial

/-- A removal takes out the registrations of the client for the verb, and changes nothing else. -/
def Frames (s : Traced) : Registry.Event → Prop
  | .noLongerWantsRequests client verb =>
    (s.registry.server.noLongerWantsRequests client verb).1 =
      { s.registry.server with requestTypes := s.registry.server.requestTypes.filter fun e => e != (verb, client) }
  | _ => True

/-- A connected client can take the requests of a method exactly when it has registered the verb that the selection looks
    for since it last removed it. -/
def Eligible (s : Traced) : Prop :=
  ∀ client ∈ s.registry.server.clients, ∀ method : String,
    (lower method, client) ∈ s.registry.matching (lower method, none) ↔ s.registered client (lower method) = true

/-- The removal takes out what it should, and the right clients are eligible after the event. -/
structure Right (s : Traced) (e : Registry.Event) : Prop where
  frames : s.Frames e
  eligible : (s.step e).Eligible

/-- A client that removes a verb has registered no other verb. -/
def Alone (s : Traced) : Registry.Event → Prop
  | .noLongerWantsRequests client verb => ∀ e ∈ s.registry.server.requestTypes, e.2 = client → e.1 = verb
  | _ => True

instance (s : Traced) (e : Registry.Event) : Decidable (s.Alone e) :=
  match e with
  | .noLongerWantsRequests client verb =>
    inferInstanceAs (Decidable (∀ e ∈ s.registry.server.requestTypes, e.2 = client → e.1 = verb))
  | .select _ _ | .wantsRequests _ _ | .join _ | .leave _ | .authenticate _ _ => isTrue trivial

/-! ### Removals -/

/-- A removal takes out exactly the registrations of the client for the verb just when the client has no other. -/
theorem frames_iff_alone (s : Traced) (client : ClientId) (verb : String) :
    s.Frames (.noLongerWantsRequests client verb) ↔ s.Alone (.noLongerWantsRequests client verb) := by
  constructor
  · intro h e he hclient
    by_contra hverb
    have htables : s.registry.server.requestTypes.filter (fun e => e.2 != client) =
        s.registry.server.requestTypes.filter (fun e => e != (verb, client)) := congrArg Server.requestTypes h
    have hkept : e ∈ s.registry.server.requestTypes.filter (fun e => e != (verb, client)) :=
      List.mem_filter.mpr ⟨he, bne_iff_ne.mpr fun heq => hverb (congrArg Prod.fst heq)⟩
    rw [← htables] at hkept
    exact bne_iff_ne.mp (List.mem_filter.mp hkept).2 hclient
  · intro h
    have hcongr : s.registry.server.requestTypes.filter (fun e => e.2 != client) =
        s.registry.server.requestTypes.filter (fun e => e != (verb, client)) := by
      refine List.filter_congr fun e he => ?_
      rw [Bool.eq_iff_iff, bne_iff_ne, bne_iff_ne]
      refine not_congr ⟨fun hclient => Prod.ext (h e he hclient) hclient, fun heq => congrArg Prod.snd heq⟩
    exact congrArg (fun requestTypes => { s.registry.server with requestTypes := requestTypes }) hcongr

theorem alone_of_frames {s : Traced} {e : Registry.Event} (h : s.Frames e) : s.Alone e := by
  cases e with
  | noLongerWantsRequests client verb => exact (s.frames_iff_alone client verb).mp h
  | _ => exact trivial

/-! ### Histories -/

section
variable {s : Traced} {e : Registry.Event} {client : ClientId} {verb : String}

theorem registered_step : (s.step e).registered client verb = e.noted client verb (s.registered client verb) := by
  rw [registered, step, List.foldl_append]
  rfl

/-- A client that has a registration has made one. -/
theorem registers_of_registered (h : s.registered client verb = true) : ∃ e ∈ s.past, e.registers client = true := by
  obtain ⟨registry, past⟩ := s
  induction past using List.reverseRecOn with
  | nil => cases h
  | append_singleton past e ih =>
    have hstep : e.noted client verb (registered client verb ⟨registry, past⟩) = true := by
      rw [← h]
      exact (registered_step (s := ⟨registry, past⟩)).symm
    have hearlier : registered client verb ⟨registry, past⟩ = true → ∃ e' ∈ past ++ [e], e'.registers client = true := by
      intro hbefore
      obtain ⟨e', he', hregisters⟩ := ih hbefore
      exact ⟨e', List.mem_append_left _ he', hregisters⟩
    cases e with
    | wantsRequests c v =>
      rcases Bool.or_eq_true_iff.mp hstep with hbefore | hnow
      · exact hearlier hbefore
      · exact ⟨_, List.mem_append_right _ List.mem_cons_self, (Bool.and_eq_true_iff.mp hnow).1⟩
    | noLongerWantsRequests c v => exact hearlier (Bool.and_eq_true_iff.mp hstep).1
    | _ => exact hearlier hstep

/-- The table holds what the connected clients have registered, and nothing of a client that has registered nothing. -/
structure Tracked (s : Traced) : Prop where
  table : ∀ client ∈ s.registry.server.clients, ∀ verb,
    (verb, client) ∈ s.registry.server.requestTypes ↔ s.registered client verb = true
  made : ∀ x ∈ s.registry.server.requestTypes, ∃ e ∈ s.past, e.registers x.2 = true

theorem Tracked.eligible (h : s.Tracked) : s.Eligible := by
  intro client hclient method
  rw [← h.table client hclient, Registry.mem_matching]
  exact ⟨fun hmem => hmem.1, fun hmem => ⟨hmem, rfl, hclient, by simp⟩⟩

/-- The table changes for the connected clients as their histories do. -/
theorem Tracked.of_table (h : s.Tracked) (hclients : (s.registry.step e).server.clients ⊆ s.registry.server.clients)
    (htable : ∀ client ∈ s.registry.server.clients, ∀ verb,
      (verb, client) ∈ (s.registry.step e).server.requestTypes ↔
        e.noted client verb (decide ((verb, client) ∈ s.registry.server.requestTypes)) = true)
    (hmade : ∀ x ∈ (s.registry.step e).server.requestTypes, x ∈ s.registry.server.requestTypes ∨ e.registers x.2 = true) :
    (s.step e).Tracked := by
  refine ⟨fun client hclient verb => ?_, fun x hx => ?_⟩
  · have hold := h.table client (hclients hclient) verb
    have hsame : decide ((verb, client) ∈ s.registry.server.requestTypes) = s.registered client verb := by
      rw [Bool.eq_iff_iff, decide_eq_true_iff]
      exact hold
    rw [registered_step, ← hsame]
    exact htable client (hclients hclient) verb
  · rcases hmade x hx with hold | hnew
    · obtain ⟨e', he', hregisters⟩ := h.made x hold
      exact ⟨e', List.mem_append_left _ he', hregisters⟩
    · exact ⟨e, List.mem_append_right _ List.mem_cons_self, hnew⟩

theorem Tracked.step (h : s.Tracked) (hlegal : s.Legal e) (halone : s.Alone e) : (s.step e).Tracked := by
  cases e with
  | select keyword tag =>
    have hclients : (s.registry.step (.select keyword tag)).server.clients = s.registry.server.clients := by
      rw [Registry.step, Registry.handle, Registry.select_eq]
      split <;> rfl
    have htable : (s.registry.step (.select keyword tag)).server.requestTypes =
        s.registry.server.requestTypes.filter fun e => decide (e.1 ≠ lower keyword ∨ e.2 ∈ s.registry.server.clients) := by
      rw [Registry.step, Registry.handle, Registry.select_eq]
      split <;> rfl
    refine h.of_table hclients.subset (fun client hclient verb => ?_) fun x hx => ?_
    · rw [htable, List.mem_filter]
      simp [Registry.Event.noted, hclient]
    · rw [htable] at hx
      exact .inl (List.mem_filter.mp hx).1
  | wantsRequests client verb =>
    refine h.of_table (Finset.Subset.refl _) (fun client' hclient verb' => ?_) fun x hx => ?_
    · simp only [Registry.step, Registry.handle, Server.wantsRequests, Registry.Event.noted, List.mem_append,
        List.mem_singleton, Prod.mk.injEq, Bool.or_eq_true, decide_eq_true_eq, Bool.and_eq_true, beq_iff_eq]
      tauto
    · rcases List.mem_append.mp hx with hold | hnew
      · exact .inl hold
      · rw [List.mem_singleton.mp hnew]
        exact .inr (beq_self_eq_true client)
  | noLongerWantsRequests client verb =>
    have hframes : s.Frames (.noLongerWantsRequests client verb) := (s.frames_iff_alone client verb).mpr halone
    have htable : (s.registry.step (.noLongerWantsRequests client verb)).server.requestTypes =
        s.registry.server.requestTypes.filter fun e => e != (verb, client) := congrArg Server.requestTypes hframes
    refine h.of_table (Finset.Subset.refl _) (fun client' hclient verb' => ?_) fun x hx => ?_
    · rw [htable, List.mem_filter]
      simp only [Registry.Event.noted, bne_iff_ne, ne_eq, Prod.mk.injEq, Bool.and_eq_true, decide_eq_true_eq,
        Bool.not_eq_true', Bool.and_eq_false_iff, beq_eq_false_iff_ne]
      tauto
    · rw [htable] at hx
      exact .inl (List.mem_filter.mp hx).1
  | join client =>
    refine ⟨fun client' hclient verb => ?_, fun x hx => ?_⟩
    · rw [registered_step]
      rcases Finset.mem_insert.mp hclient with rfl | hold
      · -- nothing is known of a connection that is new
        refine iff_of_false (fun hmem => ?_) fun hregistered => ?_
        · obtain ⟨e, he, hregisters⟩ := h.made _ hmem
          exact absurd hregisters (by simp [hlegal e he])
        · obtain ⟨e, he, hregisters⟩ := registers_of_registered hregistered
          exact absurd hregisters (by simp [hlegal e he])
      · exact h.table client' hold verb
    · obtain ⟨e, he, hregisters⟩ := h.made x hx
      exact ⟨e, List.mem_append_left _ he, hregisters⟩
  | leave client =>
    refine h.of_table (Finset.erase_subset _ _) (fun client' hclient verb => ?_) fun x hx => .inl hx
    exact (decide_eq_true_iff).symm
  | authenticate client tags =>
    refine h.of_table (Finset.Subset.refl _) (fun client' hclient verb => ?_) fun x hx => .inl hx
    exact (decide_eq_true_iff).symm

theorem Tracked.right_iff (h : s.Tracked) (hlegal : s.Legal e) : s.Right e ↔ s.Alone e := by
  constructor
  · exact fun hright => alone_of_frames hright.frames
  · intro halone
    refine ⟨?_, (h.step hlegal halone).eligible⟩
    cases e with
    | noLongerWantsRequests client verb => exact (s.frames_iff_alone client verb).mpr halone
    | _ => exact trivial

end

/-- In every table a removal takes out exactly the registrations of the client for the verb just when the client has no
    other. From an empty table this holds of all removals, and the connected clients that are eligible for a method are
    always those that have registered it since they last removed it, just when no client removes a verb while it has
    registered another. -/
theorem removals_framed_iff (s : Traced) (client : ClientId) (verb : String) (r : Registry) (events : List Registry.Event)
    (hempty : r.server.requestTypes = []) (hlegal : Meets step Legal ⟨r, []⟩ events) :
    (s.Frames (.noLongerWantsRequests client verb) ↔ ∀ e ∈ s.registry.server.requestTypes, e.2 = client → e.1 = verb) ∧
    (Meets step Right ⟨r, []⟩ events ↔ Meets step Alone ⟨r, []⟩ events) := by
  refine ⟨frames_iff_alone s client verb, ?_⟩
  have hstart : Tracked ⟨r, []⟩ := by
    refine ⟨fun client _ verb => ?_, fun x hx => ?_⟩
    · rw [hempty]
      exact iff_of_false (List.not_mem_nil) (by simp [registered])
    · rw [hempty] at hx
      cases hx
  exact hlegal.iff_of_legal (fun _ _ h hl => h.right_iff hl) (fun _ _ h hl halone => h.step hl halone) hstart

/-- A client takes two verbs one after the other, in between it takes none. -/
theorem removals_framed :
    let r := Registry.registered [] fun _ => ∅
    let events : List Registry.Event := [.join 1, .join 2, .wantsRequests 1 "invite", .wantsRequests 2 "info",
      .select "INVITE" none, .noLongerWantsRequests 1 "invite", .wantsRequests 1 "info"]
    Meets step Legal ⟨r, []⟩ events ∧ Meets step Right ⟨r, []⟩ events :=
  ⟨by decide, (removals_framed_iff ⟨.registered [] fun _ => ∅, []⟩ 1 "invite" _ _ rfl (by decide)).2.mpr (by decide)⟩

/-- A client that takes INVITE and INFO and gives up INFO gets no INVITE any more. -/
theorem removal_takes_all :
    let r := Registry.registered [] fun _ => ∅
    let events : List Registry.Event := [.join 1, .wantsRequests 1 "invite", .wantsRequests 1 "info",
      .noLongerWantsRequests 1 "info"]
    Meets step Legal ⟨r, []⟩ events ∧ ¬ Meets step Right ⟨r, []⟩ events ∧
      (run step ⟨r, []⟩ events).registered 1 "invite" = true ∧
      ((run step ⟨r, []⟩ events).registry.handle (.select "INVITE" none)).2 = none := by
  refine ⟨by decide, fun h => ?_, rfl, rfl⟩
  have halone : Alone _ (.noLongerWantsRequests 1 "info") := alone_of_frames h.2.2.2.1.frames
  exact absurd halone (by decide)

end Traced

end Drachtio.Client
