import Drachtio.Blacklist.Thread
import Drachtio.Lib.Run
import Mathlib.Data.Finset.Lattice.Lemmas

/-! A blacklist and its source. The addresses are those of the last poll that succeeded, but the thread ends with the first
    round in which one did, so that they are never refreshed. -/

namespace Drachtio.Blacklist

open Machine (Meets meets_iff)

/-! ### What a poll returns -/

/-- The query is made: there is a connection, and AUTH is accepted if there is a password. -/
def Server.accepted (redisPassword : Text) (server : Server) : Bool :=
  server.connected && (decide (redisPassword = []) ||
    match server.auth with
    | none => false
    | some (.error _) => false
    | some _ => true)

/-- The set that a poll returns, if it does not fail at the connection, at AUTH, at the query or by the type of the reply -/
def returned (redisPassword : Text) (server : Server) : Option (Finset Text) :=
  if server.accepted redisPassword = true ∧ server.err = false then
    match server.reply with
    | some (.array elements) => some (elements.filterMap Reply.str).toFinset
    | _ => none
  else none

/-- AUTH gets a reply, and the members of a set are texts. -/
structure Answered (redisPassword : Text) (server : Server) : Prop where
  auth : server.connected = true → redisPassword ≠ [] → server.auth ≠ none
  members : server.accepted redisPassword = true → server.err = false →
    ∀ elements, server.reply = some (.array elements) → ∀ member ∈ elements, member.str ≠ none

section
variable {redisPassword : Text} {server : Server} {elements : List Reply} {ips : Finset Text}

theorem insertMembers_eq (h : ∀ member ∈ elements, member.str ≠ none) :
    insertMembers elements ips = some (ips ∪ (elements.filterMap Reply.str).toFinset) := by
  induction elements generalizing ips with
  | nil => simp [insertMembers]
  | cons member rest ih =>
    obtain ⟨hmember, hrest⟩ := List.forall_mem_cons.mp h
    obtain ⟨str, hstr⟩ := Option.ne_none_iff_exists'.mp hmember
    rw [insertMembers, hstr]
    dsimp only
    rw [ih hrest, List.filterMap_cons_some hstr, List.toFinset_cons, Finset.insert_union, Finset.union_insert]

theorem insertMembers_none (h : insertMembers elements ips ≠ none) : ∀ member ∈ elements, member.str ≠ none := by
  induction elements generalizing ips with
  | nil => exact List.forall_mem_nil _
  | cons member rest ih =>
    rw [insertMembers] at h
    cases hstr : member.str with
    | none =>
      rw [hstr] at h
      exact absurd rfl h
    | some str =>
      rw [hstr] at h
      exact List.forall_mem_cons.mpr ⟨by rw [hstr]; exact Option.some_ne_none _, ih h⟩

theorem queryMembers_eq (h : server.err = false → ∀ elements, server.reply = some (.array elements) →
    ∀ member ∈ elements, member.str ≠ none) (haccepted : server.accepted redisPassword = true) :
    queryMembers server ips = some ((returned redisPassword server).isSome, (returned redisPassword server).getD ips) := by
  unfold queryMembers returned
  cases herr : server.err with
  | true => cases server.reply <;> simp
  | false =>
    rw [if_pos ⟨haccepted, rfl⟩]
    cases hreply : server.reply with
    | none => rfl
    | some reply =>
      cases reply with
      | array elements =>
        simp [insertMembers_eq (h herr elements hreply)]
      | _ => rfl

theorem members_of_queryMembers (h : queryMembers server ips ≠ none) (herr : server.err = false)
    (hreply : server.reply = some (.array elements)) : ∀ member ∈ elements, member.str ≠ none := by
  rw [queryMembers, hreply] at h
  dsimp only at h
  rw [herr, if_neg Bool.false_ne_true] at h
  exact insertMembers_none fun hnone => h (by rw [hnone]; rfl)

/-- The query is made, or the poll fails before it, or there is no reply to AUTH. -/
theorem queryRedis_cases (redisPassword : Text) (server : Server) (ips : Finset Text) :
    (server.accepted redisPassword = true ∧ queryRedis redisPassword server ips = queryMembers server ips) ∨
      (server.accepted redisPassword = false ∧ queryRedis redisPassword server ips = some (false, ips) ∧
        (server.connected = true → redisPassword ≠ [] → server.auth ≠ none)) ∨
      (server.connected = true ∧ redisPassword ≠ [] ∧ server.auth = none ∧ queryRedis redisPassword server ips = none) := by
  unfold queryRedis Server.accepted
  cases hconnected : server.connected with
  | false => exact .inr (.inl ⟨rfl, rfl, fun h => nomatch h⟩)
  | true =>
    by_cases hpassword : redisPassword = []
    · exact .inl ⟨by simp [hpassword], by simp [hpassword]⟩
    · cases hauth : server.auth with
      | none => exact .inr (.inr ⟨rfl, hpassword, rfl, by simp [hpassword]⟩)
      | some reply =>
        cases reply with
        | error str => exact .inr (.inl ⟨by simp [hpassword], by simp [hpassword], fun _ _ => Option.some_ne_none _⟩)
        | _ => exact .inl ⟨by simp, by simp [hpassword]⟩

/-- A poll that is answered returns a set, or leaves the addresses as they are. -/
theorem queryRedis_eq (h : Answered redisPassword server) : queryRedis redisPassword server ips =
    some ((returned redisPassword server).isSome, (returned redisPassword server).getD ips) := by
  rcases queryRedis_cases redisPassword server ips with
    ⟨haccepted, heq⟩ | ⟨hrefused, heq, -⟩ | ⟨hconnected, hpassword, hauth, -⟩
  · rw [heq, queryMembers_eq (h.members haccepted) haccepted]
  · have hnone : returned redisPassword server = none := if_neg (by rw [hrefused]; simp)
    rw [heq, hnone]
    rfl
  · exact absurd hauth (h.auth hconnected hpassword)

theorem answered_of_queryRedis (h : queryRedis redisPassword server ips ≠ none) : Answered redisPassword server := by
  rcases queryRedis_cases redisPassword server ips with
    ⟨haccepted, heq⟩ | ⟨hrefused, -, hauth⟩ | ⟨-, -, -, heq⟩
  · refine ⟨fun hconnected hpassword hnone => ?_, fun _ herr elements hreply => members_of_queryMembers (heq ▸ h) herr hreply⟩
    simp [Server.accepted, hconnected, hpassword, hnone] at haccepted
  · exact ⟨hauth, fun haccepted => absurd (hrefused.symm.trans haccepted) Bool.false_ne_true⟩
  · exact absurd heq h

end

/-! ### What a step does -/

/-- What the machine can do in a step -/
inductive Move (b : Config) (s : State) : Event → State → Prop
  | still {e : Event} (hpolls : ∀ address rest lookup, s.phase = .polling (address :: rest) → e ≠ .redis lookup)
      (hends : s.phase = .polling [] → e ≠ .turn) (hwakes : ∀ interval, s.phase = .sleeping interval → e ≠ .turn) :
      Move b s e s
  | chooses (hphase : s.phase = .top ∨ s.phase = .asking []) : Move b s .turn { s with phase := .choosing }
  | throws {sentinels : Text} {error : Error} (hphase : s.phase = .top) (hsource : b.source = .sentinels sentinels)
      (hparse : parseIpPort sentinels = .error error) : Move b s .turn { s with phase := .terminated }
  | asks {sentinels : Text} {entries : List (Text × Int)} (hphase : s.phase = .top)
    (hsource : b.source = .sentinels sentinels)
      (hparse : parseIpPort sentinels = .ok entries) : Move b s .turn { s with phase := .asking entries }
  | asked {entry : Text × Int} {rest : List (Text × Int)} {lookup : Lookup} {phase : Phase} {replicas : Finset Text}
      (hphase : s.phase = .asking (entry :: rest)) (hnext : phase = .choosing ∨ phase = .asking rest) :
      Move b s (.sentinel lookup) { s with phase := phase, replicas := replicas }
  | ends {order : List Text} (hphase : s.phase = .choosing) (haddress : b.source.redisAddress = [])
      (hreplicas : s.replicas = ∅) : Move b s (.walk order) { s with phase := .exited }
  | starts {order addresses : List Text} (hphase : s.phase = .choosing)
      (hsource : b.source.redisAddress ≠ [] ∨ s.replicas ≠ ∅) : Move b s (.walk order) { s with phase := .polling addresses }
  | polls {address : Text} {rest : List Text} {lookup : Lookup} (hphase : s.phase = .polling (address :: rest)) :
      Move b s (.redis lookup) (step b s (.redis lookup))
  | closes (hphase : s.phase = .polling []) :
      Move b s .turn { s with phase := if s.initialized = true then .exited else .sleeping 60 }
  | wakes {interval : UInt32} (hphase : s.phase = .sleeping interval) : Move b s .turn { s with phase := .top }

/-- An event that belongs elsewhere leaves the machine still. -/
theorem Move.of_still {b : Config} {s : State} {e : Event} (hstep : step b s e = s)
    (hpolls : ∀ address rest lookup, s.phase = .polling (address :: rest) → e ≠ .redis lookup)
    (hends : s.phase = .polling [] → e ≠ .turn) (hwakes : ∀ interval, s.phase = .sleeping interval → e ≠ .turn) :
    Move b s e (step b s e) := by
  rw [hstep]
  exact .still hpolls hends hwakes

theorem step_move (b : Config) (s : State) (e : Event) : Move b s e (step b s e) := by
  obtain ⟨phase, ips, replicas, initialized⟩ := s
  cases phase with
  | top =>
    cases e with
    | turn =>
      unfold step
      cases hsource : b.source with
      | redis address port => exact .chooses (.inl rfl)
      | sentinels sentinels =>
        dsimp only
        split
        · exact .chooses (.inl rfl)
        · cases hparse : parseIpPort sentinels with
          | error error => exact .throws rfl hsource hparse
          | ok entries => exact .asks rfl hsource hparse
    | _ => exact .of_still rfl nofun nofun nofun
  | asking rest =>
    cases rest with
    | nil =>
      cases e with
      | turn => exact .chooses (.inr rfl)
      | _ => exact .of_still rfl nofun nofun nofun
    | cons entry rest =>
      cases e with
      | sentinel lookup =>
        exact .asked rfl (ite_eq_or_eq _ _ _)
      | _ => exact .of_still rfl nofun nofun nofun
  | choosing =>
    cases e with
    | walk order =>
      by_cases hwalk : order.Nodup ∧ order.toFinset = replicas
      · unfold step
        dsimp only
        rw [if_pos hwalk]
        by_cases hsource : b.source.redisAddress = [] ∧ replicas = ∅
        · rw [if_pos hsource]
          exact .ends rfl hsource.1 hsource.2
        · rw [if_neg hsource]
          exact .starts rfl (not_and_or.mp hsource)
      · exact .of_still (if_neg hwalk) nofun nofun nofun
    | _ => exact .of_still rfl nofun nofun nofun
  | polling rest =>
    cases rest with
    | nil =>
      cases e with
      | turn =>
        cases initialized with
        | true => exact .closes rfl
        | false => exact .closes rfl
      | _ => exact .of_still rfl nofun nofun nofun
    | cons address rest =>
      cases e with
      | redis lookup => exact .polls rfl
      | _ => exact .of_still rfl nofun nofun nofun
  | sleeping interval =>
    cases e with
    | turn => exact .wakes rfl
    | _ => exact .of_still rfl nofun nofun nofun
  | exited => exact .of_still rfl nofun nofun nofun
  | terminated => exact .of_still rfl nofun nofun nofun

/-! ### What is observed of a run -/

/-- The server that is polled in a step, if one is -/
def polledServer (s : State) (e : Event) : Option Server :=
  match s.phase, e with
  | .polling (address :: _), .redis lookup =>
    match parseAddress address with
    | .error _ => none
    | .ok _ => lookup.polled
  | _, _ => none

/-- The machine, and the set that the last poll that succeeded returned -/
structure Watched where
  state : State
  last : Option (Finset Text)

def Watched.start : Watched := ⟨State.start, none⟩

def watch (b : Config) (w : Watched) (e : Event) : Watched :=
  ⟨step b w.state e, ((polledServer w.state e).bind (returned b.redisPassword)).or w.last⟩

/-- The address of a redis server or a replica is known. -/
def Sourced (b : Config) (s : State) : Prop := b.source.redisAddress ≠ [] ∨ s.replicas ≠ ∅

/-- The blacklist is the set that was returned last, and a poll that fails changes nothing. With a source the thread goes
    on: behind the last poll it sleeps for the interval, and then there is another round. -/
structure Kept (b : Config) (w : Watched) (e : Event) : Prop where
  ips : (watch b w e).state.ips = (watch b w e).last.getD ∅
  failed : ∀ server, polledServer w.state e = some server → returned b.redisPassword server = none →
    (watch b w e).state.ips = w.state.ips
  alive : Sourced b (watch b w e).state → (watch b w e).state.phase ≠ .exited ∧ (watch b w e).state.phase ≠ .terminated
  asleep : w.state.phase = .polling [] → e = .turn →
    (watch b w e).state.phase = .sleeping (if w.last.isSome = true then b.refreshSecs else 60)
  again : ∀ interval, w.state.phase = .sleeping interval → e = .turn → (watch b w e).state.phase = .top

/-- No poll has succeeded when the addresses of a round are through, and an address that is polled can be parsed and its
    server answers. -/
def Sound (b : Config) (w : Watched) (e : Event) : Prop :=
  match w.state.phase, e with
  | .polling [], .turn => w.last = none
  | .polling (address :: _), .redis lookup =>
    (∃ parsed, parseAddress address = .ok parsed) ∧ ∀ server, lookup.polled = some server → Answered b.redisPassword server
  | _, _ => True

/-- What holds as long as the steps are sound -/
structure Tracked (b : Config) (w : Watched) : Prop where
  ips : w.state.ips = w.last.getD ∅
  initialized : w.state.initialized = w.last.isSome
  alive : Sourced b w.state → w.state.phase ≠ .exited ∧ w.state.phase ≠ .terminated
  polling : ∀ rest, w.state.phase = .polling rest → Sourced b w.state
  parsed : (w.state.replicas ≠ ∅ ∨ ∃ rest, w.state.phase = .asking rest) → ∀ sentinels, b.source = .sentinels sentinels →
    ∃ entries, parseIpPort sentinels = .ok entries

section
variable {b : Config} {w : Watched} {e : Event}

theorem Tracked.start : Tracked b Watched.start where
  ips := rfl
  initialized := rfl
  alive _ := ⟨nofun, nofun⟩
  polling _ := nofun
  parsed := by
    rintro (h | ⟨rest, h⟩)
    · exact absurd rfl h
    · cases h

theorem watch_last (h : polledServer w.state e = none) : (watch b w e).last = w.last := by
  rw [watch, h]
  rfl

theorem sound_polls {address : Text} {rest : List Text} {lookup : Lookup}
    (hphase : w.state.phase = .polling (address :: rest)) :
    Sound b w (.redis lookup) ↔ (∃ parsed, parseAddress address = .ok parsed) ∧
      ∀ server, lookup.polled = some server → Answered b.redisPassword server := by
  unfold Sound
  rw [hphase]

theorem sound_closes (hphase : w.state.phase = .polling []) : Sound b w .turn ↔ w.last = none := by
  unfold Sound
  rw [hphase]

theorem sound_of_quiet (hpolls : ∀ address rest lookup, w.state.phase = .polling (address :: rest) → e ≠ .redis lookup)
    (hends : w.state.phase = .polling [] → e ≠ .turn) : Sound b w e := by
  unfold Sound
  split
  · exact absurd rfl (hends ‹_›)
  · exact absurd rfl (hpolls _ _ _ ‹_›)
  · trivial

theorem polledServer_of_quiet (hpolls : ∀ address rest lookup, w.state.phase = .polling (address :: rest) →
    e ≠ .redis lookup) :
    polledServer w.state e = none := by
  unfold polledServer
  split
  · exact absurd rfl (hpolls _ _ _ ‹_›)
  · rfl

/-- A sound poll: the next address is at hand, and the set that was returned is taken over if there is one. -/
theorem step_polls {address : Text} {rest : List Text} {lookup : Lookup} (hphase : w.state.phase = .polling (address :: rest))
    (hsound : Sound b w (.redis lookup)) : step b w.state (.redis lookup) =
      { w.state with
        phase := .polling rest
        ips := ((polledServer w.state (.redis lookup)).bind (returned b.redisPassword)).getD w.state.ips
        initialized := w.state.initialized ||
          ((polledServer w.state (.redis lookup)).bind (returned b.redisPassword)).isSome } := by
  obtain ⟨⟨parsed, hparsed⟩, hanswered⟩ := (sound_polls hphase).mp hsound
  unfold step polledServer
  rw [hphase]
  dsimp only
  rw [hparsed]
  dsimp only
  cases hpolled : lookup.polled with
  | none => simp
  | some server =>
    dsimp only [Option.bind_some]
    rw [queryRedis_eq (hanswered server hpolled)]

/-- Else the thread is stopped. -/
theorem step_polls_terminated {address : Text} {rest : List Text} {lookup : Lookup}
    (hphase : w.state.phase = .polling (address :: rest)) (hsound : ¬Sound b w (.redis lookup)) :
    step b w.state (.redis lookup) = { w.state with phase := .terminated } := by
  rw [sound_polls hphase, not_and_or] at hsound
  unfold step
  rw [hphase]
  dsimp only
  cases hparsed : parseAddress address with
  | error error => rfl
  | ok parsed =>
    obtain ⟨server, hserver⟩ := not_forall.mp (hsound.resolve_left (not_not_intro ⟨parsed, hparsed⟩))
    obtain ⟨hpolled, hunanswered⟩ := Classical.not_imp.mp hserver
    have hundefined : queryRedis b.redisPassword server w.state.ips = none := by
      by_contra h
      exact hunanswered (answered_of_queryRedis h)
    dsimp only
    rw [hpolled]
    dsimp only
    rw [hundefined]

/-- A step that polls nothing and leaves the addresses as they are -/
theorem Tracked.quiet {s : State} (h : Tracked b w) (hpolled : polledServer w.state e = none) (hstep : step b w.state e = s)
    (hips : s.ips = w.state.ips) (hinitialized : s.initialized = w.state.initialized)
    (halive : Sourced b s → s.phase ≠ .exited ∧ s.phase ≠ .terminated)
    (hpolling : ∀ rest, s.phase = .polling rest → Sourced b s)
    (hparsed : (s.replicas ≠ ∅ ∨ ∃ rest, s.phase = .asking rest) → ∀ sentinels, b.source = .sentinels sentinels →
      ∃ entries, parseIpPort sentinels = .ok entries) : Tracked b (watch b w e) := by
  have hlast : (watch b w e).last = w.last := watch_last hpolled
  obtain rfl := hstep
  exact ⟨by rw [hlast, ← h.ips]; exact hips, by rw [hlast, ← h.initialized]; exact hinitialized, halive, hpolling, hparsed⟩

theorem Tracked.moved {phase : Phase} (h : Tracked b w) (hpolled : polledServer w.state e = none)
    (hstep : step b w.state e = { w.state with phase := phase })
    (halive : Sourced b w.state → phase ≠ .exited ∧ phase ≠ .terminated)
    (hpolling : ∀ rest, phase = .polling rest → Sourced b w.state)
    (hasking : ∀ rest, phase = .asking rest → ∀ sentinels, b.source = .sentinels sentinels →
      ∃ entries, parseIpPort sentinels = .ok entries) : Tracked b (watch b w e) := by
  refine h.quiet hpolled hstep rfl rfl halive hpolling ?_
  rintro (hreplicas | ⟨rest, hrest⟩)
  · exact h.parsed (.inl hreplicas)
  · exact hasking rest hrest

/-- Nothing is known that could be polled when the sentinels cannot be parsed. -/
theorem Tracked.unsourced {sentinels : Text} {error : Error} (h : Tracked b w) (hsource : b.source = .sentinels sentinels)
    (hparse : parseIpPort sentinels = .error error) : ¬Sourced b w.state := by
  rintro (haddress | hreplicas)
  · rw [hsource] at haddress
    exact haddress rfl
  · obtain ⟨entries, hentries⟩ := h.parsed (.inl hreplicas) sentinels hsource
    rw [hparse] at hentries
    cases hentries

theorem Tracked.watch (h : Tracked b w) (hsound : Sound b w e) : Tracked b (watch b w e) := by
  have hturn : polledServer w.state .turn = none := polledServer_of_quiet fun _ _ _ _ => nofun
  have hwalk : ∀ order, polledServer w.state (.walk order) = none := fun _ => polledServer_of_quiet fun _ _ _ _ => nofun
  have hmove := step_move b w.state e
  generalize hnext : step b w.state e = s at hmove
  cases hmove with
  | still hpolls hends hwakes => exact h.quiet (polledServer_of_quiet hpolls) hnext rfl rfl h.alive h.polling h.parsed
  | chooses hphase => exact h.moved hturn hnext (fun _ => ⟨nofun, nofun⟩) (fun _ => nofun) (fun _ => nofun)
  | throws hphase hsource hparse =>
    have hunsourced := h.unsourced hsource hparse
    exact h.moved hturn hnext (fun hs => absurd hs hunsourced) (fun _ => nofun) (fun _ => nofun)
  | asks hphase hsource hparse =>
    refine h.moved hturn hnext (fun _ => ⟨nofun, nofun⟩) (fun _ => nofun) fun _ _ sentinels hsentinels => ?_
    obtain rfl := Source.sentinels.inj (hsource.symm.trans hsentinels)
    exact ⟨_, hparse⟩
  | asked hphase hphase' =>
    refine h.quiet (polledServer_of_quiet fun _ _ _ _ => nofun) hnext rfl rfl (fun _ => ?_) (fun rest hrest => ?_) ?_
    · rcases hphase' with rfl | rfl <;> exact ⟨nofun, nofun⟩
    · rcases hphase' with rfl | rfl <;> cases hrest
    · exact fun _ => h.parsed (.inr ⟨_, hphase⟩)
  | ends hphase haddress hreplicas =>
    have hunsourced : ¬Sourced b w.state := fun hs => hs.elim (fun ha => ha haddress) (fun hr => hr hreplicas)
    exact h.moved (hwalk _) hnext (fun hs => absurd hs hunsourced) (fun _ => nofun) (fun _ => nofun)
  | starts hphase hsource =>
    exact h.moved (hwalk _) hnext (fun _ => ⟨nofun, nofun⟩) (fun _ _ => hsource) (fun _ => nofun)
  | polls hphase =>
    have hstep := step_polls hphase hsound
    have hsource := h.polling _ hphase
    unfold Blacklist.watch
    rw [hstep]
    refine ⟨?_, ?_, fun _ => ⟨nofun, nofun⟩, fun _ _ => hsource, fun hr => h.parsed (.inl (hr.resolve_right nofun))⟩
    · dsimp only
      rw [h.ips]
      cases (polledServer w.state _).bind (returned b.redisPassword) <;> rfl
    · dsimp only
      rw [h.initialized]
      cases (polledServer w.state _).bind (returned b.redisPassword) with
      | none => exact Bool.or_false _
      | some ips => exact Bool.or_true _
  | closes hphase =>
    have hfalse : w.state.initialized = false := by
      rw [h.initialized, (sound_closes hphase).mp hsound]
      rfl
    rw [if_neg (by rw [hfalse]; exact Bool.false_ne_true)] at hnext
    exact h.moved hturn hnext (fun _ => ⟨nofun, nofun⟩) (fun _ => nofun) (fun _ => nofun)
  | wakes hphase => exact h.moved hturn hnext (fun _ => ⟨nofun, nofun⟩) (fun _ => nofun) (fun _ => nofun)

/-- A sound step keeps the blacklist with its source. -/
theorem Tracked.kept (h : Tracked b w) (hsound : Sound b w e) : Kept b w e := by
  have hnext := h.watch hsound
  refine ⟨hnext.ips, fun server hpolled hfailed => ?_, hnext.alive, fun hphase he => ?_, fun interval hphase he => ?_⟩
  · have hlast : (Blacklist.watch b w e).last = w.last := by
      rw [Blacklist.watch, hpolled, Option.bind_some, hfailed]
      rfl
    rw [hnext.ips, hlast, h.ips]
  · subst he
    have hnone := (sound_closes hphase).mp hsound
    have hfalse : w.state.initialized = false := by
      rw [h.initialized, hnone]
      rfl
    rw [hnone]
    unfold Blacklist.watch step
    rw [hphase, hfalse]
    rfl
  · subst he
    unfold Blacklist.watch step
    rw [hphase]

/-- A step that is not sound stops the thread, with a source. -/
theorem Tracked.sound (h : Tracked b w) (hkept : Kept b w e) : Sound b w e := by
  by_contra hunsound
  have hcases : (w.state.phase = .polling [] ∧ e = .turn) ∨
      ∃ address rest lookup, w.state.phase = .polling (address :: rest) ∧ e = .redis lookup := by
    by_contra hquiet
    obtain ⟨hends, hpolls⟩ := not_or.mp hquiet
    exact hunsound (sound_of_quiet (fun address rest lookup hphase he => hpolls ⟨address, rest, lookup, hphase, he⟩)
      fun hphase he => hends ⟨hphase, he⟩)
  rcases hcases with ⟨hphase, rfl⟩ | ⟨address, rest, lookup, hphase, rfl⟩
  · have hinitialized : w.state.initialized = true := by
      rw [h.initialized, Option.isSome_iff_ne_none]
      exact fun hnone => hunsound ((sound_closes hphase).mpr hnone)
    have hexited : (Blacklist.watch b w .turn).state.phase = .exited := by
      unfold Blacklist.watch step
      rw [hphase, hinitialized]
      rfl
    rw [hkept.asleep hphase rfl] at hexited
    cases hexited
  · have hstep := step_polls_terminated hphase hunsound
    have hstate : (Blacklist.watch b w (.redis lookup)).state = { w.state with phase := .terminated } := hstep
    have halive := hkept.alive (by rw [hstate]; exact h.polling _ hphase)
    exact halive.2 (by rw [hstate])

end

/-- Over the life of the thread the blacklist follows its source exactly as long as no round ends in which a poll has
    succeeded, the addresses can be parsed and the servers answer. -/
theorem follows_source_iff (b : Config) (events : List Event) :
    Meets (watch b) (Kept b) Watched.start events ↔ Meets (watch b) (Sound b) Watched.start events :=
  meets_iff (fun _ _ h => ⟨h.sound, h.kept⟩) (fun _ _ h hsound => h.watch hsound) Tracked.start

def oneListed : Server := ⟨true, none, some (.array [.string "192.0.2.7".toList]), false⟩

/-- A redis server without a password, to be asked every hour -/
def hourly : Config := ⟨.redis "10.0.0.1".toList 6379, [], 3600⟩

/-- The thread ends with the first poll, which succeeds. -/
theorem first_round_is_last :
    (Machine.run (watch hourly) Watched.start [.turn, .walk [], .redis (.address oneListed), .turn]).state.phase = .exited ∧
      ¬Meets (watch hourly) (Kept hourly) Watched.start [.turn, .walk [], .redis (.address oneListed), .turn] := by
  refine ⟨by decide, ?_⟩
  rintro ⟨-, -, -, hlast, -⟩
  exact absurd (hlast.asleep (by decide) rfl) (by decide)

end Drachtio.Blacklist
