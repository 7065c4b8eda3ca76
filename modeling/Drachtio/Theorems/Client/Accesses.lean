import Drachtio.Theorems.Client.Asks

/-! Which messages a client may send without the dispatcher reading past the tokens or failing an assertion. -/

namespace Drachtio.Client

/-- The tokens of the first line that a command uses. -/
def needed (command : String) : Nat :=
  if command = "route" ∨ command = "remove_route" ∨ command = "authenticate" then 3
  else if command = "sip" then 4
  else if command = "proxy" then 9
  else 2

/-- The message has too few tokens for its command. -/
def TooFew (msg : String) : Prop := ∃ command, commandOf msg = some command ∧ (tokensOf msg).length < needed command

/-- A request other than CANCEL that names a transaction and no dialog. -/
def Stray (msg : String) : Prop :=
  commandOf msg = some "sip" ∧ startsWith (splitMsg msg).startLine "SIP/" = false ∧
    startsWith (splitMsg msg).startLine "CANCEL" = false ∧
    ∃ transactionId more, (tokensOf msg).drop 2 = transactionId :: "" :: more ∧ transactionId ≠ ""

/-- The command is proxy, and too few tokens for it are noticed. -/
def Noticed (msg : String) : Prop := commandOf msg = some "proxy" ∧ (tokensOf msg).length < 4

/-! ### Accesses within the tokens -/

section
variable {msg msgId command : String} {args : List String}

theorem tokensOf_ne_nil (msg : String) : tokensOf msg ≠ [] := by
  intro hnil
  exact List.splitOn_ne_nil _ _ (List.map_eq_nil_iff.mp hnil)

theorem commandOf_eq (htokens : tokensOf msg = msgId :: command :: args) : commandOf msg = some command := by
  rw [commandOf, htokens]
  rfl

theorem tooFew_iff (htokens : tokensOf msg = msgId :: command :: args) : TooFew msg ↔ args.length + 2 < needed command := by
  rw [TooFew, commandOf_eq htokens, htokens]
  simp only [Option.some.injEq, List.length_cons]
  exact ⟨fun ⟨_, hcommand, hlt⟩ => hcommand ▸ hlt, fun hlt => ⟨command, rfl, hlt⟩⟩

theorem noticed_iff (htokens : tokensOf msg = msgId :: command :: args) :
    Noticed msg ↔ command = "proxy" ∧ args.length < 2 := by
  rw [Noticed, commandOf_eq htokens, htokens]
  simp only [Option.some.injEq, List.length_cons]
  exact and_congr_right fun _ => by omega

theorem not_stray (htokens : tokensOf msg = msgId :: command :: args) (hsip : command ≠ "sip") : ¬Stray msg := by
  rintro ⟨hcommand, -⟩
  rw [commandOf_eq htokens] at hcommand
  exact hsip (Option.some.inj hcommand)

theorem stray_iff {transactionId dialogId : String} {more : List String}
    (htokens : tokensOf msg = msgId :: "sip" :: transactionId :: dialogId :: more) :
    Stray msg ↔ startsWith (splitMsg msg).startLine "SIP/" = false ∧ startsWith (splitMsg msg).startLine "CANCEL" = false ∧
      dialogId = "" ∧ transactionId ≠ "" := by
  rw [Stray, commandOf_eq htokens, htokens]
  simp only [true_and, List.drop_succ_cons, List.drop_zero, List.cons.injEq]
  constructor
  · rintro ⟨hsip, hcancel, t, more', ⟨rfl, rfl, -⟩, ht⟩
    exact ⟨hsip, hcancel, rfl, ht⟩
  · rintro ⟨hsip, hcancel, rfl, ht⟩
    exact ⟨hsip, hcancel, transactionId, more, ⟨rfl, rfl, rfl⟩, ht⟩

/-- A token that is read if it is there. -/
theorem valid_optional (tokens : List String) (i : Nat) :
    ∀ a ∈ (if i < tokens.length then [Access.token i] else []), a.valid tokens = true := by
  intro a ha
  split at ha
  · rename_i hlt
    rw [List.mem_singleton.mp ha]
    exact decide_eq_true hlt
  · exact absurd ha List.not_mem_nil

theorem valid_token {tokens : List String} {i : Nat} (h : i < tokens.length) : (Access.token i).valid tokens = true :=
  decide_eq_true h

/-- The branch for sip fails its first assertion for too few tokens, and its second one for a stray request. -/
theorem valid_sip (htokens : tokensOf msg = msgId :: "sip" :: args) :
    (∀ a ∈ sipAccesses (tokensOf msg) (splitMsg msg).startLine, a.valid (tokensOf msg) = true) ↔
      4 ≤ (tokensOf msg).length ∧ ¬Stray msg := by
  simp only [sipAccesses, List.forall_mem_append, List.forall_mem_cons, List.not_mem_nil, false_imp_iff, implies_true,
    and_true]
  constructor
  · rintro ⟨⟨⟨⟨hfour, -, -⟩, -⟩, -⟩, hlast⟩
    refine ⟨by simpa [Access.valid] using hfour, fun hstray => ?_⟩
    obtain ⟨-, hsip, hcancel, transactionId, more, hdrop, hne⟩ := hstray
    have hargs : args = transactionId :: "" :: more := by simpa [htokens] using hdrop
    simp only [htokens, hargs, hsip, hcancel, List.getD_cons_succ, List.getD_cons_zero, Bool.false_eq_true, if_false, ne_eq,
      not_true_eq_false, hne, not_false_eq_true, if_true] at hlast
    have hno := hlast _ (List.mem_singleton_self _)
    cases hno
  · rintro ⟨hfour, hstray⟩
    have hzero : (Access.token 0).valid (tokensOf msg) = true := valid_token (by omega)
    have hone : ∀ a ∈ [Access.token 0], a.valid (tokensOf msg) = true := by
      intro a ha
      rwa [List.mem_singleton.mp ha]
    refine ⟨⟨⟨⟨decide_eq_true hfour, valid_token (by omega), valid_token (by omega)⟩, valid_optional _ _⟩, hzero,
      valid_token (by omega)⟩, ?_⟩
    split
    · exact hone
    · split
      · exact hone
      · split
        · split
          · exact hone
          · rename_i hsip hdlg htxn hcancel
            rcases args with _ | ⟨transactionId, _ | ⟨dialogId, more⟩⟩
            · simp [htokens] at hfour
            · simp [htokens] at hfour
            · simp only [htokens, List.getD_cons_succ, List.getD_cons_zero, ne_eq, not_not] at hdlg htxn
              exact absurd ((stray_iff htokens).mpr ⟨by simpa using hsip, by simpa using hcancel, hdlg, htxn⟩) hstray
        · exact hone

/-- What a message relies on holds exactly when it has the tokens its command needs, or is a proxy command
    whose lack of tokens is noticed, and is no stray request. -/
theorem valid_iff (htokens : tokensOf msg = msgId :: command :: args) :
    (∀ a ∈ accesses msg, a.valid (tokensOf msg) = true) ↔ (TooFew msg → Noticed msg) ∧ ¬Stray msg := by
  have hlen : (tokensOf msg).length = args.length + 2 := by rw [htokens]; rfl
  have hcommand : (tokensOf msg).getD 1 "" = command := by rw [htokens]; rfl
  have hzero : (Access.token 0).valid (tokensOf msg) = true := valid_token (by omega)
  have hone : (Access.token 1).valid (tokensOf msg) = true := valid_token (by omega)
  have hlast : ∀ a ∈ [Access.token 0], a.valid (tokensOf msg) = true := List.forall_mem_singleton.mpr hzero
  rw [tooFew_iff htokens, noticed_iff htokens, accesses, ← tokensOf, if_neg (by omega), List.forall_mem_cons,
    and_iff_right hone, hcommand]
  by_cases hping : command = "ping"
  · subst hping
    exact iff_of_true hlast ⟨fun hlt => absurd hlt (by rw [show needed "ping" = 2 from rfl]; omega), not_stray htokens
      (by decide)⟩
  rw [if_neg hping]
  by_cases hroute : command = "route" ∨ command = "remove_route"
  · have hstray : ¬Stray msg := not_stray htokens (by rintro rfl; exact absurd hroute (by decide))
    have hneeded : needed command = 3 := by
      rcases hroute with rfl | rfl <;> rfl
    have hproxy : command ≠ "proxy" := by
      rintro rfl
      exact absurd hroute (by decide)
    rw [if_pos hroute, List.forall_mem_cons, and_iff_left hlast, and_iff_left hstray, hneeded]
    simp only [Access.valid, hlen, decide_eq_true_eq, hproxy, false_and, imp_false]
    omega
  rw [if_neg hroute]
  by_cases hauth : command = "authenticate"
  · subst hauth
    have hstray : ¬Stray msg := not_stray htokens (by decide)
    rw [if_pos rfl, List.forall_mem_append, List.forall_mem_append, List.forall_mem_singleton, and_iff_left hlast,
      and_iff_left (valid_optional _ 3), and_iff_left hstray, show needed "authenticate" = 3 from rfl]
    simp only [Access.valid, hlen, decide_eq_true_eq, show ¬"authenticate" = "proxy" by decide, false_and, imp_false]
    omega
  rw [if_neg hauth]
  by_cases hsip : command = "sip"
  · subst hsip
    rw [if_pos rfl, valid_sip htokens, show needed "sip" = 4 from rfl, hlen]
    simp only [show ¬"sip" = "proxy" by decide, false_and, imp_false, Nat.not_lt]
  rw [if_neg hsip, and_iff_left (not_stray htokens hsip)]
  by_cases hproxy : command = "proxy"
  · subst hproxy
    rw [if_pos rfl, show needed "proxy" = 9 from rfl]
    split
    · exact iff_of_true hlast fun _ => ⟨rfl, by omega⟩
    · rename_i hfour
      rw [hlen] at hfour
      simp only [List.forall_mem_cons, List.not_mem_nil, false_imp_iff, implies_true, and_true, Access.valid, hlen,
        decide_eq_true_eq, true_and]
      omega
  · have hneeded : needed command = 2 := by
      rw [needed, if_neg (by rw [← or_assoc]; exact not_or.mpr ⟨hroute, hauth⟩), if_neg hsip, if_neg hproxy]
    rw [if_neg hproxy, hneeded]
    exact iff_of_true hlast fun hlt => absurd hlt (by omega)

theorem accesses_valid_iff :
    (∀ a ∈ accesses msg, a.valid (tokensOf msg) = true) ↔ (TooFew msg → Noticed msg) ∧ ¬Stray msg := by
  rcases htokens : tokensOf msg with _ | ⟨msgId, _ | ⟨command, args⟩⟩
  · exact absurd htokens (tokensOf_ne_nil msg)
  · have hnone : commandOf msg = none := by
      rw [commandOf, htokens]
      rfl
    rw [accesses, ← tokensOf, htokens, if_pos (show [msgId].length < 2 from Nat.one_lt_two), List.forall_mem_singleton]
    refine iff_of_true (valid_token Nat.one_pos) ⟨?_, ?_⟩
    · rintro ⟨command, hcommand, -⟩
      cases hnone.symm.trans hcommand
    · rintro ⟨hcommand, -⟩
      cases hnone.symm.trans hcommand
  · rw [← htokens]
    exact valid_iff htokens

end

/-! ### The outcome of a message -/

theorem answer_returned {env : CommandEnv} {msgId reason : String} {ok : Bool} {s : Session} :
    (s.answer env msgId ok reason).result ≠ .undefined := Result.noConfusion

theorem perform_returned {env : CommandEnv} {call : Call} {s : Session} : (s.perform env call).result ≠ .undefined :=
  Result.noConfusion

theorem register_returned {env : CommandEnv} {msgId refusal : String} {call : Call} {s : Session} :
    (s.register env msgId call refusal).result ≠ .undefined := Result.noConfusion

theorem sip_returned (env : CommandEnv) (msgId transactionId dialogId : String) (more : List String) (m : SplitMsg)
    (s : Session) : (s.sip env msgId transactionId dialogId more m).result ≠ .undefined := by
  unfold Session.sip
  split
  · split
    · exact answer_returned
    · exact perform_returned
  · split
    · exact perform_returned
    · split
      · split
        · exact perform_returned
        · exact Result.noConfusion
      · split
        · exact perform_returned
        · exact perform_returned

theorem proxy_undefined_iff (env : CommandEnv) (msgId : String) (args : List String) (m : SplitMsg) (s : Session) :
    (s.proxy env msgId args m).result = .undefined ↔ 2 ≤ args.length ∧ args.length < 7 := by
  rcases args with _ | ⟨transactionId, _ | ⟨remain, _ | ⟨full, _ | ⟨follow, _ | ⟨simultaneous, _ | ⟨provisional, _ |
    ⟨final, destinations⟩⟩⟩⟩⟩⟩⟩
  · exact iff_of_false answer_returned (by decide)
  · exact iff_of_false answer_returned (by simp)
  · exact iff_of_true rfl (by simp)
  · exact iff_of_true rfl (by simp)
  · exact iff_of_true rfl (by simp)
  · exact iff_of_true rfl (by simp)
  · exact iff_of_true rfl (by simp)
  · refine iff_of_false perform_returned ?_
    simp only [List.length_cons]
    omega

/-- The dispatcher reads past the tokens exactly when they are too few for the command and nothing notices. -/
theorem undefined_iff (k : Config) (env : CommandEnv) (msg : String) (s : Session) :
    (s.processClientMessage k env msg).result = .undefined ↔ TooFew msg ∧ ¬Noticed msg := by
  rcases htokens : tokensOf msg with _ | ⟨msgId, _ | ⟨command, args⟩⟩
  · exact absurd htokens (tokensOf_ne_nil msg)
  · have hsplit : splitTokens (splitMsg msg).metaLine = [msgId] := htokens
    have hnone : commandOf msg = none := by
      rw [commandOf, htokens]
      rfl
    simp only [Session.processClientMessage, hsplit]
    refine iff_of_false answer_returned ?_
    rintro ⟨⟨command, hcommand, -⟩, -⟩
    cases hnone.symm.trans hcommand
  · have hsplit : splitTokens (splitMsg msg).metaLine = msgId :: command :: args := htokens
    rw [tooFew_iff htokens, noticed_iff htokens]
    simp only [Session.processClientMessage, hsplit]
    by_cases hping : command = "ping"
    · subst hping
      refine iff_of_false answer_returned fun h => absurd h.1 ?_
      rw [show needed "ping" = 2 from rfl]
      omega
    rw [if_neg hping]
    by_cases hroute : command = "route"
    · subst hroute
      cases args with
      | nil => exact iff_of_true rfl ⟨by decide, by decide⟩
      | cons verb more =>
        rw [if_pos rfl]
        exact iff_of_false register_returned fun h => absurd h.1 (by simp [needed])
    rw [if_neg hroute]
    by_cases hremove : command = "remove_route"
    · subst hremove
      cases args with
      | nil => exact iff_of_true rfl ⟨by decide, by decide⟩
      | cons verb more =>
        rw [if_pos rfl]
        exact iff_of_false register_returned fun h => absurd h.1 (by simp [needed])
    rw [if_neg hremove]
    by_cases hauth : command = "authenticate"
    · subst hauth
      cases args with
      | nil => exact iff_of_true rfl ⟨by decide, by decide⟩
      | cons secret more =>
        refine iff_of_false ?_ fun h => absurd h.1 (by simp [needed])
        rw [if_pos rfl]
        dsimp only [Session.authenticate]
        split
        · exact answer_returned
        · exact answer_returned
    rw [if_neg hauth]
    by_cases hsip : command = "sip"
    · subst hsip
      rw [if_pos rfl]
      rcases args with _ | ⟨transactionId, _ | ⟨dialogId, more⟩⟩
      · exact iff_of_true rfl ⟨by decide, by decide⟩
      · exact iff_of_true rfl ⟨by simp [needed], by simp⟩
      · exact iff_of_false (sip_returned _ _ _ _ _ _ _) fun h => absurd h.1 (by simp [needed])
    rw [if_neg hsip]
    by_cases hproxy : command = "proxy"
    · subst hproxy
      rw [if_pos rfl, proxy_undefined_iff, show needed "proxy" = 9 from rfl]
      simp only [true_and]
      omega
    · rw [if_neg hproxy]
      refine iff_of_false answer_returned fun h => absurd h.1 ?_
      rw [needed, if_neg (by rw [← or_assoc, not_or, not_or]; exact ⟨⟨hroute, hremove⟩, hauth⟩), if_neg hsip, if_neg hproxy]
      omega

/-- What a message relies on holds exactly when the dispatcher does not read past the tokens and the message
    is no stray request. -/
theorem valid_iff_returned (k : Config) (env : CommandEnv) (msg : String) (s : Session) :
    (∀ a ∈ accesses msg, a.valid (tokensOf msg) = true) ↔
      (s.processClientMessage k env msg).result ≠ .undefined ∧ ¬Stray msg := by
  rw [accesses_valid_iff, ne_eq, undefined_iff, not_and, not_not]

/-- A proxy command with too few tokens that are noticed is answered. -/
theorem noticed_answered (k : Config) (env : CommandEnv) {msg : String} (s : Session) (h : Noticed msg) :
    ∃ reason, (s.processClientMessage k env msg).response =
      createResponseMsg env ((tokensOf msg).headD "") false (some reason) := by
  refine ⟨"Invalid proxy request: not enough information provided", ?_⟩
  rcases htokens : tokensOf msg with _ | ⟨msgId, _ | ⟨command, args⟩⟩
  · simp [Noticed, commandOf, htokens] at h
  · simp [Noticed, commandOf, htokens] at h
  · obtain ⟨rfl, hlt⟩ := (noticed_iff htokens).mp h
    have hsplit : splitTokens (splitMsg msg).metaLine = msgId :: "proxy" :: args := htokens
    simp only [Session.processClientMessage, hsplit]
    rcases args with _ | ⟨transactionId, _ | ⟨remain, more⟩⟩
    · rfl
    · rfl
    · rw [List.length_cons, List.length_cons] at hlt
      omega

/-- A message is read within its tokens, without a failed assertion, and answered with an error under its own
    id if it has too few tokens or is a stray request, exactly when it has the tokens its command needs, or
    is a proxy command with fewer than four, and is no stray request. -/
theorem total_iff (k : Config) (env : CommandEnv) (msg : String) (s : Session) :
    ((∀ a ∈ accesses msg, a.valid (tokensOf msg) = true) ∧
      (TooFew msg ∨ Stray msg → ∃ reason, (s.processClientMessage k env msg).response =
        createResponseMsg env ((tokensOf msg).headD "") false (some reason))) ↔
    (TooFew msg → commandOf msg = some "proxy" ∧ (tokensOf msg).length < 4) ∧ ¬Stray msg := by
  constructor
  · rintro ⟨hall, -⟩
    exact accesses_valid_iff.mp hall
  · rintro ⟨hfew, hstray⟩
    exact ⟨accesses_valid_iff.mpr ⟨hfew, hstray⟩, fun h => noticed_answered k env s (hfew (h.resolve_right hstray))⟩

/-- A route command without a verb: the verb that is not there is read. -/
theorem route_no_verb : ¬∀ a ∈ accesses "1|route", a.valid (tokensOf "1|route") = true := by
  intro hall
  have htwo := hall (.token 2) (by decide)
  revert htwo
  decide

end Drachtio.Client
