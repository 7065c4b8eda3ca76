import Drachtio.Client.Commands

/-! What a message of an application asks for, and what it does. Nothing else calls the controller. -/

namespace Drachtio.Client

/-! ### What a message asks for -/

/-- The tokens of the first line of a message. -/
def tokensOf (msg : String) : List String := splitTokens (splitMsg msg).metaLine

def commandOf (msg : String) : Option String := (tokensOf msg)[1]?

/-- The message is an authenticate command. -/
def IsAuthenticate (msg : String) : Prop := commandOf msg = some "authenticate"

/-- The secret an authenticate command shows is right. -/
def grants (k : Config) (msg : String) : Bool :=
  decide (commandOf msg = some "authenticate") && ((tokensOf msg)[2]?.map k.isSecret).getD false

/-- The tags an authenticate command brings. -/
def tagsOf (msg : String) : Finset String := ((tokensOf msg)[3]?.map fun tags => (splitAt ',' tags).toFinset).getD ∅

/-- A sip command that is carried out: a response names its transaction, a request without dialog that
    names one is a CANCEL. -/
def asksSip (transactionId dialogId startLine : String) : Bool :=
  if startsWith startLine "SIP/" = true then transactionId != ""
  else dialogId != "" || transactionId == "" || startsWith startLine "CANCEL"

/-- The message is a route, remove_route, sip or proxy command that is carried out. -/
def asks (msg : String) : Bool :=
  match tokensOf msg with
  | _ :: command :: args =>
    if command = "route" ∨ command = "remove_route" then !args.isEmpty
    else if command = "sip" then
      match args with
      | transactionId :: dialogId :: _ => asksSip transactionId dialogId (splitMsg msg).startLine
      | _ => false
    else if command = "proxy" then decide (7 ≤ args.length)
    else false
  | _ => false

/-! ### What a message does -/

section
variable {k : Config} {env : CommandEnv} {msg : String} {s : Session}

/-- The outcome of a message that calls nothing leaves the server alone. -/
def Quiet (s : Session) (o : Outcome) : Prop := o.call = none ∧ o.session.server = s.server

theorem quiet_answer (msgId : String) (ok : Bool) (reason : String) : Quiet s (s.answer env msgId ok reason) := ⟨rfl, rfl⟩

theorem quiet_authenticate (msgId secret : String) (more : List String) :
    Quiet s (s.authenticate k env msgId secret more) := by
  by_cases hsecret : k.isSecret secret = false
  · simp only [Session.authenticate, if_pos hsecret]
    exact ⟨rfl, rfl⟩
  · simp only [Session.authenticate, if_neg hsecret]
    exact ⟨rfl, rfl⟩

theorem call_perform (call : Call) : (s.perform env call).call ≠ none := nofun

theorem call_register (msgId : String) (call : Call) (refusal : String) : (s.register env msgId call refusal).call ≠ none :=
  nofun

theorem sip_cases (msgId transactionId dialogId : String) (more : List String) (m : SplitMsg) :
    (asksSip transactionId dialogId m.startLine = false ∧ Quiet s (s.sip env msgId transactionId dialogId more m)) ∨
    (asksSip transactionId dialogId m.startLine = true ∧ (s.sip env msgId transactionId dialogId more m).call ≠ none) := by
  unfold Session.sip asksSip
  by_cases hresponse : startsWith m.startLine "SIP/" = true
  · rw [if_pos hresponse, if_pos hresponse]
    by_cases htxn : transactionId = ""
    · rw [if_pos htxn]
      exact .inl ⟨by simp [htxn], quiet_answer _ _ _⟩
    · rw [if_neg htxn]
      exact .inr ⟨by simp [htxn], call_perform _⟩
  · rw [if_neg hresponse, if_neg hresponse]
    by_cases hdlg : dialogId = ""
    · rw [if_neg (not_not.mpr hdlg)]
      by_cases htxn : transactionId = ""
      · rw [if_neg (not_not.mpr htxn)]
        refine .inr ⟨by simp [htxn], ?_⟩
        split
        · exact call_perform _
        · exact call_perform _
      · rw [if_pos htxn]
        by_cases hcancel : startsWith m.startLine "CANCEL" = true
        · rw [if_pos hcancel]
          exact .inr ⟨by simp [hcancel], call_perform _⟩
        · rw [if_neg hcancel]
          exact .inl ⟨by simp [hdlg, htxn, hcancel], rfl, rfl⟩
    · rw [if_pos hdlg]
      exact .inr ⟨by simp [hdlg], call_perform _⟩

theorem proxy_cases (msgId : String) (args : List String) (m : SplitMsg) :
    (args.length < 7 ∧ Quiet s (s.proxy env msgId args m)) ∨
    (7 ≤ args.length ∧ (s.proxy env msgId args m).call ≠ none) := by
  rcases args with _ | ⟨transactionId, _ | ⟨remain, _ | ⟨full, _ | ⟨follow, _ | ⟨simultaneous, _ | ⟨provisional, _ |
    ⟨final, destinations⟩⟩⟩⟩⟩⟩⟩
  · exact .inl ⟨by simp, quiet_answer _ _ _⟩
  · exact .inl ⟨by simp, quiet_answer _ _ _⟩
  · exact .inl ⟨by simp, rfl, rfl⟩
  · exact .inl ⟨by simp, rfl, rfl⟩
  · exact .inl ⟨by simp, rfl, rfl⟩
  · exact .inl ⟨by simp, rfl, rfl⟩
  · exact .inl ⟨by simp, rfl, rfl⟩
  · exact .inr ⟨by simp, call_perform _⟩

/-- A message calls the controller exactly when it is a command that is carried out. -/
theorem process_cases (k : Config) (env : CommandEnv) (msg : String) (s : Session) :
    (asks msg = false ∧ Quiet s (s.processClientMessage k env msg)) ∨
    (asks msg = true ∧ (s.processClientMessage k env msg).call ≠ none) := by
  rcases htokens : splitTokens (splitMsg msg).metaLine with _ | ⟨msgId, _ | ⟨command, args⟩⟩
  · simp only [Session.processClientMessage, asks, tokensOf, htokens]
    exact .inl ⟨trivial, rfl, rfl⟩
  · simp only [Session.processClientMessage, asks, tokensOf, htokens]
    exact .inl ⟨trivial, quiet_answer _ _ _⟩
  · simp only [Session.processClientMessage, asks, tokensOf, htokens]
    by_cases hping : command = "ping"
    · subst hping
      exact .inl ⟨rfl, quiet_answer _ _ _⟩
    rw [if_neg hping]
    by_cases hroute : command = "route"
    · rw [if_pos hroute, if_pos (.inl hroute)]
      cases args with
      | nil => exact .inl ⟨rfl, rfl, rfl⟩
      | cons verb more => exact .inr ⟨rfl, call_register _ _ _⟩
    rw [if_neg hroute]
    by_cases hremove : command = "remove_route"
    · rw [if_pos hremove, if_pos (.inr hremove)]
      cases args with
      | nil => exact .inl ⟨rfl, rfl, rfl⟩
      | cons verb more => exact .inr ⟨rfl, call_register _ _ _⟩
    rw [if_neg hremove, if_neg (not_or.mpr ⟨hroute, hremove⟩)]
    by_cases hauth : command = "authenticate"
    · subst hauth
      cases args with
      | nil => exact .inl ⟨rfl, rfl, rfl⟩
      | cons secret more => exact .inl ⟨rfl, quiet_authenticate _ _ _⟩
    rw [if_neg hauth]
    by_cases hsip : command = "sip"
    · rw [if_pos hsip, if_pos hsip]
      rcases args with _ | ⟨transactionId, _ | ⟨dialogId, more⟩⟩
      · exact .inl ⟨rfl, rfl, rfl⟩
      · exact .inl ⟨rfl, rfl, rfl⟩
      · exact sip_cases _ _ _ _ _
    rw [if_neg hsip, if_neg hsip]
    by_cases hproxy : command = "proxy"
    · rw [if_pos hproxy, if_pos hproxy]
      rcases proxy_cases msgId args (splitMsg msg) with ⟨hlen, hquiet⟩ | ⟨hlen, hcall⟩
      · exact .inl ⟨decide_eq_false (Nat.not_le.mpr hlen), hquiet⟩
      · exact .inr ⟨decide_eq_true hlen, hcall⟩
    · rw [if_neg hproxy, if_neg hproxy]
      exact .inl ⟨rfl, quiet_answer _ _ _⟩

theorem asks_of_command {msg : String} (h : commandOf msg = some "ping" ∨ IsAuthenticate msg) : asks msg = false := by
  rcases htokens : tokensOf msg with _ | ⟨msgId, _ | ⟨command, args⟩⟩
  · simp only [asks, htokens]
  · simp only [asks, htokens]
  · have hcommand : command = "ping" ∨ command = "authenticate" := by
      simpa [IsAuthenticate, commandOf, htokens] using h
    rcases hcommand with rfl | rfl
    · simp only [asks, htokens]
      rfl
    · simp only [asks, htokens]
      rfl

/-- The tags after an authenticate command with a wrong secret. -/
theorem tags_wrong_secret (h : IsAuthenticate msg) (hwrong : grants k msg = false) :
    (s.processClientMessage k env msg).session.tags = s.tags ∪ tagsOf msg := by
  rcases htokens : tokensOf msg with _ | ⟨msgId, _ | ⟨command, args⟩⟩
  · simp [IsAuthenticate, commandOf, htokens] at h
  · simp [IsAuthenticate, commandOf, htokens] at h
  · obtain rfl : command = "authenticate" := by simpa [IsAuthenticate, commandOf, htokens] using h
    have hsplit : splitTokens (splitMsg msg).metaLine = msgId :: "authenticate" :: args := htokens
    simp only [Session.processClientMessage, hsplit]
    rcases args with _ | ⟨secret, _ | ⟨tags, more⟩⟩
    · simp [tagsOf, htokens]
    · have hsecret : k.isSecret secret = false := by simpa [grants, commandOf, htokens] using hwrong
      simp [Session.authenticate, Session.answer, hsecret, tagsOf, htokens]
    · have hsecret : k.isSecret secret = false := by simpa [grants, commandOf, htokens] using hwrong
      simp [Session.authenticate, Session.answer, hsecret, tagsOf, htokens]

end

end Drachtio.Client
