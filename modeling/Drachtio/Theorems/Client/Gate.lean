import Drachtio.Theorems.Client.Accesses

/-! What an application can do before it has shown the secret. The dispatcher asks for none, so the gate is
    as good as the messages that come: it holds exactly of the message sequences that keep to the protocol. -/

namespace Drachtio.Client

/-- Every message is read within its tokens and fails no assertion; before a right secret was shown, only ping and
    authenticate do anything; and an authenticate command with a wrong secret leaves the tags and the server as they were. -/
def Gated (k : Config) : Bool → Session → List (CommandEnv × String) → Prop
  | _, _, [] => True
  | authenticated, s, i :: is =>
    (s.reading = true → (∀ a ∈ accesses i.2, a.valid (tokensOf i.2) = true) ∧
      (¬ (commandOf i.2 = some "ping" ∨ IsAuthenticate i.2) → authenticated = false →
        (s.processClientMessage k i.1 i.2).call = none ∧ (s.receive k i).server = s.server) ∧
      (IsAuthenticate i.2 → grants k i.2 = false →
        (s.receive k i).tags = s.tags ∧ (s.receive k i).server = s.server)) ∧
    Gated k (authenticated || (s.reading && grants k i.2)) (s.receive k i) is

/-- A lack of tokens is noticed and no request is stray; before a right secret was shown, the messages ask for nothing;
    and an authenticate command with a wrong secret brings no new tag. -/
def Cautious (k : Config) : Bool → Session → List (CommandEnv × String) → Prop
  | _, _, [] => True
  | authenticated, s, i :: is =>
    (s.reading = true → ((TooFew i.2 → Noticed i.2) ∧ ¬Stray i.2) ∧
      (authenticated = false → asks i.2 = false) ∧
      (IsAuthenticate i.2 → grants k i.2 = false → tagsOf i.2 ⊆ s.tags)) ∧
    Cautious k (authenticated || (s.reading && grants k i.2)) (s.receive k i) is

theorem receive_server {k : Config} {s : Session} (hreading : s.reading = true) (i : CommandEnv × String) :
    (s.receive k i).server = (s.processClientMessage k i.1 i.2).session.server := by
  rw [Session.receive, if_pos hreading]

theorem receive_tags {k : Config} {s : Session} (hreading : s.reading = true) (i : CommandEnv × String) :
    (s.receive k i).tags = (s.processClientMessage k i.1 i.2).session.tags := by
  rw [Session.receive, if_pos hreading]

/-- The gate holds along the messages of a connection exactly when they are cautious: the dispatcher itself
    never asks whether the secret was shown or whether the tokens are there, and keeps tags before it looks at the
    secret. -/
theorem gated_iff_cautious (k : Config) (authenticated : Bool) (s : Session) (is : List (CommandEnv × String)) :
    Gated k authenticated s is ↔ Cautious k authenticated s is := by
  induction is generalizing authenticated s with
  | nil => exact Iff.rfl
  | cons i is ih =>
    refine and_congr (forall_congr' fun hreading => ?_) (ih _ _)
    rw [receive_server hreading, receive_tags hreading, accesses_valid_iff]
    refine and_congr_right fun _ => ?_
    constructor
    · rintro ⟨hquiet, hwrong⟩
      refine ⟨fun hauth => ?_, fun hi hgrants => ?_⟩
      · by_cases hfree : commandOf i.2 = some "ping" ∨ IsAuthenticate i.2
        · exact asks_of_command hfree
        · obtain ⟨hcall, -⟩ := hquiet hfree hauth
          rcases process_cases k i.1 i.2 s with ⟨hasks, -⟩ | ⟨-, hcalled⟩
          · exact hasks
          · exact absurd hcall hcalled
      · obtain ⟨htags, -⟩ := hwrong hi hgrants
        rw [tags_wrong_secret hi hgrants] at htags
        exact Finset.union_eq_left.mp htags
    · rintro ⟨hasks, hwrong⟩
      refine ⟨fun _ hauth => ?_, fun hi hgrants => ⟨?_, ?_⟩⟩
      · rcases process_cases k i.1 i.2 s with ⟨-, hquiet⟩ | ⟨hask, -⟩
        · exact hquiet
        · exact absurd hask (by simp [hasks hauth])
      · rw [tags_wrong_secret hi hgrants]
        exact Finset.union_eq_left.mpr (hwrong hi hgrants)
      · rcases process_cases k i.1 i.2 s with ⟨-, -, hserver⟩ | ⟨hask, -⟩
        · exact hserver
        · exact absurd hask (by simp [asks_of_command (.inr hi)])

/-- A server that no one has connected to, and a connection to it. -/
def emptyServer : Server := ⟨∅, [], ∅, ∅, ∅, ∅, [], []⟩

def freshSession : Session := ⟨0, ∅, true, emptyServer⟩

def plainConfig : Config := ⟨fun secret => secret == "cymru", "", "", ""⟩

def plainEnv : CommandEnv := ⟨"u", "t", "d", .sent, fun _ => none⟩

/-- A route is registered for a connection that has shown no secret. -/
theorem route_ungated :
    ¬ ∀ (k : Config) (s : Session) (is : List (CommandEnv × String)), Gated k false s is := by
  intro h
  have hroute := (h plainConfig freshSession [(plainEnv, "1|route|invite")]).1 rfl
  have hcommand : ¬ (commandOf "1|route|invite" = some "ping" ∨ IsAuthenticate "1|route|invite") := by
    unfold IsAuthenticate
    decide
  have hcall := (hroute.2.1 hcommand rfl).1
  revert hcall
  decide

end Drachtio.Client
