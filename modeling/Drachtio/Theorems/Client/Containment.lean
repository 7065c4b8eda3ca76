import Drachtio.Client.Dispatcher
import Drachtio.Theorems.Client.Framing
import Drachtio.Theorems.Client.Gate

/-! What becomes of a malformed stream: the client is removed, except behind a specifier without digits or
    with the number zero, and what becomes of a message with too few tokens. -/

namespace Drachtio.Client

open Machine

namespace Connection.Completion

/-- The bytes of a completed read. -/
def data : Completion → List UInt8
  | .failed => []
  | .read data => data

end Connection.Completion

open Connection

/-- The bytes that some completed reads received. -/
def received (cs : List Completion) : List UInt8 := (cs.map Completion.data).flatten

@[simp] theorem received_nil : received [] = [] := rfl

@[simp] theorem received_cons {i : Completion} {cs : List Completion} : received (i :: cs) = i.data ++ received cs := rfl

/-- A read that completes has room in the buffer. -/
def HasRoom {σ : Type} (c : Connection σ) : Completion → Prop
  | .failed => True
  | .read data => Room c data

/-- After some bytes the client is read from or was removed, and it was removed if a specifier at a message
    boundary is malformed. -/
def Disposed {σ : Type} (bs : List UInt8) (c : Connection σ) : Prop :=
  (c.status = .reading ∨ c.status = .left) ∧ ((specifier (messages bs).2).malformed = true → c.status = .left)

/-- The boundary behind the whole messages has neither of the two specifiers that the reader does not catch. -/
def Caught (bs : List UInt8) : Prop :=
  specifier (messages bs).2 ≠ .empty ∧ ∀ rest, specifier (messages bs).2 ≠ .zero rest

section
variable {σ : Type} {h : Handlers σ} {calls : List (List UInt8)} {w : σ} {bs : List UInt8} {c : Connection σ}
  {cs : List Completion}

theorem complete_left (hleft : c.status = .left) (i : Completion) : complete h c i = c := by
  have hno : c.status ≠ .reading := by
    rw [hleft]
    exact nofun
  cases i with
  | failed => exact if_neg hno
  | read data => exact if_neg hno

theorem run_left (hleft : c.status = .left) (cs : List Completion) : run (complete h) c cs = c := by
  induction cs with
  | nil => rfl
  | cons i cs ih => rw [run_cons, complete_left hleft, ih]

theorem disposed_left (hleft : c.status = .left) (cs : List Completion) : Disposed bs (run (complete h) c cs) := by
  rw [Disposed, run_left hleft]
  exact ⟨.inr hleft, fun _ => hleft⟩

theorem Waits.disposed (hw : Waits h calls w bs c) : Disposed bs c := by
  refine ⟨.inl hw.reading, fun hbad => ?_⟩
  rcases hw.held with ⟨hspec, -, -⟩ | hspec <;> rw [hspec] at hbad <;> cases hbad

theorem Waits.caught (hw : Waits h calls w bs c) : Caught bs := by
  rcases hw.held with ⟨hspec, -, -⟩ | hspec <;> rw [Caught, hspec] <;> exact ⟨nofun, nofun⟩

/-- An invalid specifier stays what it is, whatever comes behind it. -/
theorem invalid_append {more : List UInt8} (hspec : specifier (messages bs).2 = .invalid) :
    specifier ((messages bs).2 ++ more) = .invalid := by
  rw [specifier_append (by simp [hspec]), hspec]

theorem messages_invalid {more : List UInt8} (hspec : specifier (messages bs).2 = .invalid) :
    messages (bs ++ more) = ((messages bs).1, (messages bs).2 ++ more) := by
  have htail : messages ((messages bs).2 ++ more) = ([], (messages bs).2 ++ more) :=
    messages_stop fun n rest hlen => nomatch (invalid_append hspec).symm.trans hlen
  rw [messages_append, htail, List.append_nil]

theorem caught_of_invalid {more : List UInt8} (hspec : specifier (messages bs).2 = .invalid) : Caught (bs ++ more) := by
  rw [Caught, messages_invalid hspec, invalid_append hspec]
  exact ⟨nofun, nofun⟩

/-- What was handed over is fine, and the client is disposed of. -/
def Contained {σ : Type} (P : List UInt8 → Prop) (bs : List UInt8) (c : Connection σ) : Prop :=
  (∀ m ∈ c.calls, P m) ∧ Disposed bs c

/-- What is reached is fine, and the boundary behind it is caught. -/
def Contains {σ : Type} (P : List UInt8 → Prop) (h : Handlers σ) (w : σ) (bs : List UInt8) : Prop :=
  (∀ m ∈ reached h w (messages bs).1, P m) ∧ (Accepted h w (messages bs).1 → Caught bs)

section
variable {P : List UInt8 → Prop}

theorem Waits.contained_exactly (hP : ∀ m ∈ calls, P m) (hw : Waits h calls w bs c) : Contained P bs c ↔ Contains P h w bs := by
  rw [Contained, Contains, reached_accepted hw.accepted, hw.calls, List.forall_mem_append, and_iff_right hP,
    and_iff_left hw.disposed, and_iff_left fun _ => hw.caught]

/-- A reader that was removed hands over nothing more, where nothing more is reached. -/
theorem left_iff (hP : ∀ m ∈ calls, P m) (hleft : c.status = .left)
    (hcalls : c.calls = calls ++ reached h w (messages bs).1)
    (hend : ∀ more, reached h w (messages (bs ++ more)).1 = reached h w (messages bs).1)
    (hcaught : ∀ more, Accepted h w (messages (bs ++ more)).1 → Caught (bs ++ more)) :
    (∀ done, done <+: cs → Contained P (bs ++ received done) (run (complete h) c done)) ↔
    ∀ done, done <+: cs → .failed ∉ done → Contains P h w (bs ++ received done) := by
  have hbefore : (∀ m ∈ c.calls, P m) ↔ ∀ m ∈ reached h w (messages bs).1, P m := by
    rw [hcalls, List.forall_mem_append, and_iff_right hP]
  constructor
  · intro hall done _ _
    have hnow := hbefore.mp (hall [] List.nil_prefix).1
    exact ⟨hend (received done) ▸ hnow, hcaught _⟩
  · intro hall done _
    have hnow := (hall [] List.nil_prefix List.not_mem_nil).1
    rw [hend] at hnow
    refine ⟨?_, disposed_left hleft done⟩
    rw [run_left hleft]
    exact hbefore.mpr hnow

/-- From where a reader waits: at all times everything that was handed over is fine and the client is disposed of
    exactly when, before a failed read, everything that is reached is fine and every boundary behind messages that are
    all accepted is caught. -/
theorem contained_iff_contains (hP : ∀ m ∈ calls, P m) (hreads : ∀ data, .read data ∈ cs → data ≠ [])
    (hroom : Meets (complete h) HasRoom c cs) (hw : Waits h calls w bs c) :
    (∀ done, done <+: cs → Contained P (bs ++ received done) (run (complete h) c done)) ↔
    ∀ done, done <+: cs → .failed ∉ done → Contains P h w (bs ++ received done) := by
  induction cs generalizing bs c with
  | nil =>
    simp only [List.prefix_nil, forall_eq, received_nil, List.append_nil, run_nil, List.not_mem_nil, not_false_eq_true,
      true_imp_iff]
    exact hw.contained_exactly hP
  | cons i cs ih =>
    have hlater : ∀ data, .read data ∈ cs → data ≠ [] := fun data hmem => hreads data (List.mem_cons_of_mem _ hmem)
    rw [forall_prefix_cons, forall_prefix_cons]
    simp only [received_nil, List.append_nil, received_cons, run_nil, run_cons, ← List.append_assoc, List.not_mem_nil,
      not_false_eq_true, true_imp_iff]
    rw [hw.contained_exactly hP]
    refine and_congr_right fun hnow => ?_
    cases i with
    | failed =>
      have hleft : (complete h c .failed).status = .left := by rw [complete, if_pos hw.reading]
      have hcalls : (complete h c .failed).calls = c.calls := by rw [complete, if_pos hw.reading]
      refine iff_of_true (fun done _ => ⟨?_, disposed_left hleft done⟩) fun done _ hno => absurd List.mem_cons_self hno
      rw [run_left hleft, hcalls]
      exact ((hw.contained_exactly hP).mpr hnow).1
    | read data =>
      have hst := readHandler_stands (hreads data List.mem_cons_self) (hroom.1 hw.reading) hw
      have hnofail : ∀ {done : List Completion}, .failed ∉ Completion.read data :: done ↔ .failed ∉ done := by simp
      simp only [hnofail, Completion.data]
      cases hst with
      | waits hwaits => exact ih hlater hroom.2 hwaits
      | refused hrefused hcalls hleft =>
        refine left_iff hP hleft hcalls (fun more => ?_) fun more hacc => ?_
        · rw [messages_append]
          exact reached_refused hrefused
        · rw [messages_append, accepted_append] at hacc
          exact absurd hacc.1 hrefused
      | invalid hacc hspec hcalls hleft =>
        refine left_iff hP hleft (hcalls.trans (by rw [reached_accepted hacc])) (fun more => ?_) fun more _ =>
          caught_of_invalid hspec
        rw [messages_invalid hspec]
      | empty hacc hspec hescaped =>
        refine iff_of_false (fun hall => ?_) fun hall => ?_
        · have hnext := (hall [] List.nil_prefix).2.1
          rw [run_nil, complete, hescaped] at hnext
          rcases hnext with hnext | hnext <;> cases hnext
        · have hnext := hall [] List.nil_prefix List.not_mem_nil
          rw [received_nil, List.append_nil] at hnext
          exact (hnext.2 hacc).1 hspec
      | zero hacc rest hspec hreading =>
        refine iff_of_false (fun hall => ?_) fun hall => ?_
        · have hnext := (hall [] List.nil_prefix).2.2
          rw [received_nil, List.append_nil, run_nil, complete, hspec, hreading] at hnext
          cases hnext rfl
        · have hnext := hall [] List.nil_prefix List.not_mem_nil
          rw [received_nil, List.append_nil] at hnext
          exact (hnext.2 hacc).2 rest hspec

end

end

/-! ### The dispatcher -/

/-- A lack of tokens is noticed, and the message is no stray request. -/
def Handled (m : List UInt8) : Prop := (TooFew (text m) → Noticed (text m)) ∧ ¬Stray (text m)

/-- The record of the session says whether all messages were handled. -/
def Recorded (c : Connection Served) : Prop := c.world.within = true ↔ ∀ m ∈ c.calls, Handled m

section
variable {k : Config} {isOutbound : Bool} {outboundReady : Session → Session} {m : List UInt8} {w : Served}
  {c : Connection Served}

theorem dispatcher_within : ((dispatcher k isOutbound outboundReady).processClientMessage m w).1.within = true ↔
    w.within = true ∧ Handled m := by
  have hvalid : (accesses (text m)).all (·.valid (splitTokens (splitMsg (text m)).metaLine)) = true ↔ Handled m := by
    rw [List.all_eq_true]
    exact accesses_valid_iff
  simp only [dispatcher, Bool.and_eq_true, hvalid]

theorem Recorded.same {c' : Connection Served} (h : Recorded c) (hcalls : c'.calls = c.calls) (hworld : c'.world = c.world) :
    Recorded c' := by
  rwa [Recorded, hcalls, hworld]

theorem Recorded.readLength (h : Recorded c) : Recorded c.readLength.1 := by
  unfold Connection.readLength
  split
  · exact h.same rfl rfl
  · exact h.same rfl rfl
  · exact h.same rfl rfl

theorem Recorded.processMessage (h : Recorded c) : Recorded (c.processMessage (dispatcher k isOutbound outboundReady)).1 := by
  have hnext : ((dispatcher k isOutbound outboundReady).processClientMessage (c.buffer.take c.messageLength)
      c.world).1.within = true ↔ ∀ m ∈ c.calls ++ [c.buffer.take c.messageLength], Handled m := by
    rw [dispatcher_within, List.forall_mem_append, List.forall_mem_singleton]
    exact and_congr_left fun _ => h
  unfold Connection.processMessage
  dsimp only
  split
  · exact hnext
  · split
    · exact hnext
    · split
      · exact hnext
      · exact hnext

theorem Recorded.reload (h : Recorded c) : Recorded c.reload.1 := by
  have hdropped : Recorded { c with buffer := c.buffer.drop c.messageLength } := h.same rfl rfl
  unfold Connection.reload
  dsimp only
  split
  · exact h.same rfl rfl
  · exact hdropped.readLength

theorem Recorded.processMessages (fuel : Nat) : ∀ {c : Connection Served}, Recorded c →
    Recorded (c.processMessages (dispatcher k isOutbound outboundReady) fuel) := by
  induction fuel with
  | zero => exact id
  | succ fuel ih =>
    intro c h
    unfold Connection.processMessages
    split
    · dsimp only
      split
      · exact h.processMessage
      · split
        · exact h.processMessage.reload
        · exact ih h.processMessage.reload
    · exact h

-- The parts of `c` keep the kernel from comparing the buffers first.
theorem Recorded.insertEnd (h : Recorded c) (data : List UInt8) : Recorded (c.insertEnd data) := by
  cases c
  exact h.same rfl rfl

/-- What a read does once its bytes are in the buffer. -/
theorem Recorded.advance (h : Recorded c) : Recorded
    (if c.messageLength = 0 then
      let (c, continueOn) := c.readLength
      if continueOn = false then c else c.processMessages (dispatcher k isOutbound outboundReady) c.buffer.length
    else c.processMessages (dispatcher k isOutbound outboundReady) c.buffer.length) := by
  split
  · dsimp only
    split
    · exact h.readLength
    · exact h.readLength.processMessages _
  · exact h.processMessages _

theorem Recorded.readHandler (h : Recorded c) (data : List UInt8) :
    Recorded (c.readHandler (dispatcher k isOutbound outboundReady) data) := by
  unfold Connection.readHandler
  split
  · exact (h.insertEnd data).advance
  · exact h

theorem Recorded.complete (h : Recorded c) : ∀ i, Recorded (complete (dispatcher k isOutbound outboundReady) c i)
  | .failed => by
    unfold Connection.complete
    dsimp only
    split
    · exact h.same rfl rfl
    · exact h
  | .read data => h.readHandler data

end

end Drachtio.Client
