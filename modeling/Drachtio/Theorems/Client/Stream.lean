import Drachtio.Client.Stream
import Drachtio.Lib.Run
import Mathlib.Data.List.TakeWhile

/-! While every read fits into the buffer, the reader stands where the bytes received so far put it. -/

namespace Drachtio.Client

/-! ### The length specifier -/

theorem ne_hash_of_isdigit {b : UInt8} (h : isdigit b = true) : b ≠ hash := by
  rintro rfl
  exact absurd h (by decide)

/-- The digits at the head of some bytes end with the bytes, at another byte, or are six or more. -/
theorem digits_cases (bs : List UInt8) :
    ∃ ds, (∀ b ∈ ds, isdigit b = true) ∧
      ((ds.length ≤ 5 ∧ bs = ds) ∨ (ds.length ≤ 5 ∧ ∃ c rest, isdigit c = false ∧ bs = ds ++ c :: rest) ∨
        (ds.length = 6 ∧ ∃ rest, bs = ds ++ rest)) := by
  have hdigit : ∀ b ∈ bs.takeWhile isdigit, isdigit b = true := fun b hb => List.mem_takeWhile_imp hb
  have hsplit : bs.takeWhile isdigit ++ bs.dropWhile isdigit = bs := List.takeWhile_append_dropWhile
  by_cases hsix : 6 ≤ (bs.takeWhile isdigit).length
  · refine ⟨(bs.takeWhile isdigit).take 6, fun b hb => hdigit b (List.mem_of_mem_take hb), .inr (.inr ⟨?_, ?_⟩)⟩
    · rw [List.length_take]
      omega
    · refine ⟨(bs.takeWhile isdigit).drop 6 ++ bs.dropWhile isdigit, ?_⟩
      rw [← List.append_assoc, List.take_append_drop, hsplit]
  · refine ⟨bs.takeWhile isdigit, hdigit, ?_⟩
    cases hdrop : bs.dropWhile isdigit with
    | nil =>
      rw [hdrop, List.append_nil] at hsplit
      exact .inl ⟨by omega, hsplit.symm⟩
    | cons c rest =>
      have hc : isdigit c = false := by
        have hne : bs.dropWhile isdigit ≠ [] := by simp [hdrop]
        have hhead := List.head_dropWhile_not isdigit hne
        simpa [hdrop] using hhead
      rw [hdrop] at hsplit
      exact .inr (.inl ⟨by omega, c, rest, hc, hsplit.symm⟩)

section
variable {ds rest : List UInt8} {c : UInt8}

theorem specifier_digits (hds : ∀ b ∈ ds, isdigit b = true) (hlen : ds.length ≤ 5) : specifier ds = .unfinished := by
  have htake : ds.takeWhile isdigit = ds := List.takeWhile_eq_self_iff.mpr hds
  have hdrop : ds.dropWhile isdigit = [] := List.dropWhile_eq_nil_iff.mpr hds
  simp only [specifier, htake, hdrop, if_neg (show ¬6 ≤ ds.length by omega)]

theorem specifier_stop (hds : ∀ b ∈ ds, isdigit b = true) (hlen : ds.length ≤ 5) (hc : isdigit c = false) :
    specifier (ds ++ c :: rest) =
      if c ≠ hash then .invalid else if ds = [] then .empty else if value ds = 0 then .zero rest
      else .length (value ds) rest := by
  have hstop : (c :: rest).takeWhile isdigit = [] := by rw [List.takeWhile_cons, hc, if_neg nofun]
  have hkeep : (c :: rest).dropWhile isdigit = c :: rest := by rw [List.dropWhile_cons, hc, if_neg nofun]
  simp only [specifier, List.takeWhile_append_of_pos hds, List.dropWhile_append_of_pos hds, hstop, hkeep,
    List.append_nil, if_neg (show ¬6 ≤ ds.length by omega)]

theorem specifier_six (hds : ∀ b ∈ ds, isdigit b = true) (hlen : 6 ≤ ds.length) : specifier (ds ++ rest) = .invalid := by
  have hle : 6 ≤ ((ds ++ rest).takeWhile isdigit).length := by
    rw [List.takeWhile_append_of_pos hds, List.length_append]
    omega
  simp only [specifier, if_pos hle]

end

/-- A specifier that is complete does not change with the bytes behind it. -/
theorem specifier_append {bs data : List UInt8} (h : specifier bs ≠ .unfinished) :
    specifier (bs ++ data) =
      match specifier bs with
      | .length n rest => .length n (rest ++ data)
      | .zero rest => .zero (rest ++ data)
      | s => s := by
  obtain ⟨ds, hds, ⟨hlen, hbs⟩ | ⟨hlen, c, rest, hc, hbs⟩ | ⟨hsix, rest, hbs⟩⟩ := digits_cases bs
  · rw [hbs] at h
    exact absurd (specifier_digits hds hlen) h
  · rw [hbs, List.append_assoc, List.cons_append, specifier_stop hds hlen hc, specifier_stop hds hlen hc]
    by_cases hhash : c = hash
    · by_cases hnil : ds = []
      · simp [hhash, hnil]
      · by_cases hzero : value ds = 0
        · simp [hhash, hnil, hzero]
        · simp [hhash, hnil, hzero]
    · simp [hhash]
  · rw [hbs, List.append_assoc, specifier_six hds hsix.ge, specifier_six hds hsix.ge]

theorem length_pos {bs rest : List UInt8} {n : Nat} (h : specifier bs = .length n rest) : 0 < n := by
  obtain ⟨ds, hds, ⟨hlen, hbs⟩ | ⟨hlen, c, rest, hc, hbs⟩ | ⟨hsix, rest, hbs⟩⟩ := digits_cases bs
  · rw [hbs, specifier_digits hds hlen] at h
    cases h
  · rw [hbs, specifier_stop hds hlen hc] at h
    split at h
    · cases h
    · split at h
      · cases h
      · split at h
        · cases h
        · obtain ⟨rfl, -⟩ := Specifier.length.inj h
          omega
  · rw [hbs, specifier_six hds hsix.ge] at h
    cases h

theorem zero_rest {bs rest : List UInt8} (h : specifier bs = .zero rest) : rest.length < bs.length := by
  obtain ⟨ds, hds, ⟨hlen, hbs⟩ | ⟨hlen, c, rest', hc, hbs⟩ | ⟨hsix, rest', hbs⟩⟩ := digits_cases bs
  · rw [hbs, specifier_digits hds hlen] at h
    cases h
  · rw [hbs, specifier_stop hds hlen hc] at h
    split at h
    · cases h
    · split at h
      · cases h
      · split at h
        · obtain rfl := Specifier.zero.inj h
          rw [hbs, List.length_append, List.length_cons]
          omega
        · cases h
  · rw [hbs, specifier_six hds hsix.ge] at h
    cases h

/-! ### The length parser -/

section
variable {ch ds rest : List UInt8} {c : UInt8}

theorem readDigits_digits (hds : ∀ b ∈ ds, isdigit b = true) (hne : ds ≠ []) (hlen : ch.length + ds.length ≤ 5) :
    ∃ c, c ≠ hash ∧ readDigits ch ds = .ok (ch ++ ds, c, []) := by
  induction ds generalizing ch with
  | nil => exact absurd rfl hne
  | cons b ds ih =>
    have hb : isdigit b = true := hds b List.mem_cons_self
    have hrest : ∀ b' ∈ ds, isdigit b' = true := fun b' h => hds b' (List.mem_cons_of_mem _ h)
    have hnext : (ch ++ [b]).length + ds.length ≤ 5 := by
      rw [List.length_cons] at hlen
      rw [List.length_append, List.length_singleton]
      omega
    rw [readDigits, if_neg (ne_hash_of_isdigit hb), if_neg (by simp [hb])]
    by_cases hend : ds = []
    · rw [if_pos (.inl hend)]
      exact ⟨b, ne_hash_of_isdigit hb, by rw [hend]⟩
    · have hshort : ¬(ds = [] ∨ 6 ≤ (ch ++ [b]).length) := by
        rintro (h | h)
        · exact hend h
        · omega
      rw [if_neg hshort]
      obtain ⟨c, hc, hread⟩ := ih hrest hend hnext
      exact ⟨c, hc, by rw [hread, List.append_assoc, List.singleton_append]⟩

/-- The loop takes the digits and looks at the byte behind them. -/
theorem readDigits_stop (hds : ∀ b ∈ ds, isdigit b = true) (hlen : ch.length + ds.length ≤ 5) (hc : isdigit c = false) :
    readDigits ch (ds ++ c :: rest) = if c = hash then .ok (ch ++ ds, c, rest) else .error .invalidLength := by
  induction ds generalizing ch with
  | nil => simp [readDigits, hc]
  | cons b ds ih =>
    have hb : isdigit b = true := hds b List.mem_cons_self
    have hrest : ∀ b' ∈ ds, isdigit b' = true := fun b' h => hds b' (List.mem_cons_of_mem _ h)
    have hnext : (ch ++ [b]).length + ds.length ≤ 5 := by
      rw [List.length_cons] at hlen
      rw [List.length_append, List.length_singleton]
      omega
    have hshort : ¬(ds ++ c :: rest = [] ∨ 6 ≤ (ch ++ [b]).length) := by
      rintro (h | h)
      · simp at h
      · omega
    rw [List.cons_append, readDigits, if_neg (ne_hash_of_isdigit hb), if_neg (by simp [hb]), if_neg hshort, ih hrest hnext,
      List.append_assoc, List.singleton_append]

/-- The loop ends with the sixth digit. -/
theorem readDigits_six (hds : ∀ b ∈ ds, isdigit b = true) (hlen : ch.length + ds.length = 6) (hch : ch.length ≤ 5) :
    ∃ c, readDigits ch (ds ++ rest) = .ok (ch ++ ds, c, rest) := by
  induction ds generalizing ch with
  | nil =>
    rw [List.length_nil] at hlen
    omega
  | cons b ds ih =>
    have hb : isdigit b = true := hds b List.mem_cons_self
    have hrest : ∀ b' ∈ ds, isdigit b' = true := fun b' h => hds b' (List.mem_cons_of_mem _ h)
    rw [List.length_cons] at hlen
    rw [List.cons_append, readDigits, if_neg (ne_hash_of_isdigit hb), if_neg (by simp [hb])]
    cases ds with
    | nil =>
      rw [List.length_nil] at hlen
      rw [if_pos (.inr (by rw [List.length_append, List.length_singleton]; omega))]
      exact ⟨b, rfl⟩
    | cons b' ds =>
      rw [List.length_cons] at hlen
      have hshort : ¬(b' :: ds ++ rest = [] ∨ 6 ≤ (ch ++ [b]).length) := by
        rintro (h | h)
        · simp at h
        · rw [List.length_append, List.length_singleton] at h
          omega
      have hsix : (ch ++ [b]).length + (b' :: ds).length = 6 := by
        rw [List.length_append, List.length_singleton, List.length_cons]
        omega
      have hfive : (ch ++ [b]).length ≤ 5 := by
        rw [List.length_append, List.length_singleton]
        omega
      obtain ⟨c, hread⟩ := ih hrest hsix hfive
      rw [if_neg hshort]
      exact ⟨c, by rw [hread, List.append_assoc, List.singleton_append]⟩

end

theorem lexicalCast_nil : lexicalCast [] = .error .badLexicalCast := rfl

theorem lexicalCast_eq {ds : List UInt8} (hne : ds ≠ []) : lexicalCast ds = .ok (value ds) := if_neg hne

/-- What the length parser makes of the way some bytes begin. -/
def parsed (bs : List UInt8) : Specifier → Except ReadError (List UInt8 × Nat × Bool)
  | .unfinished => .ok (bs, 0, false)
  | .length n rest => .ok (rest, n, !rest.isEmpty)
  | .zero rest => .ok (rest, 0, !rest.isEmpty)
  | .invalid => .error .invalidLength
  | .empty => .error .badLexicalCast

theorem readMessageLength_eq {bs : List UInt8} (hne : bs ≠ []) : readMessageLength bs = parsed bs (specifier bs) := by
  obtain ⟨ds, hds, ⟨hlen, rfl⟩ | ⟨hlen, c, rest, hc, rfl⟩ | ⟨hsix, rest, rfl⟩⟩ := digits_cases bs
  · obtain ⟨c, hc, hread⟩ := @readDigits_digits [] bs hds hne (by simpa using hlen)
    have hsix : bs.length ≠ 6 := by omega
    simp only [readMessageLength, hread, List.nil_append, bind, Except.bind, if_neg hsix, ne_eq, hc, not_false_eq_true,
      and_self, if_true, pure, Except.pure, specifier_digits hds hlen, parsed]
  · have hread := @readDigits_stop [] ds rest c hds (by simpa using hlen) hc
    have hsix : ds.length ≠ 6 := by omega
    rw [specifier_stop hds hlen hc]
    by_cases hhash : c = hash
    · rw [if_pos hhash, hhash] at hread
      simp only [readMessageLength, hhash, hread, List.nil_append, bind, Except.bind, if_neg hsix, ne_eq,
        not_true_eq_false, and_false, if_false, pure, Except.pure]
      by_cases hnil : ds = []
      · rw [if_pos hnil, hnil, lexicalCast_nil]
        rfl
      · rw [if_neg hnil, lexicalCast_eq hnil]
        by_cases hzero : value ds = 0
        · rw [if_pos hzero, hzero]
          rfl
        · rw [if_neg hzero]
          rfl
    · rw [if_neg hhash] at hread
      simp only [readMessageLength, hread, bind, Except.bind, ne_eq, hhash, not_false_eq_true, if_true, parsed]
  · obtain ⟨c, hread⟩ := @readDigits_six [] ds rest hds (by simpa using hsix) (by simp)
    simp only [readMessageLength, hread, List.nil_append, bind, Except.bind, if_pos hsix, throw, throwThe,
      MonadExceptOf.throw, specifier_six hds hsix.ge, parsed]

/-! ### The messages of a stream -/

theorem messages_whole {bs rest : List UInt8} {n : Nat} (h : specifier bs = .length n rest) (hle : n ≤ rest.length) :
    messages bs = ([rest.take n] ++ (messages (rest.drop n)).1, (messages (rest.drop n)).2) := by
  rw [messages]
  split
  · rename_i n' rest' h'
    obtain ⟨rfl, rfl⟩ := Specifier.length.inj (h.symm.trans h')
    rw [if_pos hle]
    rfl
  · rename_i hno
    exact absurd h (hno n rest)

theorem messages_stop {bs : List UInt8} (h : ∀ n rest, specifier bs = .length n rest → rest.length < n) :
    messages bs = ([], bs) := by
  rw [messages]
  split
  · rename_i n rest h'
    rw [if_neg (Nat.not_le.mpr (h n rest h'))]
  · rfl

theorem messages_nil : messages [] = ([], []) := messages_stop fun _ _ hspec => nomatch hspec

/-- Some bytes begin with a whole message, or have none. -/
theorem whole_or_stop (bs : List UInt8) :
    (∃ n rest, specifier bs = .length n rest ∧ n ≤ rest.length) ∨ ∀ n rest, specifier bs = .length n rest →
    rest.length < n := by
  by_cases h : ∃ n rest, specifier bs = .length n rest ∧ n ≤ rest.length
  · exact .inl h
  · exact .inr fun n rest hspec => Nat.not_le.mp fun hle => h ⟨n, rest, hspec, hle⟩

/-- What holds of bytes without a whole message, and of bytes behind one holds with it, holds of all bytes. -/
theorem messages_induction {P : List UInt8 → Prop}
    (whole : ∀ bs n rest, specifier bs = .length n rest → n ≤ rest.length → P (rest.drop n) → P bs)
    (stop : ∀ bs, (∀ n rest, specifier bs = .length n rest → rest.length < n) → P bs) (bs : List UInt8) : P bs := by
  induction hlen : bs.length using Nat.strong_induction_on generalizing bs with
  | _ k ih =>
    obtain ⟨n, rest, hspec, hle⟩ | hstop := whole_or_stop bs
    · have hlt := specifier_rest hspec
      have hshorter : (rest.drop n).length < k := by
        rw [List.length_drop]
        omega
      exact whole bs n rest hspec hle (ih _ hshorter _ rfl)
    · exact stop bs hstop

theorem tail_stop (bs : List UInt8) : ∀ n rest, specifier (messages bs).2 = .length n rest → rest.length < n := by
  induction bs using messages_induction with
  | whole bs n rest hspec hle ih => rwa [messages_whole hspec hle]
  | stop bs hstop => rwa [messages_stop hstop]

/-- More bytes continue the stream behind the last whole message. -/
theorem messages_append (bs data : List UInt8) :
    messages (bs ++ data) =
      ((messages bs).1 ++ (messages ((messages bs).2 ++ data)).1, (messages ((messages bs).2 ++ data)).2) := by
  induction bs using messages_induction with
  | whole bs n rest hspec hle ih =>
    have hmore : specifier (bs ++ data) = .length n (rest ++ data) := by
      rw [specifier_append (by simp [hspec]), hspec]
    have hle' : n ≤ (rest ++ data).length := by
      rw [List.length_append]
      omega
    rw [messages_whole hmore hle', messages_whole hspec hle, List.take_append_of_le_length hle,
      List.drop_append_of_le_length hle, ih, List.append_assoc]
  | stop bs hstop => rw [messages_stop hstop, List.nil_append]

/-! ### The reader along the stream -/

section
variable {σ : Type} {h : Handlers σ}

/-- The state a processed message leaves. -/
def after (h : Handlers σ) (m : List UInt8) (w : σ) : σ :=
  let w := (h.processClientMessage m w).1
  if h.isOutbound = true ∧ bytes "|authenticate|" <:+: m then h.outboundReady w else w

/-- Every message in turn is processed with result true. -/
def Accepted (h : Handlers σ) : σ → List (List UInt8) → Prop
  | _, [] => True
  | w, m :: ms => (h.processClientMessage m w).2.2 = some true ∧ Accepted h (after h m w) ms

/-- The messages that are processed: each one up to the first that is refused, and that one. -/
def reached (h : Handlers σ) : σ → List (List UInt8) → List (List UInt8)
  | _, [] => []
  | w, m :: ms => m :: if (h.processClientMessage m w).2.2 = some true then reached h (after h m w) ms else []

/-- The state that some processed messages leave. -/
def afterAll (h : Handlers σ) (w : σ) (ms : List (List UInt8)) : σ := ms.foldl (fun w m => after h m w) w

theorem accepted_append {w : σ} {ms ms' : List (List UInt8)} :
    Accepted h w (ms ++ ms') ↔ Accepted h w ms ∧ Accepted h (afterAll h w ms) ms' := by
  induction ms generalizing w with
  | nil => simp [Accepted, afterAll]
  | cons m ms ih => rw [List.cons_append, Accepted, Accepted, ih, and_assoc, afterAll, afterAll, List.foldl_cons]

theorem reached_append {w : σ} {ms ms' : List (List UInt8)} (hacc : Accepted h w ms) :
    reached h w (ms ++ ms') = ms ++ reached h (afterAll h w ms) ms' := by
  induction ms generalizing w with
  | nil => rfl
  | cons m ms ih =>
    rw [List.cons_append, reached, if_pos hacc.1, ih hacc.2, afterAll, afterAll, List.foldl_cons, List.cons_append]

theorem reached_accepted {w : σ} {ms : List (List UInt8)} (hacc : Accepted h w ms) : reached h w ms = ms := by
  have hall : reached h w (ms ++ []) = ms ++ reached h (afterAll h w ms) [] := reached_append hacc
  rwa [List.append_nil, reached, List.append_nil] at hall

/-- Nothing is processed behind a message that is refused. -/
theorem reached_refused {w : σ} {ms ms' : List (List UInt8)} (hrefused : ¬Accepted h w ms) :
    reached h w (ms ++ ms') = reached h w ms := by
  induction ms generalizing w with
  | nil => exact absurd trivial hrefused
  | cons m ms ih =>
    rw [List.cons_append, reached, reached]
    split
    · rename_i hok
      rw [ih fun hacc => hrefused ⟨hok, hacc⟩]
    · rfl

theorem afterAll_append {w : σ} {ms ms' : List (List UInt8)} : afterAll h w (ms ++ ms') = afterAll h (afterAll h w ms) ms' :=
  List.foldl_append

/-- The reader holds the bytes behind the last whole message: an unfinished specifier in the buffer, or the
    length it has read and in the buffer a part of the message. -/
def Held (tail : List UInt8) (c : Connection σ) : Prop :=
  (specifier tail = .unfinished ∧ c.messageLength = 0 ∧ c.buffer = tail) ∨
    specifier tail = .length c.messageLength c.buffer

/-- The reader has processed the whole messages of some bytes and waits for more, where `calls` and `w` are
    what it began them with. -/
structure Waits (h : Handlers σ) (calls : List (List UInt8)) (w : σ) (bs : List UInt8) (c : Connection σ) : Prop where
  reading : c.status = .reading
  accepted : Accepted h w (messages bs).1
  calls : c.calls = calls ++ (messages bs).1
  world : c.world = afterAll h w (messages bs).1
  held : Held (messages bs).2 c

/-- Where some bytes put the reader: it waits for more, or a message was refused, or a malformed specifier
    has a consequence of its own. -/
inductive Stands (h : Handlers σ) (calls : List (List UInt8)) (w : σ) (bs : List UInt8) (c : Connection σ) : Prop
  | waits (hwaits : Waits h calls w bs c)
  | refused (hrefused : ¬Accepted h w (messages bs).1) (hcalls : c.calls = calls ++ reached h w (messages bs).1)
      (hleft : c.status = .left)
  | invalid (hacc : Accepted h w (messages bs).1) (hspec : specifier (messages bs).2 = .invalid)
      (hcalls : c.calls = calls ++ (messages bs).1) (hleft : c.status = .left)
  | empty (hacc : Accepted h w (messages bs).1) (hspec : specifier (messages bs).2 = .empty) (hescaped : c.status = .escaped)
  | zero (hacc : Accepted h w (messages bs).1) (rest : List UInt8) (hspec : specifier (messages bs).2 = .zero rest)
      (hreading : c.status = .reading)

variable {calls ms : List (List UInt8)} {w : σ} {bs bs' : List UInt8} {c : Connection σ}

/-- The messages before `bs'` are accepted, so that where the reader stands in `bs'` is where it stands. -/
theorem Stands.lift (hms : messages bs = (ms ++ (messages bs').1, (messages bs').2)) (hacc : Accepted h w ms)
    (hst : Stands h (calls ++ ms) (afterAll h w ms) bs' c) : Stands h calls w bs c := by
  have hiff : Accepted h w (messages bs).1 ↔ Accepted h (afterAll h w ms) (messages bs').1 := by
    rw [hms, accepted_append, and_iff_right hacc]
  have htail : (messages bs).2 = (messages bs').2 := by rw [hms]
  cases hst with
  | waits hwaits =>
    refine .waits ⟨hwaits.reading, hiff.mpr hwaits.accepted, ?_, ?_, htail ▸ hwaits.held⟩
    · rw [hwaits.calls, hms, List.append_assoc]
    · rw [hwaits.world, hms, afterAll_append]
  | refused hrefused hcalls hleft =>
    refine .refused (fun hall => hrefused (hiff.mp hall)) ?_ hleft
    rw [hcalls, hms, reached_append hacc, List.append_assoc]
  | invalid hall hspec hcalls hleft =>
    refine .invalid (hiff.mpr hall) (htail ▸ hspec) ?_ hleft
    rw [hcalls, hms, List.append_assoc]
  | empty hall hspec hescaped => exact .empty (hiff.mpr hall) (htail ▸ hspec) hescaped
  | zero hall rest hspec hreading => exact .zero (hiff.mpr hall) rest (htail ▸ hspec) hreading

/-- The reader has the length of the message that some bytes begin with, and in the buffer what follows. -/
structure InMessage (h : Handlers σ) (calls : List (List UInt8)) (w : σ) (bs : List UInt8) (c : Connection σ) : Prop where
  reading : c.status = .reading
  length : specifier bs = .length c.messageLength c.buffer
  calls : c.calls = calls
  world : c.world = w

theorem InMessage.waits (i : InMessage h calls w bs c) (hpart : c.buffer.length < c.messageLength) :
    Stands h calls w bs c := by
  have hstop : ∀ n rest, specifier bs = .length n rest → rest.length < n := by
    intro n rest hspec
    obtain ⟨rfl, rfl⟩ := Specifier.length.inj (hspec.symm.trans i.length)
    exact hpart
  refine .waits ⟨i.reading, ?_, ?_, ?_, ?_⟩
  · rw [messages_stop hstop]
    trivial
  · rw [messages_stop hstop, List.append_nil, i.calls]
  · rw [messages_stop hstop, i.world]
    rfl
  · rw [messages_stop hstop]
    exact .inr i.length

/-- The length parser on a buffer that is not empty: it goes on inside a message or behind a length of zero,
    or the reader stands where the buffer puts it. -/
theorem readLength_spec (hreading : c.status = .reading) (hne : c.buffer ≠ []) :
    (c.readLength.2 = false ∧ Stands h c.calls c.world c.buffer c.readLength.1) ∨
    (c.readLength.2 = true ∧ c.readLength.1.buffer.length < c.buffer.length ∧
      (InMessage h c.calls c.world c.buffer c.readLength.1 ∨
        c.readLength.1.messageLength = 0 ∧ Stands h c.calls c.world c.buffer c.readLength.1)) := by
  have hread := readMessageLength_eq hne
  have hnone : (∀ n rest, specifier c.buffer ≠ .length n rest) → messages c.buffer = ([], c.buffer) := fun hno =>
    messages_stop fun n rest hspec => absurd hspec (hno n rest)
  cases hspec : specifier c.buffer with
  | unfinished =>
    have hms := hnone (by simp [hspec])
    have heq : c.readLength = ({ c with messageLength := 0 }, false) := by
      rw [Connection.readLength, hread, hspec]
      rfl
    rw [heq]
    refine .inl ⟨rfl, .waits ⟨hreading, ?_, ?_, ?_, ?_⟩⟩
    · rw [hms]
      trivial
    · rw [hms, List.append_nil]
    · rw [hms]
      rfl
    · rw [hms]
      exact .inl ⟨hspec, rfl, rfl⟩
  | length n rest =>
    have heq : c.readLength = ({ c with buffer := rest, messageLength := n }, !rest.isEmpty) := by
      rw [Connection.readLength, hread, hspec]
      rfl
    have hin : InMessage h c.calls c.world c.buffer { c with buffer := rest, messageLength := n } :=
      ⟨hreading, hspec, rfl, rfl⟩
    rw [heq]
    by_cases hempty : rest = []
    · refine .inl ⟨by rw [hempty]; rfl, hin.waits ?_⟩
      rw [hempty]
      exact length_pos hspec
    · exact .inr ⟨by simpa using hempty, specifier_rest hspec, .inl hin⟩
  | invalid =>
    have hms := hnone (by simp [hspec])
    have heq : c.readLength = ({ c with status := .left }, false) := by
      rw [Connection.readLength, hread, hspec]
      rfl
    rw [heq]
    exact .inl ⟨rfl, .invalid (by rw [hms]; trivial) (by rw [hms]; exact hspec) (by rw [hms, List.append_nil]) rfl⟩
  | empty =>
    have hms := hnone (by simp [hspec])
    have heq : c.readLength = ({ c with status := .escaped }, false) := by
      rw [Connection.readLength, hread, hspec]
      rfl
    rw [heq]
    exact .inl ⟨rfl, .empty (by rw [hms]; trivial) (by rw [hms]; exact hspec) rfl⟩
  | zero rest =>
    have hms := hnone (by simp [hspec])
    have heq : c.readLength = ({ c with buffer := rest, messageLength := 0 }, !rest.isEmpty) := by
      rw [Connection.readLength, hread, hspec]
      rfl
    have hst : Stands h c.calls c.world c.buffer { c with buffer := rest, messageLength := 0 } :=
      .zero (by rw [hms]; trivial) rest (by rw [hms]; exact hspec) hreading
    rw [heq]
    by_cases hempty : rest = []
    · exact .inl ⟨by rw [hempty]; rfl, hst⟩
    · exact .inr ⟨by simpa using hempty, zero_rest hspec, .inr ⟨rfl, hst⟩⟩

theorem processMessages_idle (hlen : c.messageLength = 0) (fuel : Nat) : c.processMessages h fuel = c := by
  cases fuel with
  | zero => rfl
  | succ fuel => rw [Connection.processMessages, if_neg (by omega)]

/-- A message that the controller accepts is processed; any other one ends the connection. -/
theorem processMessage_spec (h : Handlers σ) (c : Connection σ) :
    let m := c.buffer.take c.messageLength
    ((h.processClientMessage m c.world).2.2 = some true ∧ ∃ written, c.processMessage h =
      ({ c with calls := c.calls ++ [m], world := after h m c.world, written := written }, true)) ∨
    ((h.processClientMessage m c.world).2.2 ≠ some true ∧ (c.processMessage h).2 = false ∧
      (c.processMessage h).1.status = .left ∧ (c.processMessage h).1.calls = c.calls ++ [m]) := by
  intro m
  rcases hp : h.processClientMessage m c.world with ⟨w, response, result⟩
  cases result with
  | none =>
    refine .inr ⟨nofun, ?_⟩
    simp only [Connection.processMessage, show c.buffer.take c.messageLength = m from rfl, hp, and_self]
  | some ok =>
    cases ok with
    | false =>
      refine .inr ⟨nofun, ?_⟩
      simp only [Connection.processMessage, show c.buffer.take c.messageLength = m from rfl, hp, if_true, and_self]
    | true =>
      refine .inl ⟨rfl, ?_⟩
      simp only [Connection.processMessage, show c.buffer.take c.messageLength = m from rfl, hp, after,
        Bool.true_eq_false, if_false]
      split
      · exact ⟨_, rfl⟩
      · exact ⟨_, rfl⟩

/-- The loop inside a message; the fuel covers the bytes of the buffer, of which every round takes one. -/
theorem processMessages_spec (fuel : Nat) (hfuel : c.buffer.length ≤ fuel) (i : InMessage h calls w bs c) :
    Stands h calls w bs (c.processMessages h fuel) := by
  induction fuel generalizing c calls w bs with
  | zero =>
    refine i.waits ?_
    have hpos := length_pos i.length
    omega
  | succ fuel ih =>
    have hpos := length_pos i.length
    rw [Connection.processMessages]
    split
    · rename_i hfull
      have hms := messages_whole i.length hfull.1
      rcases processMessage_spec h c with ⟨hok, written, hproc⟩ | ⟨hno, hstop, hleft, hcalls⟩
      · rw [i.world] at hok
        have hacc : Accepted h w [c.buffer.take c.messageLength] := ⟨hok, trivial⟩
        have hlift : ∀ {c' : Connection σ}, Stands h (c.calls ++ [c.buffer.take c.messageLength])
            (after h (c.buffer.take c.messageLength) c.world) (c.buffer.drop c.messageLength) c' →
            Stands h calls w bs c' := by
          intro c' hst
          rw [i.calls, i.world] at hst
          exact Stands.lift hms hacc hst
        simp only [hproc, Bool.true_eq_false, if_false, Connection.reload]
        by_cases hempty : c.buffer.drop c.messageLength = []
        · simp only [if_pos hempty, Bool.true_eq_false, if_false]
          rw [processMessages_idle rfl]
          apply hlift
          rw [hempty]
          refine .waits ⟨i.reading, ?_, ?_, ?_, ?_⟩ <;> rw [messages_nil]
          · trivial
          · exact (List.append_nil _).symm
          · rfl
          · exact .inl ⟨rfl, rfl, rfl⟩
        · simp only [if_neg hempty]
          have hshorter : (c.buffer.drop c.messageLength).length ≤ fuel := by
            rw [List.length_drop]
            omega
          have hspec := @readLength_spec σ h
            { c with
              calls := c.calls ++ [c.buffer.take c.messageLength]
              world := after h (c.buffer.take c.messageLength) c.world
              written := written
              buffer := c.buffer.drop c.messageLength }
            i.reading hempty
          rcases hspec with ⟨hstop, hst⟩ | ⟨hgo, hlt, hin | ⟨hzero, hst⟩⟩
          · rw [if_pos hstop]
            exact hlift hst
          · rw [if_neg (by simp [hgo])]
            exact hlift (ih (by dsimp only at hlt; omega) hin)
          · rw [if_neg (by simp [hgo]), processMessages_idle hzero]
            exact hlift hst
      · rw [i.world] at hno
        simp only [hstop, if_true]
        refine .refused (fun hacc => ?_) ?_ hleft
        · rw [hms] at hacc
          exact hno hacc.1
        · rw [hcalls, hms, i.calls]
          dsimp only
          rw [List.singleton_append, reached, if_neg hno]
    · rename_i hpart
      refine i.waits ?_
      omega

/-- The bytes held unread and those just read fit into the buffer. -/
def Fits (c : Connection σ) (data : List UInt8) : Prop := c.buffer.length + data.length ≤ Connection.capacity

/-- A read of a client that has not left fits into the buffer. -/
def Room (c : Connection σ) (data : List UInt8) : Prop := c.status = .reading → Fits c data

theorem insertEnd_of_fits {data : List UInt8} (hfits : Fits c data) :
    c.insertEnd data = { c with buffer := c.buffer ++ data } := by
  have hzero : (c.buffer ++ data).length - Connection.capacity = 0 := by
    have hle : c.buffer.length + data.length ≤ Connection.capacity := hfits
    rw [List.length_append]
    omega
  rw [Connection.insertEnd, hzero, List.drop_zero]

theorem readHandler_eq {data : List UInt8} (hreading : c.status = .reading) (hfits : Fits c data) :
    c.readHandler h data =
      let c := { c with buffer := c.buffer ++ data }
      if c.messageLength = 0 then
        if c.readLength.2 = false then c.readLength.1 else c.readLength.1.processMessages h c.readLength.1.buffer.length
      else c.processMessages h c.buffer.length := by
  rw [Connection.readHandler, if_pos hreading, insertEnd_of_fits hfits]

/-- A read takes a reader that waits to where the bytes with it put the reader. -/
theorem readHandler_stands {data : List UInt8} (hdata : data ≠ []) (hfits : Fits c data) (hw : Waits h calls w bs c) :
    Stands h calls w (bs ++ data) (c.readHandler h data) := by
  refine Stands.lift (messages_append bs data) hw.accepted ?_
  rw [← hw.calls, ← hw.world, readHandler_eq hw.reading hfits]
  dsimp only
  rcases hw.held with ⟨-, hzero, hbuf⟩ | hlen
  · have hne : c.buffer ++ data ≠ [] := fun hnil => hdata (List.append_eq_nil_iff.mp hnil).2
    have hspec := @readLength_spec σ h { c with buffer := c.buffer ++ data } hw.reading hne
    rw [if_pos hzero, ← hbuf]
    rcases hspec with ⟨hstop, hst⟩ | ⟨hgo, -, hin | ⟨hzero, hst⟩⟩
    · rw [if_pos hstop]
      exact hst
    · rw [if_neg (by simp [hgo])]
      exact processMessages_spec _ (Nat.le_refl _) hin
    · rw [if_neg (by simp [hgo]), processMessages_idle hzero]
      exact hst
  · have hpos := length_pos hlen
    have hmore : specifier ((messages bs).2 ++ data) = .length c.messageLength (c.buffer ++ data) := by
      rw [specifier_append (by simp [hlen]), hlen]
    rw [if_neg (by omega)]
    exact @processMessages_spec σ h c.calls c.world _ { c with buffer := c.buffer ++ data } _ (Nat.le_refl _)
      ⟨hw.reading, hmore, rfl, rfl⟩

end

end Drachtio.Client
