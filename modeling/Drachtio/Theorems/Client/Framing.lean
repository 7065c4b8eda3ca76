import Drachtio.Lib.Fields
import Drachtio.Theorems.Client.Stream

/-! Reading is independent of the cuts: whatever pieces the frames of a list of messages arrive in, the
    messages are processed in order, once each. -/

namespace Drachtio.Client

open Machine

/-! ### Streams of frames -/

namespace Frame

theorem digits_ne_nil (f : Frame) : f.digits ≠ [] := by
  intro hnil
  have hlen := f.length
  rw [hnil] at hlen
  exact f.nonempty (List.length_eq_zero_iff.mp hlen.symm)

theorem length_pos (f : Frame) : 0 < f.body.length := List.length_pos_iff.mpr f.nonempty

@[simp] theorem stream_nil : stream [] = [] := rfl

theorem stream_cons {f : Frame} {fs : List Frame} : stream (f :: fs) = f.digits ++ hash :: (f.body ++ stream fs) := by
  rw [stream, List.map_cons, List.flatten_cons, bytes, List.append_assoc, List.cons_append]
  rfl

@[simp] theorem stream_append {fs fs' : List Frame} : stream (fs ++ fs') = stream fs ++ stream fs' := by
  rw [stream, List.map_append, List.flatten_append]
  rfl

theorem specifier_frame (f : Frame) (rest : List UInt8) :
    specifier (f.digits ++ hash :: rest) = .length f.body.length rest := by
  have hpos := f.length_pos
  rw [specifier_stop f.isdigits f.short rfl, if_neg (not_not_intro rfl), if_neg f.digits_ne_nil, f.length,
    if_neg (by omega)]

/-- A part of a stream of frames: some whole messages, and of the rest an unfinished specifier or a part of
    the next message. -/
theorem stream_cut {fs : List Frame} {bs rest : List UInt8} (h : bs ++ rest = stream fs) :
    ∃ pre post, fs = pre ++ post ∧ (messages bs).1 = pre.map body ∧ (messages bs).2 ++ rest = stream post ∧
      ((specifier (messages bs).2 = .unfinished ∧ (messages bs).2.length ≤ 5) ∨ ∃ f later part, post = f :: later ∧
        specifier (messages bs).2 = .length f.body.length part ∧ part ++ rest = f.body ++ stream later ∧
        part.length < f.body.length) := by
  induction fs generalizing bs with
  | nil =>
    obtain ⟨rfl, rfl⟩ := List.append_eq_nil_iff.mp h
    rw [messages_nil]
    exact ⟨[], [], rfl, rfl, rfl, .inl ⟨rfl, Nat.zero_le _⟩⟩
  | cons f fs ih =>
    rw [stream_cons] at h
    rcases Fields.cut_cases h with ⟨d, hd, hrest⟩ | ⟨b, rfl, ht⟩
    · -- the cut is inside the specifier
      have hdigit : ∀ x ∈ bs, isdigit x = true := fun x hx => f.isdigits x (hd ▸ List.mem_append_left d hx)
      have hlen : bs.length ≤ 5 := by
        have hshort := f.short
        rw [hd, List.length_append] at hshort
        omega
      have hspec := specifier_digits hdigit hlen
      have hms : messages bs = ([], bs) := messages_stop fun n rest hno => nomatch hspec.symm.trans hno
      rw [hms]
      exact ⟨[], f :: fs, rfl, rfl, h.trans stream_cons.symm, .inl ⟨hspec, hlen⟩⟩
    · have hspec := f.specifier_frame b
      by_cases hpart : b.length < f.body.length
      · have hms : messages (f.digits ++ hash :: b) = ([], f.digits ++ hash :: b) := by
          refine messages_stop fun n rest' hlen => ?_
          obtain ⟨rfl, rfl⟩ := Specifier.length.inj (hspec.symm.trans hlen)
          exact hpart
        rw [hms]
        exact ⟨[], f :: fs, rfl, rfl, h.trans stream_cons.symm, .inr ⟨f, fs, b, rfl, hspec, ht.symm, hpart⟩⟩
      · -- the message is whole, and the cut is somewhere behind it
        have hle : f.body.length ≤ b.length := by omega
        obtain ⟨b', rfl, hlater⟩ : ∃ b', b = f.body ++ b' ∧ stream fs = b' ++ rest := by
          rcases List.append_eq_append_iff.mp ht with ⟨a, rfl, hr⟩ | ⟨a, ha, hr⟩
          · exact ⟨a, rfl, hr⟩
          · have hlen := congrArg List.length ha
            rw [List.length_append] at hlen
            obtain rfl : a = [] := List.length_eq_zero_iff.mp (by omega)
            exact ⟨[], by simpa using ha.symm, by simpa using hr.symm⟩
        have hms := messages_whole hspec hle
        rw [List.take_left, List.drop_left] at hms
        obtain ⟨pre, post, rfl, hpre, hpost, hcases⟩ := ih hlater.symm
        rw [hms]
        exact ⟨f :: pre, post, rfl, by rw [hpre]; rfl, hpost, hcases⟩

/-- A stream of frames has the messages of its frames and nothing behind them. -/
theorem messages_stream (fs : List Frame) : messages (stream fs) = (fs.map body, []) := by
  obtain ⟨pre, post, rfl, hpre, hpost, -⟩ := stream_cut (List.append_nil (stream fs))
  rw [List.append_nil] at hpost
  cases post with
  | nil => exact Prod.ext (hpre.trans (by rw [List.append_nil])) hpost
  | cons f later =>
    -- the rest of the stream has the whole message of `f`, which is among those processed
    have hwhole := f.specifier_frame (f.body ++ stream later)
    rw [← stream_cons, ← hpost] at hwhole
    have hlt := tail_stop _ _ _ hwhole
    rw [List.length_append] at hlt
    omega

/-- No part of a stream of frames has a malformed specifier at a boundary. -/
theorem stream_wellformed {fs : List Frame} {bs rest : List UInt8} (h : bs ++ rest = stream fs) :
    (specifier (messages bs).2).malformed = false := by
  obtain ⟨-, -, -, -, -, ⟨hspec, -⟩ | ⟨_, _, _, -, hspec, -, -⟩⟩ := stream_cut h <;> rw [hspec] <;> rfl

end Frame

section
variable {σ : Type} {h : Handlers σ} {calls : List (List UInt8)} {w : σ} {bs rest : List UInt8} {c : Connection σ}
  {fs : List Frame}

/-- A reader in a stream of frames waits for more, or left because a message was refused. -/
theorem Stands.of_stream (hst : Stands h calls w bs c) (hbs : bs ++ rest = Frame.stream fs) :
    Waits h calls w bs c ∨ (¬Accepted h w (messages bs).1 ∧ c.status = .left) := by
  have hwell := Frame.stream_wellformed hbs
  cases hst with
  | waits hwaits => exact .inl hwaits
  | refused hrefused _ hleft => exact .inr ⟨hrefused, hleft⟩
  | invalid _ hspec _ _ =>
    rw [hspec] at hwell
    cases hwell
  | empty _ hspec _ =>
    rw [hspec] at hwell
    cases hwell
  | zero _ _ hspec _ =>
    rw [hspec] at hwell
    cases hwell

/-- A reader that stops in a stream of frames, all whole messages before that being accepted, waits there. -/
theorem run_waits {reads : List (List UInt8)} (hreads : ∀ data ∈ reads, data ≠ [])
    (hroom : Meets (Connection.readHandler h) Room c reads) (hw : Waits h calls w bs c)
    (hbs : bs ++ reads.flatten ++ rest = Frame.stream fs) (hacc : Accepted h w (messages (bs ++ reads.flatten)).1) :
    Waits h calls w (bs ++ reads.flatten) (run (Connection.readHandler h) c reads) := by
  induction reads generalizing bs c with
  | nil => simpa using hw
  | cons data reads ih =>
    have hdata : data ≠ [] := hreads data List.mem_cons_self
    have hlater : ∀ data' ∈ reads, data' ≠ [] := fun data' hmem => hreads data' (List.mem_cons_of_mem _ hmem)
    rw [List.flatten_cons, ← List.append_assoc] at hbs hacc ⊢
    have hnext : Waits h calls w (bs ++ data) (c.readHandler h data) := by
      have hst := readHandler_stands hdata (hroom.1 hw.reading) hw
      obtain hwaits | ⟨hrefused, -⟩ := hst.of_stream ((List.append_assoc _ _ _).symm.trans hbs)
      · exact hwaits
      · rw [messages_append, accepted_append] at hacc
        exact absurd hacc.1 hrefused
    exact ih hlater hroom.2 hnext hbs hacc

end

theorem new_waits {σ : Type} (h : Handlers σ) (w : σ) : Waits h [] w [] (Connection.new w) := by
  refine ⟨rfl, ?_, ?_, ?_, ?_⟩ <;> rw [messages_nil]
  · trivial
  · rfl
  · rfl
  · exact .inl ⟨rfl, rfl, rfl⟩

/-! ### The frames of `Client::send` -/

/-- The decimal length of a message as bytes. -/
def digits (n : Nat) : List UInt8 := bytes (Nat.repr n)

theorem digits_eq (n : Nat) : digits n = (Nat.toDigits 10 n).map fun c => UInt8.ofNat c.toNat := by
  rw [digits, bytes, Nat.toList_repr]

theorem toNat_of_isDigit {c : Char} (hc : c.isDigit = true) : (UInt8.ofNat c.toNat).toNat = c.toNat := by
  obtain ⟨-, hle⟩ := Char.isDigit_iff_toNat.mp hc
  have hle : c.toNat ≤ 57 := hle
  simp only [UInt8.toNat_ofNat', Nat.reducePow]
  omega

theorem isdigit_of_isDigit {c : Char} (hc : c.isDigit = true) : isdigit (UInt8.ofNat c.toNat) = true := by
  obtain ⟨hlo, hhi⟩ := Char.isDigit_iff_toNat.mp hc
  simp only [isdigit, Bool.and_eq_true, decide_eq_true_eq, UInt8.le_iff_toNat_le, toNat_of_isDigit hc]
  exact ⟨hlo, hhi⟩

theorem isdigit_of_mem_digits {n : Nat} {b : UInt8} (h : b ∈ digits n) : isdigit b = true := by
  rw [digits_eq] at h
  obtain ⟨c, hc, rfl⟩ := List.mem_map.mp h
  exact isdigit_of_isDigit (Nat.isDigit_of_mem_toDigits (by decide) (by decide) hc)

theorem length_digits_le {n : Nat} (h : n ≤ 99999) : (digits n).length ≤ 5 := by
  rw [digits_eq, List.length_map, Nat.length_toDigits_le_iff (by decide) (by decide)]
  omega

theorem value_digits (n : Nat) : value (digits n) = n := by
  have hback : (digits n).map (fun b => Char.ofNat b.toNat) = Nat.toDigits 10 n := by
    rw [digits_eq, List.map_map]
    refine (List.map_congr_left fun c hc => ?_).trans (List.map_id _)
    have hd := Nat.isDigit_of_mem_toDigits (by decide) (by decide) hc
    simp only [Function.comp_apply, toNat_of_isDigit hd, Char.ofNat_toNat, id_eq]
  rw [value, hback, Nat.ofDigitChars_ten_toDigits]

/-- The frame of a message that is neither empty nor too long for five digits. -/
def Frame.ofMessage (m : List UInt8) (h : 1 ≤ m.length ∧ m.length ≤ 99999) : Frame where
  digits := Client.digits m.length
  body := m
  isdigits := fun _ => isdigit_of_mem_digits
  short := length_digits_le h.2
  length := value_digits m.length
  nonempty := List.length_pos_iff.mp h.1

theorem exists_frames {ms : List (List UInt8)} (hms : ∀ m ∈ ms, 1 ≤ m.length ∧ m.length ≤ 99999) :
    ∃ fs : List Frame, fs.map Frame.body = ms ∧ Frame.stream fs = (ms.map frame).flatten := by
  induction ms with
  | nil => exact ⟨[], rfl, rfl⟩
  | cons m ms ih =>
    obtain ⟨fs, hbody, hstream⟩ := ih fun m' hm' => hms m' (List.mem_cons_of_mem _ hm')
    refine ⟨Frame.ofMessage m (hms m List.mem_cons_self) :: fs, ?_, ?_⟩
    · rw [List.map_cons, hbody]
      rfl
    · rw [Frame.stream_cons, hstream, List.map_cons, List.flatten_cons, ← List.cons_append, ← List.append_assoc]
      rfl

/-- However the frames of some messages are cut into reads that fit the buffer, the messages are processed
    in order, once each, and nothing is left over. -/
theorem reads_frames {σ : Type} (h : Handlers σ) (w : σ) (ms reads : List (List UInt8))
    (hms : ∀ m ∈ ms, 1 ≤ m.length ∧ m.length ≤ 99999) (hcut : reads.flatten = (ms.map frame).flatten)
    (hreads : ∀ data ∈ reads, data ≠ [] ∧ data.length ≤ Connection.readSize)
    (hfits : Meets (Connection.readHandler h) Fits (Connection.new w) reads) (hacc : Accepted h w ms) :
    (run (Connection.readHandler h) (Connection.new w) reads).calls = ms ∧
    (run (Connection.readHandler h) (Connection.new w) reads).buffer = [] ∧
    (run (Connection.readHandler h) (Connection.new w) reads).messageLength = 0 ∧
    (run (Connection.readHandler h) (Connection.new w) reads).status = .reading := by
  obtain ⟨fs, hbody, hstream⟩ := exists_frames hms
  have hbs : reads.flatten = Frame.stream fs := hcut.trans hstream.symm
  have hend : Waits h [] w (Frame.stream fs) (run (Connection.readHandler h) (Connection.new w) reads) := by
    have hroom : Meets (Connection.readHandler h) Room (Connection.new w) reads := hfits.mono fun _ _ hfit _ => hfit
    have hwhole : [] ++ reads.flatten ++ [] = Frame.stream fs := by rw [List.nil_append, List.append_nil, hbs]
    have hall := run_waits (fun data hmem => (hreads data hmem).1) hroom (new_waits h w) hwhole
      (by rw [List.nil_append, hbs, Frame.messages_stream, hbody]; exact hacc)
    rwa [List.nil_append, hbs] at hall
  have hcalls := hend.calls
  have hheld := hend.held
  rw [Frame.messages_stream] at hcalls hheld
  obtain ⟨-, hzero, hbuf⟩ | hlen := hheld
  · exact ⟨hcalls.trans hbody, hbuf, hzero, hend.reading⟩
  · cases hlen

/-- Two messages of one and eleven bytes, cut inside and behind a specifier and inside a body. -/
def cutReads : List (List UInt8) := [bytes "1", bytes "#a1", bytes "1#", bytes "bbbbbb", bytes "bbbbb"]

def acceptAll : Handlers Unit := ⟨fun _ w => (w, [], some true), false, id⟩

theorem reads_frames_cut :
    (run (Connection.readHandler acceptAll) (Connection.new ()) cutReads).calls = [bytes "a", bytes "bbbbbbbbbbb"] :=
  (reads_frames acceptAll () [bytes "a", bytes "bbbbbbbbbbb"] cutReads (by decide) (by decide) (by decide)
    (by unfold Fits; decide) ⟨rfl, rfl, trivial⟩).1

end Drachtio.Client
