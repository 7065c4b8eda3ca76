import Drachtio.Theorems.Client.Framing

/-! When the buffer of a client can overflow: a message that is too long may be held all but its last bytes
    when a full read comes. -/

namespace Drachtio.Client

open Machine

section
variable {σ : Type} {h : Handlers σ} {calls : List (List UInt8)} {w : σ} {bs rest data : List UInt8} {c : Connection σ}
  {fs : List Frame}

/-- What a reader holds that waits in a stream of frames: digits, or a part of a message that is due. -/
theorem Waits.held_cases (hw : Waits h calls w bs c) (hbs : bs ++ rest = Frame.stream fs) :
    c.buffer.length ≤ 5 ∨ ∃ pre f post, fs = pre ++ f :: post ∧ Accepted h w (pre.map Frame.body) ∧
      c.buffer.length < f.body.length ∧ c.buffer.length + rest.length = f.body.length + (Frame.stream post).length := by
  obtain ⟨pre, post, rfl, hpre, -, ⟨hspec, hle⟩ | ⟨f, later, part, rfl, hspec, hpart, hlt⟩⟩ := Frame.stream_cut hbs
  · rcases hw.held with ⟨-, -, hbuf⟩ | hlen
    · rw [hbuf]
      exact .inl hle
    · exact nomatch hspec.symm.trans hlen
  · rcases hw.held with ⟨hun, -, -⟩ | hlen
    · exact nomatch hspec.symm.trans hun
    · obtain ⟨-, hbuf⟩ := Specifier.length.inj (hspec.symm.trans hlen)
      have hsum := congrArg List.length hpart
      rw [List.length_append, List.length_append] at hsum
      exact .inr ⟨pre, f, later, rfl, hpre ▸ hw.accepted, hbuf ▸ hlt, hbuf ▸ hsum⟩

/-- A message that cannot make a read too long: it is short, or what follows it is. -/
def Frame.Bounded (f : Frame) (post : List Frame) : Prop :=
  f.body.length + Connection.readSize ≤ Connection.capacity + 1 ∨ f.body.length + (stream post).length ≤ Connection.capacity

theorem Waits.fits (hw : Waits h calls w bs c) (hbs : bs ++ (data ++ rest) = Frame.stream fs)
    (hdata : data.length ≤ Connection.readSize)
    (hbound : ∀ pre f post, fs = pre ++ f :: post → Accepted h w (pre.map Frame.body) → f.Bounded post) : Fits c data := by
  have hcap : Connection.capacity = 12228 := rfl
  have hsize : Connection.readSize = 8192 := rfl
  rw [Fits]
  obtain hfive | ⟨pre, f, post, hfs, hacc, hlt, hsum⟩ := hw.held_cases hbs
  · omega
  · rw [List.length_append] at hsum
    obtain hshort | hfew := hbound pre f post hfs hacc
    · omega
    · omega

theorem readHandler_left (hleft : c.status ≠ .reading) : c.readHandler h data = c := if_neg hleft

/-- Where all messages are bounded every read has room. -/
theorem meets_room {reads : List (List UInt8)} (hreads : ∀ data ∈ reads, data ≠ [] ∧ data.length ≤ Connection.readSize)
    (hbound : ∀ pre f post, fs = pre ++ f :: post → Accepted h w (pre.map Frame.body) → f.Bounded post)
    (hst : Waits h calls w bs c ∨ c.status = .left) (hbs : bs ++ (reads.flatten ++ rest) = Frame.stream fs) :
    Meets (Connection.readHandler h) Room c reads := by
  induction reads generalizing bs c with
  | nil => trivial
  | cons data reads ih =>
    have hdata := hreads data List.mem_cons_self
    have hlater : ∀ data' ∈ reads, data' ≠ [] ∧ data'.length ≤ Connection.readSize := fun data' hmem =>
      hreads data' (List.mem_cons_of_mem _ hmem)
    rw [List.flatten_cons, List.append_assoc] at hbs
    have hnext : bs ++ data ++ (reads.flatten ++ rest) = Frame.stream fs := (List.append_assoc _ _ _).trans hbs
    rcases hst with hw | hleft
    · have hfits := hw.fits hbs hdata.2 hbound
      have hstep := (readHandler_stands hdata.1 hfits hw).of_stream hnext
      exact ⟨fun _ => hfits, ih hlater (hstep.imp_right And.right) hnext⟩
    · have hno : c.status ≠ .reading := by
        rw [hleft]
        exact nofun
      rw [meets_cons, readHandler_left hno]
      exact ⟨fun hreading => absurd hreading hno, ih hlater (.inr hleft) hnext⟩

/-- The bytes of a text one by one. -/
def single (bs : List UInt8) : List (List UInt8) := bs.map fun b => [b]

theorem flatten_single (bs : List UInt8) : (single bs).flatten = bs := by
  induction bs with
  | nil => rfl
  | cons b bs ih => rw [single, List.map_cons, List.flatten_cons, ← single, ih, List.singleton_append]

theorem mem_single (hdata : data ∈ single bs) : data ≠ [] ∧ data.length ≤ Connection.readSize := by
  obtain ⟨b, -, rfl⟩ := List.mem_map.mp hdata
  exact ⟨List.cons_ne_nil _ _, by rw [List.length_singleton]; decide⟩

/-- The part of a stream up to some byte of a message. -/
def Frame.upTo (pre : List Frame) (f : Frame) (n : Nat) : List UInt8 := stream pre ++ (f.digits ++ hash :: f.body.take n)

theorem Frame.messages_upTo (pre : List Frame) (f : Frame) {n : Nat} (hn : n < f.body.length) :
    messages (f.upTo pre n) = (pre.map body, f.digits ++ hash :: f.body.take n) := by
  have hstop : messages (f.digits ++ hash :: f.body.take n) = ([], f.digits ++ hash :: f.body.take n) := by
    refine messages_stop fun k part hspec => ?_
    obtain ⟨rfl, rfl⟩ := Specifier.length.inj ((f.specifier_frame _).symm.trans hspec)
    rw [List.length_take]
    omega
  rw [Frame.upTo, messages_append, messages_stream, List.nil_append, hstop, List.append_nil]

theorem Frame.upTo_drop (pre post : List Frame) (f : Frame) (n : Nat) :
    f.upTo pre n ++ (f.body.drop n ++ stream post) = stream (pre ++ f :: post) := by
  rw [upTo, stream_append, stream_cons, List.append_assoc, List.append_assoc, List.cons_append,
    ← List.append_assoc (f.body.take n), List.take_append_drop]

/-- A read that has room behind the first bytes of a message fits beside them. -/
theorem room_upTo {pre : List Frame} {f : Frame} {n : Nat} {reads : List (List UInt8)} (hreads : ∀ data ∈ reads, data ≠ [])
    (hcut : reads.flatten = f.upTo pre n) (hn : n < f.body.length) (hacc : Accepted h w (pre.map Frame.body))
    (hmeets : Meets (Connection.readHandler h) Room (Connection.new w) (reads ++ [data])) :
    n + data.length ≤ Connection.capacity := by
  obtain ⟨hroom, hlast, -⟩ := meets_append.mp hmeets
  have hms := Frame.messages_upTo pre f hn
  have hstream : [] ++ reads.flatten ++ (f.body.drop n ++ Frame.stream []) = Frame.stream (pre ++ [f]) := by
    rw [List.nil_append, hcut, Frame.upTo_drop]
  have hw := run_waits hreads hroom (new_waits h w) hstream (by rw [List.nil_append, hcut, hms]; exact hacc)
  rw [List.nil_append, hcut] at hw
  have hfits := hlast hw.reading
  have hheld := hw.held
  rw [hms] at hheld
  have hspec := f.specifier_frame (f.body.take n)
  obtain ⟨hun, -, -⟩ | hlen := hheld
  · exact nomatch hspec.symm.trans hun
  · obtain ⟨-, hbuf⟩ := Specifier.length.inj (hspec.symm.trans hlen)
    rwa [Fits, ← hbuf, List.length_take_of_le hn.le] at hfits

/-- A message that is not bounded can be cut so that a read overflows the buffer: all bytes come one by one
    up to where a full read is one byte too long, and then the full read. -/
theorem not_meets_room {pre post : List Frame} {f : Frame} (hacc : Accepted h w (pre.map Frame.body))
    (hlong : ¬f.Bounded post)
    (hfs : fs = pre ++ f :: post) :
    ∃ reads, reads.flatten <+: Frame.stream fs ∧ (∀ data ∈ reads, data ≠ [] ∧ data.length ≤ Connection.readSize) ∧
      ¬Meets (Connection.readHandler h) Room (Connection.new w) reads := by
  have hcap : Connection.capacity = 12228 := rfl
  have hsize : Connection.readSize = 8192 := rfl
  rw [Frame.Bounded, not_or, Nat.not_le, Nat.not_le] at hlong
  let n := Connection.capacity + 1 - Connection.readSize
  have hn : n < f.body.length := by omega
  let later := f.body.drop n ++ Frame.stream post
  have hlater : Connection.readSize ≤ later.length := by
    rw [List.length_append, List.length_drop]
    omega
  have hlen : (later.take Connection.readSize).length = Connection.readSize := List.length_take_of_le hlater
  refine ⟨single (f.upTo pre n) ++ [later.take Connection.readSize], ?_, ?_, fun hmeets => ?_⟩
  · rw [List.flatten_append, flatten_single, List.flatten_singleton, hfs, ← Frame.upTo_drop pre post f n]
    exact (List.prefix_append_right_inj _).mpr (List.take_prefix _ _)
  · intro data hdata
    rcases List.mem_append.mp hdata with hdata | hdata
    · exact mem_single hdata
    · obtain rfl := List.mem_singleton.mp hdata
      exact ⟨List.ne_nil_of_length_pos (by rw [hlen]; decide), hlen.le⟩
  · have hfits := room_upTo (fun data hdata => (mem_single hdata).1) (flatten_single _) hn hacc hmeets
    rw [hlen] at hfits
    omega

end

/-- No cut of a stream of frames into reads ever overflows the buffer exactly when every message that is
    reached is short enough for a full read beside all but its last byte, or fits into the buffer with all
    that follows it. -/
theorem room_iff {σ : Type} (h : Handlers σ) (w : σ) (fs : List Frame) :
    (∀ reads, reads.flatten <+: Frame.stream fs → (∀ data ∈ reads, data ≠ [] ∧ data.length ≤ Connection.readSize) →
      Meets (Connection.readHandler h) Room (Connection.new w) reads) ↔
    ∀ pre f post, fs = pre ++ f :: post → Accepted h w (pre.map Frame.body) →
      f.body.length + Connection.readSize ≤ Connection.capacity + 1 ∨
      f.body.length + (Frame.stream post).length ≤ Connection.capacity := by
  constructor
  · intro hroom pre f post hfs hacc
    by_contra hlong
    obtain ⟨reads, hcut, hreads, hno⟩ := not_meets_room hacc hlong hfs
    exact hno (hroom reads hcut hreads)
  · rintro hbound reads ⟨rest, hcut⟩ hreads
    exact meets_room hreads hbound (.inl (new_waits h w)) ((List.nil_append _).trans hcut)

/-- One message of 12229 bytes. -/
def longFrame : Frame where
  digits := bytes "12229"
  body := List.replicate 12229 97
  isdigits := List.all_eq_true.mp rfl
  short := Nat.le_of_ble_eq_true rfl
  length := by rw [List.length_replicate]; rfl
  nonempty := List.ne_nil_of_length_pos (by rw [List.length_replicate]; decide)

/-- It comes in two reads: a full one, and the 4043 bytes that are left. -/
def longReads : List (List UInt8) := [bytes "12229#" ++ List.replicate 8186 97, List.replicate 4043 97]

/-- The second read overwrites the first byte of the message. -/
theorem long_overflow :
    longReads.flatten = Frame.stream [longFrame] ∧
    (∀ data ∈ longReads, data ≠ [] ∧ data.length ≤ Connection.readSize) ∧
    ¬Meets (Connection.readHandler acceptAll) Room (Connection.new ()) longReads := by
  have hfirst : bytes "12229#" ++ List.replicate 8186 97 = longFrame.upTo [] 8186 := by
    rw [Frame.upTo, Frame.stream_nil, List.nil_append, longFrame, List.take_replicate]
    rfl
  refine ⟨?_, ?_, fun hmeets => ?_⟩
  · rw [longReads, List.flatten_cons, List.flatten_singleton, hfirst, ← List.nil_append [longFrame],
      ← Frame.upTo_drop [] [] longFrame 8186, longFrame, List.drop_replicate, Frame.stream_nil, List.append_nil]
  · intro data hdata
    rcases List.mem_pair.mp hdata with rfl | rfl
    · refine ⟨List.append_ne_nil_of_left_ne_nil (by decide) _, ?_⟩
      rw [List.length_append, List.length_replicate]
      decide
    · refine ⟨List.ne_nil_of_length_pos (by rw [List.length_replicate]; decide), ?_⟩
      rw [List.length_replicate]
      decide
  · have hfits := @room_upTo Unit acceptAll () _ [] longFrame 8186 [longFrame.upTo [] 8186]
      (fun data hdata => by
        rw [List.mem_singleton.mp hdata, ← hfirst]
        exact List.append_ne_nil_of_left_ne_nil (by decide) _)
      (List.flatten_singleton) (by rw [longFrame, List.length_replicate]; decide) trivial
      (by rw [← hfirst]; exact hmeets)
    rw [List.length_replicate] at hfits
    exact absurd hfits (by decide)

end Drachtio.Client
