import Drachtio.Tport.Liveness

/-! The counter of a transport is the number of its timeouts since it was last heard of or shut down, so it is shut
    down by the timeout that makes the limit full, and by no other call. -/

namespace Drachtio.Tport.Timeouts

variable {limit : UInt32} {m : Timeouts} {e : Evidence} {es : List Evidence} {key : String} {h : List (Evidence × Bool)}

/-- The transport is heard of, or shut down. -/
def resets (key : String) (x : Evidence × Bool) : Bool := x.1.key == some key && (x.1.isAlive || x.2)

def timesOut (key : String) (x : Evidence × Bool) : Bool := x.1.key == some key && x.1.isTimeout

/-- The timeouts on a transport since it was last heard of or shut down -/
def timeoutsSince (key : String) (h : List (Evidence × Bool)) : Nat :=
  (h.reverse.takeWhile fun x => !resets key x).countP (timesOut key)

theorem timeoutsSince_append (x : Evidence × Bool) :
    timeoutsSince key (h ++ [x]) =
      if resets key x = true then 0 else timeoutsSince key h + if timesOut key x = true then 1 else 0 := by
  unfold timeoutsSince
  rw [List.reverse_append, List.reverse_singleton, List.singleton_append, List.takeWhile_cons]
  cases hresets : resets key x with
  | true => rfl
  | false =>
    rw [Bool.not_false, if_pos rfl, if_neg Bool.false_ne_true, List.countP_cons]

/-- A call on another transport, or one that does not count -/
theorem timeoutsSince_other {x : Evidence × Bool} (hresets : resets key x = false) (htimesOut : timesOut key x = false) :
    timeoutsSince key (h ++ [x]) = timeoutsSince key h := by
  rw [timeoutsSince_append, hresets, htimesOut]
  rfl

/-! ### One call -/

theorem isAlive_of_isTimeout (h : e.isTimeout = true) : e.isAlive = false := by
  unfold Evidence.isTimeout at h
  unfold Evidence.isAlive
  rw [(Bool.and_eq_true_iff.mp h).1]
  rfl

/-- As long as nothing has timed out there is nothing to be done. -/
theorem trackTportLiveness_eq (hlimit : 0 < limit) : m.trackTportLiveness limit e = m.count limit e := by
  have hne : limit ≠ 0 := fun heq => absurd (heq ▸ hlimit) (by decide)
  unfold trackTportLiveness
  rw [if_neg hne]
  split
  · rename_i hquick
    obtain ⟨htimeout, hempty⟩ := hquick
    obtain rfl : m = ∅ := AList.ext (List.isEmpty_iff.mp hempty)
    unfold count
    rw [htimeout]
    cases e.key with
    | none => rfl
    | some key =>
      dsimp only
      rw [if_neg Bool.false_ne_true]
      split <;> rfl
  · rfl

/-- The counters are what the history says, and below the limit. -/
def Agrees (limit : UInt32) (m : Timeouts) (h : List (Evidence × Bool)) : Prop :=
  ∀ key, ((m.lookup key).getD 0).toNat = timeoutsSince key h ∧ timeoutsSince key h < limit.toNat

theorem Agrees.others {m' : Timeouts} {down : Bool} (ha : Agrees limit m h) (hkey : e.key ≠ some key)
    (hm : m'.lookup key = m.lookup key) : ((m'.lookup key).getD 0).toNat = timeoutsSince key (h ++ [(e, down)]) ∧
      timeoutsSince key (h ++ [(e, down)]) < limit.toNat := by
  have hresets : resets key (e, down) = false := by simp [resets, hkey]
  have htimesOut : timesOut key (e, down) = false := by simp [timesOut, hkey]
  rw [timeoutsSince_other hresets htimesOut, hm]
  exact ha key

/-- A counter below the limit is incremented without overflow. -/
theorem toNat_succ {c : UInt32} (hc : c.toNat < limit.toNat) : (c + 1).toNat = c.toNat + 1 := by
  have hlt : limit.toNat < 2 ^ 32 := limit.toNat_lt
  rw [UInt32.toNat_add, UInt32.toNat_one]
  omega

theorem Agrees.count (ha : Agrees limit m h) (hlimit : 0 < limit) :
    Agrees limit (m.count limit e).1 (h ++ [(e, (m.count limit e).2)]) ∧
    ((m.count limit e).2 = true ↔ ∃ key, e.key = some key ∧ e.isTimeout = true ∧ timeoutsSince key h + 1 = limit.toNat) := by
  have hpos : 0 < limit.toNat := UInt32.lt_iff_toNat_lt.mp hlimit
  unfold Timeouts.count
  cases hkey : e.key with
  | none =>
    refine ⟨fun key => ha.others (by simp [hkey]) rfl, iff_of_false nofun ?_⟩
    rintro ⟨key, hsome, -⟩
    cases hsome
  | some key =>
    obtain ⟨hcount, hbelow⟩ := ha key
    -- an event of `key` leaves the counters of the other transports alone
    have hapart : ∀ {other}, other ≠ key → e.key ≠ some other := fun hother heq =>
      hother (Option.some.inj (hkey.symm.trans heq)).symm
    dsimp only
    cases htimeout : e.isTimeout with
    | true =>
      have halive := isAlive_of_isTimeout htimeout
      have hsucc := toNat_succ (hcount ▸ hbelow)
      have htimesOut : ∀ down, timesOut key (e, down) = true := fun down => by simp [timesOut, hkey, htimeout]
      have hresets : ∀ down, resets key (e, down) = down := fun down => by simp [resets, hkey, halive]
      rw [if_pos rfl]
      split
      · rename_i hfull
        rw [UInt32.le_iff_toNat_le, hsucc, hcount] at hfull
        refine ⟨fun other => ?_, iff_of_true rfl ⟨key, rfl, rfl, by omega⟩⟩
        by_cases hother : other = key
        · subst hother
          rw [timeoutsSince_append, hresets true, if_pos rfl, AList.lookup_erase]
          exact ⟨rfl, hpos⟩
        · refine ha.others (hapart hother) ?_
          rw [AList.lookup_erase_ne hother, AList.lookup_insert_ne hother]
      · rename_i hopen
        rw [UInt32.le_iff_toNat_le, hsucc, hcount] at hopen
        refine ⟨fun other => ?_, iff_of_false nofun ?_⟩
        · by_cases hother : other = key
          · subst hother
            rw [timeoutsSince_append, hresets false, htimesOut false, if_neg Bool.false_ne_true, if_pos rfl,
              AList.lookup_insert, Option.getD_some, hsucc, hcount]
            exact ⟨rfl, by omega⟩
          · refine ha.others (hapart hother) ?_
            rw [AList.lookup_insert_ne hother]
        · rintro ⟨key', hsome, -, hfull⟩
          obtain rfl := Option.some.inj hsome
          omega
    | false =>
      have hnone : ¬∃ key', some key = some key' ∧ false = true ∧ timeoutsSince key' h + 1 = limit.toNat := by
        rintro ⟨-, -, hfalse, -⟩
        cases hfalse
      have htimesOut : timesOut key (e, false) = false := by simp [timesOut, htimeout]
      rw [if_neg Bool.false_ne_true]
      cases halive : e.isAlive with
      | true =>
        rw [if_pos rfl]
        refine ⟨fun other => ?_, iff_of_false nofun hnone⟩
        by_cases hother : other = key
        · subst hother
          have hresets : resets other (e, false) = true := by simp [resets, hkey, halive]
          rw [timeoutsSince_append, hresets, if_pos rfl, AList.lookup_erase]
          exact ⟨rfl, hpos⟩
        · refine ha.others (hapart hother) ?_
          rw [AList.lookup_erase_ne hother]
      | false =>
        rw [if_neg Bool.false_ne_true]
        refine ⟨fun other => ?_, iff_of_false nofun hnone⟩
        by_cases hother : other = key
        · subst hother
          have hresets : resets other (e, false) = false := by simp [resets, halive]
          rw [timeoutsSince_other hresets htimesOut]
          exact ha other
        · exact ha.others (hapart hother) rfl

/-! ### Any calls -/

theorem agrees_after (hlimit : 0 < limit) (es : List Evidence) (ha : Agrees limit m h) :
    Agrees limit (m.after limit es) (h ++ m.history limit es) := by
  induction es generalizing m h with
  | nil => rwa [history, List.append_nil]
  | cons e es ih =>
    have hstep := (ha.count (e := e) hlimit).1
    rw [← trackTportLiveness_eq hlimit] at hstep
    have hrest := ih hstep
    rwa [List.append_assoc, List.singleton_append] at hrest

theorem agrees_empty (hlimit : 0 < limit) : Agrees limit ∅ [] := fun _ => ⟨rfl, UInt32.lt_iff_toNat_lt.mp hlimit⟩

/-- A call shuts its transport down if and only if it is the timeout that makes the limit full since the transport was
    last heard of or shut down. Those that listen and those over UDP are never shut down, and the way out for empty
    counters changes nothing. -/
theorem shutdown_iff (limit : UInt32) (hlimit : 0 < limit) (es : List Evidence) (e : Evidence) :
    (((after limit ∅ es).trackTportLiveness limit e).2 = true ↔
      ∃ key, e.key = some key ∧ e.isTimeout = true ∧ timeoutsSince key (history limit ∅ es) + 1 = limit.toNat) ∧
    (∀ tp ∈ e.tport, tp.secondary = false ∨ tp.udp = true → ((after limit ∅ es).trackTportLiveness limit e).2 = false) ∧
    (after limit ∅ es).trackTportLiveness limit e = (after limit ∅ es).count limit e := by
  have hagrees : Agrees limit (after limit ∅ es) (history limit ∅ es) := agrees_after hlimit es (agrees_empty hlimit)
  have heq := trackTportLiveness_eq (m := after limit ∅ es) (e := e) hlimit
  have hiff := (hagrees.count (e := e) hlimit).2
  refine ⟨heq ▸ hiff, fun tp htp hspared => ?_, heq⟩
  have hnone : e.key = none := by
    have htport : e.tport = some tp := htp
    have hcond : (!tp.secondary || tp.udp) = true := by
      rcases hspared with h | h <;> simp [h]
    rw [Evidence.key, htport, Option.bind_some, if_pos hcond]
  rw [heq, Timeouts.count, hnone]

/-- A transport that times out twice, with a limit of two -/
def deadEvidence : Evidence := ⟨none, some ⟨true, false, some ⟨some "tcp", some "192.0.2.1", some "5060"⟩⟩⟩

theorem dead_shutdown : ((after 2 ∅ [deadEvidence]).trackTportLiveness 2 deadEvidence).2 = true :=
  (shutdown_iff 2 (by decide) [deadEvidence] deadEvidence).1.mpr ⟨"tcp/192.0.2.1:5060", by decide, by decide, by decide⟩

end Drachtio.Tport.Timeouts
