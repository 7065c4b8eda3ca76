import Drachtio.Lib.Numerals
import Drachtio.Theorems.Client.Marshalling

/-! The provisional timeout of a proxied request, from the text of the command to the timer. The text is cut to fifteen
    characters and its value to 32 bits. -/

namespace Drachtio.Client

open Numerals (IsNumber)
open Proxy (ClientTransaction)

/-! ### What a timeout says -/

/-- The milliseconds that a text stands for: digits with a unit -/
def millisecondsOf (t : String) : Option Nat :=
  let digits := t.toList.takeWhile Char.isDigit
  let unit := t.toList.dropWhile Char.isDigit
  if digits = [] then none
  else if unit = "ms".toList then some (Numerals.value digits)
  else if unit = "s".toList then some (Numerals.value digits * 1000)
  else none

section
variable {t : String} {digits unit : List Char} {v : Nat}

/-- Digits end where a unit begins. -/
theorem takeWhile_unit (hdigits : ∀ c ∈ digits, c.isDigit = true) (hunit : unit = "ms".toList ∨ unit = "s".toList) :
    (digits ++ unit).takeWhile Char.isDigit = digits ∧ (digits ++ unit).dropWhile Char.isDigit = unit := by
  rw [List.takeWhile_append_of_pos hdigits, List.dropWhile_append_of_pos hdigits]
  rcases hunit with rfl | rfl
  · exact ⟨List.append_nil _, rfl⟩
  · exact ⟨List.append_nil _, rfl⟩

theorem millisecondsOf_eq_some : millisecondsOf t = some v ↔ ∃ digits, IsNumber digits ∧
    (t.toList = digits ++ "ms".toList ∧ v = Numerals.value digits ∨
      t.toList = digits ++ "s".toList ∧ v = Numerals.value digits * 1000) := by
  have hparts : t.toList.takeWhile Char.isDigit ++ t.toList.dropWhile Char.isDigit = t.toList :=
    List.takeWhile_append_dropWhile
  have hall : ∀ c ∈ t.toList.takeWhile Char.isDigit, c.isDigit = true := fun c hc => List.mem_takeWhile_imp hc
  constructor
  · intro h
    unfold millisecondsOf at h
    dsimp only at h
    split at h
    · cases h
    · rename_i hne
      split at h
      · rename_i hms
        cases h
        exact ⟨_, ⟨hne, hall⟩, .inl ⟨by rw [← hms, hparts], rfl⟩⟩
      · split at h
        · rename_i hs
          cases h
          exact ⟨_, ⟨hne, hall⟩, .inr ⟨by rw [← hs, hparts], rfl⟩⟩
        · cases h
  · rintro ⟨digits, ⟨hne, hdigits⟩, ⟨ht, rfl⟩ | ⟨ht, rfl⟩⟩
    · obtain ⟨htake, hdrop⟩ := takeWhile_unit hdigits (.inl rfl)
      unfold millisecondsOf
      dsimp only
      rw [ht, htake, hdrop, if_neg hne, if_pos rfl]
    · obtain ⟨htake, hdrop⟩ := takeWhile_unit hdigits (.inr rfl)
      unfold millisecondsOf
      dsimp only
      rw [ht, htake, hdrop, if_neg hne, if_neg (by decide), if_pos rfl]

/-- What is kept of a timeout: its milliseconds in 32 bits, or nothing -/
theorem provisionalTimeoutMs_eq : provisionalTimeoutMs t = UInt32.ofNat ((millisecondsOf t).getD 0) := by
  unfold provisionalTimeoutMs millisecondsOf Numerals.value
  simp only [Nat.ofDigitChars_eq_foldl]
  split
  · rfl
  · split
    · rfl
    · split
      · exact (UInt32.ofNat_mul _ _).symm
      · rfl

/-- The letter that a timeout ends in is in no other place. -/
theorem ends_in_unit (h : millisecondsOf t = some v) :
    ∃ front, t.toList = front ++ ['s'] ∧ 's' ∉ front ∧ '\x00' ∉ front := by
  obtain ⟨digits, hnumber, htext⟩ := millisecondsOf_eq_some.mp h
  have hno : ∀ c : Char, c.isDigit = false → c ∉ digits := by
    intro c hc hm
    rw [hnumber.2 c hm] at hc
    cases hc
  rcases htext with ⟨ht, -⟩ | ⟨ht, -⟩
  · refine ⟨digits ++ ['m'], by rw [ht, List.append_assoc]; rfl, ?_, ?_⟩
    · simp only [List.mem_append, not_or]
      exact ⟨hno 's' (by decide), by decide⟩
    · simp only [List.mem_append, not_or]
      exact ⟨hno '\x00' (by decide), by decide⟩
  · exact ⟨digits, ht, hno 's' (by decide), hno '\x00' (by decide)⟩

/-- A timeout that is cut says nothing any more. -/
theorem millisecondsOf_cut (ht : millisecondsOf t = some v) (hcut : ¬Storable 15 t) :
    millisecondsOf (cString 15 t) = none := by
  obtain ⟨front, htext, hs, hnul⟩ := ends_in_unit ht
  have hlong : 15 ≤ front.length := by
    by_contra hshort
    refine hcut ⟨?_, ?_⟩
    · rw [← String.length_toList, htext, List.length_append, List.length_singleton]
      omega
    · rw [htext, List.mem_append, not_or]
      exact ⟨hnul, by decide⟩
  rw [Option.eq_none_iff_forall_ne_some]
  intro w hw
  obtain ⟨front', hkept, -, -⟩ := ends_in_unit hw
  have hmem : 's' ∈ (cString 15 t).toList := by
    rw [hkept]
    exact List.mem_append_right _ List.mem_cons_self
  rw [cString, String.toList_ofList] at hmem
  have htake := (List.takeWhile_subset _) hmem
  rw [htext, List.take_append_of_le_length hlong] at htake
  exact hs (List.mem_of_mem_take htake)

end

/-! ### The timer -/

/-- A request that goes out is given no provisional timer. -/
def Unarmed (k : Proxy.Settings) : Prop :=
  ∀ c : ClientTransaction, (c.setState k .calling).1.timerProvisional = c.timerProvisional

theorem unarmed_iff {k : Proxy.Settings} : Unarmed k ↔ k.provisionalTimeout = 0 := by
  constructor
  · intro h
    let env : Proxy.Env := ⟨fun _ => true, fun _ => true, fun _ => true, fun _ => true, true, 0, 0, fun _ => 0⟩
    let c : ClientTransaction := { ClientTransaction.new env 0 "" with method := .invite }
    have hentered := ClientTransaction.setState_timer (k := k) (c := c) (n := .calling) (by decide) .timerProvisional
    have hsame : (c.setState k .calling).1.timer .timerProvisional = c.timer .timerProvisional := h c
    rw [hentered] at hsame
    by_contra hne
    have hpos : 0 < k.provisionalTimeout := UInt32.pos_iff_ne_zero.mpr hne
    have hadded : (c.timer .timerProvisional).addTimer = c.timer .timerProvisional := by
      simpa [ClientTransaction.enter, hpos, c, ClientTransaction.isInviteTransaction] using hsame
    exact absurd hadded (by decide)
  · intro h c
    by_cases hstate : Proxy.TransactionState.calling = c.state
    · rw [ClientTransaction.setState_self hstate.symm]
    · have hentered := ClientTransaction.setState_timer (k := k) hstate .timerProvisional
      have hnot : ¬ 0 < k.provisionalTimeout := by rw [h]; decide
      cases hinvite : c.isInviteTransaction <;>
        simpa [ClientTransaction.enter, hnot, hinvite, ClientTransaction.timer] using hentered

/-- The provisional timeout of a proxied request is what its command says, where 32 bits hold it; else there is none. -/
structure Timed (d : ProxyData) : Prop where
  fits : ∀ v, millisecondsOf d.provisionalTimeout = some v → v < 2 ^ 32 → d.copied.settings.provisionalTimeout.toNat = v
  rest : (∀ v, millisecondsOf d.provisionalTimeout = some v → 2 ^ 32 ≤ v) → Unarmed d.copied.settings

/-- A text that fits its array is not too large, or it is dropped as a whole by 32 bits; one that does not fit is without
    effect, and so is what is left of it. -/
structure KeepsTimeout (t : String) : Prop where
  whole : Storable 15 t → ∀ v, millisecondsOf t = some v → v < 2 ^ 32 ∨ 2 ^ 32 ∣ v
  cut : ¬Storable 15 t → ∀ v, millisecondsOf t = some v → v = 0 ∨ 2 ^ 32 ≤ v
  left : ¬Storable 15 t → ∀ v, millisecondsOf (cString 15 t) = some v → 2 ^ 32 ∣ v

section
variable {n : Nat}

theorem ofNat_eq_zero_iff : UInt32.ofNat n = 0 ↔ 2 ^ 32 ∣ n := by
  rw [← UInt32.toNat_inj, UInt32.toNat_ofNat', Nat.dvd_iff_mod_eq_zero]
  rfl

theorem settings_timeout (d : ProxyData) : d.copied.settings.provisionalTimeout =
    UInt32.ofNat ((millisecondsOf (cString 15 d.provisionalTimeout)).getD 0) := provisionalTimeoutMs_eq

end

/-- The provisional timeout is what the command says exactly when the text is kept whole or has no effect. -/
theorem timeout_kept_iff (d : ProxyData) : Timed d ↔ KeepsTimeout d.provisionalTimeout := by
  have hkept := settings_timeout d
  constructor
  · rintro ⟨hfits, hrest⟩
    refine ⟨fun hwhole v hv => ?_, fun hcut v hv => ?_, fun hcut v hv => ?_⟩
    · by_cases hlt : v < 2 ^ 32
      · exact .inl hlt
      · have hunarmed := hrest fun w hw => by rw [hv] at hw; cases hw; omega
        rw [unarmed_iff, hkept, cString_eq_iff.mpr hwhole, hv, Option.getD_some, ofNat_eq_zero_iff] at hunarmed
        exact .inr hunarmed
    · by_cases hlt : v < 2 ^ 32
      · have hsame := hfits v hv hlt
        rw [hkept, millisecondsOf_cut hv hcut] at hsame
        exact .inl hsame.symm
      · exact .inr (by omega)
    · have hnone : millisecondsOf d.provisionalTimeout = none := by
        rw [Option.eq_none_iff_forall_ne_some]
        intro w hw
        rw [millisecondsOf_cut hw hcut] at hv
        cases hv
      have hunarmed := hrest fun w hw => by rw [hnone] at hw; cases hw
      rw [unarmed_iff, hkept, hv, Option.getD_some, ofNat_eq_zero_iff] at hunarmed
      exact hunarmed
  · rintro ⟨hwhole, hcut, hleft⟩
    by_cases hstored : Storable 15 d.provisionalTimeout
    · rw [cString_eq_iff.mpr hstored] at hkept
      constructor
      · intro v hv hlt
        rw [hkept, hv, Option.getD_some, UInt32.toNat_ofNat', Nat.mod_eq_of_lt hlt]
      · intro hlarge
        rw [unarmed_iff, hkept, ofNat_eq_zero_iff]
        cases hv : millisecondsOf d.provisionalTimeout with
        | none => exact Nat.dvd_zero _
        | some v =>
          have hle := hlarge v hv
          exact (hwhole hstored v hv).resolve_left (by omega)
    · have hzero : d.copied.settings.provisionalTimeout = 0 := by
        rw [hkept, ofNat_eq_zero_iff]
        cases hv : millisecondsOf (cString 15 d.provisionalTimeout) with
        | none => exact Nat.dvd_zero _
        | some v => exact hleft hstored v hv
      constructor
      · intro v hv hlt
        rw [hzero, (hcut hstored v hv).resolve_right (by omega)]
        rfl
      · exact fun _ => unarmed_iff.mpr hzero

/-- Seven weeks become seven tenths of a second. -/
theorem weeks_wrapped : ¬ ∀ d : ProxyData, Timed d := by
  intro h
  have hunarmed := (h ⟨"1", "t", false, false, false, false, "4294968s", "", ["sip:bob@example.com"], ""⟩).rest
    (by decide +kernel)
  rw [unarmed_iff] at hunarmed
  exact absurd hunarmed (by decide +kernel)

end Drachtio.Client
