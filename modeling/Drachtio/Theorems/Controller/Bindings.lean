import Drachtio.Controller.Bindings
import Drachtio.Lib.Fields
import Drachtio.Lib.Run
import Mathlib.Data.List.TakeDrop
import Mathlib.Logic.Function.Basic

/-! The table of registered endpoints next to the map it stands for, in which every address has the transport it was
    last bound to until its time is over. -/

namespace Drachtio.Controller

/-! ### Keys -/

namespace Address

variable {a b : Address}

/-- The user is not empty, and both parts fit into the arrays of an entry. -/
def Fits (a : Address) : Prop :=
  a.user ≠ some "" ∧ (∀ u ∈ a.user, u.length < uriLen) ∧ a.host.length < uriLen

instance (a : Address) : Decidable a.Fits :=
  inferInstanceAs (Decidable (a.user ≠ some "" ∧ (∀ u ∈ a.user, u.length < uriLen) ∧ a.host.length < uriLen))

/-- The key under which an address is bound. -/
def entryUri (a : Address) : String := (UaInvalidData.new a.user a.host 0 () 0).getUri

theorem uri_none (h : a.user = none) : a.uri = a.host := by
  rw [uri, h]
  exact String.empty_append

theorem uri_some {u : String} (h : a.user = some u) : a.uri.toList = u.toList ++ '@' :: a.host.toList := by
  rw [uri, h]
  show (u ++ "@" ++ a.host).toList = _
  rw [String.toList_append, String.toList_append, List.append_assoc]
  rfl

/-- Two addresses are looked up under one key only if they are the same. -/
theorem uri_injective : Function.Injective uri := by
  rintro ⟨user, host, huser, hhost⟩ ⟨user', host', huser', hhost'⟩ heq
  cases user with
  | none =>
    cases user' with
    | none =>
      rw [uri_none rfl, uri_none rfl] at heq
      have hhosts : host = host' := heq
      subst hhosts
      rfl
    | some u =>
      have hlist := congrArg String.toList heq
      rw [uri_none rfl, uri_some rfl] at hlist
      exact absurd hlist.symm (Fields.append_sep_ne (hhost rfl))
  | some u =>
    cases user' with
    | none =>
      have hlist := congrArg String.toList heq
      rw [uri_some rfl, uri_none rfl] at hlist
      exact absurd hlist (Fields.append_sep_ne (hhost' rfl))
    | some u' =>
      have hlist := congrArg String.toList heq
      rw [uri_some rfl, uri_some rfl] at hlist
      obtain ⟨hu, hh⟩ := Fields.append_sep_inj (huser u rfl) (huser' u' rfl) hlist
      obtain rfl := String.toList_inj.mp hu
      have hhosts : host = host' := String.toList_inj.mp hh
      subst hhosts
      rfl

theorem field_length (s : String) : (field s).length ≤ s.length := by
  rw [← String.length_toList, ← String.length_toList, field, String.toList_ofList, List.length_take]
  exact Nat.min_le_right _ _

theorem field_eq_self_iff {s : String} : field s = s ↔ s.length < uriLen := by
  rw [← String.toList_inj, field, String.toList_ofList, List.take_eq_self_iff, String.length_toList, uriLen]
  omega

theorem field_eq_empty_iff {s : String} : field s = "" ↔ s = "" := by
  rw [← String.toList_inj, ← String.toList_inj, field, String.toList_ofList, String.toList_empty, List.take_eq_nil_iff]
  exact or_iff_right (by decide)

theorem getUri_eq (a : Address) {Tport : Type} (expires : Int) (tp : Tport) (now : Int) :
    (UaInvalidData.new a.user a.host expires tp now).getUri = a.entryUri := rfl

/-- An address is bound under the key it is looked up under just when it fits. -/
theorem entryUri_eq_uri_iff (a : Address) : a.entryUri = a.uri ↔ a.Fits := by
  cases huser : a.user with
  | none =>
    have hentry : a.entryUri = field a.host := by
      rw [entryUri, UaInvalidData.getUri, huser]
      exact String.empty_append
    rw [hentry, uri_none huser, field_eq_self_iff, Fits, huser]
    simp
  | some u =>
    by_cases hempty : u = ""
    · -- the entry has no '@', and the key of the lookup starts with one
      subst hempty
      have hentry : a.entryUri = field a.host := by
        rw [entryUri, UaInvalidData.getUri, huser]
        exact String.empty_append
      refine iff_of_false (fun heq => ?_) fun hfits => hfits.1 huser
      have hlength := congrArg String.length heq
      rw [hentry, ← String.length_toList, ← String.length_toList (s := a.uri), uri_some huser] at hlength
      have hle := field_length a.host
      rw [← String.length_toList, ← String.length_toList] at hle
      simp only [String.toList_empty, List.nil_append, List.length_cons] at hlength
      omega
    · have hentry : a.entryUri = field u ++ "@" ++ field a.host := by
        rw [entryUri, UaInvalidData.getUri, huser]
        exact congrArg (· ++ field a.host) (if_neg (mt field_eq_empty_iff.mp hempty))
      rw [hentry]
      constructor
      · intro heq
        have hlist := congrArg String.toList heq
        rw [uri_some huser, String.toList_append, String.toList_append, List.append_assoc] at hlist
        have hat : '@' ∉ (field u).toList := by
          rw [field, String.toList_ofList]
          exact fun hmem => a.user_at u huser (List.mem_of_mem_take hmem)
        obtain ⟨hu, hh⟩ := Fields.append_sep_inj hat (a.user_at u huser) hlist
        refine ⟨by simp [huser, hempty], fun v hv => ?_, field_eq_self_iff.mp (String.toList_inj.mp hh)⟩
        rw [huser] at hv
        obtain rfl := Option.some.inj hv
        exact field_eq_self_iff.mp (String.toList_inj.mp hu)
      · rintro ⟨-, hu, hh⟩
        rw [field_eq_self_iff.mpr (hu u huser), field_eq_self_iff.mpr hh, uri, huser]
        rfl

end Address

/-! ### The abstract map -/

section
variable {Tport : Type}

/-- The table, the transport and the end of the last binding of every address, and the time. -/
structure Mirrored (Tport : Type) where
  table : Uri2InvalidData Tport
  bound : Address → Option (Tport × Int)
  clock : Int

namespace Mirrored

def start (clock : Int) : Mirrored Tport := ⟨∅, fun _ => none, clock⟩

def step (s : Mirrored Tport) (op : Uri2InvalidData.Op Tport) : Mirrored Tport where
  table := s.table.step op
  bound :=
    match op with
    | .cache a expires tp now => Function.update s.bound a (some (tp, now + expires))
    | .flush a _ => Function.update s.bound a none
    | .find _ _ => s.bound
    | .watchdog _ => s.bound
  clock := op.now

/-- The transport that an address is bound to at a time. -/
def boundAt (a : Address) (now : Int) (s : Mirrored Tport) : Option Tport :=
  (s.bound a).bind fun x => if x.2 < now then none else some x.1

/-- Time does not go back. -/
def Legal (s : Mirrored Tport) (op : Uri2InvalidData.Op Tport) : Prop := s.clock ≤ op.now

instance (s : Mirrored Tport) (op : Uri2InvalidData.Op Tport) : Decidable (s.Legal op) := inferInstanceAs (Decidable (_ ≤ _))

/-- A lookup returns the transport that the address is bound to. -/
def Right (s : Mirrored Tport) : Uri2InvalidData.Op Tport → Prop
  | .find a now => (s.table.findTportForSubscription a).map (·.tp) = s.boundAt a now
  | _ => True

/-- An address that is bound fits, and what a lookup finds has not expired. -/
def Proper (s : Mirrored Tport) : Uri2InvalidData.Op Tport → Prop
  | .cache a _ _ _ => a.Fits
  | .find a now => ∀ d ∈ s.table.lookup a.uri, d.isExpired now = false
  | _ => True

instance (s : Mirrored Tport) (op : Uri2InvalidData.Op Tport) : Decidable (s.Proper op) :=
  match op with
  | .cache a _ _ _ => inferInstanceAs (Decidable a.Fits)
  | .find a now => inferInstanceAs (Decidable (∀ d ∈ s.table.lookup a.uri, d.isExpired now = false))
  | .flush _ _ | .watchdog _ => isTrue trivial

/-- A lookup goes wrong: this one, or the one that follows the binding. -/
def Fails (s : Mirrored Tport) : Uri2InvalidData.Op Tport → Prop
  | .cache a expires tp now => 0 ≤ expires → ¬ (s.step (.cache a expires tp now)).Right (.find a now)
  | .find a now => ¬ s.Right (.find a now)
  | _ => False

section
variable {s : Mirrored Tport} {op : Uri2InvalidData.Op Tport} {a : Address} {expires now : Int} {tp : Tport} {k : String}
  {d : UaInvalidData Tport}

/-- The entry of a binding has its transport and its end, whether it is new or not. -/
theorem cache_eq (m : Uri2InvalidData Tport) (a : Address) (expires : Int) (tp : Tport) (now : Int) :
    ∃ d : UaInvalidData Tport, d.tp = tp ∧ d.expires = now + expires ∧
      m.cacheTportForSubscription a.user a.host expires tp now = m.insert a.entryUri d := by
  rw [Uri2InvalidData.cacheTportForSubscription, a.getUri_eq]
  cases m.lookup a.entryUri with
  | none => exact ⟨_, rfl, rfl, rfl⟩
  | some old => exact ⟨{ old with expires := now + expires, tp := tp }, rfl, rfl, rfl⟩

/-- The table holds what the addresses are bound to, up to what has expired, under keys of addresses that fit. -/
structure Mirrors (s : Mirrored Tport) : Prop where
  sound : ∀ a d, s.table.lookup a.uri = some d → s.bound a = some (d.tp, d.expires)
  complete : ∀ a x, s.bound a = some x → (∃ d, s.table.lookup a.uri = some d) ∨ x.2 < s.clock
  fits : ∀ k d, s.table.lookup k = some d → ∃ a : Address, a.Fits ∧ a.uri = k

theorem Mirrors.start (clock : Int) : (Mirrored.start clock : Mirrored Tport).Mirrors where
  sound := by simp [Mirrored.start]
  complete := by simp [Mirrored.start]
  fits := by simp [Mirrored.start]

theorem Mirrors.cache (h : s.Mirrors) (hlegal : s.clock ≤ now) (hfits : a.Fits) :
    (s.step (.cache a expires tp now)).Mirrors := by
  obtain ⟨d, htp, hexpires, htable⟩ := cache_eq s.table a expires tp now
  rw [a.entryUri_eq_uri_iff.mpr hfits] at htable
  refine ⟨fun b e he => ?_, fun b x hx => ?_, fun k e he => ?_⟩
  · rw [show (s.step (.cache a expires tp now)).table = _ from htable] at he
    rcases AList.lookup_insert_eq_some.mp he with ⟨heq, rfl⟩ | ⟨hne, he⟩
    · obtain rfl := Address.uri_injective heq
      rw [htp, hexpires]
      exact Function.update_self b _ _
    · have hb : b ≠ a := fun heq => hne (congrArg Address.uri heq)
      exact (Function.update_of_ne hb _ _).trans (h.sound b e he)
  · rw [show (s.step (.cache a expires tp now)).table = _ from htable]
    by_cases hb : b = a
    · subst hb
      exact .inl ⟨d, AList.lookup_insert _⟩
    · have hx' : s.bound b = some x := (Function.update_of_ne hb _ _).symm.trans hx
      rw [AList.lookup_insert_ne fun heq => hb (Address.uri_injective heq)]
      exact (h.complete b x hx').imp_right fun hlt => Int.lt_of_lt_of_le hlt hlegal
  · rw [show (s.step (.cache a expires tp now)).table = _ from htable] at he
    rcases AList.lookup_insert_eq_some.mp he with ⟨heq, -⟩ | ⟨-, he⟩
    · exact ⟨a, hfits, heq.symm⟩
    · exact h.fits k e he

theorem Mirrors.flush (h : s.Mirrors) (hlegal : s.clock ≤ now) : (s.step (.flush a now)).Mirrors := by
  refine ⟨fun b e he => ?_, fun b x hx => ?_, fun k e he => h.fits k e (AList.lookup_erase_eq_some.mp he).2⟩
  · obtain ⟨hne, he⟩ := AList.lookup_erase_eq_some.mp he
    have hb : b ≠ a := fun heq => hne (congrArg Address.uri heq)
    exact (Function.update_of_ne hb _ _).trans (h.sound b e he)
  · by_cases hb : b = a
    · have hnone : (s.step (.flush a now)).bound b = none := by
        rw [hb]
        exact Function.update_self a _ _
      rw [hnone] at hx
      cases hx
    · have hx' : s.bound b = some x := (Function.update_of_ne hb _ _).symm.trans hx
      rcases h.complete b x hx' with ⟨e, he⟩ | hlt
      · exact .inl ⟨e, AList.lookup_erase_eq_some.mpr ⟨fun heq => hb (Address.uri_injective heq), he⟩⟩
      · exact .inr (Int.lt_of_lt_of_le hlt hlegal)

theorem Mirrors.watchdog (h : s.Mirrors) (hlegal : s.clock ≤ now) : (s.step (.watchdog now)).Mirrors := by
  refine ⟨fun b e he => h.sound b e (AList.lookup_keep_eq_some.mp he).1, fun b x hx => ?_,
    fun k e he => h.fits k e (AList.lookup_keep_eq_some.mp he).1⟩
  rcases h.complete b x hx with ⟨e, he⟩ | hlt
  · cases hexpired : e.isExpired now with
    | false => exact .inl ⟨e, AList.lookup_keep_eq_some.mpr ⟨he, by rw [hexpired]; rfl⟩⟩
    | true =>
      have hbound := h.sound b e he
      rw [show s.bound b = some x from hx, Option.some.injEq] at hbound
      exact .inr (by rw [hbound]; exact of_decide_eq_true hexpired)
  · exact .inr (Int.lt_of_lt_of_le hlt hlegal)

theorem Mirrors.step (h : s.Mirrors) (hlegal : s.Legal op) (hproper : s.Proper op) : (s.step op).Mirrors := by
  cases op with
  | cache a expires tp now => exact h.cache hlegal hproper
  | flush a now => exact h.flush hlegal
  | find a now =>
    exact ⟨h.sound, fun b x hx => (h.complete b x hx).imp_right fun hlt => Int.lt_of_lt_of_le hlt hlegal, h.fits⟩
  | watchdog now => exact h.watchdog hlegal

/-! ### Lookups -/

/-- A lookup is right just when what it finds has not expired. -/
theorem Mirrors.find_iff (h : s.Mirrors) (hlegal : s.Legal (.find a now)) :
    s.Right (.find a now) ↔ s.Proper (.find a now) := by
  show (s.table.lookup a.uri).map (·.tp) = s.boundAt a now ↔ ∀ d ∈ s.table.lookup a.uri, d.isExpired now = false
  rw [boundAt]
  cases hd : s.table.lookup a.uri with
  | some d =>
    rw [h.sound a d hd]
    by_cases hexpired : d.expires < now
    · simp [UaInvalidData.isExpired, hexpired]
    · simp [UaInvalidData.isExpired, Int.not_lt.mp hexpired]
  | none =>
    refine iff_of_true ?_ (by simp)
    cases hx : s.bound a with
    | none => rfl
    | some x =>
      rcases h.complete a x hx with ⟨d, hd'⟩ | hlt
      · rw [hd] at hd'
        cases hd'
      · have hpast : x.2 < now := Int.lt_of_lt_of_le hlt hlegal
        simp [hpast]

theorem Mirrors.right (h : s.Mirrors) (hlegal : s.Legal op) (hproper : s.Proper op) : s.Right op := by
  cases op with
  | find a now => exact (h.find_iff hlegal).mpr hproper
  | _ => exact trivial

/-- An address that does not fit is not found under the key that it is looked up under. -/
theorem Mirrors.cache_fails (h : s.Mirrors) (hfits : ¬ a.Fits) (hexpires : 0 ≤ expires) :
    ¬ (s.step (.cache a expires tp now)).Right (.find a now) := by
  obtain ⟨d, -, -, htable⟩ := cache_eq s.table a expires tp now
  have hkey : a.uri ≠ a.entryUri := fun heq => hfits (a.entryUri_eq_uri_iff.mp heq.symm)
  have hnone : s.table.lookup a.uri = none := by
    cases hd : s.table.lookup a.uri with
    | none => rfl
    | some e =>
      obtain ⟨b, hb, heq⟩ := h.fits _ e hd
      exact absurd (Address.uri_injective heq ▸ hb) hfits
  have hfound : (s.step (.cache a expires tp now)).table.lookup a.uri = none := by
    rw [show (s.step (.cache a expires tp now)).table = _ from htable, AList.lookup_insert_ne hkey]
    exact hnone
  have hbound : (s.step (.cache a expires tp now)).boundAt a now = some tp := by
    have hupdate : (s.step (.cache a expires tp now)).bound a = some (tp, now + expires) := Function.update_self a _ _
    have hlater : ¬ now + expires < now := by omega
    rw [boundAt, hupdate, Option.bind_some, if_neg hlater]
  intro hright
  rw [Right, Uri2InvalidData.findTportForSubscription, hfound, hbound] at hright
  cases hright

theorem Mirrors.fails (h : s.Mirrors) (hlegal : s.Legal op) (hproper : ¬ s.Proper op) : s.Fails op := by
  cases op with
  | cache a expires tp now => exact fun hexpires => h.cache_fails hproper hexpires
  | find a now => exact mt (h.find_iff hlegal).mp hproper
  | flush a now => exact hproper trivial
  | watchdog now => exact hproper trivial

end

end Mirrored

end

open Machine Mirrored

/-- In every run that binds only addresses that fit, and looks up no address whose binding has expired but not been taken
    out yet, every lookup returns the transport of the last binding of the very same address, while its time lasts and
    unless it was flushed, and else nothing. At the end of such a run, any other binding whose time is not over at once
    makes the lookup that follows go wrong, and so does any other lookup. -/
theorem bindings_expire {Tport : Type} (clock : Int) (ops : List (Uri2InvalidData.Op Tport))
    (hlegal : Meets Mirrored.step Legal (start clock) ops) (hproper : Meets Mirrored.step Proper (start clock) ops) :
    Meets Mirrored.step Right (start clock) ops ∧
      ∀ op, (run Mirrored.step (start clock) ops).Legal op → ¬ (run Mirrored.step (start clock) ops).Proper op →
        (run Mirrored.step (start clock) ops).Fails op := by
  have hboth := hlegal.and hproper
  refine ⟨hboth.of_invariant (fun s op h hop => ⟨h.step hop.1 hop.2, h.right hop.1 hop.2⟩) (Mirrors.start clock), ?_⟩
  intro op hop hnot
  have hkept := run_induction (fun s op h hop => Mirrors.step h hop.1 hop.2) (Mirrors.start clock) hboth
  exact hkept.fails hop hnot

/-- Two users of one host register, one of them again over another transport; what is not renewed expires. -/
theorem bindings_of_two :
    let alice := Address.parse "alice@example.com"
    let bob := Address.parse "bob@example.com"
    let ops : List (Uri2InvalidData.Op Nat) := [.cache alice 60 1 0, .cache bob 60 2 0, .cache alice 60 3 50, .watchdog 61,
      .find alice 70, .find bob 70, .flush alice 80, .find alice 80]
    Meets Mirrored.step Legal (start 0) ops ∧ Meets Mirrored.step Right (start 0) ops :=
  ⟨by decide, (bindings_expire 0 _ (by decide) (by decide)).1⟩

/-- A Contact with an empty user is bound but not found, and a binding is found behind the end of its time. -/
theorem binding_missed :
    let anonymous := Address.parse "@example.com"
    let alice := Address.parse "alice@example.com"
    Meets Mirrored.step Legal (start 0) [.cache anonymous 60 1 0, .find anonymous 1] ∧
      ¬ Meets Mirrored.step Right (start 0) [.cache anonymous 60 1 0, .find anonymous 1] ∧
      ¬ Meets Mirrored.step Right (start 0) [.cache alice 60 1 0, .find alice 61] := by
  refine ⟨by decide, fun h => ?_, fun h => ?_⟩
  · have hright : (none : Option Nat) = some 1 := h.2.1
    cases hright
  · have hright : some 1 = (none : Option Nat) := h.2.1
    cases hright

end Drachtio.Controller
