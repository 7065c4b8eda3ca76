import Drachtio.Transport.SipTransport
import Drachtio.Lib.Fields

/-! Which addresses a transport takes for its network. The mask is right for 1 to 31 bits: one of no bits counts as none at
    all, and one of 32 bits is made with a shift that is undefined. -/

namespace Drachtio.Transport

open Numerals (IsNumber value atoi atoi_number)
open SipTransport (defaultNet addTransport)
open Sip (Text isEol parseSipUri)

/-! ### Masks -/

/-- The mask of a number of bits that the shift is defined for -/
def maskOf (n : Nat) : UInt32 := ~~~(~~~0 >>> UInt32.ofNat n)

section
variable {n i : Nat} {ip net : UInt32}

theorem testBit_maskOf (hn : n < 32) : (maskOf n).toNat.testBit i = decide (32 - n ≤ i ∧ i < 32) := by
  have hshift : ((~~~0 : UInt32) >>> UInt32.ofNat n).toNat = (2 ^ 32 - 1) >>> n := by
    rw [UInt32.toNat_shiftRight, UInt32.toNat_ofNat_of_lt' (hn.trans (by decide)), Nat.mod_eq_of_lt hn]
    rfl
  have hlt : (2 ^ 32 - 1) >>> n < 2 ^ 32 := by
    rw [← hshift]
    exact UInt32.toNat_lt _
  have hnot : (maskOf n).toNat = 2 ^ 32 - ((2 ^ 32 - 1) >>> n + 1) := by
    rw [maskOf, UInt32.toNat_not, hshift, UInt32.size]
    omega
  rw [hnot, Nat.testBit_two_pow_sub_succ hlt, Nat.testBit_shiftRight, Nat.testBit_two_pow_sub_one, Bool.eq_iff_iff]
  simp only [Bool.and_eq_true, Bool.not_eq_true', decide_eq_true_eq, decide_eq_false_iff_not]
  omega

theorem maskOf_ne_zero (hpos : 0 < n) (hn : n < 32) : maskOf n ≠ 0 := by
  intro h
  have htop := testBit_maskOf (i := 31) hn
  rw [h, decide_eq_true ⟨by omega, by decide⟩] at htop
  exact absurd htop (by decide)

theorem and_maskOf_iff (hn : n < 32) :
    ip &&& maskOf n = net &&& maskOf n ↔ ip.toNat / 2 ^ (32 - n) = net.toNat / 2 ^ (32 - n) := by
  constructor
  · intro h
    refine Nat.eq_of_testBit_eq fun i => ?_
    have hbit := congrArg (Nat.testBit · (i + (32 - n))) (congrArg UInt32.toNat h)
    simp only [UInt32.toNat_and, Nat.testBit_and, testBit_maskOf hn] at hbit
    rw [Nat.testBit_div_two_pow, Nat.testBit_div_two_pow]
    by_cases hi : i + (32 - n) < 32
    · rw [decide_eq_true ⟨Nat.le_add_left _ _, hi⟩, Bool.and_true, Bool.and_true] at hbit
      exact hbit
    · have hhigh (x : UInt32) : x.toNat.testBit (i + (32 - n)) = false :=
        Nat.testBit_lt_two_pow (x.toNat_lt.trans_le (Nat.pow_le_pow_right (by decide) (Nat.le_of_not_lt hi)))
      rw [hhigh, hhigh]
  · intro h
    refine UInt32.toNat_inj.mp (Nat.eq_of_testBit_eq fun i => ?_)
    rw [UInt32.toNat_and, UInt32.toNat_and, Nat.testBit_and, Nat.testBit_and, testBit_maskOf hn]
    by_cases hi : 32 - n ≤ i
    · have hbit := congrArg (Nat.testBit · (i - (32 - n))) h
      simp only [Nat.testBit_div_two_pow, Nat.sub_add_cancel hi] at hbit
      rw [hbit]
    · rw [decide_eq_false fun hm => hi hm.1, Bool.and_false, Bool.and_false]

end

/-! ### Configured networks -/

/-- A transport that gets its network from the configuration, or from the host it is bound to -/
inductive Configured (network bits : Text) : Except InitError SipTransport → Prop
  | init {t : SipTransport} (hcontact : parseSipUri t.contact ≠ none)
      (hexternal : t.externalIp = [] ∨ externalIpPattern.first t.externalIp ≠ none)
      (hlocalNet : t.localNet = network ++ '/' :: bits) : Configured network bits t.init
  | defaulted {config : SipTransport} {tpn : TpName} (hcontact : parseSipUri config.contact ≠ none)
      (hexternal : config.externalIp = [] ∨ externalIpPattern.first config.externalIp ≠ none)
      (hlocalNet : config.localNet = [])
      (hhost : defaultNet (if config.externalIp = [] then tpn.host else config.externalIp) = some (network, bits)) :
      Configured network bits (addTransport tpn config)

/-- The network of a transport is made without an undefined shift, and an address is in it if the top bits are the same. -/
def Exact (r : Except InitError SipTransport) (net : UInt32) (n : Nat) : Prop :=
  ∃ t, r = .ok t ∧ ∀ address ip, inetPton address = some ip →
    t.isInNetwork address = some (decide (ip.toNat / 2 ^ (32 - n) = net.toNat / 2 ^ (32 - n)))

section
variable {network bits address : Text} {net ip : UInt32} {t : SipTransport} {r : Except InitError SipTransport}

theorem octet_number {f : Text} {a : Nat} (h : octet f = some a) : IsNumber f := by
  unfold octet at h
  split at h
  · rename_i hf
    exact hf.1
  · cases h

theorem isDigitOrDot_of_inetPton (h : inetPton network = some net) : ∀ c ∈ network, isDigitOrDot c = true := by
  have hfields : ∀ f ∈ network.splitOn '.', IsNumber f := by
    intro f hf
    unfold inetPton at h
    split at h
    · rename_i hsplit
      have hmem := List.mem_map_of_mem (f := octet) hf
      rw [hsplit] at hmem
      simp only [List.mem_cons, List.not_mem_nil, or_false] at hmem
      rcases hmem with h | h | h | h <;> exact octet_number h
    · cases h
  have hjoined : ['.'].intercalate (network.splitOn '.') = network := List.intercalate_splitOn '.'
  intro c hc
  rw [← hjoined] at hc
  rcases Fields.mem_intercalate hc with hdot | ⟨f, hf, hc⟩
  · obtain rfl := List.mem_singleton.mp hdot
    rfl
  · unfold isDigitOrDot
    rw [(hfields f hf).2 c hc, Bool.true_or]

theorem localNet_cut (hnet : inetPton network = some net) (hbits : IsNumber bits) :
    localNetPattern.first (network ++ '/' :: bits) = some (network, bits) := by
  have hbits' : ∀ c ∈ bits, (!isEol c) = true := by
    intro c hc
    have hdigit := hbits.2 c hc
    rw [Bool.not_eq_true', Bool.eq_false_iff]
    intro heol
    rcases Bool.or_eq_true_iff.mp heol with h | h <;> rw [beq_iff_eq.mp h] at hdigit <;> exact absurd hdigit (by decide)
  unfold localNetPattern
  rw [Pattern.first_bind]
  refine Pattern.findSome?_many_whole (isDigitOrDot_of_inetPton hnet) (fun c hc => ?_) ?_
  · obtain rfl := Option.mem_some.mp hc
    decide
  · have hslash : Pattern.text ['/'] ('/' :: bits) = [((), bits)] := Pattern.text_append
    rw [Pattern.first_bind, hslash, List.findSome?_singleton, Pattern.first_bind, ← List.append_nil bits]
    refine Pattern.findSome?_many_whole hbits' (fun c hc => absurd hc (by simp)) ?_
    rw [Pattern.first_eos, if_pos rfl, Pattern.first_pure, List.append_nil]

theorem setNet_eq (hnet : inetPton network = some net) (hbits : IsNumber bits) (hn : value bits ≤ 32) :
    t.setNet network bits = if value bits < 32 then .ok { t with range := some net, netmask := maskOf (value bits) }
      else .error .undefinedShift := by
  have hnumber : (atoi bits).toUInt32 = UInt32.ofNat (value bits) := by
    rw [atoi_number hbits (hn.trans (by decide)), Int32.ofInt_eq_ofNat]
    rfl
  unfold SipTransport.setNet shiftRight
  rw [hnumber]
  by_cases hlt : value bits < 32
  · have hdefined : UInt32.ofNat (value bits) < 32 := by
      rw [UInt32.lt_iff_toNat_lt, UInt32.toNat_ofNat_of_lt' (hlt.trans (by decide))]
      exact hlt
    rw [if_pos hdefined, if_pos hlt, hnet]
    rfl
  · have hundefined : ¬UInt32.ofNat (value bits) < 32 := by
      rw [UInt32.lt_iff_toNat_lt, UInt32.toNat_ofNat_of_lt' (Nat.lt_of_le_of_lt hn (by decide))]
      exact hlt
    rw [if_neg hundefined, if_neg hlt]

/-- The checks of a contact and of an external address that are right are passed. -/
theorem init_eq {uri : Sip.SipUri} (hcontact : parseSipUri t.contact = some uri)
    (hexternal : t.externalIp = [] ∨ externalIpPattern.first t.externalIp ≠ none) :
    (t.localNet = [] → t.init = .ok { t with contactUri := uri }) ∧
      ∀ network bits, t.localNet ≠ [] → localNetPattern.first t.localNet = some (network, bits) →
        t.init = { t with contactUri := uri }.setNet network bits := by
  have hvalid : ¬(t.externalIp ≠ [] ∧ externalIpPattern.first t.externalIp = none) := by
    rintro ⟨hne, hnone⟩
    exact hexternal.elim hne (fun h => h hnone)
  unfold SipTransport.init
  rw [hcontact]
  dsimp only
  rw [if_neg hvalid]
  constructor
  · intro hunset
    rw [if_pos hunset]
  · intro network bits hset hcut
    rw [if_neg hset, hcut]

theorem addTransport_eq {config p : SipTransport} (tpn : TpName) (hcopy : config.copy = .ok p) (hnone : p.localNet = [])
    (hdefault : defaultNet (SipTransport.ownHost { p with hasTport := true, tpName := some tpn }) = some (network, bits)) :
    addTransport tpn config = ({ p with hasTport := true, tpName := some tpn }.setNet network bits).map
      fun p : SipTransport => ({ p with localNet := network ++ '/' :: bits } : SipTransport) := by
  unfold addTransport
  rw [hcopy]
  dsimp only at hdefault ⊢
  rw [if_pos hnone, hdefault]
  dsimp only
  cases SipTransport.setNet network bits _ with
  | error e => rfl
  | ok p => rfl

/-- A configured network is the one that is set, if the shift is defined. -/
theorem Configured.set (h : Configured network bits r) (hnet : inetPton network = some net) (hbits : IsNumber bits)
    (hn : value bits ≤ 32) :
    if value bits < 32 then ∃ t, r = .ok t ∧ t.range = some net ∧ t.netmask = maskOf (value bits)
      else r = .error .undefinedShift := by
  cases h with
  | init hcontact hexternal hlocalNet =>
    rename_i t
    obtain ⟨uri, huri⟩ := Option.ne_none_iff_exists'.mp hcontact
    have hne : t.localNet ≠ [] := by
      rw [hlocalNet]
      exact List.append_ne_nil_of_right_ne_nil _ (List.cons_ne_nil _ _)
    rw [(init_eq huri hexternal).2 network bits hne (hlocalNet ▸ localNet_cut hnet hbits), setNet_eq hnet hbits hn]
    by_cases hlt : value bits < 32
    · simp only [if_pos hlt]
      exact ⟨_, rfl, rfl, rfl⟩
    · simp only [if_neg hlt]
  | defaulted hcontact hexternal hlocalNet hhost =>
    rename_i config tpn
    obtain ⟨uri, huri⟩ := Option.ne_none_iff_exists'.mp hcontact
    obtain ⟨q, hq⟩ : ∃ q, q = SipTransport.new config.contact config.localNet config.externalIp config.netmask := ⟨_, rfl⟩
    have hcopy : config.copy = .ok { q with contactUri := uri } := by
      subst hq
      exact (init_eq (t := SipTransport.new _ _ _ _) huri hexternal).1 hlocalNet
    have hnone : q.localNet = [] := by rw [hq]; exact hlocalNet
    have hown : SipTransport.ownHost { q with contactUri := uri, hasTport := true, tpName := some tpn } =
        if config.externalIp = [] then tpn.host else config.externalIp := by
      have hexternal' : q.externalIp = config.externalIp := by rw [hq]; rfl
      rw [SipTransport.ownHost, SipTransport.hasExternalIp, hexternal']
      by_cases he : config.externalIp = [] <;> simp [he, SipTransport.getHost]
    have hadd := addTransport_eq tpn hcopy hnone (hown.symm ▸ hhost)
    rw [hadd, setNet_eq hnet hbits hn]
    by_cases hlt : value bits < 32
    · simp only [if_pos hlt]
      exact ⟨_, rfl, rfl, rfl⟩
    · simp only [if_neg hlt]
      rfl

theorem isInNetwork_masked {n : Nat} (hpos : 0 < n) (hn : n < 32) (hrange : t.range = some net) (hmask : t.netmask = maskOf n)
    (hip : inetPton address = some ip) :
    t.isInNetwork address = some (decide (ip.toNat / 2 ^ (32 - n) = net.toNat / 2 ^ (32 - n))) := by
  have hset : t.netmask ≠ 0 := hmask ▸ maskOf_ne_zero hpos hn
  rw [SipTransport.isInNetwork, if_neg hset, hip, hrange, hmask]
  exact congrArg some (decide_eq_decide.mpr (and_maskOf_iff hn))

/-- Without bits there is no mask, and no address is in the network. -/
theorem isInNetwork_unmasked (hmask : t.netmask = maskOf 0) : t.isInNetwork address = some false := if_pos hmask

end

/-- A network of 1 to 31 bits has the addresses that its bits say. -/
theorem membership_exact_iff (network bits : Text) (net : UInt32) (r : Except InitError SipTransport)
    (hconfig : Configured network bits r) (hnet : inetPton network = some net) (hbits : IsNumber bits)
    (hn : value bits ≤ 32) : Exact r net (value bits) ↔ 0 < value bits ∧ value bits < 32 := by
  have hset := hconfig.set hnet hbits hn
  by_cases hlt : value bits < 32
  · rw [if_pos hlt] at hset
    obtain ⟨t, rfl, hrange, hmask⟩ := hset
    constructor
    · rintro ⟨t', ht, hexact⟩
      refine ⟨Nat.pos_of_ne_zero fun hzero => ?_, hlt⟩
      obtain rfl := Except.ok.inj ht
      have hself := hexact network net hnet
      rw [isInNetwork_unmasked (hzero ▸ hmask), decide_eq_true rfl] at hself
      cases hself
    · rintro ⟨hpos, -⟩
      exact ⟨t, rfl, fun address ip hip => isInNetwork_masked hpos hlt hrange hmask hip⟩
  · rw [if_neg hlt] at hset
    refine iff_of_false ?_ fun h => hlt h.2
    rintro ⟨t, ht, -⟩
    rw [hset] at ht
    cases ht

/-- A transport with nothing but a contact, and the name it is bound to -/
def loopbackConfig : SipTransport := SipTransport.new "sip:127.0.0.1".toList [] [] 0

def loopbackName : TpName := ⟨"127.0.0.1".toList, "5060".toList, "udp".toList⟩

/-- The same network, configured for one transport and assumed for another -/
theorem membership_exact_iff_ten :
    Exact (SipTransport.construct "sip:10.1.2.3".toList "10.0.0.0/8".toList []) (ipv4 10 0 0 0) 8 ∧
      Exact (addTransport ⟨"10.1.2.3".toList, "5060".toList, "udp".toList⟩ loopbackConfig) (ipv4 10 0 0 0) 8 := by
  have hnet : inetPton "10.0.0.0".toList = some (ipv4 10 0 0 0) := by decide
  have hnumber : IsNumber "8".toList := by decide
  have hconfigured : Configured "10.0.0.0".toList "8".toList
      (SipTransport.construct "sip:10.1.2.3".toList "10.0.0.0/8".toList []) := .init (by decide) (.inl rfl) rfl
  have hassumed : Configured "10.0.0.0".toList "8".toList
      (addTransport ⟨"10.1.2.3".toList, "5060".toList, "udp".toList⟩ loopbackConfig) :=
      .defaulted (by decide) (.inl rfl) rfl rfl
  exact ⟨(membership_exact_iff _ _ _ _ hconfigured hnet hnumber (by decide)).mpr ⟨by decide, by decide⟩,
    (membership_exact_iff _ _ _ _ hassumed hnet hnumber (by decide)).mpr ⟨by decide, by decide⟩⟩

/-- The network that is assumed for a loopback host is made with an undefined shift. -/
theorem loopback_undefined :
    Configured "127.0.0.1".toList "32".toList (addTransport loopbackName loopbackConfig) ∧
      ¬Exact (addTransport loopbackName loopbackConfig) (ipv4 127 0 0 1) 32 := by
  have hconfig : Configured "127.0.0.1".toList "32".toList (addTransport loopbackName loopbackConfig) :=
    .defaulted (by decide) (.inl rfl) rfl rfl
  refine ⟨hconfig, ?_⟩
  have hnet : inetPton "127.0.0.1".toList = some (ipv4 127 0 0 1) := by decide
  have hset := hconfig.set hnet (by decide) (by decide)
  rw [if_neg (by decide)] at hset
  rintro ⟨t, ht, -⟩
  rw [hset] at ht
  cases ht

end Drachtio.Transport
