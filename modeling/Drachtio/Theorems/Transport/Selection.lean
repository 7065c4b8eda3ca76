import Drachtio.Transport.Selection

/-! The transport that is found for a host. The comparison puts a transport before itself unless it is bound to the loopback
    host, has no external address and is not in the network of the host, so there is a sort only where all the candidates
    are like that. -/

namespace Drachtio.Transport

open Sip (Text SipUri parseSipUri)
open Sorting (Algorithm Orders)

/-! ### What is asked for -/

/-- The protocol that the URI names, or else the one that is given -/
def requestedProtocol (remoteHost : Text) (proto : Option Text) : Text :=
  match (parseSipUri remoteHost).bind fun u => u.params.find? fun kv => decide (kv.1 = "transport".toList) with
  | some kv => kv.2
  | none => proto.getD []

/-- The host of a URI, or the text itself -/
def requestedHost (remoteHost : Text) : Text := ((parseSipUri remoteHost).map SipUri.hostpart).getD remoteHost

/-- A transport of the family and the protocol that are asked for; the case of the protocol does not matter. -/
structure Matches (remoteHost : Text) (proto : Option Text) (p : SipTransport) : Prop where
  family : p.isIpV6 = true ↔ '[' ∈ remoteHost ∧ ']' ∈ remoteHost
  protocol : requestedProtocol remoteHost proto = [] ∨
    p.getProtocol.map Char.toLower = (requestedProtocol remoteHost proto).map Char.toLower

/-- With an external address, others, or bound to the loopback host -/
def standing (p : SipTransport) : Nat := if p.hasExternalIp = true then 2 else if p.isLocalhost = true then 0 else 1

/-- One transport is to be preferred to another: by the network, by the octets in common, then by its standing. -/
def Better (host : Text) (p q : SipTransport) : Prop :=
  (p.isInNetwork host = some true ∧ q.isInNetwork host ≠ some true) ∨
    ((p.isInNetwork host = some true ↔ q.isInNetwork host = some true) ∧
      (q.getOctetMatchCount host < p.getOctetMatchCount host ∨
        q.getOctetMatchCount host = p.getOctetMatchCount host ∧ standing q < standing p))

/-- The comparison looks at nothing undefined and is a strict weak ordering of the transports that match, and of these none
    is better than the one that is found. -/
structure Selects (sorting : Algorithm SipTransport) (master : SipTransport) (transports : List SipTransport)
    (remoteHost : Text) (proto : Option Text) : Prop where
  defined : ∀ p ∈ candidates (wanted remoteHost proto) transports, ∀ q ∈ candidates (wanted remoteHost proto) transports,
    precedes (requestedHost remoteHost) p q ≠ none
  ordered : Orders (sortsBefore (requestedHost remoteHost)) (candidates (wanted remoteHost proto) transports)
  best : ∀ p, findAppropriateTransport sorting master transports remoteHost proto = .transport p →
    p ∈ transports ∧ Matches remoteHost proto p ∧
      ∀ q ∈ transports, Matches remoteHost proto q → ¬Better (requestedHost remoteHost) q p

/-- A transport that the comparison does not put before itself -/
structure Idle (host : Text) (p : SipTransport) : Prop where
  network : p.isInNetwork host = some false
  external : p.hasExternalIp = false
  localhost : p.isLocalhost = true

section
variable {host remoteHost : Text} {proto : Option Text} {transports : List SipTransport} {p q : SipTransport}

theorem wanted_host : (wanted remoteHost proto).host = requestedHost remoteHost := rfl

theorem wanted_ipV6 : (wanted remoteHost proto).ipV6 = true ↔ '[' ∈ remoteHost ∧ ']' ∈ remoteHost := by
  have hboth : (wanted remoteHost proto).ipV6 = (decide ('[' ∈ remoteHost) && decide (']' ∈ remoteHost)) := rfl
  rw [hboth, Bool.and_eq_true, decide_eq_true_eq, decide_eq_true_eq]

theorem wanted_proto : (wanted remoteHost proto).proto = (requestedProtocol remoteHost proto).map Char.toLower := by
  unfold wanted requestedProtocol
  cases parseSipUri remoteHost with
  | none => rfl
  | some u =>
    dsimp only [Option.map_some, Option.getD_some, Option.bind_some]
    cases u.params.find? fun kv => decide (kv.1 = "transport".toList) with
    | none => rfl
    | some kv => rfl

theorem mem_candidates (hlower : p.getProtocol.map Char.toLower = p.getProtocol) :
    p ∈ candidates (wanted remoteHost proto) transports ↔ p ∈ transports ∧ Matches remoteHost proto p := by
  have hfamily : decide (p.isIpV6 = (wanted remoteHost proto).ipV6) = true ↔
      (p.isIpV6 = true ↔ '[' ∈ remoteHost ∧ ']' ∈ remoteHost) := by
    rw [decide_eq_true_eq, Bool.eq_iff_iff, wanted_ipV6]
  have hprotocol : decide ((wanted remoteHost proto).proto = [] ∨ p.getProtocol = (wanted remoteHost proto).proto) = true ↔
      requestedProtocol remoteHost proto = [] ∨
        p.getProtocol.map Char.toLower = (requestedProtocol remoteHost proto).map Char.toLower := by
    rw [decide_eq_true_eq, wanted_proto, hlower, List.map_eq_nil_iff]
  rw [candidates, List.mem_filter, List.mem_filter, hfamily, hprotocol, and_assoc]
  exact ⟨fun ⟨h, hf, hp⟩ => ⟨h, hf, hp⟩, fun ⟨h, hf, hp⟩ => ⟨h, hf, hp⟩⟩

/-! ### The comparison -/

/-- Behind the network the comparison goes by octets, and at last by what the first transport is. -/
theorem precedes_outside (hp : p.isInNetwork host = some false) (hq : q.isInNetwork host = some false) :
    precedes host p q = some (decide (q.getOctetMatchCount host < p.getOctetMatchCount host) ||
      (decide (q.getOctetMatchCount host = p.getOctetMatchCount host) &&
        (p.hasExternalIp || (!q.hasExternalIp && !p.isLocalhost)))) := by
  unfold precedes
  rw [hp, hq]
  dsimp only
  refine congrArg some ?_
  rcases Nat.lt_trichotomy (p.getOctetMatchCount host) (q.getOctetMatchCount host) with hlt | heq | hgt
  · rw [if_neg (Nat.not_lt_of_gt hlt), if_pos hlt, decide_eq_false (Nat.not_lt_of_gt hlt), decide_eq_false (Nat.ne_of_gt hlt)]
    rfl
  · rw [heq, if_neg (Nat.lt_irrefl _), if_neg (Nat.lt_irrefl _), decide_eq_false (Nat.lt_irrefl _), decide_eq_true rfl]
    cases p.hasExternalIp <;> cases q.hasExternalIp <;> cases p.isLocalhost <;> simp
  · rw [if_pos hgt, decide_eq_true hgt, Bool.true_or]

/-- Of two transports that are not both in the network the better one comes first. -/
theorem precedes_of_better (hp : p.isInNetwork host ≠ none) (hq : q.isInNetwork host ≠ none)
    (hboth : ¬(p.isInNetwork host = some true ∧ q.isInNetwork host = some true)) (h : Better host p q) :
    precedes host p q = some true ∧ precedes host q p = some false := by
  have hcases {x : SipTransport} (hx : x.isInNetwork host ≠ none) (hin : x.isInNetwork host ≠ some true) :
      x.isInNetwork host = some false := by
    obtain ⟨b, hb⟩ := Option.ne_none_iff_exists'.mp hx
    cases b with
    | true => exact absurd hb hin
    | false => exact hb
  rcases h with ⟨hin, hout⟩ | ⟨hsame, hrank⟩
  · have hout := hcases hq hout
    constructor
    · rw [precedes, hin]
    · rw [precedes, hout, hin]
  · have hpout : p.isInNetwork host = some false := hcases hp fun hin => hboth ⟨hin, hsame.mp hin⟩
    have hqout : q.isInNetwork host = some false := hcases hq fun hin => hboth ⟨hsame.mpr hin, hin⟩
    rw [precedes_outside hpout hqout, precedes_outside hqout hpout]
    rcases hrank with hlt | ⟨heq, hstanding⟩
    · rw [decide_eq_true hlt, decide_eq_false (Nat.not_lt_of_gt hlt), decide_eq_false (Nat.ne_of_gt hlt)]
      exact ⟨rfl, rfl⟩
    · rw [heq, decide_eq_false (Nat.lt_irrefl _), decide_eq_true rfl]
      unfold standing at hstanding
      cases hpe : p.hasExternalIp <;> cases hqe : q.hasExternalIp <;> cases hpl : p.isLocalhost <;>
        cases hql : q.isLocalhost <;> simp [hpe, hqe, hpl, hql] at hstanding ⊢

theorem precedes_self (h : precedes host p p = some false) : Idle host p := by
  have hnetwork : p.isInNetwork host = some false := by
    cases hin : p.isInNetwork host with
    | none =>
      rw [precedes, hin] at h
      cases h
    | some b =>
      cases b with
      | true =>
        rw [precedes, hin] at h
        cases h
      | false => rfl
  rw [precedes_outside hnetwork hnetwork, decide_eq_false (Nat.lt_irrefl _), decide_eq_true rfl] at h
  refine ⟨hnetwork, ?_, ?_⟩
  · cases hext : p.hasExternalIp with
    | true => simp [hext] at h
    | false => rfl
  · cases hlocal : p.isLocalhost with
    | true => rfl
    | false => cases hext : p.hasExternalIp <;> simp [hext, hlocal] at h

theorem Idle.precedes (hp : Idle host p) (hq : Idle host q) :
    precedes host p q = some (decide (q.getOctetMatchCount host < p.getOctetMatchCount host)) := by
  rw [precedes_outside hp.network hq.network, hp.external, hp.localhost, hq.external]
  simp

/-- Among these transports only the octets make one better. -/
theorem Idle.octets_of_better (hp : Idle host p) (hq : Idle host q) (h : Better host p q) :
    q.getOctetMatchCount host < p.getOctetMatchCount host := by
  rcases h with ⟨hin, -⟩ | ⟨-, h | ⟨-, h⟩⟩
  · rw [hp.network] at hin
    cases hin
  · exact h
  · simp [standing, hp.external, hp.localhost, hq.external, hq.localhost] at h

end

/-- The order is the documented one, and the comparison fit for a sort, just where all the transports that match stand
    alike. -/
theorem findAppropriateTransport_selects_iff (sorting : Algorithm SipTransport) (master : SipTransport)
    (transports : List SipTransport) (remoteHost : Text) (proto : Option Text)
    (hlower : ∀ p ∈ transports, p.getProtocol.map Char.toLower = p.getProtocol) :
    Selects sorting master transports remoteHost proto ↔
      ∀ p ∈ transports, Matches remoteHost proto p → Idle (requestedHost remoteHost) p := by
  constructor
  · intro h p hp hmatches
    have hcandidate := (mem_candidates (hlower p hp)).mpr ⟨hp, hmatches⟩
    obtain ⟨b, hb⟩ := Option.ne_none_iff_exists'.mp (h.defined p hcandidate p hcandidate)
    have hself := h.ordered.irrefl hcandidate
    cases b with
    | true => exact absurd hb (of_decide_eq_false hself)
    | false => exact precedes_self hb
  · intro hidle
    have hcandidates : ∀ p ∈ candidates (wanted remoteHost proto) transports, p ∈ transports ∧
        Matches remoteHost proto p := by
      intro p hp
      have hmem : p ∈ transports := List.mem_of_mem_filter (List.mem_of_mem_filter hp)
      exact (mem_candidates (hlower p hmem)).mp hp
    have hprecedes : ∀ p ∈ candidates (wanted remoteHost proto) transports,
        ∀ q ∈ candidates (wanted remoteHost proto) transports, precedes (requestedHost remoteHost) p q =
          some (decide (q.getOctetMatchCount (requestedHost remoteHost) < p.getOctetMatchCount
          (requestedHost remoteHost))) := by
      intro p hp q hq
      obtain ⟨hp, hmp⟩ := hcandidates p hp
      obtain ⟨hq, hmq⟩ := hcandidates q hq
      exact (hidle p hp hmp).precedes (hidle q hq hmq)
    have hordered : Orders (sortsBefore (requestedHost remoteHost)) (candidates (wanted remoteHost proto) transports) := by
      refine Sorting.orders_of_rank (·.getOctetMatchCount (requestedHost remoteHost)) fun p hp q hq => ?_
      rw [sortsBefore, hprecedes p hp q hq, decide_eq_true_eq, Option.some_inj, decide_eq_true_eq]
    refine ⟨fun p hp q hq => ?_, hordered, fun p hfound => ?_⟩
    · rw [hprecedes p hp q hq]
      exact Option.some_ne_none _
    · have hhead : (sorting.sort (sortsBefore (requestedHost remoteHost))
          (candidates (wanted remoteHost proto) transports)).head? = some p := by
        unfold findAppropriateTransport at hfound
        dsimp only at hfound
        rw [wanted_host] at hfound
        split at hfound
        · split at hfound <;> cases hfound
        · rename_i hsorted
          cases hfound
          rw [hsorted]
          rfl
      obtain ⟨hp, hleast⟩ := sorting.head_least hordered hhead
      obtain ⟨hmem, hmatches⟩ := hcandidates p hp
      refine ⟨hmem, hmatches, fun q hq hmq hbetter => ?_⟩
      have hq' := (mem_candidates (hlower q hq)).mpr ⟨hq, hmq⟩
      have hoctets := (hidle q hq hmq).octets_of_better (hidle p hmem hmatches) hbetter
      have hfirst := hleast q hq'
      rw [sortsBefore, hprecedes q hq' p hp, decide_eq_true hoctets] at hfirst
      exact absurd hfirst (by decide)

/-- A bound transport without a local network and an external address -/
def boundTo (host proto : Text) : SipTransport where
  contact := []
  externalIp := []
  localNet := []
  netmask := 0
  range := none
  contactUri := ⟨[], [], [], [], []⟩
  hasTport := true
  tpName := some ⟨host, "5060".toList, proto⟩

theorem findAppropriateTransport_selects_iff_loopback :
    Selects Sorting.mergeSort (boundTo "*".toList "udp".toList)
      [boundTo "203.0.113.5".toList "tcp".toList, boundTo "127.0.0.1".toList "udp".toList]
      "sip:203.0.113.9;transport=UDP".toList (some "tcp".toList) := by
  refine (findAppropriateTransport_selects_iff _ _ _ _ _ (by decide)).mpr fun p hp hmatches => ?_
  rcases List.mem_cons.mp hp with rfl | hp
  · exact absurd hmatches.protocol (by decide)
  · obtain rfl := List.mem_singleton.mp hp
    exact ⟨by decide, by decide, by decide⟩

/-- Two transports are each put before the other. -/
theorem both_first :
    sortsBefore "203.0.113.9".toList (boundTo "203.0.113.5".toList "udp".toList)
        (boundTo "203.0.113.6".toList "udp".toList) = true ∧
      sortsBefore "203.0.113.9".toList (boundTo "203.0.113.6".toList "udp".toList)
        (boundTo "203.0.113.5".toList "udp".toList) = true ∧
      ¬Selects Sorting.mergeSort (boundTo "*".toList "udp".toList)
        [boundTo "203.0.113.5".toList "udp".toList, boundTo "203.0.113.6".toList "udp".toList] "203.0.113.9".toList
        (some "udp".toList) := by
  refine ⟨by decide, by decide, fun h => ?_⟩
  have hcandidate : boundTo "203.0.113.5".toList "udp".toList ∈ candidates (wanted "203.0.113.9".toList (some "udp".toList))
      [boundTo "203.0.113.5".toList "udp".toList, boundTo "203.0.113.6".toList "udp".toList] := by decide
  exact absurd (h.ordered.irrefl hcandidate) (by decide)

end Drachtio.Transport
