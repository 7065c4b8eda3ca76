import Drachtio.Transport.Table

/-! What is local to the server, whatever transports it was started with: `isLocalAddress`, by which a Route header is taken
    for its own, and `isLocalSipUri`, by which it refuses to send to itself, go by different parts of the configuration. -/

namespace Drachtio.Transport

open Sip (Text SipUri parseSipUri)

variable {config : NamedTransport} {configs : List (NamedTransport × List Tport)} {m m' : Transports} {tp : Tport} {id : Nat}
  {p : NamedTransport} {host : Text}

/-! ### The transport of a tport -/

theorem setNet_same {network bits : Text} {t t' : SipTransport} (h : t.setNet network bits = .ok t') :
    t'.tpName = t.tpName ∧ t'.contactUri = t.contactUri ∧ t'.externalIp = t.externalIp := by
  unfold SipTransport.setNet at h
  split at h
  · exact nomatch h
  · obtain rfl := Except.ok.inj h
    exact ⟨rfl, rfl, rfl⟩

theorem init_same {t t' : SipTransport} (h : t.init = .ok t') :
    parseSipUri t.contact = some t'.contactUri ∧ t'.externalIp = t.externalIp := by
  unfold SipTransport.init at h
  split at h
  · exact nomatch h
  · rename_i uri hparse
    dsimp only at h
    split at h
    · exact nomatch h
    · split at h
      · obtain rfl := Except.ok.inj h
        exact ⟨hparse, rfl⟩
      · split at h
        · exact nomatch h
        · obtain ⟨-, huri, hext⟩ := setNet_same h
          exact ⟨by rw [huri, hparse], hext⟩

/-- A transport is named as its tport, and has the parts of the contact and the external address that were configured. -/
theorem addTransport_same {tpn : TpName} {t t' : SipTransport} (h : t.addTransport tpn = .ok t') :
    t'.tpName = some tpn ∧ parseSipUri t.contact = some t'.contactUri ∧ t'.externalIp = t.externalIp := by
  unfold SipTransport.addTransport at h
  split at h
  · exact nomatch h
  · rename_i t'' hcopy
    obtain ⟨hparse, hext⟩ := init_same hcopy
    dsimp only at h
    split at h
    · split at h
      · obtain rfl := Except.ok.inj h
        exact ⟨rfl, hparse, hext⟩
      · split at h
        · exact nomatch h
        · rename_i t₃ hnet
          obtain ⟨hname, huri, hext'⟩ := setNet_same hnet
          obtain rfl := Except.ok.inj h
          exact ⟨hname, by rw [huri]; exact hparse, hext'.trans hext⟩
    · obtain rfl := Except.ok.inj h
      exact ⟨rfl, hparse, hext⟩

/-- What a transport is, of a tport and of the configuration that it was made from -/
structure MadeFrom (config : NamedTransport) (tpn : TpName) (p : NamedTransport) : Prop where
  tpName : p.transport.tpName = some tpn
  contact : parseSipUri config.transport.contact = some p.transport.contactUri
  externalIp : p.transport.externalIp = config.transport.externalIp
  dnsNames : p.dnsNames = config.dnsNames

/-- The tports in the order in which the start comes to them, each with the configuration that it comes from -/
def arrivals (configs : List (NamedTransport × List Tport)) : List (NamedTransport × Tport) :=
  configs.flatMap fun c => c.2.map fun tp => (c.1, tp)

/-- The configuration that the start comes to a tport with first, and the tport as it is then -/
def owner (id : Nat) (configs : List (NamedTransport × List Tport)) : Option (NamedTransport × Tport) :=
  (arrivals configs).find? fun a => decide (a.2.id = id)

theorem add_cases (h : m.add config tp = .ok m') :
    (tp.id ∈ m ∧ m' = m) ∨ (tp.id ∉ m ∧ ∃ p, MadeFrom config tp.name p ∧ m' = m.insert tp.id p) := by
  unfold Transports.add at h
  split at h
  · rename_i hmem
    exact Or.inl ⟨hmem, (Except.ok.inj h).symm⟩
  · rename_i hmem
    split at h
    · exact nomatch h
    · rename_i t ht
      obtain ⟨hname, hparse, hext⟩ := addTransport_same ht
      have hmade : MadeFrom config tp.name ⟨t, config.dnsNames⟩ := ⟨hname, hparse, hext, rfl⟩
      exact Or.inr ⟨hmem, _, hmade, (Except.ok.inj h).symm⟩

theorem start_eq (configs : List (NamedTransport × List Tport)) (m : Transports) :
    configs.foldlM (fun m c => m.addTransports c.1 c.2) m = (arrivals configs).foldlM (fun m a => m.add a.1 a.2) m := by
  induction configs generalizing m with
  | nil => rfl
  | cons c configs ih =>
    have hmap : (c.2.map fun tp => (c.1, tp)).foldlM (fun m a => m.add a.1 a.2) m = m.addTransports c.1 c.2 :=
      List.foldlM_map ..
    rw [List.foldlM_cons, arrivals, List.flatMap_cons, List.foldlM_append, hmap]
    exact congrArg (m.addTransports c.1 c.2 >>= ·) (funext ih)

/-- The table has a transport for each tport that came, made from the first that came. -/
def Owned (as : List (NamedTransport × Tport)) (m : Transports) : Prop :=
  ∀ id, Option.Rel (fun p a => MadeFrom a.1 a.2.name p) (m.lookup id) (as.find? fun a => decide (a.2.id = id))

theorem Owned.of_lookup {as : List (NamedTransport × Tport)} (h : Owned as m) (hp : m.lookup id = some p) :
    ∃ a, (as.find? fun a => decide (a.2.id = id)) = some a ∧ MadeFrom a.1 a.2.name p := by
  have hid := h id
  rw [hp] at hid
  generalize (as.find? fun a => decide (a.2.id = id)) = found at hid ⊢
  cases hid with
  | some hmade => exact ⟨_, rfl, hmade⟩

theorem Owned.of_find {as : List (NamedTransport × Tport)} (h : Owned as m) {a : NamedTransport × Tport}
    (ha : (as.find? fun a => decide (a.2.id = id)) = some a) : ∃ p, m.lookup id = some p ∧ MadeFrom a.1 a.2.name p := by
  have hid := h id
  rw [ha] at hid
  generalize m.lookup id = found at hid ⊢
  cases hid with
  | some hmade => exact ⟨_, rfl, hmade⟩

theorem Owned.add {as : List (NamedTransport × Tport)} (h : Owned as m) (hadd : m.add config tp = .ok m') :
    Owned (as ++ [(config, tp)]) m' := by
  intro id
  have hid := h id
  rw [List.find?_append]
  rcases add_cases hadd with ⟨hmem, rfl⟩ | ⟨hmem, p, hmade, rfl⟩
  · by_cases heq : tp.id = id
    · obtain ⟨q, hq⟩ := Option.isSome_iff_exists.mp (AList.lookup_isSome.mpr (heq ▸ hmem))
      rw [hq] at hid ⊢
      cases hfind : as.find? fun a => decide (a.2.id = id) with
      | none => rw [hfind] at hid; exact nomatch hid
      | some a => rw [hfind] at hid; exact hid
    · have hlast : [(config, tp)].find? (fun a => decide (a.2.id = id)) = none := List.find?_eq_none.mpr (by simpa using heq)
      rwa [hlast, Option.or_none]
  · by_cases heq : tp.id = id
    · have hnone : m.lookup id = none := AList.lookup_eq_none.mpr (heq ▸ hmem)
      have hlast : [(config, tp)].find? (fun a => decide (a.2.id = id)) = some (config, tp) :=
        List.find?_cons_of_pos (by simpa using heq)
      rw [hnone] at hid
      cases hfind : as.find? fun a => decide (a.2.id = id) with
      | none => rw [hlast, ← heq, AList.lookup_insert]; exact .some hmade
      | some a => rw [hfind] at hid; exact nomatch hid
    · have hlast : [(config, tp)].find? (fun a => decide (a.2.id = id)) = none := List.find?_eq_none.mpr (by simpa using heq)
      rwa [hlast, Option.or_none, AList.lookup_insert_ne (Ne.symm heq)]

theorem Owned.foldlM {as bs : List (NamedTransport × Tport)} (h : Owned as m)
    (hfold : bs.foldlM (fun m a => Transports.add a.1 m a.2) m = .ok m') : Owned (as ++ bs) m' := by
  induction bs generalizing as m with
  | nil =>
    obtain rfl := Except.ok.inj hfold
    rwa [List.append_nil]
  | cons b bs ih =>
    rw [List.foldlM_cons] at hfold
    cases hadd : Transports.add b.1 m b.2 with
    | error e => rw [hadd] at hfold; exact nomatch hfold
    | ok m₁ =>
      rw [hadd] at hfold
      have hrest := ih (h.add hadd) hfold
      rwa [List.append_assoc, List.singleton_append] at hrest

theorem owned_start (h : Transports.start configs = .ok m) : Owned (arrivals configs) m := by
  have hempty : Owned [] ∅ := fun id => by rw [AList.lookup_empty]; exact .none
  rw [Transports.start, start_eq] at h
  exact hempty.foldlM h

/-- The transports of the table are those of the tports that came. -/
theorem mem_transports (h : Transports.start configs = .ok m) (P : NamedTransport → Prop)
    (Q : NamedTransport → Tport → Prop) (hPQ : ∀ config tp p, MadeFrom config tp.name p → (P p ↔ Q config tp)) :
    (∃ p ∈ m.transports, P p) ↔ ∃ id config tp, owner id configs = some (config, tp) ∧ Q config tp := by
  have howned := owned_start h
  constructor
  · rintro ⟨p, hp, hP⟩
    obtain ⟨⟨id, p⟩, hmem, rfl⟩ := List.mem_map.mp hp
    have hlookup : m.lookup id = some p := AList.mem_lookup_iff.mpr hmem
    obtain ⟨⟨config, tp⟩, hfind, hmade⟩ := howned.of_lookup hlookup
    exact ⟨id, config, tp, hfind, (hPQ config tp p hmade).mp hP⟩
  · rintro ⟨id, config, tp, hfind, hQ⟩
    obtain ⟨p, hlookup, hmade⟩ := howned.of_find hfind
    have hmem : p ∈ m.transports := List.mem_map.mpr ⟨⟨id, p⟩, AList.mem_lookup_iff.mp hlookup, rfl⟩
    exact ⟨p, hmem, (hPQ config tp p hmade).mpr hQ⟩

/-! ### Local addresses -/

/-- What a Route header may name the server by: the address that a tport is bound to, or the host of the contact, the external
    address or a name in DNS of the configuration that it comes from -/
def AddressOf (host : Text) (config : NamedTransport) (tp : Tport) : Prop :=
  tp.name.host = host ∨ (∃ uri, parseSipUri config.transport.contact = some uri ∧ uri.hostpart = host) ∨
    (config.transport.externalIp ≠ [] ∧ config.transport.externalIp = host) ∨ host ∈ config.dnsNames

theorem MadeFrom.isLocal_iff (h : MadeFrom config tp.name p) : p.isLocal host = true ↔ AddressOf host config tp := by
  have hhost : p.transport.getHost = tp.name.host := by rw [SipTransport.getHost, h.tpName]; rfl
  unfold NamedTransport.isLocal AddressOf SipTransport.hasExternalIp
  rw [hhost, h.contact, h.externalIp, h.dnsNames]
  simp [or_assoc]

/-- A host is local just when some tport that came has it in its configuration, whatever came later. -/
theorem isLocalAddress_iff (configs : List (NamedTransport × List Tport)) (m : Transports)
    (hstart : Transports.start configs = .ok m) (host : Text) :
    m.isLocalAddress host = true ↔ ∃ id config tp, owner id configs = some (config, tp) ∧ AddressOf host config tp := by
  have hany : m.isLocalAddress host = true ↔ ∃ p ∈ m.transports, p.isLocal host = true := by
    rw [Transports.isLocalAddress, List.any_eq_true]
    refine exists_congr fun p => and_congr_right fun _ => ?_
    rw [Bool.or_eq_true]
    exact or_iff_left_of_imp fun hdns => by simp [NamedTransport.isLocal, hdns]
  rw [hany]
  exact mem_transports hstart _ _ fun config tp p hmade => hmade.isLocal_iff

/-- A contact that names a host, and the tport that is bound for it -/
def pbx : NamedTransport := ⟨SipTransport.new "sip:pbx".toList [] [] 0, ["sip.pbx".toList]⟩

def pbxTport : Tport := ⟨1, ⟨"192.168.1.7".toList, "5060".toList, "udp".toList⟩⟩

/-- The transport that is made for it -/
def pbxTransport : SipTransport where
  contact := "sip:pbx".toList
  externalIp := []
  localNet := []
  netmask := 0
  range := none
  contactUri := ⟨"sip".toList, [], "pbx".toList, [], []⟩
  hasTport := true
  tpName := some pbxTport.name

theorem start_pbx : Transports.start [(pbx, [pbxTport])] = .ok (AList.insert 1 ⟨pbxTransport, pbx.dnsNames⟩ ∅) := rfl

theorem isLocalAddress_iff_pbx :
    ∃ m, Transports.start [(pbx, [pbxTport])] = .ok m ∧ m.isLocalAddress "pbx".toList = true ∧
      m.isLocalAddress "sip.pbx".toList = true := by
  refine ⟨_, start_pbx, (isLocalAddress_iff _ _ start_pbx _).mpr ?_, (isLocalAddress_iff _ _ start_pbx _).mpr ?_⟩
  · exact ⟨1, pbx, pbxTport, rfl, Or.inr (Or.inl ⟨pbxTransport.contactUri, rfl, rfl⟩)⟩
  · exact ⟨1, pbx, pbxTport, rfl, Or.inr (Or.inr (Or.inr List.mem_cons_self))⟩

/-! ### Local uris -/

/-- The port in a uri is that of a tport, where a missing one is the default. -/
def SamePort (inUri : Option Text) (port : Text) : Prop :=
  inUri.getD LocalUris.defaultPort = if port = [] then LocalUris.defaultPort else port

/-- The server does not send to a host in the domain that it was told is its own. -/
def InDomain (envLocalDomain : Option Text) (host : Text) : Prop :=
  let localDomain := (envLocalDomain.getD []).map Char.toLower
  localDomain ≠ [] ∧ (host.map Char.toLower = localDomain ∨ ('.' :: localDomain) <:+ host.map Char.toLower)

theorem names_iff {url : UrlHost} {uri : Text × Text} :
    LocalUris.names url host uri = true ↔ uri.1 = host ∧ SamePort url.port uri.2 := by
  unfold LocalUris.names SamePort
  rw [Bool.and_eq_true, decide_eq_true_iff]
  refine and_congr_right fun _ => ?_
  cases url.port with
  | none => exact decide_eq_true_iff.trans eq_comm
  | some port => exact decide_eq_true_iff.trans eq_comm

theorem mem_ofTport {tpn : TpName} {uri : Text × Text} :
    uri ∈ LocalUris.ofTport tpn ↔ tpn.host ≠ ['*'] ∧ uri.2 = tpn.port ∧
      (uri.1 = tpn.host ∨ (tpn.host = LocalUris.loopback ∧ uri.1 = LocalUris.localhost)) := by
  obtain ⟨uriHost, uriPort⟩ := uri
  unfold LocalUris.ofTport
  by_cases hany : tpn.host = ['*']
  · rw [if_pos hany]
    exact iff_of_false List.not_mem_nil fun h => h.1 hany
  · rw [if_neg hany, List.mem_cons, Prod.mk.injEq]
    by_cases hloop : tpn.host = LocalUris.loopback
    · rw [if_pos hloop, List.mem_singleton, Prod.mk.injEq]
      tauto
    · rw [if_neg hloop]
      simp only [List.not_mem_nil]
      tauto

theorem MadeFrom.mem_externalContacts (h : MadeFrom config tp.name p) {uri : Text × Text} :
    uri ∈ p.externalContacts ↔ uri.2 = tp.name.port ∧
      ((config.transport.externalIp ≠ [] ∧ config.transport.externalIp = uri.1) ∨ uri.1 ∈ config.dnsNames) := by
  obtain ⟨uriHost, uriPort⟩ := uri
  have hport : p.transport.getPort = tp.name.port := by rw [SipTransport.getPort, h.tpName]; rfl
  have hdns : (uriHost, uriPort) ∈ config.dnsNames.map (fun name => (name, tp.name.port)) ↔
      uriPort = tp.name.port ∧ uriHost ∈ config.dnsNames := by
    rw [List.mem_map]
    constructor
    · rintro ⟨name, hname, heq⟩
      obtain ⟨rfl, rfl⟩ := Prod.mk.inj heq
      exact ⟨rfl, hname⟩
    · rintro ⟨rfl, hname⟩
      exact ⟨uriHost, hname, rfl⟩
  unfold NamedTransport.externalContacts SipTransport.hasExternalIp
  rw [hport, h.externalIp, h.dnsNames, List.mem_append, hdns]
  by_cases hext : config.transport.externalIp = []
  · simp [hext]
  · simp only [hext, ne_eq, not_false_eq_true, decide_true, ↓reduceIte, List.mem_singleton, Prod.mk.injEq, true_and]
    tauto

theorem mem_init_uris (hstart : Transports.start configs = .ok m) (agent : List Tport) (envLocalDomain port : Option Text) :
    (∃ uri ∈ (LocalUris.init agent m envLocalDomain).uris, uri.1 = host ∧ SamePort port uri.2) ↔
      (∃ tp ∈ agent, tp.name.host ≠ ['*'] ∧ SamePort port tp.name.port ∧
        (tp.name.host = host ∨ (tp.name.host = LocalUris.loopback ∧ host = LocalUris.localhost))) ∨
      ∃ id config tp, owner id configs = some (config, tp) ∧ SamePort port tp.name.port ∧
        ((config.transport.externalIp ≠ [] ∧ config.transport.externalIp = host) ∨ host ∈ config.dnsNames) := by
  have hcontacts : (∃ p ∈ m.transports, ∃ uri ∈ p.externalContacts, uri.1 = host ∧ SamePort port uri.2) ↔
      ∃ id config tp, owner id configs = some (config, tp) ∧ SamePort port tp.name.port ∧
        ((config.transport.externalIp ≠ [] ∧ config.transport.externalIp = host) ∨ host ∈ config.dnsNames) := by
    refine mem_transports hstart _ _ fun config tp p hmade => ?_
    constructor
    · rintro ⟨uri, hmem, rfl, hport⟩
      obtain ⟨hname, hhost⟩ := hmade.mem_externalContacts.mp hmem
      exact ⟨hname ▸ hport, hhost⟩
    · rintro ⟨hport, hhost⟩
      exact ⟨(host, tp.name.port), hmade.mem_externalContacts.mpr ⟨rfl, hhost⟩, rfl, hport⟩
  rw [← hcontacts]
  constructor
  · rintro ⟨uri, hmem, rfl, hport⟩
    rcases List.mem_append.mp hmem with hmem | hmem
    · obtain ⟨tp, htp, hmem⟩ := List.mem_flatMap.mp hmem
      obtain ⟨hany, hname, hhost⟩ := mem_ofTport.mp hmem
      exact Or.inl ⟨tp, htp, hany, hname ▸ hport, hhost.imp_left Eq.symm⟩
    · obtain ⟨p, hp, hmem⟩ := List.mem_flatMap.mp hmem
      exact Or.inr ⟨p, hp, uri, hmem, rfl, hport⟩
  · rintro (⟨tp, htp, hany, hport, hhost⟩ | ⟨p, hp, uri, hmem, rfl, hport⟩)
    · have hmem : (host, tp.name.port) ∈ LocalUris.ofTport tp.name := mem_ofTport.mpr ⟨hany, rfl, hhost.imp_left Eq.symm⟩
      exact ⟨_, List.mem_append_left _ (List.mem_flatMap.mpr ⟨tp, htp, hmem⟩), rfl, hport⟩
    · exact ⟨uri, List.mem_append_right _ (List.mem_flatMap.mpr ⟨p, hp, hmem⟩), rfl, hport⟩

theorem judge_iff (l : LocalUris) (port : Option Text) :
    (l.uris.any (LocalUris.names ⟨some host, port⟩ host) || (decide (l.localDomain ≠ []) &&
      (decide (host.map Char.toLower = l.localDomain) || decide (('.' :: l.localDomain) <:+ host.map Char.toLower)))) = true ↔
      (∃ uri ∈ l.uris, uri.1 = host ∧ SamePort port uri.2) ∨
        (l.localDomain ≠ [] ∧
        (host.map Char.toLower = l.localDomain ∨ ('.' :: l.localDomain) <:+ host.map Char.toLower)) := by
  simp only [Bool.or_eq_true, Bool.and_eq_true, decide_eq_true_iff, List.any_eq_true, names_iff]

/-- Which uris the server takes for its own and does not send to: the port has to match as well, and the host of the contact
    is not looked at. -/
theorem isLocalSipUri_iff (configs : List (NamedTransport × List Tport)) (m : Transports)
    (hstart : Transports.start configs = .ok m) (agent : List Tport) (envLocalDomain : Option Text)
    (decode : Text → Option UrlHost) (beyond requestUri : Text) :
    (LocalUris.init agent m envLocalDomain).isLocalSipUri decode beyond requestUri = some true ↔
      ¬ "tel:".toList <+: requestUri ∧ ∃ host port, decode (Http.copied 255 requestUri beyond) = some ⟨some host, port⟩ ∧
        ((∃ tp ∈ agent, tp.name.host ≠ ['*'] ∧ SamePort port tp.name.port ∧
            (tp.name.host = host ∨ (tp.name.host = LocalUris.loopback ∧ host = LocalUris.localhost))) ∨
          (∃ id config tp, owner id configs = some (config, tp) ∧ SamePort port tp.name.port ∧
            ((config.transport.externalIp ≠ [] ∧ config.transport.externalIp = host) ∨ host ∈ config.dnsNames)) ∨
          InDomain envLocalDomain host) := by
  unfold LocalUris.isLocalSipUri
  by_cases htel : "tel:".toList <+: requestUri
  · rw [if_pos htel]
    exact iff_of_false (by simp) fun h => h.1 htel
  · rw [if_neg htel]
    rcases decode (Http.copied 255 requestUri beyond) with _ | ⟨_ | host, port⟩
    · exact iff_of_false (by simp) fun ⟨_, _, _, h, _⟩ => nomatch h
    · refine iff_of_false ?_ fun ⟨_, _, _, h, _⟩ => nomatch h
      dsimp only
      split <;> simp
    · dsimp only
      rw [Option.some_inj, judge_iff, mem_init_uris hstart, or_assoc]
      constructor
      · exact fun h => ⟨htel, host, port, rfl, h⟩
      · rintro ⟨-, host', port', heq, h⟩
        obtain ⟨rfl, rfl⟩ : host = host' ∧ port = port' := by simpa using heq
        exact h

/-- A parser for uris that have a scheme, a host and nothing behind it -/
def decodeHost (uri : Text) : Option UrlHost := if "sip:".toList <+: uri then some ⟨some (uri.drop 4), none⟩ else none

/-- The server sends to its own contact, and does not send to where it is bound. -/
theorem isLocalSipUri_iff_pbx :
    ∃ m, Transports.start [(pbx, [pbxTport])] = .ok m ∧
      (LocalUris.init [pbxTport] m none).isLocalSipUri decodeHost [] "sip:pbx".toList ≠ some true ∧
      (LocalUris.init [pbxTport] m none).isLocalSipUri decodeHost [] "sip:192.168.1.7".toList = some true := by
  refine ⟨_, start_pbx, fun h => ?_, (isLocalSipUri_iff _ _ start_pbx _ _ _ _ _).mpr ?_⟩
  · obtain ⟨-, host, port, heq, hcases⟩ := (isLocalSipUri_iff _ _ start_pbx _ _ _ _ _).mp h
    have hhost : host = "pbx".toList := (Option.some.inj (congrArg UrlHost.host (Option.some.inj heq))).symm
    rcases hcases with ⟨tp, htp, -, -, hname⟩ | ⟨id, config, tp, hfind, -, hname⟩ | ⟨hdomain, -⟩
    · obtain rfl := List.mem_singleton.mp htp
      rw [hhost] at hname
      revert hname
      decide
    · have hmem : (config, tp) ∈ arrivals [(pbx, [pbxTport])] := List.mem_of_find?_eq_some hfind
      obtain ⟨rfl, rfl⟩ := Prod.mk.inj (List.mem_singleton.mp hmem)
      rw [hhost] at hname
      revert hname
      decide
    · exact hdomain rfl
  · exact ⟨by decide, "192.168.1.7".toList, none, rfl, Or.inl ⟨pbxTport, List.mem_cons_self, by decide, rfl, Or.inl rfl⟩⟩

end Drachtio.Transport
