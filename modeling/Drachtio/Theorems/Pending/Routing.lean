import Drachtio.Pending.Routing

/-! Whether the routing server reads what the query string was made of. Values are encoded and come back as they were;
    the names of Request-URI parameters are put into it as they are. -/

namespace Drachtio.Pending

open Client (bytes)
open Query (Bytes percentDecode percentDecode_eq_self_iff HasEscape unescape ampersand equals percent)

/-! ### Values -/

/-- The decoder finds the byte in its encoding, whatever follows. -/
def decodes (b : UInt8) : Bool :=
  match urlencodeChar b with
  | [c] => c == b && c != percent
  | [p, high, low] => unescape p high low == some b
  | _ => false

theorem urlencodeChar_decodes (b : UInt8) : decodes b = true := by
  have hall : ∀ n : Fin 256, decodes (UInt8.ofFin n) = true := by decide +kernel
  exact hall b.toFin

theorem ampersand_notMem_urlencodeChar (b : UInt8) : ampersand ∉ urlencodeChar b := by
  have hall : ∀ n : Fin 256, ampersand ∉ urlencodeChar (UInt8.ofFin n) := by decide +kernel
  exact hall b.toFin

theorem percentDecode_urlencodeChar (b : UInt8) (rest : Bytes) :
    percentDecode (urlencodeChar b ++ rest) = b :: percentDecode rest := by
  have hdecodes := urlencodeChar_decodes b
  unfold decodes at hdecodes
  split at hdecodes
  · rename_i c hc
    obtain ⟨rfl, hpercent⟩ : c = b ∧ c ≠ percent := by simpa using hdecodes
    rw [hc, List.singleton_append, Query.percentDecode_cons hpercent]
  · rename_i p high low hc
    rw [hc]
    exact Query.percentDecode_escape (eq_of_beq hdecodes)
  · cases hdecodes

theorem ampersand_notMem_urlencode (s : Bytes) : ampersand ∉ urlencode s := by
  intro h
  obtain ⟨b, -, hb⟩ := List.mem_flatMap.mp h
  exact ampersand_notMem_urlencodeChar b hb

/-- A length that is no `int` becomes a smaller one. -/
theorem le_toNatClampNeg_iff {n : Nat} : n ≤ (Int32.ofNat n).toNatClampNeg ↔ n ≤ intMax := by
  have hsize : Int32.size = 4294967296 := rfl
  rw [Int32.toNatClampNeg, Int32.toInt_ofNat', Int.bmod, hsize, intMax]
  omega

theorem percentDecode_urlencode_iff {s : Bytes} : percentDecode (urlencode s) = s ↔ s.length ≤ intMax := by
  unfold urlencode
  rw [Query.percentDecode_flatMap percentDecode_urlencodeChar, List.take_eq_self_iff, le_toNatClampNeg_iff]

theorem urlencode_inj {s t : Bytes} (hs : s.length ≤ intMax) (ht : t.length ≤ intMax) (h : urlencode s = urlencode t) :
    s = t := by
  rw [← percentDecode_urlencode_iff.mpr hs, ← percentDecode_urlencode_iff.mpr ht, h]

/-! ### The query string -/

theorem appendPairs_succ {url : Bytes} {i : Nat} {p : Bytes × Bytes} {v : List (Bytes × Bytes)} :
    appendPairs (url ++ Query.field urlencode p) (i + 1) v = url ++ Query.print urlencode (p :: v) := by
  induction v generalizing url i p with
  | nil => simp [appendPairs, Query.print]
  | cons q v ih =>
    have hstep : appendPairs (url ++ Query.field urlencode p) (i + 1) (q :: v) =
        appendPairs ((url ++ Query.field urlencode p ++ [ampersand]) ++ Query.field urlencode q) (i + 2) v := by
      simp [appendPairs, Query.field, bytes, ampersand, equals]
    rw [hstep, ih]
    simp [Query.print]

theorem appendPairs_zero {url : Bytes} {v : List (Bytes × Bytes)} (h : v ≠ []) :
    appendPairs (url ++ bytes "/") 0 v = url ++ bytes "/?" ++ Query.print urlencode v := by
  obtain ⟨p, v, rfl⟩ := List.exists_cons_of_ne_nil h
  have hstep : appendPairs (url ++ bytes "/") 0 (p :: v) =
      appendPairs ((url ++ bytes "/?") ++ Query.field urlencode p) 1 v := by
    simp [appendPairs, Query.field, bytes, equals]
  rw [hstep, appendPairs_succ]

namespace RouteRequest

/-- The names that the Request-URI brings -/
def paramNames (r : RouteRequest) : List Bytes :=
  match r.urlParams with
  | some paramString => (paramString.splitOn semicolon).map fun param => (param.splitOn equals).headD []
  | none => []

/-- No name of a parameter is more or something else in a query string, and the values are no longer than an `int` says. -/
def Clean (r : RouteRequest) : Prop :=
  (∀ name ∈ r.paramNames, ampersand ∉ name ∧ ¬HasEscape name) ∧ ∀ p ∈ r.pairs, p.2.length ≤ intMax

variable {r : RouteRequest}

theorem pairs_names : r.pairs.map Prod.fst =
    [bytes "method", bytes "domain", bytes "protocol", bytes "source_address", bytes "fromUser", bytes "toUser",
      bytes "uriUser", bytes "contentType", bytes "uri"] ++ r.paramNames := by
  unfold pairs paramNames
  rw [List.map_append]
  cases r.urlParams with
  | some paramString =>
    refine congrArg₂ (· ++ ·) rfl ?_
    rw [List.map_map]
    rfl
  | none => rfl

/-- A property of the code's own names is one of all names when the parameters' names have it. -/
theorem forall_names_iff {P : Bytes → Prop} (hown : ∀ name ∈ [bytes "method", bytes "domain", bytes "protocol",
    bytes "source_address", bytes "fromUser", bytes "toUser", bytes "uriUser", bytes "contentType", bytes "uri"], P name) :
    (∀ p ∈ r.pairs, P p.1) ↔ ∀ name ∈ r.paramNames, P name := by
  have hmap : (∀ p ∈ r.pairs, P p.1) ↔ ∀ name ∈ r.pairs.map Prod.fst, P name := List.forall_mem_map.symm
  rw [hmap, pairs_names, List.forall_mem_append]
  exact and_iff_right hown

theorem equals_notMem_paramNames : ∀ name ∈ r.paramNames, equals ∉ name := by
  unfold paramNames
  split
  · rename_i paramString
    refine List.forall_mem_map.mpr fun param _ => ?_
    obtain ⟨first, more, hsplit⟩ := List.exists_cons_of_ne_nil (List.splitOn_ne_nil equals param)
    rw [hsplit]
    exact Fields.notMem_of_mem_splitOn (hsplit ▸ List.mem_cons_self)
  · exact List.forall_mem_nil _

theorem pairs_ne_nil : r.pairs ≠ [] := List.cons_ne_nil _ _

/-- The routing server reads the pairs exactly when the request is clean. -/
theorem parse_print_pairs : Query.parse (Query.print urlencode r.pairs) = r.pairs ↔ r.Clean := by
  have hequals : ∀ p ∈ r.pairs, equals ∉ p.1 := (forall_names_iff (by decide)).mpr equals_notMem_paramNames
  have hnames : (∀ p ∈ r.pairs, ampersand ∉ p.1 ∧ ¬HasEscape p.1) ↔
      ∀ name ∈ r.paramNames, ampersand ∉ name ∧ ¬HasEscape name := by
    refine forall_names_iff (P := fun name => ampersand ∉ name ∧ ¬HasEscape name) fun name hname => ⟨?_, ?_⟩
    · revert name
      decide
    · rw [← percentDecode_eq_self_iff]
      revert name
      decide
  rw [Query.parse_print_iff ampersand_notMem_urlencode hequals pairs_ne_nil, Clean, ← hnames, ← forall₂_and]
  refine forall₂_congr fun p _ => ?_
  rw [percentDecode_eq_self_iff, percentDecode_urlencode_iff, and_assoc]

end RouteRequest

/-- What the code puts into the url as a query is read as the pairs it assembled. -/
def Faithful (httpUrl : Bytes) (r : RouteRequest) : Prop :=
  ∀ q, routeUrl httpUrl r = httpUrl ++ bytes "/?" ++ q → Query.parse q = r.pairs

/-- Encoding a value loses nothing of it, and a query string is read as what it was made of, when no parameter name of
    the Request-URI is read as something else. -/
theorem query_faithful_iff (httpUrl : Bytes) (r : RouteRequest) :
    (∀ s, percentDecode (urlencode s) = s ↔ s.length ≤ intMax) ∧
    (∀ s t, s.length ≤ intMax → t.length ≤ intMax → urlencode s = urlencode t → s = t) ∧
    (Faithful httpUrl r ↔ isDirect httpUrl = true ∨ r.Clean) := by
  refine ⟨fun s => percentDecode_urlencode_iff, fun s t => urlencode_inj, ?_⟩
  unfold Faithful routeUrl
  by_cases hdirect : isDirect httpUrl = true
  · rw [if_pos hdirect]
    refine iff_of_true (fun q hq => ?_) (.inl hdirect)
    have hlen := congrArg List.length hq
    simp [bytes] at hlen
  · rw [if_neg hdirect, appendPairs_zero RouteRequest.pairs_ne_nil, or_iff_right hdirect, ← RouteRequest.parse_print_pairs]
    exact ⟨fun h => h _ rfl, fun h q hq => List.append_cancel_left hq ▸ h⟩

/-- A parameter whose name ends one field and begins another -/
def forgedMethod : RouteRequest where
  methodName := bytes "INVITE"
  urlHost := some (bytes "example.com")
  urlUser := some (bytes "bob")
  urlParams := some (bytes "x&method=BYE")
  url := bytes "sip:bob@example.com;x&method=BYE"
  protocol := bytes "udp"
  address := bytes "192.0.2.1"
  fromUser := some (bytes "alice")
  toUser := some (bytes "bob")
  contentType := none

theorem method_overridden : ¬ ∀ httpUrl r, Faithful httpUrl r := by
  intro h
  have hread := h (bytes "http://127.0.0.1") forgedMethod _ (appendPairs_zero RouteRequest.pairs_ne_nil)
  exact absurd hread (by decide +kernel)

end Drachtio.Pending
