import Drachtio.Lib.Fields
import Drachtio.Sip.Headers
import Mathlib.Data.List.TakeWhile

/-! What an application can make of a message's headers. A line becomes one header at most, and none with a line break in
    it; but an empty name and the compact forms of Via and Content-Length get by. -/

namespace Drachtio.Sip

open Client (trim)

/-! ### What is allowed -/

/-- What a SIP peer takes for a header that is not the application's to set, in lower case -/
def reservedNames : List Text :=
  ["via", "v", "route", "rseq", "record-route", "content-length", "l"].map String.toList

def IsReserved (name : Text) : Prop := name.map Char.toLower ∈ reservedNames

instance (name : Text) : Decidable (IsReserved name) := inferInstanceAs (Decidable (_ ∈ _))

/-- The header of a well-known tag, as the tables have it but with dashes -/
def Tag.header (tt : Tag) : Option Text :=
  (mapHdr2Tag.find? fun p => p.2 == tt).map fun p => p.1.toList.map fun c => if c = '_' then '-' else c

/-- The name that a slot is sent with, if it is sent -/
def TagItem.name (t : TagItem) : Option Text :=
  match t.tag with
  | .skip | .null => none
  | .unknownStr => t.value.map (·.takeWhile (· ≠ ':'))
  | tt => tt.header

/-- The slot is sent as a header in one line, with a name that is a token and not reserved. -/
def TagItem.Allowed (t : TagItem) : Prop :=
  ∀ name ∈ t.name, (name ≠ [] ∧ isTokenText name = true ∧ ¬IsReserved name) ∧ ∀ value ∈ t.value, OneLine value

/-- Whatever the two functions meet, they make no header of a block that is not allowed. The address put in the place of
    localhost is one line. -/
def Guarded (hdrs : Text) : Prop :=
  (∀ env transport externalIp, (∀ ip ∈ externalIp, OneLine ip) →
    ∀ t, some t ∈ makeTags env hdrs transport externalIp → t.Allowed) ∧
  ∀ preserved t, some t ∈ makeSafeTags preserved hdrs → t.Allowed

/-- A value that `makeTags` reads past its end -/
def Unterminated (name value : Text) : Prop :=
  hasAddress (hdrOf name) = true ∧ "@localhost".toList <:+: value ∧ 255 ≤ (cText value).length

/-- What a line must not be to be harmless -/
def LineClean (line : Text) : Prop :=
  ∀ name value, parseLine line = some (name, value) →
    name ≠ [] ∧ name.map Char.toLower ∉ ["v".toList, "l".toList] ∧ ¬Unterminated name value

/-! ### The array -/

section
variable {make : Text → TagItem}

/-- The loop writes the slots of the lines, and no other. -/
theorem makeTagsLoop_eq (lines : List Text) (done rest : List (Option TagItem)) :
    makeTagsLoop make lines done.length (done ++ List.replicate lines.length none ++ rest) =
      done ++ lines.map (some ∘ make) ++ rest := by
  induction lines generalizing done with
  | nil => simp [makeTagsLoop]
  | cons line lines ih =>
    have hset : (done ++ List.replicate (line :: lines).length none ++ rest).set done.length (some (make line)) =
        (done ++ [some (make line)]) ++ List.replicate lines.length none ++ rest := by
      simp [List.replicate_succ]
    have hlength : done.length + 1 = (done ++ [some (make line)]).length := by simp
    rw [makeTagsLoop, hset, hlength, ih]
    simp

/-- One slot for each line, and tag_null behind them -/
theorem fillTags_eq (hdrs : Text) : fillTags make hdrs = (splitLines hdrs).map (some ∘ make) ++ [some ⟨.null, none⟩] := by
  have hreplicate : List.replicate ((splitLines hdrs).length + 1) (none : Option TagItem) =
      [] ++ List.replicate (splitLines hdrs).length none ++ [none] := by
    rw [List.replicate_succ', List.nil_append]
  have hloop := @makeTagsLoop_eq make (splitLines hdrs) [] [none]
  unfold fillTags
  dsimp only
  rw [hreplicate]
  rw [List.length_nil] at hloop
  rw [hloop, List.nil_append, ← List.length_map (some ∘ make), List.set_append_right _ _ le_rfl, Nat.sub_self]
  rfl

theorem mem_fillTags {hdrs : Text} {t : TagItem} :
    some t ∈ fillTags make hdrs ↔ (∃ line ∈ splitLines hdrs, make line = t) ∨ t = ⟨.null, none⟩ := by
  rw [fillTags_eq, List.mem_append, List.mem_singleton, Option.some.injEq, List.mem_map]
  simp only [Function.comp_apply, Option.some.injEq]

end

/-! ### One line -/

theorem OneLine.of_subset {s t : Text} (h : OneLine t) (hsub : s ⊆ t) : OneLine s := fun c hc => h c (hsub hc)

theorem OneLine.append {s t : Text} (hs : OneLine s) (ht : OneLine t) : OneLine (s ++ t) := fun c hc =>
  (List.mem_append.mp hc).elim (hs c) (ht c)

theorem OneLine.cText {s : Text} (h : OneLine s) : OneLine (cText s) := h.of_subset (List.takeWhile_subset _)

theorem trim_subset (s : Text) : trim s ⊆ s := by
  intro c hc
  have hdrop := List.mem_reverse.mp ((List.dropWhile_subset _) (List.mem_reverse.mp hc))
  exact List.dropWhile_subset _ hdrop

theorem oneLine_of_mem_splitLines {hdrs line : Text} (h : line ∈ splitLines hdrs) : OneLine line := by
  unfold splitLines at h
  split at h
  · cases h
  · split at h
    · cases h
    · rename_i first rest hsplit
      refine Fields.eq_false_of_mem_splitOnP (l := hdrs) ?_
      rw [hsplit]
      rcases List.mem_cons.mp h with rfl | h
      · exact List.mem_cons_self
      · rcases List.mem_append.mp h with h | h
        · exact List.mem_cons_of_mem _ (List.dropLast_subset _ (List.mem_of_mem_filter h))
        · exact List.mem_cons_of_mem _ (List.mem_of_getLast? (Option.mem_toList.mp h))

/-- The two parts that a text is cut into have the separator between them. -/
theorem eq_of_cut {sep s x y : Text} (h : Client.cut sep s = some (x, y)) : s = x ++ sep ++ y := by
  induction s generalizing x with
  | nil =>
    unfold Client.cut at h
    split at h
    · rename_i hsep
      cases h
      rw [hsep]
      rfl
    · cases h
  | cons c s ih =>
    unfold Client.cut at h
    split at h
    · rename_i hpre
      cases h
      obtain ⟨rest, hrest⟩ := hpre
      rw [← hrest, List.drop_left, List.nil_append]
    · obtain ⟨⟨x', y'⟩, hcut, hxy⟩ := Option.map_eq_some_iff.mp h
      cases hxy
      exact congrArg (c :: ·) (ih hcut)

/-- What is known of a line that is parsed -/
theorem parseLine_some {line name value : Text} (h : parseLine line = some (name, value)) (hline : OneLine line) :
    isTokenText name = true ∧ OneLine value := by
  unfold parseLine at h
  split at h
  · cases h
  · rename_i hdrName hdrValue hcut
    have hsub : hdrValue ⊆ line := eq_of_cut hcut ▸ List.subset_append_right _ _
    dsimp only at h
    split at h
    · cases h
    · rename_i htoken
      split at h
      · cases h
      · cases h
        exact ⟨by simpa using htoken, (hline.of_subset hsub).of_subset (trim_subset _)⟩

/-! ### Names -/

theorem isTokenText_iff {s : Text} : isTokenText s = true ↔ ∀ c ∈ s, c ∈ rfc3261TokenChars := by
  simp only [isTokenText, List.all_eq_true, decide_eq_true_eq]

/-- What the characters of tokens have in common -/
def isTokenLike (c : Char) : Bool :=
  decide (c.toUpper ∈ rfc3261TokenChars) && c.toUpper.toLower == c.toLower && decide (c.toLower = '-' ↔ c = '-') &&
    c != ':' && c != '\x00' && !isEol c

/-- The characters of tokens are kept by a change of case, and are none of those that end a name. -/
theorem tokenChars_spec {c : Char} (hc : c ∈ rfc3261TokenChars) : c.toUpper ∈ rfc3261TokenChars ∧
    c.toUpper.toLower = c.toLower ∧ (c.toLower = '-' ↔ c = '-') ∧ c ≠ ':' ∧ c ≠ '\x00' ∧ isEol c = false := by
  have hall : rfc3261TokenChars.all isTokenLike = true := by decide +kernel
  have hlike := List.all_eq_true.mp hall c hc
  unfold isTokenLike at hlike
  simp only [Bool.and_eq_true] at hlike
  obtain ⟨⟨⟨⟨⟨hupper, hlower⟩, hdash⟩, hcolon⟩, hzero⟩, heol⟩ := hlike
  exact ⟨of_decide_eq_true hupper, eq_of_beq hlower, of_decide_eq_true hdash, ne_of_beq_false
    (Bool.not_eq_true' _ |>.mp hcolon),
    ne_of_beq_false (Bool.not_eq_true' _ |>.mp hzero), Bool.not_eq_true' _ |>.mp heol⟩

/-- The same text but for the case of letters -/
structure Recased (s t : Text) : Prop where
  token : isTokenText t = true
  lower : t.map Char.toLower = s.map Char.toLower

theorem recased_capitalize {s : Text} (h : isTokenText s = true) (next : Bool) : Recased s (capitalize next s) := by
  rw [isTokenText_iff] at h
  induction s generalizing next with
  | nil => exact ⟨rfl, rfl⟩
  | cons c s ih =>
    obtain ⟨hc, hs⟩ := List.forall_mem_cons.mp h
    obtain ⟨hupper, hlower, -⟩ := tokenChars_spec hc
    have hrest := fun next' => ih hs next'
    unfold capitalize
    cases next with
    | true =>
      refine ⟨isTokenText_iff.mpr (List.forall_mem_cons.mpr ⟨hupper, isTokenText_iff.mp (hrest _).token⟩), ?_⟩
      rw [List.map_cons, List.map_cons, (hrest _).lower]
      exact congrArg (· :: _) hlower
    | false =>
      refine ⟨isTokenText_iff.mpr (List.forall_mem_cons.mpr ⟨hc, isTokenText_iff.mp (hrest _).token⟩), ?_⟩
      rw [List.map_cons, List.map_cons, (hrest _).lower]
      rfl

theorem recased_capitalizeAfterDash {s : Text} (h : isTokenText s = true) (preserved : List Text) :
    Recased s (capitalizeAfterDash preserved s) := by
  unfold capitalizeAfterDash
  split
  · exact ⟨h, rfl⟩
  · split
    · exact ⟨h, rfl⟩
    · exact recased_capitalize h true

theorem Recased.nil_iff {s t : Text} (h : Recased s t) : t = [] ↔ s = [] := by
  rw [← List.map_eq_nil_iff (f := Char.toLower), h.lower, List.map_eq_nil_iff]

theorem hdrOf_eq {name : Text} (h : isTokenText name = true) :
    hdrOf name = (name.map Char.toLower).map fun c => if c = '-' then '_' else c := by
  unfold hdrOf
  rw [List.map_map, List.map_map]
  refine List.map_congr_left fun c hc => ?_
  obtain ⟨-, -, hdash, -⟩ := tokenChars_spec (isTokenText_iff.mp h c hc)
  rw [Function.comp_apply, Function.comp_apply]
  by_cases hc : c = '-'
  · subst hc
    rfl
  · rw [if_neg hc, if_neg (mt hdash.mp hc)]

/-- The tables know the reserved names, but not the compact ones. -/
theorem reserved_cases {name : Text} (h : isTokenText name = true) (hreserved : IsReserved name) :
    name.map Char.toLower ∈ ["v".toList, "l".toList] ∨ isImmutableHdr (hdrOf name) = true := by
  have hall : ∀ r ∈ reservedNames,
      r ∈ ["v".toList, "l".toList] ∨ isImmutableHdr (r.map fun c => if c = '-' then '_' else c) = true := by decide
  rw [hdrOf_eq h]
  exact hall _ hreserved

/-- The name in an unknown header is what was put there. -/
theorem name_unknown {name value : Text} (h : isTokenText name = true) :
    cText (name ++ ": ".toList ++ value) = name ++ ':' :: ' ' :: cText value ∧
    TagItem.name ⟨.unknownStr, some (cText (name ++ ": ".toList ++ value))⟩ = some name := by
  have hchars := isTokenText_iff.mp h
  have hzero : ∀ c ∈ name, decide (c ≠ '\x00') = true := fun c hc =>
    decide_eq_true (tokenChars_spec (hchars c hc)).2.2.2.2.1
  have hcolon : ∀ c ∈ name, decide (c ≠ ':') = true := fun c hc =>
    decide_eq_true (tokenChars_spec (hchars c hc)).2.2.2.1
  have htext : cText (name ++ ": ".toList ++ value) = name ++ ':' :: ' ' :: cText value := by
    unfold cText
    rw [List.append_assoc, List.takeWhile_append_of_pos hzero]
    rfl
  refine ⟨htext, ?_⟩
  rw [htext]
  unfold TagItem.name
  rw [Option.map_some, List.takeWhile_append_of_pos hcolon, List.takeWhile_cons_of_neg (by simp), List.append_nil]

/-- The headers in the table have names of their own, which are reserved only where the header is immutable. -/
theorem table_spec : ∀ p ∈ mapHdr2Tag, (p.2 ≠ .skip ∧ p.2 ≠ .null ∧ p.2 ≠ .unknownStr) ∧ p.2.header.isSome = true ∧
    (p.1 ∈ setImmutableHdrs ∨ ∀ name ∈ p.2.header, name ≠ [] ∧ isTokenText name = true ∧ ¬IsReserved name) := by
  decide +kernel

theorem name_known {tt : Tag} {value : Option Text} (h : tt ≠ .skip ∧ tt ≠ .null ∧ tt ≠ .unknownStr) :
    TagItem.name ⟨tt, value⟩ = tt.header := by
  unfold TagItem.name
  split
  · rename_i htt
    exact absurd htt h.1
  · rename_i htt
    exact absurd htt h.2.1
  · rename_i htt
    exact absurd htt h.2.2
  · rfl

theorem mem_of_getTagTypeForHdr {hdr : Text} {tt : Tag} (h : getTagTypeForHdr hdr = some tt) :
    (String.ofList hdr, tt) ∈ mapHdr2Tag := by
  obtain ⟨before, after, hmap, -⟩ := List.lookup_eq_some_iff.mp h
  rw [hmap]
  exact List.mem_append_right _ List.mem_cons_self

/-! ### The slots -/

section
variable {preserved : List Text} {known : Text → Text → Option Text} {line name value : Text}

/-- What a line can come to: nothing, a header that the table knows, or one that no table knows. -/
theorem makeTag_cases (preserved : List Text) (known : Text → Text → Option Text) (line : Text) :
    makeTag preserved known line = ⟨.skip, none⟩ ∨
    ∃ name value, parseLine line = some (name, value) ∧ isImmutableHdr (hdrOf name) ≠ true ∧
      ((∃ tt v, getTagTypeForHdr (hdrOf name) = some tt ∧ known (hdrOf name) value = some v ∧
          makeTag preserved known line = ⟨tt, some (cText v)⟩) ∨
        makeTag preserved known line =
          ⟨.unknownStr, some (cText (capitalizeAfterDash preserved name ++ ": ".toList ++ value))⟩) := by
  unfold makeTag
  cases hparse : parseLine line with
  | none => exact .inl rfl
  | some p =>
    obtain ⟨name, value⟩ := p
    dsimp only
    by_cases himmutable : isImmutableHdr (hdrOf name) = true
    · exact .inl (if_pos himmutable)
    · rw [if_neg himmutable]
      cases htag : getTagTypeForHdr (hdrOf name) with
      | none => exact .inr ⟨name, value, rfl, himmutable, .inr rfl⟩
      | some tt =>
        dsimp only
        cases hval : known (hdrOf name) value with
        | none => exact .inl rfl
        | some v => exact .inr ⟨name, value, rfl, himmutable, .inl ⟨tt, v, htag, hval, rfl⟩⟩

/-- A well-known header that is not immutable is allowed when what is put there is one line. -/
theorem known_allowed {tt : Tag} {v : Text} (himmutable : isImmutableHdr (hdrOf name) ≠ true)
    (htag : getTagTypeForHdr (hdrOf name) = some tt) (hv : OneLine v) : TagItem.Allowed ⟨tt, some (cText v)⟩ := by
  obtain ⟨hsent, -, hspec⟩ := table_spec _ (mem_of_getTagTypeForHdr htag)
  have hmutable : String.ofList (hdrOf name) ∉ setImmutableHdrs := fun h => himmutable (decide_eq_true h)
  intro sent hname
  rw [name_known hsent] at hname
  refine ⟨(hspec.resolve_left hmutable) sent hname, fun w hw => ?_⟩
  obtain rfl := Option.some.inj hw
  exact hv.cText

/-- An unknown header is allowed when its name is not empty and not compact. -/
theorem unknown_allowed (htoken : isTokenText name = true) (hvalue : OneLine value) (hne : name ≠ [])
    (hcompact : name.map Char.toLower ∉ ["v".toList, "l".toList]) (himmutable : isImmutableHdr (hdrOf name) ≠ true) :
    TagItem.Allowed ⟨.unknownStr, some (cText (capitalizeAfterDash preserved name ++ ": ".toList ++ value))⟩ := by
  have hrecased := recased_capitalizeAfterDash htoken preserved
  intro sent hsent
  rw [(name_unknown hrecased.token).2] at hsent
  obtain rfl := Option.some.inj hsent
  refine ⟨⟨mt hrecased.nil_iff.mp hne, hrecased.token, fun hreserved => ?_⟩, fun w hw => ?_⟩
  · unfold IsReserved at hreserved
    rw [hrecased.lower] at hreserved
    exact (reserved_cases htoken hreserved).elim hcompact himmutable
  · obtain rfl := Option.some.inj hw
    have hseparator : OneLine ": ".toList := by
      unfold OneLine
      simp [isEol]
    refine OneLine.cText (OneLine.append (OneLine.append ?_ hseparator) hvalue)
    exact fun c hc => (tokenChars_spec (isTokenText_iff.mp hrecased.token c hc)).2.2.2.2.2

/-- A slot is allowed when its line is named as it should be and the value put there, if any, is one line. -/
theorem makeTag_allowed (hline : OneLine line)
    (hname : ∀ name value, parseLine line = some (name, value) → name ≠ [] ∧ name.map Char.toLower ∉ ["v".toList, "l".toList])
    (hknown : ∀ name value, parseLine line = some (name, value) → OneLine value → ∀ v ∈ known (hdrOf name) value, OneLine v) :
    (makeTag preserved known line).Allowed := by
  obtain hskip | ⟨name, value, hparse, himmutable, hslot⟩ := makeTag_cases preserved known line
  · rw [hskip]
    intro sent hsent
    cases hsent
  · obtain ⟨htoken, hvalue⟩ := parseLine_some hparse hline
    obtain ⟨hne, hcompact⟩ := hname name value hparse
    obtain ⟨tt, v, htag, hval, hslot⟩ | hslot := hslot
    · rw [hslot]
      exact known_allowed himmutable htag (hknown name value hparse hvalue v hval)
    · rw [hslot]
      exact unknown_allowed htoken hvalue hne hcompact himmutable

/-- A name that no table knows goes out in an unknown header, in the case that it is given. -/
theorem makeTag_unknown (hparse : parseLine line = some (name, value)) (htoken : isTokenText name = true)
    (hmutable : isImmutableHdr (hdrOf name) = false) (hunknown : getTagTypeForHdr (hdrOf name) = none) :
    (makeTag preserved known line).name = some (capitalizeAfterDash preserved name) := by
  unfold makeTag
  rw [hparse]
  dsimp only
  rw [hmutable, if_neg (by simp), hunknown]
  exact (name_unknown (recased_capitalizeAfterDash htoken preserved).token).2

theorem not_allowed_of_name {t : TagItem} (hname : t.name = some name) (h : name = [] ∨ IsReserved name) : ¬t.Allowed :=
  fun hallowed => h.elim (hallowed name hname).1.1 (hallowed name hname).1.2.2

/-- A header that is sent is in one line. -/
theorem not_allowed_of_value {t : TagItem} {c : Char} (hname : t.name = some name) (hvalue : t.value = some value)
    (hc : c ∈ value) (heol : isEol c = true) : ¬t.Allowed := by
  intro hallowed
  have hfalse := (hallowed name hname).2 value hvalue c hc
  rw [heol] at hfalse
  cases hfalse

end

/-! ### Replacing localhost -/

section
variable {env : TagEnv} {value host port : Text}

theorem oneLine_copied (hvalue : OneLine value) (hshort : (cText value).length < 255) : OneLine (env.copied value) := by
  unfold TagEnv.copied
  dsimp only
  rw [if_pos hshort]
  exact hvalue.cText

theorem oneLine_localize {name : Text} (hvalue : OneLine value) (hhost : OneLine host) (hport : OneLine port)
    (h : ¬Unterminated name value) : OneLine (localize env host port (hdrOf name) value) := by
  unfold localize
  split
  · rename_i hreplaced
    have hshort : (cText value).length < 255 := by
      by_contra hlong
      exact h ⟨hreplaced.2, hreplaced.1, by omega⟩
    unfold replaceHostInUri
    cases hdecode : env.nameAddrs.decode (env.copied value) with
    | none => exact hvalue
    | some x =>
      dsimp only
      cases hencode : env.nameAddrs.encode (x.withHostPort host port) with
      | none => exact hvalue
      | some out => exact env.nameAddrs.oneLine _ x host port out hdecode hencode (oneLine_copied hvalue hshort) hhost hport
  · exact hvalue

theorem splitsAt_subset {sep : Char} {s : Text} {p : Text × Text} (h : p ∈ splitsAt sep s) : p.1 ⊆ s ∧ p.2 ⊆ s := by
  induction s generalizing p with
  | nil => cases h
  | cons c s ih =>
    rcases List.mem_append.mp h with h | h
    · obtain ⟨q, hq, rfl⟩ := List.mem_map.mp h
      obtain ⟨hbefore, hbehind⟩ := ih hq
      exact ⟨List.cons_subset_cons c hbefore, List.Subset.trans hbehind (List.subset_cons_self _ _)⟩
    · split at h
      · obtain rfl := List.mem_singleton.mp h
        exact ⟨List.nil_subset _, List.subset_cons_self _ _⟩
      · cases h

/-- The description that is matched stays in one line. -/
theorem oneLine_parse {desc proto : Text} (h : parseTransportDescription desc = some (proto, host, port)) :
    OneLine host ∧ OneLine port := by
  have hline : OneLine (desc.takeWhile fun c => !isEol c) := fun c hc => by simpa using List.mem_takeWhile_imp hc
  obtain ⟨p, hp, hfound⟩ := List.exists_of_findSome?_eq_some h
  obtain ⟨q, hq, hmatch⟩ := List.exists_of_findSome?_eq_some hfound
  have hrest := (splitsAt_subset hp).2
  obtain ⟨hbefore, hbehind⟩ := splitsAt_subset hq
  dsimp only at hmatch
  split at hmatch
  · cases hmatch
  · cases hmatch
    exact ⟨hline.of_subset (List.Subset.trans hbefore hrest),
      hline.of_subset (List.Subset.trans (List.takeWhile_subset _) (List.Subset.trans hbehind hrest))⟩

theorem oneLine_replacement {transport : Text} {externalIp : Option Text} (hip : ∀ ip ∈ externalIp, OneLine ip) :
    OneLine (replacement transport externalIp).1 ∧ OneLine (replacement transport externalIp).2 := by
  have hparsed : OneLine ((parseTransportDescription transport).getD ([], [], [])).2.1 ∧
      OneLine ((parseTransportDescription transport).getD ([], [], [])).2.2 := by
    cases hfound : parseTransportDescription transport with
    | none => exact ⟨List.forall_mem_nil _, List.forall_mem_nil _⟩
    | some r => exact @oneLine_parse r.2.1 r.2.2 transport r.1 hfound
  refine ⟨?_, hparsed.2⟩
  cases externalIp with
  | none => exact hparsed.1
  | some ip => exact hip ip rfl

end

/-! ### Name-addrs for the examples -/

/-- The parts one behind the other, if that is a C string -/
def printParts (x : NameAddr) : Option Text :=
  let text := x.front ++ x.host ++ ':' :: x.port ++ x.back
  if '\x00' ∈ text then none else some text

theorem printParts_some {x : NameAddr} {out : Text} (h : printParts x = some out) :
    '\x00' ∉ out ∧ out = x.front ++ x.host ++ ':' :: x.port ++ x.back := by
  unfold printParts at h
  dsimp only at h
  split at h
  · cases h
  · rename_i hzero
    obtain rfl := Option.some.inj h
    exact ⟨hzero, rfl⟩

/-- A printer that puts the parts together, with a reader that makes its parts of the text -/
def NameAddrs.ofDecode (decode : Text → Option NameAddr)
    (hdecode : ∀ s x, decode s = some x → x.front ⊆ s ∧ x.back ⊆ s) : NameAddrs where
  decode := decode
  encode := printParts
  printed _ _ h := (printParts_some h).1
  shown := by
    intro x host port out h hbare
    have hlen := congrArg List.length ((printParts_some h).2.symm.trans (printParts_some hbare).2)
    simp only [NameAddr.withHostPort, List.length_append, List.length_cons, List.length_nil] at hlen
    exact ⟨List.eq_nil_of_length_eq_zero (by omega), List.eq_nil_of_length_eq_zero (by omega)⟩
  shorter := by
    intro x host port out h
    obtain ⟨hzero, rfl⟩ := printParts_some h
    unfold printParts
    dsimp only
    rw [if_neg]
    · rfl
    · simp only [NameAddr.withHostPort, List.mem_append, List.mem_cons, List.not_mem_nil] at hzero ⊢
      tauto
  oneLine := by
    intro s x host port out hx h hs hhost hport
    obtain ⟨hfront, hback⟩ := hdecode s x hx
    obtain ⟨-, rfl⟩ := printParts_some h
    refine OneLine.append (OneLine.append ((hs.of_subset hfront).append hhost) ?_) (hs.of_subset hback)
    exact List.forall_mem_cons.mpr ⟨by decide, hport⟩

/-- A reader that takes all of a text for what is before the host -/
def wholeTexts : NameAddrs :=
  .ofDecode (fun s => some ⟨s, [], [], []⟩) fun s x h => by
    obtain rfl := Option.some.inj h
    exact ⟨List.Subset.refl _, List.nil_subset _⟩

/-! ### When nothing gets by -/

section
variable {hdrs line name value : Text}

/-- The line makes a slot in both arrays. -/
theorem mem_makeSafeTags (preserved : List Text) (h : line ∈ splitLines hdrs) :
    some (makeTag preserved (fun hdr hdrValue => if hasAddress hdr = true then none else some hdrValue) line) ∈
      makeSafeTags preserved hdrs := mem_fillTags.mpr (.inl ⟨line, h, rfl⟩)

theorem mem_makeTags (env : TagEnv) (transport : Text) (externalIp : Option Text) (h : line ∈ splitLines hdrs) :
    some (makeTag env.preserved (fun hdr hdrValue => some (localize env (replacement transport externalIp).1
      (replacement transport externalIp).2 hdr hdrValue)) line) ∈ makeTags env hdrs transport externalIp :=
  mem_fillTags.mpr (.inl ⟨line, h, rfl⟩)

/-- The empty name goes out, and so does a compact form. -/
theorem name_ok_of_guarded (h : Guarded hdrs) (hline : line ∈ splitLines hdrs)
    (hparse : parseLine line = some (name, value)) :
    name ≠ [] ∧ name.map Char.toLower ∉ ["v".toList, "l".toList] := by
  have htoken := (parseLine_some hparse (oneLine_of_mem_splitLines hline)).1
  have hallowed := h.2 [] _ (mem_makeSafeTags [] hline)
  have hrecased := recased_capitalizeAfterDash htoken []
  constructor
  · rintro rfl
    exact not_allowed_of_name (makeTag_unknown hparse htoken (by decide) (by decide)) (.inl (hrecased.nil_iff.mpr rfl))
      hallowed
  · intro hcompact
    have hfolded : ∀ r ∈ ["v".toList, "l".toList], isImmutableHdr (r.map fun c => if c = '-' then '_' else c) = false ∧
        getTagTypeForHdr (r.map fun c => if c = '-' then '_' else c) = none ∧ r ∈ reservedNames := by decide +kernel
    obtain ⟨hmutable, hunknown, hreserved⟩ := hfolded _ hcompact
    rw [← hdrOf_eq htoken] at hmutable hunknown
    refine not_allowed_of_name (makeTag_unknown hparse htoken hmutable hunknown) (.inr ?_) hallowed
    unfold IsReserved
    rwa [hrecased.lower]

/-- The slot of a line whose host is replaced -/
theorem makeTag_address {env : TagEnv} {host port : Text} (hparse : parseLine line = some (name, value))
    (haddress : hasAddress (hdrOf name) = true) (hlocal : "@localhost".toList <:+: value) :
    ∃ p ∈ mapHdr2Tag, getTagTypeForHdr (hdrOf name) = some p.2 ∧
      makeTag env.preserved (fun hdr hdrValue => some (localize env host port hdr hdrValue)) line =
        ⟨p.2, some (cText (replaceHostInUri env value host port))⟩ := by
  have hfolded : ∀ hdr ∈ ["from", "contact", "to", "p_asserted_identity"], hdr ∉ setImmutableHdrs ∧
      ∃ p ∈ mapHdr2Tag, mapHdr2Tag.lookup hdr = some p.2 := by decide +kernel
  obtain ⟨hmutable, p, hp, hlookup⟩ := hfolded _ (of_decide_eq_true haddress)
  have himmutable : isImmutableHdr (hdrOf name) = false := decide_eq_false hmutable
  have htag : getTagTypeForHdr (hdrOf name) = some p.2 := hlookup
  refine ⟨p, hp, htag, ?_⟩
  unfold makeTag
  rw [hparse]
  dsimp only
  rw [himmutable, if_neg (by simp), htag]
  dsimp only
  unfold localize
  rw [if_pos ⟨hlocal, haddress⟩]

/-- A value that is not terminated brings in what the buffer holds. -/
theorem terminated_of_guarded (h : Guarded hdrs) (hline : line ∈ splitLines hdrs)
    (hparse : parseLine line = some (name, value)) : ¬Unterminated name value := by
  rintro ⟨haddress, hlocal, hlong⟩
  let env : TagEnv := ⟨wholeTexts, ['\r'], []⟩
  have hallowed := h.1 env [] none (fun _ hip => by cases hip) _ (mem_makeTags env [] none hline)
  obtain ⟨p, hp, -, hslot⟩ := @makeTag_address line name value env [] [] hparse haddress hlocal
  obtain ⟨htag, hnamed, -⟩ := table_spec p hp
  obtain ⟨sent, hsent⟩ := Option.isSome_iff_exists.mp hnamed
  have hcopied : env.copied value = (cText value).take 255 ++ ['\r'] := if_neg (by omega)
  have hzero : '\x00' ∉ (cText value).take 255 ++ ['\r'] ++ [':'] := by
    have hvalue : '\x00' ∉ cText value := fun hz => by simpa using List.mem_takeWhile_imp hz
    simp only [List.mem_append, List.mem_singleton, not_or]
    exact ⟨⟨fun hz => hvalue (List.mem_of_mem_take hz), by decide⟩, by decide⟩
  have hreplaced : replaceHostInUri env value [] [] = (cText value).take 255 ++ ['\r'] ++ [':'] := by
    have hdef : replaceHostInUri env value [] [] = (printParts ⟨env.copied value, [], [], []⟩).getD value := rfl
    have htext : env.copied value ++ [] ++ ':' :: [] ++ [] = env.copied value ++ [':'] := by simp
    have hprint : printParts ⟨env.copied value, [], [], []⟩ = some (env.copied value ++ [':']) := by
      unfold printParts
      dsimp only
      rw [htext, hcopied, if_neg hzero]
    rw [hdef, hprint, Option.getD_some, hcopied]
  have hwhole : cText ((cText value).take 255 ++ ['\r'] ++ [':']) = (cText value).take 255 ++ ['\r'] ++ [':'] :=
    List.takeWhile_eq_self_iff.mpr fun c hc => decide_eq_true fun heq => hzero (heq ▸ hc)
  have hreplacement : replacement [] none = ([], []) := rfl
  rw [hreplacement, hslot, hreplaced, hwhole] at hallowed
  have hbreak : '\r' ∈ (cText value).take 255 ++ ['\r'] ++ [':'] := by simp
  exact not_allowed_of_value ((name_known htag).trans hsent) rfl hbreak rfl hallowed

theorem guarded_iff : Guarded hdrs ↔ ∀ line ∈ splitLines hdrs, LineClean line := by
  constructor
  · intro h line hline name value hparse
    obtain ⟨hne, hcompact⟩ := name_ok_of_guarded h hline hparse
    exact ⟨hne, hcompact, terminated_of_guarded h hline hparse⟩
  · intro h
    refine ⟨fun env transport externalIp hip t ht => ?_, fun preserved t ht => ?_⟩
    · obtain ⟨line, hline, rfl⟩ | rfl := mem_fillTags.mp ht
      · refine makeTag_allowed (oneLine_of_mem_splitLines hline)
          (fun name value hparse => ⟨(h line hline name value hparse).1, (h line hline name value hparse).2.1⟩) ?_
        intro name value hparse hvalue v hv
        obtain rfl := Option.some.inj hv
        obtain ⟨hhost, hport⟩ := @oneLine_replacement transport _ hip
        exact oneLine_localize hvalue hhost hport (h line hline name value hparse).2.2
      · intro name hname
        cases hname
    · obtain ⟨line, hline, rfl⟩ | rfl := mem_fillTags.mp ht
      · refine makeTag_allowed (oneLine_of_mem_splitLines hline)
          (fun name value hparse => ⟨(h line hline name value hparse).1, (h line hline name value hparse).2.1⟩) ?_
        intro name value _ hvalue v hv
        split at hv
        · cases hv
        · obtain rfl := Option.some.inj hv
          exact hvalue
      · intro name hname
        cases hname

end

/-- Both functions make one slot for each line, of that line alone, and tag_null; and nothing gets by but an empty name, a
    compact form, and a value that is read past its end. -/
theorem no_smuggling_iff (hdrs : Text) :
    (∀ env transport externalIp, ∃ make, ∀ other, makeTags env other transport externalIp =
      (splitLines other).map (some ∘ make) ++ [some ⟨.null, none⟩]) ∧
    (∀ preserved, ∃ make, ∀ other, makeSafeTags preserved other =
      (splitLines other).map (some ∘ make) ++ [some ⟨.null, none⟩]) ∧
    (Guarded hdrs ↔ ∀ line ∈ splitLines hdrs, LineClean line) :=
  ⟨fun _ _ _ => ⟨_, fun other => fillTags_eq other⟩, fun _ => ⟨_, fun other => fillTags_eq other⟩, guarded_iff⟩

/-- A Via in its compact form -/
theorem compact_via_smuggled : ¬ ∀ hdrs, Guarded hdrs := by
  intro h
  have hallowed := (h "v: SIP/2.0/UDP 192.0.2.1".toList).2 [] ⟨.unknownStr, some "V: SIP/2.0/UDP 192.0.2.1".toList⟩
    (by decide +kernel)
  exact (hallowed ['V'] (by decide)).1.2.2 (by decide)

end Drachtio.Sip
