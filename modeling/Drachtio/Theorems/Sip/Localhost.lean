import Drachtio.Theorems.Sip.Headers

/-! What stands for localhost in the requests inside a dialog. The description of the dialog's transport can be read back,
    but it is written into a copy of the string that is read. -/

namespace Drachtio.Sip

/-! ### The description -/

section
variable {sep : Char} {before behind : Text}

theorem splitsAt_none (h : sep ∉ behind) : splitsAt sep behind = [] := by
  induction behind with
  | nil => rfl
  | cons c s ih =>
    obtain ⟨hc, hs⟩ := not_or.mp (mt List.mem_cons.mpr h)
    rw [splitsAt, ih hs, if_neg (Ne.symm hc)]
    rfl

/-- The last place of a separator comes first. -/
theorem head?_splitsAt (h : sep ∉ behind) : (splitsAt sep (before ++ sep :: behind)).head? = some (before, behind) := by
  induction before with
  | nil =>
    rw [List.nil_append, splitsAt, splitsAt_none h, if_pos rfl]
    rfl
  | cons c before ih =>
    obtain ⟨rest, hrest⟩ := List.head?_eq_some_iff.mp ih
    rw [List.cons_append, splitsAt, hrest]
    rfl

theorem findSome?_splitsAt {β : Type} {f : Text × Text → Option β} {b : β} (h : sep ∉ behind)
    (hf : f (before, behind) = some b) :
    (splitsAt sep (before ++ sep :: behind)).findSome? f = some b := by
  obtain ⟨rest, hrest⟩ := List.head?_eq_some_iff.mp (@head?_splitsAt sep before behind h)
  rw [hrest, List.findSome?_cons, hf]

end

/-- Any address without a slash can be read back from the description, with colons in it or not. -/
theorem parse_desc (d : DialogTransport) (hprotocol : OneLine d.protocol) (haddress : OneLine d.transportAddress)
    (hslash : '/' ∉ d.transportAddress) (hport : d.transportPort ≠ [] ∧ ∀ c ∈ d.transportPort, c.isDigit = true) :
    parseTransportDescription d.desc = some (d.protocol, d.transportAddress, d.transportPort) := by
  have hdigit : ∀ c : Char, c.isDigit = true → c ≠ '/' ∧ c ≠ ':' ∧ isEol c = false := by
    intro c hc
    refine ⟨?_, ?_, ?_⟩
    · rintro rfl
      cases hc
    · rintro rfl
      cases hc
    · rw [Bool.eq_false_iff]
      intro heol
      obtain rfl | rfl : c = '\r' ∨ c = '\n' := by simpa [isEol] using heol
      · cases hc
      · cases hc
  have hline :
      d.desc.takeWhile (fun c => !isEol c) = d.protocol ++ '/' :: (d.transportAddress ++ ':' :: d.transportPort) := by
    have hdesc : d.desc = d.protocol ++ '/' :: (d.transportAddress ++ ':' :: d.transportPort) := by
      simp [DialogTransport.desc]
    rw [hdesc, List.takeWhile_eq_self_iff]
    simp only [List.forall_mem_append, List.forall_mem_cons, Bool.not_eq_true']
    exact ⟨hprotocol, by decide, haddress, by decide, fun c hc => (hdigit c (hport.2 c hc)).2.2⟩
  have hbehind : '/' ∉ d.transportAddress ++ ':' :: d.transportPort := by
    simp only [List.mem_append, List.mem_cons, not_or]
    exact ⟨hslash, by decide, fun hc => (hdigit _ (hport.2 _ hc)).1 rfl⟩
  have hcolon : ':' ∉ d.transportPort := fun hc => (hdigit _ (hport.2 _ hc)).2.1 rfl
  have hdigits : d.transportPort.takeWhile Char.isDigit = d.transportPort := List.takeWhile_eq_self_iff.mpr hport.2
  unfold parseTransportDescription
  rw [hline]
  refine findSome?_splitsAt hbehind (findSome?_splitsAt hcolon ?_)
  dsimp only
  rw [hdigits]
  exact if_neg hport.1

/-! ### The requests -/

/-- A line with an address at localhost that the stack can read, and print with the host and port of the dialog -/
structure Local (env : TagEnv) (d : DialogTransport) (line value : Text) (out : Text) : Prop where
  named : ∃ name, parseLine line = some (name, value) ∧ hasAddress (hdrOf name) = true
  localhost : "@localhost".toList <:+: value
  printed : ∃ x, env.nameAddrs.decode (env.copied value) = some x ∧
    env.nameAddrs.encode (x.withHostPort d.transportAddress d.transportPort) = some out

/-- Every such line goes out with the host and port of the dialog. -/
def DialogTransport.Localizes (env : TagEnv) (hdrs : Text) (d : DialogTransport) : Prop :=
  ∀ (i : Nat) (line value out : Text), (splitLines hdrs)[i]? = some line → Local env d line value out →
    ∃ tt : Tag, (d.requestTags env hdrs)[i]? = some (some (TagItem.mk tt (some out)))

section
variable {env : TagEnv} {d : DialogTransport} {hdrs line value out : Text} {i : Nat}

theorem getElem?_requestTags (h : (splitLines hdrs)[i]? = some line) : (d.requestTags env hdrs)[i]? =
    some (some (makeTag env.preserved (fun hdr hdrValue => some (localize env [] [] hdr hdrValue)) line)) := by
  have htags : d.requestTags env hdrs =
      fillTags (makeTag env.preserved fun hdr hdrValue => some (localize env [] [] hdr hdrValue)) hdrs := rfl
  have hi : i < (splitLines hdrs).length := (List.getElem?_eq_some_iff.mp h).1
  rw [htags, fillTags_eq, List.getElem?_append_left (by rwa [List.length_map]), List.getElem?_map, h]
  rfl

/-- What a line at localhost goes out with: an empty host and an empty port. -/
theorem Local.sent (h : Local env d line value out) (hi : (splitLines hdrs)[i]? = some line) :
    ∃ (x : NameAddr) (tt : Tag) (bare : Text),
      env.nameAddrs.encode (x.withHostPort d.transportAddress d.transportPort) = some out ∧
      env.nameAddrs.encode (x.withHostPort [] []) = some bare ∧
      (d.requestTags env hdrs)[i]? = some (some ⟨tt, some bare⟩) := by
  obtain ⟨name, hparse, haddress⟩ := h.named
  obtain ⟨x, hdecode, hencode⟩ := h.printed
  obtain ⟨bare, hbare⟩ := Option.isSome_iff_exists.mp (env.nameAddrs.shorter x _ _ _ hencode)
  obtain ⟨p, -, -, hslot⟩ := @makeTag_address line name value env [] [] hparse haddress h.localhost
  refine ⟨x, p.2, bare, hencode, hbare, ?_⟩
  have hreplaced : replaceHostInUri env value [] [] = bare := by
    unfold replaceHostInUri
    rw [hdecode]
    dsimp only
    rw [hbare, Option.getD_some]
  have hwhole : cText bare = bare := List.takeWhile_eq_self_iff.mpr fun c hc =>
    decide_eq_true fun heq => env.nameAddrs.printed _ _ hbare (heq ▸ hc)
  rw [getElem?_requestTags hi, hslot, hreplaced, hwhole]

end

/-- `makeTags` never receives a description it can read, and the dialog's host and port get into a request only where there
    is none to put in, or nothing to put it into. -/
theorem localhost_substituted_iff (env : TagEnv) (hdrs : Text) (d : DialogTransport) :
    parseTransportDescription (d.getTransportDesc []).2 = none ∧
    (d.Localizes env hdrs ↔ d.transportAddress = [] ∧ d.transportPort = [] ∨
      ∀ line ∈ splitLines hdrs, ∀ value out, ¬Local env d line value out) := by
  refine ⟨rfl, fun h => ?_, ?_⟩
  · by_cases hnone : ∀ line ∈ splitLines hdrs, ∀ value out, ¬Local env d line value out
    · exact .inr hnone
    · push Not at hnone
      obtain ⟨line, hline, value, out, hlocal⟩ := hnone
      obtain ⟨i, hi⟩ := List.mem_iff_getElem?.mp hline
      obtain ⟨x, tt, bare, hencode, hbare, hsent⟩ := hlocal.sent hi
      obtain ⟨tt', hsent'⟩ := h i line value out hi hlocal
      rw [hsent] at hsent'
      cases hsent'
      exact .inl (env.nameAddrs.shown x _ _ _ hencode hbare)
  · rintro (⟨haddress, hport⟩ | hnone) i line value out hi hlocal
    · obtain ⟨x, tt, bare, hencode, hbare, hsent⟩ := hlocal.sent hi
      rw [haddress, hport, hbare] at hencode
      cases hencode
      exact ⟨tt, hsent⟩
    · exact absurd hlocal (hnone line (List.mem_of_getElem? hi) value out)

theorem decode_subset (s : Text) (x : NameAddr)
    (h : (Client.cut "@localhost".toList s).map (fun p => ⟨p.1 ++ ['@'], "localhost".toList, [], p.2⟩) = some x) :
    x.front ⊆ s ∧ x.back ⊆ s := by
  obtain ⟨p, hp, rfl⟩ := Option.map_eq_some_iff.mp h
  have hs := eq_of_cut hp
  have hsep : "@localhost".toList = ['@'] ++ "localhost".toList := by decide
  rw [hs]
  refine ⟨?_, List.subset_append_right _ _⟩
  rw [hsep, ← List.append_assoc, List.append_assoc]
  exact List.subset_append_left _ _

/-- A reader that finds the host where localhost is -/
def localhostTexts : NameAddrs :=
  .ofDecode (fun s => (Client.cut "@localhost".toList s).map fun p => ⟨p.1 ++ ['@'], "localhost".toList, [], p.2⟩)
    decode_subset

/-- The host of the caller is lost. -/
theorem host_lost : ¬ ∀ env hdrs (d : DialogTransport), d.Localizes env hdrs := by
  intro h
  let d : DialogTransport := ⟨"udp".toList, "192.0.2.1".toList, "5060".toList⟩
  obtain ⟨tt, hsent⟩ := h ⟨localhostTexts, [], []⟩ "Contact: <sip:alice@localhost>".toList d 0
    "Contact: <sip:alice@localhost>".toList "<sip:alice@localhost>".toList "<sip:alice@192.0.2.1:5060>".toList
    (by decide +kernel) ⟨⟨"Contact".toList, by decide +kernel, by decide +kernel⟩, by decide +kernel,
      ⟨"<sip:alice@".toList, "localhost".toList, [], ">".toList⟩, by decide +kernel, by decide +kernel⟩
  have hslot : (d.requestTags ⟨localhostTexts, [], []⟩ "Contact: <sip:alice@localhost>".toList)[0]? =
      some (some ⟨.contactStr, some "<sip:alice@:>".toList⟩) := by decide +kernel
  rw [hslot] at hsent
  cases hsent

end Drachtio.Sip
