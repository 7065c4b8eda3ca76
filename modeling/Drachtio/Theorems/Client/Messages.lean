import Drachtio.Client.Commands

/-! A message of an application is taken apart into what it was put together from: the separators are found where they were
    put, as neither the pieces in front of a separator nor their seams hold one. -/

namespace Drachtio.Client

/-! ### The first occurrence -/

section
variable {sep s x rest : List Char}

theorem cut_none (h : ¬sep <:+: s) : cut sep s = none := by
  induction s with
  | nil =>
    have hsep : sep ≠ [] := by
      rintro rfl
      exact h List.nil_infix
    unfold cut
    exact if_neg hsep
  | cons c s ih =>
    have hprefix : ¬sep <+: c :: s := fun hp => h hp.isInfix
    have hrest : ¬sep <:+: s := fun hi => h (List.infix_cons hi)
    unfold cut
    rw [if_neg hprefix, ih hrest]
    rfl

/-- A separator that does not begin in front of its place is found there. -/
theorem cut_append (h : ¬sep <:+: x ++ sep.dropLast) : cut sep (x ++ sep ++ rest) = some (x, rest) := by
  have hne : sep ≠ [] := by
    rintro rfl
    exact h List.nil_infix
  induction x with
  | nil =>
    obtain ⟨a, sep', rfl⟩ := List.exists_cons_of_ne_nil hne
    rw [List.nil_append, List.cons_append]
    unfold cut
    rw [← List.cons_append, if_pos (List.prefix_append _ _), List.drop_left]
  | cons c x ih =>
    have hprefix : ¬sep <+: c :: (x ++ sep ++ rest) := by
      intro hp
      -- The separator would end before the last character of the one behind it.
      have hlen : sep.length ≤ (c :: x ++ sep.dropLast).length := by
        simp only [List.length_append, List.length_cons, List.length_dropLast]
        omega
      have hfront : c :: x ++ sep.dropLast <+: c :: (x ++ sep ++ rest) := by
        rw [List.cons_append, List.append_assoc]
        exact List.cons_prefix_cons.mpr ⟨rfl, (List.prefix_append_right_inj x).mpr
          ((List.dropLast_prefix sep).trans (List.prefix_append sep rest))⟩
      exact h (List.prefix_of_prefix_length_le hp hfront hlen).isInfix
    have hrest : ¬sep <:+: x ++ sep.dropLast := fun hi => h (List.infix_cons hi)
    rw [List.cons_append, List.cons_append]
    unfold cut
    rw [if_neg hprefix, ih hrest]
    rfl

end

/-! ### Lines -/

section
variable {x y : List Char} {headers : List (List Char)}

/-- What begins with a line end does not begin in a text without line ends. -/
theorem begins_behind {t : List Char} (ht : crlf <+: t) (hx : ¬crlf <:+: x) (h : t <:+: x ++ '\r' :: y) :
    t <:+: '\r' :: y := by
  induction x with
  | nil => exact h
  | cons c x ih =>
    rcases List.infix_cons_iff.mp h with hp | hi
    · -- The second character would be the line feed of a line end in the text.
      exfalso
      obtain ⟨hc, htail⟩ := List.cons_prefix_cons.mp (ht.trans hp)
      cases x with
      | nil => exact absurd (List.cons_prefix_cons.mp htail).1 (by decide)
      | cons d x =>
        obtain ⟨hd, -⟩ := List.cons_prefix_cons.mp htail
        rw [← hc, ← hd] at hx
        exact hx (List.prefix_append crlf x).isInfix
    · exact ih (fun hi => hx (List.infix_cons hi)) hi

theorem cut_crlf (hx : ¬crlf <:+: x) : cut crlf (x ++ crlf ++ y) = some (x, y) := by
  refine cut_append fun h => ?_
  have hend : crlf <:+: ['\r'] := begins_behind (List.prefix_refl crlf) hx h
  exact absurd hend.length_le (by decide)

/-- What an application puts into a header line -/
def IsHeaderLine (l : List Char) : Prop := l ≠ [] ∧ '\r' ∉ l ∧ '\n' ∉ l

theorem IsHeaderLine.no_crlf {l : List Char} (h : IsHeaderLine l) : ¬crlf <:+: l :=
  fun hi => h.2.1 (hi.subset List.mem_cons_self)

/-- No empty line begins in front of the last line end. -/
theorem no_blank (hx : ¬crlf <:+: x) (hheaders : ∀ l ∈ headers, IsHeaderLine l) :
    ¬crlf ++ crlf <:+: x ++ headers.flatMap (crlf ++ ·) ++ (crlf ++ crlf).dropLast := by
  induction headers generalizing x with
  | nil =>
    rw [List.flatMap_nil, List.append_nil]
    intro h
    have hend : crlf ++ crlf <:+: (crlf ++ crlf).dropLast := begins_behind (List.prefix_append crlf crlf) hx h
    exact absurd hend.length_le (by decide)
  | cons l headers ih =>
    obtain ⟨hl, hlines⟩ := List.forall_mem_cons.mp hheaders
    rw [List.flatMap_cons, List.append_assoc, List.append_assoc]
    intro h
    have hline : crlf ++ crlf <:+: '\r' :: '\n' :: (l ++ headers.flatMap (crlf ++ ·) ++ (crlf ++ crlf).dropLast) := by
      refine begins_behind (List.prefix_append crlf crlf) hx ?_
      simpa [crlf] using h
    -- The line is not empty, so none begins at the line end in front of it.
    obtain ⟨c, l', rfl⟩ := List.exists_cons_of_ne_nil hl.1
    rcases List.infix_cons_iff.mp hline with hp | hi
    · obtain ⟨-, hp⟩ := List.cons_prefix_cons.mp hp
      obtain ⟨-, hp⟩ := List.cons_prefix_cons.mp hp
      have hc : '\r' = c := (List.cons_prefix_cons.mp hp).1
      exact hl.2.1 (hc ▸ List.mem_cons_self)
    · rcases List.infix_cons_iff.mp hi with hp | hi
      · exact absurd (List.cons_prefix_cons.mp hp).1 (by decide)
      · exact ih hl.no_crlf hlines hi

/-- The lines behind a start line -/
theorem cut_lines (hx : ¬crlf <:+: x) :
    (cut crlf (x ++ headers.flatMap (crlf ++ ·))).getD (x ++ headers.flatMap (crlf ++ ·), []) =
      (x, crlf.intercalate headers) := by
  cases headers with
  | nil =>
    rw [List.flatMap_nil, List.append_nil, cut_none hx]
    rfl
  | cons l headers =>
    have hlines : crlf.intercalate (l :: headers) = l ++ headers.flatMap (crlf ++ ·) := by
      induction headers generalizing l with
      | nil => simp
      | cons l' headers ih => rw [List.intercalate_cons_cons, ih, List.flatMap_cons, List.append_assoc, List.append_assoc]
    rw [hlines, List.flatMap_cons, List.append_assoc, ← List.append_assoc, cut_crlf hx]
    rfl

end

/-! ### Messages -/

/-- A message without a body, as an application puts it together -/
def assemble (metaLine startLine : String) (headers : List String) : String :=
  metaLine ++ "\r\n" ++ startLine ++ String.join (headers.map ("\r\n" ++ ·))

theorem toList_assemble {metaLine startLine : String} {headers : List String} : (assemble metaLine startLine headers).toList =
    metaLine.toList ++ crlf ++ (startLine.toList ++ (headers.map String.toList).flatMap (crlf ++ ·)) := by
  have hcrlf : "\r\n".toList = crlf := by decide
  simp only [assemble, String.toList_append, String.toList_join, List.flatMap_map, hcrlf, List.append_assoc]

/-- `splitMsg` gives back what a message was assembled from, whatever bytes its body has. -/
theorem splitMsg_assembled (metaLine startLine : String) (headers : List String) (body : String)
    (hmeta : ¬crlf <:+: metaLine.toList) (hstart : ¬crlf <:+: startLine.toList)
    (hheaders : ∀ l ∈ headers, IsHeaderLine l.toList) :
    splitMsg (assemble metaLine startLine headers ++ "\r\n\r\n" ++ body) =
      ⟨metaLine, startLine, "\r\n".intercalate headers, body⟩ ∧
    splitMsg (assemble metaLine startLine headers) = ⟨metaLine, startLine, "\r\n".intercalate headers, ""⟩ := by
  have hcrlf : "\r\n".toList = crlf := by decide
  have hblank : "\r\n\r\n".toList = crlf ++ crlf := by decide
  have hlines : ∀ l ∈ headers.map String.toList, IsHeaderLine l := List.forall_mem_map.mpr hheaders
  have hjoined : String.ofList (crlf.intercalate (headers.map String.toList)) = "\r\n".intercalate headers := by
    rw [← String.toList_inj, String.toList_ofList, String.toList_intercalate, hcrlf]
  have hnone : cut (crlf ++ crlf) (startLine.toList ++ (headers.map String.toList).flatMap (crlf ++ ·)) = none :=
    cut_none fun h => no_blank hstart hlines (h.trans (List.prefix_append _ _).isInfix)
  constructor
  · unfold splitMsg
    rw [String.toList_append, String.toList_append, toList_assemble, hblank, List.append_assoc, List.append_assoc,
      cut_crlf hmeta]
    dsimp only
    rw [← List.append_assoc, cut_append (no_blank hstart hlines)]
    dsimp only [Option.getD_some]
    rw [cut_lines hstart]
    simp only [String.ofList_toList, hjoined]
  · unfold splitMsg
    rw [toList_assemble, cut_crlf hmeta]
    dsimp only
    rw [hnone]
    dsimp only [Option.getD_none]
    rw [cut_lines hstart]
    simp only [String.ofList_toList, String.ofList_nil, hjoined]

/-- A body that looks like a message of its own, behind lines that end in a lone carriage return. -/
theorem splitMsg_assembled_nested :
    splitMsg (assemble "1|sip|t|\r" "SIP/2.0 200 OK\r" ["A: 1", "B: 2"] ++ "\r\n\r\n" ++ "\r\n\r\nx\r\n\r\n") =
      ⟨"1|sip|t|\r", "SIP/2.0 200 OK\r", "\r\n".intercalate ["A: 1", "B: 2"], "\r\n\r\nx\r\n\r\n"⟩ ∧
    splitMsg (assemble "1|sip|t|\r" "SIP/2.0 200 OK\r" ["A: 1", "B: 2"]) =
      ⟨"1|sip|t|\r", "SIP/2.0 200 OK\r", "\r\n".intercalate ["A: 1", "B: 2"], ""⟩ :=
  splitMsg_assembled "1|sip|t|\r" "SIP/2.0 200 OK\r" ["A: 1", "B: 2"] "\r\n\r\nx\r\n\r\n" (by decide +kernel)
    (by decide +kernel) (by
      simp only [List.forall_mem_cons, IsHeaderLine]
      exact ⟨by decide +kernel, by decide +kernel, List.forall_mem_nil _⟩)

end Drachtio.Client
