import Drachtio.Http.RequestHandler
import Drachtio.Route.Instruction
import Mathlib.Data.List.TakeWhile

/-! Routes without a server: a route url with the scheme tcp or tls is turned into the reply that a server would have sent
    to name the application, and the controller reads it back. The connection goes where the url says, but over TLS only
    if nothing else stands behind the port. -/

namespace Drachtio.Http
namespace RequestHandler

open Sip (Text)
open Route (Json JsonError Instruction Target)

/-! ### The uri in the reply -/

/-- The parameter that `directReply` puts behind a url -/
def transportParam (url : Text) : Text :=
  if "tcp://".toList <+: url then ";transport=tcp".toList else ";transport=tls".toList

/-- A text that JSON prints as it is: no quote, backslash or control character in it, and only ASCII. -/
def Plain (u : Text) : Prop := ∀ c ∈ u, c ≠ '"' ∧ c ≠ '\\' ∧ ' ' ≤ c ∧ c ≤ '~'

/-- The reply that names a uri -/
def replyOf (u : Text) : Text := "\x7b\"action\": \"route\", \"data\": \x7b\"uri\": \"".toList ++ u ++ "\"\x7d\x7d".toList

/-- The value that this reply looks like -/
def replyValue (u : Text) : Json :=
  let data := Json.object [("uri", Json.string (String.ofList u))]
  .object [("action", Json.string "route"), ("data", data)]

/-- What is relied on of the parser: a reply with a plain uri in it is the value that it looks like. -/
def ReadsReplies (jsonLoads : String → Except JsonError Json) : Prop :=
  ∀ u : Text, Plain u → jsonLoads (String.ofList (replyOf u)) = Except.ok (replyValue u)

theorem directReply_eq (url : Text) : directReply url = replyOf (url.drop 6 ++ transportParam url) := by
  unfold directReply replyOf transportParam
  rw [List.append_assoc _ (url.drop 6)]

theorem transportParam_cases (url : Text) :
    transportParam url = ";transport=tcp".toList ∨ transportParam url = ";transport=tls".toList := by
  unfold transportParam
  split
  · exact Or.inl rfl
  · exact Or.inr rfl

theorem Plain.append {u v : Text} (hu : Plain u) (hv : Plain v) : Plain (u ++ v) :=
  fun c hc => (List.mem_append.mp hc).elim (hu c) (hv c)

theorem plain_transportParam (url : Text) : Plain (transportParam url) := by
  rcases transportParam_cases url with heq | heq <;>
  · rw [heq]
    intro c hc
    simp only [String.reduceToList, List.mem_cons, List.not_mem_nil, or_false] at hc
    rcases hc with rfl | rfl | rfl | rfl | rfl | rfl | rfl | rfl | rfl | rfl | rfl | rfl | rfl | rfl <;> decide

/-! ### Its parts -/

section
variable {u sfx : Text}

theorem split_cons (c : Char) (cs : Text) : Target.split (c :: cs) =
    if Target.isLineEnd c = true then none
    else (Target.split cs).elim (if c = ':' ∧ cs.head?.any Char.isDigit = true then some ([], cs) else none)
      fun p => some (c :: p.1, p.2) := by
  rw [Target.split]
  cases Target.split cs <;> rfl

theorem split_no_colon (hcolon : ':' ∉ u) : Target.split u = none := by
  induction u with
  | nil => rfl
  | cons c cs ih =>
    rw [List.mem_cons, not_or] at hcolon
    have hnot : ¬ (c = ':' ∧ cs.head?.any Char.isDigit = true) := fun h => hcolon.1 h.1.symm
    rw [split_cons, ih hcolon.2, Option.elim_none, if_neg hnot, ite_self]

/-- What is put behind a uri does not move its last colon. -/
theorem split_append (hcolon : ':' ∉ sfx) (hdigit : sfx.head?.any Char.isDigit = false) :
    Target.split (u ++ sfx) = (Target.split u).map fun p => (p.1, p.2 ++ sfx) := by
  induction u with
  | nil => exact split_no_colon hcolon
  | cons c cs ih =>
    have hhead : (cs ++ sfx).head?.any Char.isDigit = cs.head?.any Char.isDigit := by
      cases cs with
      | nil => exact hdigit
      | cons d ds => rfl
    rw [List.cons_append, split_cons, split_cons, ih, hhead]
    cases Target.split cs <;> (split <;> try rfl)
    rw [Option.map_none, Option.elim_none, Option.elim_none]
    split <;> rfl

theorem takeWhile_isDigit_append (hdigit : sfx.head?.any Char.isDigit = false) :
    (u ++ sfx).takeWhile Char.isDigit = u.takeWhile Char.isDigit ∧
      (u ++ sfx).dropWhile Char.isDigit = u.dropWhile Char.isDigit ++ sfx := by
  induction u with
  | nil =>
    cases sfx with
    | nil => exact ⟨rfl, rfl⟩
    | cons c cs =>
      have hc : c.isDigit = false := hdigit
      rw [List.nil_append, List.takeWhile_cons, List.dropWhile_cons, hc]
      exact ⟨rfl, rfl⟩
  | cons c cs ih =>
    rw [List.cons_append, List.takeWhile_cons, List.dropWhile_cons, List.takeWhile_cons, List.dropWhile_cons]
    cases c.isDigit
    · exact ⟨rfl, rfl⟩
    · exact ⟨congrArg _ ih.1, ih.2⟩

/-- A text that begins with a character which comes only once in it does not end in one that begins with the same. -/
theorem prefix_append_iff {c : Char} {cs ds after : Text} (hc : c ∉ cs) (hne : after ≠ []) :
    c :: cs <+: after ++ c :: ds ↔ c :: cs <+: after := by
  constructor
  · rintro ⟨rest, hrest⟩
    rcases List.append_eq_append_iff.mp hrest with ⟨more, rfl, -⟩ | ⟨more, hafter, hmore⟩
    · exact List.prefix_append _ _
    · cases after with
      | nil => exact absurd rfl hne
      | cons a after =>
        obtain ⟨rfl, htail⟩ := List.cons.inj hafter
        cases more with
        | nil => exact ⟨[], by rw [List.append_nil, hafter, List.append_nil]⟩
        | cons b more =>
          -- the two overlap, so that the first character stands once more inside
          obtain ⟨rfl, -⟩ := List.cons.inj hmore
          rw [htail] at hc
          exact absurd (List.mem_append_right _ List.mem_cons_self) hc
  · exact fun h => h.trans (List.prefix_append _ _)

end

/-! ### The connection -/

/-- What stands behind the port in the reply names the transport of the scheme when nothing stands behind it in the url. -/
theorem transportOf_append (url after : Text) :
    Target.transportOf (after ++ transportParam url) =
      if after = [] then (if "tcp://".toList <+: url then "tcp" else "tls") else Target.transportOf after := by
  by_cases hafter : after = []
  · rw [if_pos hafter, hafter, List.nil_append]
    unfold transportParam
    split <;> rfl
  · rw [if_neg hafter]
    obtain ⟨ds, hds⟩ : ∃ ds, transportParam url = ';' :: ds :=
      (transportParam_cases url).elim (fun heq => ⟨_, heq⟩) fun heq => ⟨_, heq⟩
    have hprefix : ∀ cs, ';' ∉ cs → List.isPrefixOf (';' :: cs) (after ++ transportParam url) = List.isPrefixOf
        (';' :: cs) after := by
      intro cs hcs
      rw [hds, Bool.eq_iff_iff, List.isPrefixOf_iff_prefix, List.isPrefixOf_iff_prefix]
      exact prefix_append_iff hcs hafter
    unfold Target.transportOf
    rw [show ";transport=tcp".toList = ';' :: "transport=tcp".toList from rfl,
      show ";transport=tls".toList = ';' :: "transport=tls".toList from rfl, hprefix _ (by decide), hprefix _ (by decide)]

/-- A direct url is connected to where it says. The transport is that of its scheme when the url ends with the port; when
    anything stands behind the port, only a transport parameter of the url's own right there counts. -/
theorem direct_target (url : Text) {jsonLoads : String → Except JsonError Json} (hreads : ReadsReplies jsonLoads)
    (hplain : Plain url) :
    ∃ uri, Instruction.ofBody jsonLoads (String.ofList (directReply url)) = .ok (.connect uri) ∧
      Target.ofUri uri = (Target.split (url.drop 6)).map fun p =>
        let after := p.2.dropWhile Char.isDigit
        ⟨String.ofList p.1, String.ofList (p.2.takeWhile Char.isDigit),
          if after = [] then (if "tcp://".toList <+: url then "tcp" else "tls") else Target.transportOf after⟩ := by
  have hcolon : ':' ∉ transportParam url := fun h => by
    rcases transportParam_cases url with heq | heq <;> rw [heq] at h <;> revert h <;> decide
  have hdigit : (transportParam url).head?.any Char.isDigit = false := by
    rcases transportParam_cases url with heq | heq <;> rw [heq] <;> rfl
  have hdrop : Plain (url.drop 6) := fun c hc => hplain c (List.mem_of_mem_drop hc)
  have hread := hreads _ (hdrop.append (plain_transportParam url))
  refine ⟨String.ofList (url.drop 6 ++ transportParam url), ?_, ?_⟩
  · rw [directReply_eq]
    unfold Instruction.ofBody
    rw [hread]
    rfl
  · unfold Target.ofUri
    rw [String.toList_ofList, split_append hcolon hdigit]
    cases Target.split (url.drop 6) with
    | none => rfl
    | some p =>
      obtain ⟨htake, hdropWhile⟩ := takeWhile_isDigit_append (u := p.2) hdigit
      dsimp only [Option.map_some]
      rw [htake, hdropWhile, transportOf_append]

/-- A parser for replies that name a uri and nothing else -/
def readReply (body : String) : Except JsonError Json :=
  let before := "\x7b\"action\": \"route\", \"data\": \x7b\"uri\": \"".toList
  if before <+: body.toList then .ok (replyValue ((body.toList.drop before.length).dropLast.dropLast.dropLast))
  else .error ⟨1, "invalid token"⟩

theorem readsReplies_readReply : ReadsReplies readReply := by
  intro u _
  have htoList : (String.ofList (replyOf u)).toList = replyOf u := String.toList_ofList
  have hsplit :
    replyOf u = "\x7b\"action\": \"route\", \"data\": \x7b\"uri\": \"".toList ++ (u ++ "\"\x7d\x7d".toList) :=
    List.append_assoc ..
  have hlast : (u ++ "\"\x7d\x7d".toList).dropLast.dropLast.dropLast = u := by
    rw [show "\"\x7d\x7d".toList = ['"'] ++ ['}'] ++ ['}'] from rfl, ← List.append_assoc, ← List.append_assoc,
      List.dropLast_concat, List.dropLast_concat, List.dropLast_concat]
  unfold readReply
  dsimp only
  rw [htoList, hsplit, if_pos (List.prefix_append _ _), List.drop_left, hlast]

theorem direct_target_path :
    ∃ uri, Instruction.ofBody readReply (String.ofList (directReply "tls://app.example.org:9023/first".toList)) =
        .ok (.connect uri) ∧ Target.ofUri uri = some ⟨"app.example.org", "9023", ""⟩ := by
  have hplain : "tls://app.example.org:9023/first".toList.all (fun c => c != '"' && c != '\\' && ' ' ≤ c && c ≤ '~') =
    true := rfl
  refine direct_target _ readsReplies_readReply fun c hc => ?_
  have h := List.all_eq_true.mp hplain c hc
  simp only [Bool.and_eq_true, bne_iff_ne, decide_eq_true_eq] at h
  exact ⟨h.1.1.1, h.1.1.2, h.1.2, h.2⟩

end RequestHandler
end Drachtio.Http
