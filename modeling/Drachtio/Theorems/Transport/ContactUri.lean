import Drachtio.Transport.SipTransport
import Drachtio.Lib.Fields

/-! The contact of a transport that is not bound is parsed into the parts it was made of: the user ends at the last `@`
    before the parameters, and a host with a colon in its brackets is none for the first expression. -/

namespace Drachtio.Transport

open Pattern (text many1 opt either eos mem_bind mem_opt mem_text mem_many1 first_bind first_opt findSome?_bind)
open SipTransport (printParams)
open Sip (Text SipUri isHostChar isHexOrColon hostName hostBracketed paramPair splitParams sipUri parseSipUri)

/-- A host name, or an address in brackets -/
def IsHost (host : Text) : Prop :=
  (host ≠ [] ∧ ∀ c ∈ ['@', ';', '|', '^', '>', ':'], c ∉ host) ∨
    ∃ address, host = '[' :: address ++ [']'] ∧ ∀ c ∈ address, isHexOrColon c = true

/-- Parts of which a contact can be made -/
structure Renderable (u : SipUri) : Prop where
  scheme : u.scheme = "sip".toList ∨ u.scheme = "sips".toList
  user : ';' ∉ u.userpart
  host : IsHost u.hostpart
  port : ∀ c ∈ u.port, c.isDigit = true
  params : ∀ kv ∈ u.params, kv.1 ≠ [] ∧ ∀ c ∈ [';', '=', '>'], c ∉ kv.1 ∧ c ∉ kv.2

/-! ### Parameters -/

section
variable {params : List (Text × Text)} {kv : Text × Text}

def paramText (kv : Text × Text) : Text := kv.1 ++ if kv.2 = [] then [] else '=' :: kv.2

/-- The parameters without the first semicolon -/
def paramString (params : List (Text × Text)) : Text := [';'].intercalate (params.map paramText)

theorem paramString_cons : paramString (kv :: params) = paramText kv ++ printParams params := by
  induction params generalizing kv with
  | nil => exact List.intercalate_singleton.trans (List.append_nil _).symm
  | cons kv' params ih =>
    have hmore : paramString (kv :: kv' :: params) = paramText kv ++ ';' :: paramString (kv' :: params) := by
      rw [paramString, List.map_cons, List.map_cons, List.intercalate_cons_cons, List.append_assoc]
      rfl
    rw [hmore, ih]
    rfl

theorem paramString_ne (hname : kv.1 ≠ []) : paramString (kv :: params) ≠ [] := by
  rw [paramString_cons, paramText]
  intro h
  exact hname (List.append_eq_nil_iff.mp (List.append_eq_nil_iff.mp h).1).1

theorem printParams_eq (hnames : ∀ kv ∈ params, kv.1 ≠ []) :
    printParams params = if paramString params = [] then [] else ';' :: paramString params := by
  cases params with
  | nil => rfl
  | cons kv params =>
    rw [if_neg (paramString_ne (hnames kv List.mem_cons_self)), paramString_cons]
    rfl

theorem notMem_paramString (hparams : ∀ kv ∈ params, kv.1 ≠ [] ∧ ∀ c ∈ [';', '=', '>'], c ∉ kv.1 ∧ c ∉ kv.2) :
    '>' ∉ paramString params := by
  have hprinted : '>' ∉ printParams params := by
    intro h
    obtain ⟨kv, hkv, hc⟩ := List.mem_flatMap.mp h
    obtain ⟨hname, hvalue⟩ := (hparams kv hkv).2 '>' (by simp)
    by_cases hv : kv.2 = [] <;> simp [hv, hname, hvalue] at hc
  rw [printParams_eq fun kv hkv => (hparams kv hkv).1] at hprinted
  intro h
  rw [if_neg (List.ne_nil_of_mem h)] at hprinted
  exact hprinted (List.mem_cons_of_mem _ h)

theorem paramPair_paramText (hname : '=' ∉ kv.1) (hvalue : '=' ∉ kv.2) : paramPair (paramText kv) = kv := by
  obtain ⟨name, value⟩ := kv
  by_cases hv : value = []
  · subst hv
    have hsplit : (paramText (name, [])).splitOn '=' = [name] := by
      rw [paramText, if_pos rfl, List.append_nil, List.splitOn_eq_singleton hname]
    rw [paramPair, hsplit]
    rfl
  · have hsplit : (paramText (name, value)).splitOn '=' = [name, value] := by
      rw [paramText, if_neg hv, List.splitOn_append_cons_self_of_not_mem hname, List.splitOn_eq_singleton hvalue]
    rw [paramPair, hsplit]
    rfl

theorem splitParams_paramString (hparams : ∀ kv ∈ params, kv.1 ≠ [] ∧ ∀ c ∈ [';', '=', '>'], c ∉ kv.1 ∧ c ∉ kv.2) :
    splitParams (paramString params) = params := by
  cases params with
  | nil => rfl
  | cons kv rest =>
    have hsemicolon : ∀ x ∈ (kv :: rest).map paramText, ';' ∉ x := by
      intro x hx
      obtain ⟨kv', hkv', rfl⟩ := List.mem_map.mp hx
      obtain ⟨hname, hvalue⟩ := (hparams kv' hkv').2 ';' (by simp)
      unfold paramText
      split <;> simp [hname, hvalue]
    rw [splitParams, if_neg (paramString_ne (hparams kv List.mem_cons_self).1), paramString,
      List.splitOn_intercalate _ hsemicolon (List.cons_ne_nil _ _), List.map_map]
    refine (List.map_congr_left fun kv' hkv' => ?_).trans (List.map_id _)
    obtain ⟨hname, hvalue⟩ := (hparams kv' hkv').2 '=' (by simp)
    exact paramPair_paramText hname hvalue

end

/-! ### Taking the parts -/

/-- What is printed in front of the scheme and behind the parameters -/
def opening (closed : Bool) : Text := if closed = true then ['<'] else []

def closing (closed : Bool) : Text := if closed = true then ['>'] else []

/-- The user has no end in a text. -/
def NoUser (tail : Text) : Prop := ∀ y rest, tail = y ++ '@' :: rest → ';' ∈ y

section
variable {α : Type} {a : α} {closed : Bool} {rest tail user : Text}

theorem first_opening {k : Option Unit → Pattern Char α} (hk : ∀ x, (k x).first rest = some a)
    (hrest : rest.head? ≠ some '<') : (opt (text ['<']) >>= k).first (opening closed ++ rest) = some a := by
  cases closed with
  | true =>
    have htext : text ['<'] (opening true ++ rest) = [((), rest)] := Pattern.text_append
    rw [first_opt, htext, List.findSome?_singleton, hk, Option.some_or]
  | false =>
    have hnone : ¬['<'] <+: rest := by
      rintro ⟨more, rfl⟩
      exact hrest rfl
    rw [first_opt, opening, if_neg Bool.false_ne_true, List.nil_append, Pattern.text_none hnone, List.findSome?_nil,
      Option.none_or, hk]

theorem first_closing {k : Unit → Pattern Char α} (hk : (k ()).first [] = some a) :
    (opt (text ['>']) >>= fun _ => eos >>= k).first (closing closed) = some a := by
  cases closed with
  | true =>
    have htext : text ['>'] (closing true) = [((), [])] := Pattern.text_append
    rw [first_opt, htext, List.findSome?_singleton, Pattern.first_eos, if_pos rfl, hk, Option.some_or]
  | false =>
    have hclosing : closing false = [] := rfl
    have htext : text ['>'] ([] : Text) = [] := rfl
    rw [hclosing, first_opt, htext, List.findSome?_nil, Option.none_or, Pattern.first_eos, if_pos rfl, hk]

theorem first_scheme {scheme : Text} {k : Text → Pattern Char α} (hscheme : scheme = "sip".toList ∨ scheme = "sips".toList)
    (hk : (k scheme).first rest = some a) :
    (either (text "sip".toList >>= fun _ => pure "sip".toList) (text "sips".toList >>= fun _ => pure "sips".toList) >>=
      fun x => text [':'] >>= fun _ => k x).first (scheme ++ ':' :: rest) = some a := by
  have htaken (t : Text) : ((text t >>= fun _ => pure t) >>= fun x => text [':'] >>= fun _ => k x).first (t ++ ':' :: rest) =
      (k t).first rest := by
    rw [first_bind, findSome?_bind, Pattern.text_append, List.findSome?_singleton]
    exact List.findSome?_singleton.trans Pattern.first_text
  rw [Pattern.first_either]
  rcases hscheme with rfl | rfl
  · rw [htaken, hk, Option.some_or]
  · have hshort : ((text "sip".toList >>= fun _ => pure "sip".toList) >>= fun x => text [':'] >>= fun _ => k x).first
        ("sips".toList ++ ':' :: rest) = none := by
      have htext : text "sip".toList ("sips".toList ++ ':' :: rest) = [((), 's' :: ':' :: rest)] := Pattern.text_append
      rw [first_bind, findSome?_bind, htext, List.findSome?_singleton]
      exact List.findSome?_singleton.trans (Pattern.first_text_none (by simp))
    rw [hshort, htaken, hk, Option.none_or]

/-- The pattern of the user with the `@` behind it -/
def userPart : Pattern Char Text := many1 (fun c => decide (c ≠ ';')) >>= fun x => text ['@'] >>= fun _ => pure x

/-- The user is printed and taken with the `@` behind it, or left out. -/
theorem first_user {k : Option Text → Pattern Char α} (huser : ';' ∉ user) (htail : NoUser tail)
    (hk : (k (if user = [] then none else some user)).first tail = some a) :
    (opt userPart >>= k).first ((if user = [] then [] else user ++ ['@']) ++ tail) = some a := by
  have hclass : ∀ {y : Text}, (∀ c ∈ y, decide (c ≠ ';') = true) ↔ ';' ∉ y := by
    intro y
    simp only [decide_eq_true_eq]
    exact ⟨fun h hm => h ';' hm rfl, fun h c hc heq => h (heq ▸ hc)⟩
  rw [first_opt]
  by_cases hempty : user = []
  · rw [if_pos hempty] at hk ⊢
    have hnone : userPart tail = [] := by
      rw [List.eq_nil_iff_forall_not_mem]
      intro y hy
      obtain ⟨x, hx, hy⟩ := mem_bind.mp hy
      obtain ⟨z, hz, -⟩ := mem_bind.mp hy
      obtain ⟨-, heq, hall⟩ := mem_many1.mp hx
      rw [mem_text.mp hz] at heq
      exact hclass.mp hall (htail _ _ heq.symm)
    rw [List.nil_append, hnone, List.findSome?_nil, Option.none_or, hk]
  · rw [if_neg hempty] at hk ⊢
    have htaken : (userPart (user ++ '@' :: tail)).findSome? (fun x => (k (some x.1)).first x.2) = some a := by
      rw [userPart, findSome?_bind]
      refine Pattern.findSome?_many1 hempty (hclass.mpr huser) (fun y rest' hne heq hall => ?_) ?_
      · have habsent : ¬['@'] <+: rest' := by
          rintro ⟨more, rfl⟩
          obtain ⟨c, y, rfl⟩ := List.exists_cons_of_ne_nil hne
          obtain ⟨rfl, hmore⟩ := List.cons.inj heq
          exact hclass.mp hall (List.mem_cons_of_mem _ (htail y more hmore.symm))
        rw [findSome?_bind, Pattern.text_none habsent, List.findSome?_nil]
      · have htext : text ['@'] ('@' :: tail) = [((), tail)] := Pattern.text_append
        rw [findSome?_bind, htext, List.findSome?_singleton]
        exact List.findSome?_singleton.trans hk
    rw [List.append_assoc, List.singleton_append, htaken, Option.some_or]

end

/-! ### Taking the whole contact -/

/-- A contact, in angle brackets or not, part by part -/
def printed (closed : Bool) (u : SipUri) : Text :=
  opening closed ++ (u.scheme ++ ':' :: ((if u.userpart = [] then [] else u.userpart ++ ['@']) ++
    (u.hostpart ++ ((if u.port = [] then [] else ':' :: u.port) ++ (printParams u.params ++ closing closed)))))

/-- A pattern takes a host whole where the host ends. -/
def Takes (host : Pattern Char Text) (hostpart : Text) : Prop :=
  ∀ {α : Type} (k : Text → Pattern Char α) (a : α) (rest : Text), (∀ c ∈ rest.head?, c = ':' ∨ c = ';' ∨ c = '>') →
    (k hostpart).first rest = some a → (host >>= k).first (hostpart ++ rest) = some a

section
variable {u : SipUri} {closed : Bool} {host : Pattern Char Text} {hostpart : Text}

theorem head_closing {c : Char} (hc : c ∈ (closing closed).head?) : c = '>' := by
  cases closed with
  | true => exact (Option.mem_some.mp hc).symm
  | false => cases hc

theorem head_params {c : Char} (hc : c ∈ (printParams u.params ++ closing closed).head?) : c = ';' ∨ c = '>' := by
  cases hparams : u.params with
  | nil =>
    rw [hparams] at hc
    exact .inr (head_closing hc)
  | cons kv params =>
    rw [hparams] at hc
    exact .inl (Option.mem_some.mp hc).symm

theorem head_port {c : Char}
    (hc : c ∈ ((if u.port = [] then [] else ':' :: u.port) ++ (printParams u.params ++ closing closed)).head?) :
    c = ':' ∨ c = ';' ∨ c = '>' := by
  split at hc
  · exact .inr (head_params hc)
  · exact .inl (Option.mem_some.mp hc).symm

/-- An `@` behind the host is in the parameters. -/
theorem noUser_tail (closed : Bool) (hhost : '@' ∉ u.hostpart) (hport : ∀ c ∈ u.port, c.isDigit = true) :
    NoUser (u.hostpart ++ ((if u.port = [] then [] else ':' :: u.port) ++ (printParams u.params ++ closing closed))) := by
  intro y rest h
  have hfield : '@' ∉ u.hostpart ++ if u.port = [] then [] else ':' :: u.port := by
    have hdigits : '@' ∉ u.port := fun hm => absurd (hport '@' hm) (by decide)
    split <;> simp [hhost, hdigits]
  rw [← List.append_assoc] at h
  rcases Fields.cut_cases h with ⟨d, rfl, htail⟩ | ⟨x, hx, -⟩
  · refine List.mem_append_right _ ?_
    have hhead : ∀ c ∈ (d ++ '@' :: rest).head?, c = ';' ∨ c = '>' := by
      intro c hc
      rw [← htail] at hc
      exact head_params hc
    cases d with
    | nil => exact absurd (hhead '@' rfl) (by decide)
    | cons c d =>
      rcases hhead c rfl with rfl | rfl
      · exact List.mem_cons_self
      · cases hparams : u.params with
        | nil =>
          rw [hparams] at htail
          cases closed with
          | true => cases d <;> simp [printParams, closing] at htail
          | false => cases htail
        | cons kv params =>
          rw [hparams] at htail
          exact absurd (List.cons.inj htail).1 (by decide)
  · exact absurd (hx ▸ List.mem_append_right y List.mem_cons_self) hfield

theorem IsHost.noAt (h : IsHost hostpart) : '@' ∉ hostpart := by
  rcases h with ⟨-, hnot⟩ | ⟨address, rfl, hall⟩
  · exact hnot '@' (by simp)
  · intro hm
    have hmem : '@' ∈ address := by simpa using hm
    exact absurd (hall '@' hmem) (by decide)

/-- An expression that takes the host takes the contact into its parts. -/
theorem sipUri_printed (hu : Renderable u) (hhost : Takes host u.hostpart) :
    (sipUri host).first (printed closed u) = some u := by
  have hparamString : ∀ c ∈ paramString u.params, decide (c ≠ '>') = true := by
    rintro c hc
    refine decide_eq_true ?_
    rintro rfl
    exact notMem_paramString hu.params hc
  unfold sipUri printed
  refine first_opening (fun _ => ?_) ?_
  · refine first_scheme hu.scheme ?_
    refine first_user hu.user (noUser_tail closed hu.host.noAt hu.port) ?_
    refine hhost _ _ _ (fun c hc => head_port hc) ?_
    refine Pattern.first_opt_field hu.port (fun c hc => ?_) ?_
    · rcases head_params hc with rfl | rfl <;> decide
    · rw [printParams_eq fun kv hkv => (hu.params kv hkv).1]
      refine Pattern.first_opt_field hparamString (fun c hc => ?_) ?_
      · obtain rfl := head_closing hc
        decide
      · refine first_closing ?_
        have hget : ∀ x : Text, (if x = [] then none else some x).getD [] = x := by
          intro x
          split
          · rename_i hx
            exact hx.symm
          · rfl
        rw [Pattern.first_pure, hget, hget, hget, splitParams_paramString hu.params]
  · rcases hu.scheme with h | h <;> rw [h] <;> simp

/-! ### Hosts -/

theorem takes_name (hne : hostpart ≠ []) (hall : ∀ c ∈ hostpart, isHostChar c = true) : Takes hostName hostpart := by
  intro α k a rest hrest hk
  rw [first_bind]
  refine Pattern.findSome?_many1_whole hne hall (fun c hc => ?_) hk
  rcases hrest c hc with rfl | rfl | rfl <;> decide

theorem takes_bracketed {address : Text} (hne : address ≠ []) (hall : ∀ c ∈ address, isHexOrColon c = true) :
    Takes hostBracketed ('[' :: address ++ [']']) := by
  intro α k a rest hrest hk
  have hopen : text ['['] ('[' :: address ++ [']'] ++ rest) = [((), address ++ ']' :: rest)] := by
    rw [List.append_assoc]
    exact Pattern.text_append
  have hclose : text [']'] (']' :: rest) = [((), rest)] := Pattern.text_append
  rw [first_bind, hostBracketed, findSome?_bind, hopen, List.findSome?_singleton, findSome?_bind]
  refine Pattern.findSome?_many1_whole hne hall (fun c hc => ?_) ?_
  · obtain rfl := Option.mem_some.mp hc
    decide
  · rw [findSome?_bind, hclose, List.findSome?_singleton]
    exact List.findSome?_singleton.trans hk

/-- What the first expression can take in front of a host: without a user there is no bracket in it, and with one it ends
    with an `@`. -/
structure Front (front : Text) : Prop where
  semicolon : ';' ∉ front
  bracket : '[' ∈ front → ∃ x, front = x ++ ['@']

theorem cut_user {y : Option Text × Text} {s : Text} (h : y ∈ opt userPart s) :
    s = y.2 ∨ ∃ user, s = user ++ '@' :: y.2 ∧ ';' ∉ user := by
  rcases mem_opt.mp h with rfl | ⟨x, hx, rfl⟩
  · exact .inl rfl
  · obtain ⟨z, hz, hx⟩ := mem_bind.mp hx
    obtain ⟨z', hz', hx⟩ := mem_bind.mp hx
    obtain ⟨-, heq, hall⟩ := mem_many1.mp hz
    obtain rfl := Pattern.mem_pure.mp hx
    rw [mem_text.mp hz'] at heq
    exact .inr ⟨z.1, heq.symm, fun hm => absurd (hall ';' hm) (by decide)⟩

theorem cut_scheme {y : Text × Text} {s : Text}
    (h : y ∈ either (text "sip".toList >>= fun _ => pure "sip".toList)
    (text "sips".toList >>= fun _ => pure "sips".toList) s) :
    s = "sip".toList ++ y.2 ∨ s = "sips".toList ++ y.2 := by
  rcases Pattern.mem_either.mp h with h | h
  · obtain ⟨x, hx, h⟩ := mem_bind.mp h
    obtain rfl := Pattern.mem_pure.mp h
    exact .inl (mem_text.mp hx)
  · obtain ⟨x, hx, h⟩ := mem_bind.mp h
    obtain rfl := Pattern.mem_pure.mp h
    exact .inr (mem_text.mp hx)

theorem front_cut {s s₁ s₂ s₃ s₄ : Text} (hopen : s = s₁ ∨ s = ['<'] ++ s₁)
    (hscheme : s₁ = "sip".toList ++ s₂ ∨ s₁ = "sips".toList ++ s₂) (hcolon : s₂ = [':'] ++ s₃)
    (huser : s₃ = s₄ ∨ ∃ user, s₃ = user ++ '@' :: s₄ ∧ ';' ∉ user) : ∃ front, Front front ∧ s = front ++ s₄ := by
  obtain ⟨head, hsemicolon, hbracket, hs⟩ : ∃ head, ';' ∉ head ∧ '[' ∉ head ∧ s = head ++ s₃ := by
    rcases hopen with rfl | rfl <;> rcases hscheme with rfl | rfl <;> rw [hcolon]
    · exact ⟨"sip:".toList, by decide, by decide, rfl⟩
    · exact ⟨"sips:".toList, by decide, by decide, rfl⟩
    · exact ⟨"<sip:".toList, by decide, by decide, rfl⟩
    · exact ⟨"<sips:".toList, by decide, by decide, rfl⟩
  rcases huser with rfl | ⟨user, rfl, huser⟩
  · exact ⟨head, ⟨hsemicolon, fun hm => absurd hm hbracket⟩, hs⟩
  · refine ⟨head ++ user ++ ['@'], ⟨by simp [hsemicolon, huser], fun _ => ⟨head ++ user, rfl⟩⟩, ?_⟩
    rw [hs, List.append_assoc, List.append_assoc, List.singleton_append]

/-- What the first expression takes is a front, a name, and fields that begin with their marks. -/
theorem name_cut {s : Text} (h : (sipUri hostName).first s = some u) : ∃ front name port params close,
    s = front ++ (name ++ (port ++ (params ++ close))) ∧ Front front ∧ (∀ c ∈ name, isHostChar c = true) ∧
      (port = [] ∨ ∃ digits, port = ':' :: digits ∧ ∀ c ∈ digits, c.isDigit = true) ∧
      (params = [] ∨ ∃ x, params = ';' :: x) ∧ (close = [] ∨ close = ['>']) := by
  obtain ⟨rest, hmem⟩ := Pattern.mem_of_first h
  unfold sipUri at hmem
  obtain ⟨⟨lt, s₁⟩, hopen, hmem⟩ := mem_bind.mp hmem
  obtain ⟨⟨scheme, s₂⟩, hscheme, hmem⟩ := mem_bind.mp hmem
  obtain ⟨⟨⟨⟩, s₃⟩, hcolon, hmem⟩ := mem_bind.mp hmem
  obtain ⟨⟨user, s₄⟩, huser, hmem⟩ := mem_bind.mp hmem
  obtain ⟨⟨name, s₅⟩, hname, hmem⟩ := mem_bind.mp hmem
  obtain ⟨⟨port, s₆⟩, hport, hmem⟩ := mem_bind.mp hmem
  obtain ⟨⟨params, s₇⟩, hparams, hmem⟩ := mem_bind.mp hmem
  obtain ⟨⟨gt, s₈⟩, hclose, hmem⟩ := mem_bind.mp hmem
  obtain ⟨⟨⟨⟩, s₉⟩, hend, hmem⟩ := mem_bind.mp hmem
  obtain rfl : s₈ = [] := Pattern.mem_eos hend
  obtain ⟨front, hfront, hs⟩ :=
    front_cut (Pattern.cut_opt_text hopen) (cut_scheme hscheme) (mem_text.mp hcolon) (cut_user huser)
  obtain ⟨-, hs₄, hname⟩ := mem_many1.mp hname
  obtain ⟨portField, hs₅, hportField⟩ : ∃ portField, s₅ = portField ++ s₆ ∧
      (portField = [] ∨ ∃ digits, portField = ':' :: digits ∧ ∀ c ∈ digits, c.isDigit = true) := by
    rcases Pattern.cut_opt_field hport with h | ⟨digits, h, hall⟩
    · exact ⟨[], h, .inl rfl⟩
    · exact ⟨':' :: digits, h, .inr ⟨digits, rfl, hall⟩⟩
  obtain ⟨paramsField, hs₆, hparamsField⟩ : ∃ paramsField, s₆ = paramsField ++ s₇ ∧
      (paramsField = [] ∨ ∃ x, paramsField = ';' :: x) := by
    rcases Pattern.cut_opt_field hparams with h | ⟨x, h, -⟩
    · exact ⟨[], h, .inl rfl⟩
    · exact ⟨';' :: x, h, .inr ⟨x, rfl⟩⟩
  refine ⟨front, name, portField, paramsField, s₇, ?_, hfront, hname, hportField, hparamsField, ?_⟩
  · rw [← hs₆, ← hs₅]
    exact hs.trans (congrArg _ hs₄.symm)
  · exact Pattern.cut_opt_text hclose

/-- Behind the digits of a port there is no closing bracket. -/
theorem port_refuses {digits behind tail params close : Text} (hdigits : ∀ c ∈ digits, c.isDigit = true)
    (hparams : params = [] ∨ ∃ x, params = ';' :: x) (hclose : close = [] ∨ close = ['>'])
    (hbehind : ∀ c ∈ behind, isHexOrColon c = true) : digits ++ (params ++ close) ≠ behind ++ ']' :: tail := by
  intro h
  rcases Fields.cut_cases h with ⟨d, rfl, htext⟩ | ⟨x, rfl, -⟩
  · have hhead : ∀ c ∈ (d ++ ']' :: tail).head?, c = ';' ∨ c = '>' := by
      rw [← htext]
      rcases hparams with rfl | ⟨y, rfl⟩
      · rcases hclose with rfl | rfl <;> simp
      · simp
    cases d with
    | nil => exact absurd (hhead ']' rfl) (by decide)
    | cons c d =>
      have hc := hbehind c (List.mem_append_right digits List.mem_cons_self)
      rcases hhead c rfl with rfl | rfl <;> exact absurd hc (by decide)
  · exact absurd (hdigits ']' (List.mem_append_right behind List.mem_cons_self)) (by decide)

/-- A front that goes on behind a bracket ends with an `@`, which is not in the address and has a semicolon in front of it
    behind the address. -/
theorem front_refuses {front before behind tail x rest : Text} (hfront : Front (front ++ '[' :: before ++ ':' :: x))
    (hat : '@' ∉ behind) (htail : NoUser tail) : behind ++ ']' :: tail ≠ x ++ rest := by
  intro h
  obtain ⟨y, hy⟩ := hfront.bracket (by simp)
  rcases Fields.cut_cases hy.symm with ⟨d, -, hend⟩ | ⟨x', rfl, rfl⟩
  · have hcolon : ':' ∈ ['@'] := hend ▸ List.mem_append_right d List.mem_cons_self
    exact absurd hcolon (by decide)
  · rw [List.append_assoc, List.singleton_append] at h
    rcases Fields.cut_cases h.symm with ⟨d, rfl, htext⟩ | ⟨x'', rfl, htext⟩
    · cases d with
      | nil => exact absurd (List.cons.inj htext).1 (by decide)
      | cons c d =>
        obtain ⟨rfl, -⟩ := List.cons.inj htext
        exact hat (List.mem_append_right x' List.mem_cons_self)
    · have hmem := htail x'' _ htext
      exact hfront.semicolon (by simp [hmem])

/-- No host in brackets with a colon is a name. -/
theorem name_refuses {front before behind tail : Text} (hfront : ';' ∉ front)
    (hbefore : ∀ c ∈ before, isHexOrColon c = true) (hbehind : ∀ c ∈ behind, isHexOrColon c = true) (htail : NoUser tail) :
    (sipUri hostName).first ((front ++ '[' :: before) ++ ':' :: (behind ++ ']' :: tail)) = none := by
  have hat : '@' ∉ behind := fun hm => absurd (hbehind '@' hm) (by decide)
  have hsemicolon : ';' ∉ front ++ '[' :: before := by
    have hinside : ';' ∉ before := fun hm => absurd (hbefore ';' hm) (by decide)
    simp [hfront, hinside]
  rw [Option.eq_none_iff_forall_ne_some]
  intro u hfirst
  obtain ⟨front', name, port, params, close, hs, hfront', hname, hport, hparams, hclose⟩ := name_cut hfirst
  -- the colon of the address is in one of the parts
  rcases Fields.cut_cases hs.symm with ⟨d₁, hd₁, hrest₁⟩ | ⟨x, rfl, hrest⟩
  · rcases Fields.cut_cases hrest₁ with ⟨d₂, hd₂, hrest₂⟩ | ⟨x, hx, hrest⟩
    · rcases Fields.cut_cases hrest₂ with ⟨d₃, hd₃, hrest₃⟩ | ⟨x, hx, hrest⟩
      · rcases Fields.cut_cases hrest₃ with ⟨d₄, hd₄, hrest₄⟩ | ⟨x, hx, hrest⟩
        · have hcolon : ':' ∈ close := hrest₄ ▸ List.mem_append_right d₄ List.mem_cons_self
          rcases hclose with rfl | rfl <;> simp at hcolon
        · -- in the parameters, behind a semicolon
          have hmem : ';' ∈ d₃ := by
            rcases hparams with rfl | ⟨y, rfl⟩
            · exact absurd hx (by simp)
            · cases d₃ with
              | nil => exact absurd (List.cons.inj hx).1 (by decide)
              | cons c d₃ => exact (List.cons.inj hx).1 ▸ List.mem_cons_self
          exact hsemicolon (by rw [hd₁, hd₂, hd₃]; simp [hmem])
      · -- in front of the port
        rcases hport with rfl | ⟨digits, rfl, hdigits⟩
        · exact absurd hx (by simp)
        · cases d₂ with
          | nil =>
            obtain rfl := (List.cons.inj hx).2
            exact port_refuses hdigits hparams hclose hbehind hrest.symm
          | cons c d₂ =>
            exact absurd (hdigits ':' ((List.cons.inj hx).2 ▸ List.mem_append_right d₂ List.mem_cons_self)) (by decide)
    · exact absurd (hname ':' (by rw [hx]; simp)) (by decide)
  · exact front_refuses hfront' hat htail hrest

/-- A bracketed host with a colon is left to the second expression. -/
theorem bracketed_refused {address : Text} (hu : Renderable u) (hhost : u.hostpart = '[' :: address ++ [']'])
    (hall : ∀ c ∈ address, isHexOrColon c = true) (hcolon : ':' ∈ address) :
    (sipUri hostName).first (printed closed u) = none := by
  obtain ⟨before, behind, rfl⟩ := List.append_of_mem hcolon
  obtain ⟨hbefore, hbehind⟩ := List.forall_mem_append.mp hall
  obtain ⟨front, hfront⟩ : ∃ front, front = opening closed ++ (u.scheme ++ ':' ::
    if u.userpart = [] then [] else u.userpart ++ ['@']) := ⟨_, rfl⟩
  obtain ⟨tail, htail⟩ : ∃ tail, tail =
    (if u.port = [] then [] else ':' :: u.port) ++ (printParams u.params ++ closing closed) := ⟨_, rfl⟩
  have hsemicolon : ';' ∉ front := by
    have huser : ';' ∉ if u.userpart = [] then [] else u.userpart ++ ['@'] := by
      split <;> simp [hu.user]
    have hopening : ';' ∉ opening closed := by cases closed <;> decide
    have hscheme : ';' ∉ u.scheme := by rcases hu.scheme with h | h <;> rw [h] <;> decide
    rw [hfront]
    simp only [List.mem_append, List.mem_cons, not_or]
    exact ⟨hopening, hscheme, by decide, huser⟩
  have hnoUser : NoUser tail := by
    intro y rest h
    have hmem := noUser_tail closed hu.host.noAt hu.port (u.hostpart ++ y) rest (by rw [← htail, h, List.append_assoc])
    rcases List.mem_append.mp hmem with hm | hm
    · rw [hhost] at hm
      have haddress : ';' ∈ before ++ ':' :: behind := by simpa using hm
      exact absurd (hall ';' haddress) (by decide)
    · exact hm
  have hprinted : printed closed u = (front ++ '[' :: before) ++ ':' :: (behind ++ ']' :: tail) := by
    rw [printed, ← htail, hhost, hfront]
    simp only [List.append_assoc, List.cons_append, List.nil_append]
  rw [hprinted]
  exact name_refuses hsemicolon hbefore (List.forall_mem_cons.mp hbehind).2 hnoUser

theorem parseSipUri_printed (closed : Bool) (hu : Renderable u) : parseSipUri (printed closed u) = some u := by
  unfold parseSipUri
  rcases hu.host with ⟨hne, hnot⟩ | ⟨address, hhost, hall⟩
  · have htakes : Takes hostName u.hostpart :=
      takes_name hne fun c hc => decide_eq_true fun hm => hnot c (List.mem_cons_of_mem _ hm) hc
    rw [sipUri_printed hu htakes, Option.some_or]
  · by_cases hcolon : ':' ∈ address
    · have htakes : Takes hostBracketed u.hostpart := hhost ▸ takes_bracketed (List.ne_nil_of_mem hcolon) hall
      rw [bracketed_refused hu hhost hall hcolon, Option.none_or, sipUri_printed hu htakes]
    · have htakes : Takes hostName u.hostpart := by
        refine takes_name (by rw [hhost]; exact List.cons_ne_nil _ _) fun c hc => decide_eq_true ?_
        intro hm
        have haddress : c ∈ address := by
          rw [hhost] at hc
          rcases List.mem_cons.mp hc with rfl | hc
          · exact absurd hm (by decide)
          · rcases List.mem_append.mp hc with hc | hc
            · exact hc
            · obtain rfl := List.mem_singleton.mp hc
              exact absurd hm (by decide)
        have hhex := hall c haddress
        simp only [List.mem_cons, List.not_mem_nil, or_false] at hm
        rcases hm with rfl | rfl | rfl | rfl | rfl
        · exact absurd hhex (by decide)
        · exact absurd hhex (by decide)
        · exact absurd hhex (by decide)
        · exact absurd hhex (by decide)
        · exact hcolon haddress
      rw [sipUri_printed hu htakes, Option.some_or]

theorem getContactUri_printed {t : SipTransport} {useExternalIp : Bool} (hunbound : t.hasTport = false)
    (hexternal : t.externalIp = []) :
    printed closed t.contactUri = opening closed ++ (t.getContactUri useExternalIp ++ closing closed) := by
  have hadvertised : ¬(useExternalIp = true ∧ t.externalIp ≠ []) := fun h => h.2 hexternal
  rw [SipTransport.getContactUri, if_neg (by rw [hunbound]; exact Bool.false_ne_true)]
  simp only [if_neg hadvertised, printed, List.append_assoc, List.cons_append]

end

/-- A contact is parsed into the parts that it was printed from, with angle brackets or without. -/
theorem contact_parsed_back (t : SipTransport) (useExternalIp : Bool) (hunbound : t.hasTport = false)
    (hexternal : t.externalIp = []) (hparts : Renderable t.contactUri) :
    parseSipUri (t.getContactUri useExternalIp) = some t.contactUri ∧
      parseSipUri ('<' :: t.getContactUri useExternalIp ++ ['>']) = some t.contactUri := by
  constructor
  · have h := parseSipUri_printed false hparts
    rw [getContactUri_printed hunbound hexternal] at h
    exact List.append_nil (t.getContactUri useExternalIp) ▸ h
  · have h := parseSipUri_printed true hparts
    rw [getContactUri_printed hunbound hexternal] at h
    exact h

/-- A user with an `@` and a colon, and an address in brackets -/
def loopback : SipTransport where
  contact := []
  externalIp := []
  localNet := []
  netmask := 0
  range := none
  contactUri := ⟨"sips".toList, "a@b:5".toList, "[::1]".toList, "5060".toList,
    [("transport".toList, "tcp".toList), ("lr@".toList, [])]⟩
  hasTport := false
  tpName := none

theorem loopback_parsed_back :
    parseSipUri "sips:a@b:5@[::1]:5060;transport=tcp;lr@".toList = some loopback.contactUri ∧
      parseSipUri "<sips:a@b:5@[::1]:5060;transport=tcp;lr@>".toList = some loopback.contactUri := by
  have haddress : ∀ c ∈ "::1".toList, isHexOrColon c = true := List.all_eq_true.mp (by decide)
  have hport : ∀ c ∈ "5060".toList, c.isDigit = true := List.all_eq_true.mp (by decide)
  refine contact_parsed_back loopback false rfl rfl ⟨.inr rfl, by decide, .inr ⟨"::1".toList, rfl, haddress⟩, hport, ?_⟩
  intro kv hkv
  simp only [loopback, List.mem_cons, List.not_mem_nil, or_false] at hkv
  rcases hkv with rfl | rfl <;> simp

end Drachtio.Transport
