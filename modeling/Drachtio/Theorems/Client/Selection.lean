import Drachtio.Client.Selection
import Drachtio.Lib.Fields
import Drachtio.Lib.RoundRobin
import Drachtio.Lib.Run

/-! Selections for one verb and tag take turns, whatever is selected and registered in between. -/

namespace Drachtio.Client.Registry

open Machine RoundRobin

/-! ### One selection -/

section
variable {p : String × Option String} {method keyword key : String} {tag : Option String} {r : Registry}
  {l : List (String × ClientId)}

theorem countPossibles_eq : r.countPossibles method tag l =
    (l.filter fun e => decide (e.1 ≠ method ∨ e.2 ∈ r.server.clients), (l.filter (r.possible method tag)).length) := by
  induction l with
  | nil => rfl
  | cons e rest ih =>
    rw [countPossibles, ih]
    by_cases hmethod : e.1 = method
    · by_cases hlive : e.2 ∈ r.server.clients
      · by_cases htakes : r.takes tag e.2 = true
        · simp [specified, possible, hmethod, hlive, htakes]
        · simp [specified, possible, hmethod, hlive, htakes]
      · simp [specified, possible, hmethod, hlive]
    · simp [possible, hmethod]

theorem pick_eq (nOffset : Nat) :
    r.pick method tag nOffset l = ((l.filter (r.possible method tag))[nOffset]?).map Prod.snd := by
  induction l generalizing nOffset with
  | nil => rfl
  | cons e rest ih =>
    rw [pick]
    by_cases hmethod : e.1 = method
    · by_cases hlive : e.2 ∈ r.server.clients
      · by_cases htakes : r.takes tag e.2 = true
        · cases nOffset with
          | zero => simp [specified, possible, hmethod, hlive, htakes]
          | succ nOffset => simp [specified, possible, hmethod, hlive, htakes, ih]
        · simp [specified, possible, hmethod, hlive, htakes, ih]
      · simp [specified, possible, hmethod, hlive, ih]
    · simp [possible, hmethod, ih]

/-- Pruning takes only registrations of clients that are not connected. -/
theorem filter_pruned (method' : String) (tag' : Option String) :
    (l.filter fun e => decide (e.1 ≠ method ∨ e.2 ∈ r.server.clients)).filter (r.possible method' tag') =
      l.filter (r.possible method' tag') := by
  rw [List.filter_filter]
  refine List.filter_congr fun e _ => ?_
  by_cases hlive : e.2 ∈ r.server.clients
  · simp [possible, hlive]
  · simp [possible, hlive]

/-- The offset that is kept under a key. -/
def offset (key : String) (r : Registry) : Nat := (r.server.requestTypeOffsets.lookup key).getD 0

theorem select_eq (r : Registry) (keyword : String) (tag : Option String) :
    let m := r.matching (lower keyword, tag)
    let pruned := r.server.requestTypes.filter fun e => decide (e.1 ≠ lower keyword ∨ e.2 ∈ r.server.clients)
    let nOffset := r.offset (offsetKey (lower keyword) tag) % m.length
    r.selectClientForRequestOutsideDialog keyword tag =
      if m = [] then ({ r with server := { r.server with requestTypes := pruned } }, none)
      else
        ({ r with server := { r.server with
            requestTypes := pruned
            requestTypeOffsets := r.server.requestTypeOffsets.insert (offsetKey (lower keyword) tag) (nOffset + 1) } },
          (m[nOffset]?).map Prod.snd) := by
  intro m pruned nOffset
  have hlen : (r.server.requestTypes.filter (r.possible (lower keyword) tag)).length = m.length := rfl
  rw [selectClientForRequestOutsideDialog, countPossibles_eq]
  simp only [hlen, List.length_eq_zero_iff]
  split
  · rfl
  · refine Prod.ext rfl ?_
    dsimp only
    rw [pick_eq]
    exact congrArg (fun l => (l[nOffset]?).map Prod.snd) (filter_pruned (lower keyword) tag)

theorem matching_select (p : String × Option String) (keyword : String) (tag : Option String) :
    (r.selectClientForRequestOutsideDialog keyword tag).1.matching p = r.matching p := by
  rw [select_eq]
  split
  · exact filter_pruned _ _
  · exact filter_pruned _ _

theorem offset_select_self (hne : r.matching (lower keyword, tag) ≠ []) :
    (r.selectClientForRequestOutsideDialog keyword tag).1.offset (offsetKey (lower keyword) tag) =
      r.offset (offsetKey (lower keyword) tag) % (r.matching (lower keyword, tag)).length + 1 := by
  rw [select_eq, if_neg hne]
  simp only [offset, AList.lookup_insert, Option.getD_some]

theorem offset_select_ne (hkey : key ≠ offsetKey (lower keyword) tag) :
    (r.selectClientForRequestOutsideDialog keyword tag).1.offset key = r.offset key := by
  rw [select_eq]
  split
  · rfl
  · simp only [offset, AList.lookup_insert_ne hkey]

theorem select_result (hne : r.matching (lower keyword, tag) ≠ []) :
    (r.selectClientForRequestOutsideDialog keyword tag).2 =
      ((r.matching (lower keyword, tag))[r.offset (offsetKey (lower keyword) tag) %
      (r.matching (lower keyword, tag)).length]?).map
        Prod.snd := by
  rw [select_eq, if_neg hne]

theorem mem_matching {e : String × ClientId} :
    e ∈ r.matching p ↔ e ∈ r.server.requestTypes ∧ e.1 = p.1 ∧ e.2 ∈ r.server.clients ∧ ∀ tag ∈ p.2, tag ∈ r.tags e.2 := by
  rw [matching, List.mem_filter]
  refine and_congr_right fun _ => ?_
  cases hp : p.2 with
  | none => simp [possible, takes]
  | some tag => simp [possible, takes]

theorem mem_of_mem_matching {e : String × ClientId} (he : e ∈ r.matching p) : (p.1, e.2) ∈ r.matching p := by
  obtain ⟨verb, client⟩ := e
  obtain rfl : verb = p.1 := (mem_matching.mp he).2.1
  exact he

/-- A selection returns the client of a registration that can take the request, and none if there is none. -/
theorem select_spec (r : Registry) (keyword : String) (tag : Option String) :
    ((r.selectClientForRequestOutsideDialog keyword tag).2 = none ↔ r.matching (lower keyword, tag) = []) ∧
    ∀ c, (r.selectClientForRequestOutsideDialog keyword tag).2 = some c →
      (lower keyword, c) ∈ r.matching (lower keyword, tag) := by
  by_cases hne : r.matching (lower keyword, tag) = []
  · rw [select_eq, if_pos hne]
    exact ⟨iff_of_true rfl hne, nofun⟩
  · have hlt := Nat.mod_lt (r.offset (offsetKey (lower keyword) tag)) (List.length_pos_iff.mpr hne)
    rw [select_result hne, List.getElem?_eq_getElem hlt, Option.map_some]
    refine ⟨iff_of_false nofun hne, fun c hc => ?_⟩
    obtain rfl := Option.some.inj hc
    exact mem_of_mem_matching (List.getElem_mem hlt)

end

/-! ### Keys of offsets -/

theorem colon_lower {keyword : String} (h : ':' ∉ keyword.toList) : ':' ∉ (lower keyword).toList := by
  rw [lower, String.toList_ofList]
  exact Fields.notMem_map_toLower (by decide) h

theorem toList_offsetKey (method tag : String) :
    (offsetKey method (some tag)).toList = method.toList ++ ':' :: tag.toList := by
  rw [offsetKey, String.toList_append, String.toList_append, List.append_assoc]
  rfl

theorem lower_cdr {keyword : String} (h : "cdr:".toList <+: keyword.toList) :
    ∃ rest, (lower keyword).toList = "cdr".toList ++ ':' :: rest := by
  obtain ⟨rest, hrest⟩ := h
  rw [lower, String.toList_ofList, ← hrest, List.map_append]
  exact ⟨rest.map Char.toLower, rfl⟩

/-- A key with a tag belongs to no selection without one. -/
theorem offsetKey_none_ne {keyword keyword' tag : String} (h : Passed keyword none) (h' : Passed keyword' (some tag)) :
    offsetKey (lower keyword) none ≠ offsetKey (lower keyword') (some tag) := by
  intro hkey
  have hlist := congrArg String.toList hkey
  rw [toList_offsetKey] at hlist
  obtain ⟨hcolon', hcdr⟩ | ⟨-, hnone⟩ := h'
  · obtain ⟨hcolon, -⟩ | ⟨hkeyword, -⟩ := h
    · exact Fields.append_sep_ne (colon_lower hcolon) hlist.symm
    · obtain ⟨rest, hrest⟩ := lower_cdr hkeyword
      obtain ⟨hcdr', -⟩ := Fields.append_sep_inj (by decide) (colon_lower hcolon') (hrest.symm.trans hlist)
      cases hcdr (String.ext hcdr'.symm)
  · cases hnone

/-- Selections that are asked for share an offset only if they are for the same verb and tag. -/
theorem offsetKey_inj {keyword keyword' : String} {tag tag' : Option String} (h : Passed keyword tag)
    (h' : Passed keyword' tag')
    (hkey : offsetKey (lower keyword) tag = offsetKey (lower keyword') tag') :
    (lower keyword, tag) = (lower keyword', tag') := by
  cases tag with
  | none =>
    cases tag' with
    | none => exact congrArg (·, none) hkey
    | some t' => exact absurd hkey (offsetKey_none_ne h h')
  | some t =>
    cases tag' with
    | none => exact absurd hkey.symm (offsetKey_none_ne h' h)
    | some t' =>
      have hlist := congrArg String.toList hkey
      rw [toList_offsetKey, toList_offsetKey] at hlist
      obtain ⟨hcolon, -⟩ | ⟨-, hnone⟩ := h
      · obtain ⟨hcolon', -⟩ | ⟨-, hnone'⟩ := h'
        · obtain ⟨hmethod, ht⟩ := Fields.append_sep_inj (colon_lower hcolon) (colon_lower hcolon') hlist
          rw [String.ext hmethod, String.ext ht]
        · cases hnone'
      · cases hnone

/-! ### Selections along some events -/

section
variable {p : String × Option String} {key : String} {r : Registry} {events : List Event}

/-- An event leaves the registrations that can take a request as they are, or takes some or adds some. -/
theorem step_sublist (p : String × Option String) (r : Registry) (e : Event) :
    ((r.step e).matching p).Sublist (r.matching p) ∨ (r.matching p).Sublist ((r.step e).matching p) := by
  cases e with
  | select keyword tag =>
    refine .inl ?_
    rw [step, handle, matching_select]
  | wantsRequests client verb =>
    refine .inr ?_
    exact (List.sublist_append_left _ _).filter _
  | noLongerWantsRequests client verb =>
    refine .inl ?_
    exact List.filter_sublist.filter _
  | join client =>
    refine .inr (List.monotone_filter_right _ fun e he => ?_)
    simp only [possible, Bool.and_eq_true, decide_eq_true_eq] at he ⊢
    exact ⟨he.1, Finset.mem_insert_of_mem he.2.1, he.2.2⟩
  | leave client =>
    refine .inl (List.monotone_filter_right _ fun e he => ?_)
    simp only [possible, Bool.and_eq_true, decide_eq_true_eq] at he ⊢
    exact ⟨he.1, Finset.mem_of_mem_erase he.2.1, he.2.2⟩
  | authenticate client tags =>
    refine .inr (List.monotone_filter_right _ fun e he => ?_)
    simp only [possible, Bool.and_eq_true, decide_eq_true_eq] at he ⊢
    refine ⟨he.1, he.2.1, ?_⟩
    have htakes := he.2.2
    cases hp : p.2 with
    | none => rfl
    | some tag =>
      rw [hp] at htakes
      simp only [takes, decide_eq_true_eq, step, handle] at htakes ⊢
      split
      · exact decide_eq_true (Finset.mem_union_left _ htakes)
      · exact decide_eq_true htakes

/-- Registrations that stay the same stay in the same order. -/
theorem step_matching {e : Event} (hset : ((r.step e).matching p).Perm (r.matching p)) :
    (r.step e).matching p = r.matching p := by
  rcases step_sublist p r e with hless | hmore
  · exact hless.eq_of_length hset.length_eq
  · exact (hmore.eq_of_length hset.length_eq.symm).symm

/-- Selections alone leave the registrations that can take a request as they are. -/
theorem matching_selections (hselect : ∀ e ∈ events, e.pair ≠ none) : (run step r events).matching p = r.matching p := by
  induction events generalizing r with
  | nil => rfl
  | cons e events ih =>
    rw [run_cons, ih fun e' he' => hselect e' (List.mem_cons_of_mem _ he')]
    cases e with
    | select keyword tag => exact matching_select p keyword tag
    | _ => exact absurd rfl (hselect _ List.mem_cons_self)

/-- The offset under a key moves with the selections that have the key, and with nothing else. -/
theorem offset_step {e : Event} (hkey : ∀ q, e.pair = some q → key ≠ offsetKey q.1 q.2) :
    (r.step e).offset key = r.offset key := by
  cases e with
  | select keyword tag => exact offset_select_ne (hkey _ rfl)
  | wantsRequests client verb =>
    by_cases hverb : key = verb
    · subst hverb
      simp only [offset, step, handle, Server.wantsRequests, AList.lookup_insertNew_self, Option.getD_some]
    · simp only [offset, step, handle, Server.wantsRequests, AList.lookup_insertNew_ne hverb]
  | noLongerWantsRequests client verb => rfl
  | join client => rfl
  | leave client => rfl
  | authenticate client tags => rfl

/-- The selections that some events make are asked for. -/
def AllPassed (events : List Event) : Prop := ∀ keyword tag, .select keyword tag ∈ events → Passed keyword tag

/-- The selections for a verb and a tag take turns while the registrations for them stay the same. -/
theorem answers_eq {keyword : String} {tag : Option String} (hp : Passed keyword tag) (hpassed : AllPassed events)
    (hset : ∀ done, done <+: events → ((run step r done).matching (lower keyword, tag)).Perm
    (r.matching (lower keyword, tag)))
    (hne : r.matching (lower keyword, tag) ≠ []) :
    answers (lower keyword, tag) r events =
      (turns (r.matching (lower keyword, tag)) (answers (lower keyword, tag) r events).length
        (r.offset (offsetKey (lower keyword) tag))).map fun e => e.map Prod.snd := by
  induction events generalizing r with
  | nil => rfl
  | cons e events ih =>
    have hlater : AllPassed events := fun k t hmem => hpassed k t (List.mem_cons_of_mem _ hmem)
    obtain ⟨-, hset⟩ := forall_prefix_cons.mp hset
    have hsame : (r.step e).matching (lower keyword, tag) = r.matching (lower keyword, tag) :=
      step_matching (hset [] List.nil_prefix)
    have hrest := @ih (r.step e) hlater (fun done hdone => by rw [hsame]; exact hset done hdone) (by rw [hsame]; exact hne)
    rw [hsame] at hrest
    rw [answers]
    split
    · rename_i hpair
      cases e with
      | select keyword' tag' =>
        have hq : (lower keyword', tag') = (lower keyword, tag) := Option.some.inj hpair
        obtain ⟨hlower, rfl⟩ := Prod.mk.inj hq
        have hoffset : (r.step (.select keyword' tag')).offset (offsetKey (lower keyword) tag') =
            r.offset (offsetKey (lower keyword) tag') % (r.matching (lower keyword, tag')).length + 1 := by
          rw [← hlower] at hne ⊢
          exact offset_select_self hne
        have hnow : (r.handle (.select keyword' tag')).2 =
            ((r.matching (lower keyword, tag'))[r.offset (offsetKey (lower keyword) tag') %
              (r.matching (lower keyword, tag')).length]?).map Prod.snd := by
          rw [← hlower] at hne ⊢
          exact select_result hne
        rw [List.length_cons, turns, List.map_cons, ← hnow, ← hoffset, ← hrest]
      | _ => cases hpair
    · rename_i hpair
      have hoffset : (r.step e).offset (offsetKey (lower keyword) tag) = r.offset (offsetKey (lower keyword) tag) := by
        refine offset_step fun q hq hkey => hpair ?_
        cases e with
        | select keyword' tag' =>
          obtain rfl := Option.some.inj hq
          exact congrArg some (offsetKey_inj (hpassed _ _ List.mem_cons_self) hp hkey.symm)
        | _ => cases hq
      rwa [hoffset] at hrest

end

/-- Every selection returns the client of a connected registration for its verb that carries its tag, and none
    exactly when there is none; and as many selections for a verb and a tag as there are registrations
    for them take each one once, if these stay the same meanwhile. -/
theorem selections_fair (r : Registry) :
    (∀ keyword tag,
      ((r.selectClientForRequestOutsideDialog keyword tag).2 = none ↔
        ¬∃ e ∈ r.server.requestTypes, e.1 = lower keyword ∧ e.2 ∈ r.server.clients ∧ ∀ t ∈ tag, t ∈ r.tags e.2) ∧
      ∀ c, (r.selectClientForRequestOutsideDialog keyword tag).2 = some c →
        (lower keyword, c) ∈ r.server.requestTypes ∧ c ∈ r.server.clients ∧ ∀ t ∈ tag, t ∈ r.tags c) ∧
    ∀ keyword tag events, Passed keyword tag → AllPassed events →
      (∀ done, done <+: events →
        ((run step r done).matching (lower keyword, tag)).Perm (r.matching (lower keyword, tag))) →
      (answers (lower keyword, tag) r events).length = (r.matching (lower keyword, tag)).length →
      (answers (lower keyword, tag) r events).Perm ((r.matching (lower keyword, tag)).map fun e => some e.2) := by
  refine ⟨fun keyword tag => ?_, fun keyword tag events hp hpassed hset hcount => ?_⟩
  · obtain ⟨hnone, hsome⟩ := select_spec r keyword tag
    refine ⟨hnone.trans ?_, fun c hc => ?_⟩
    · rw [List.eq_nil_iff_forall_not_mem]
      simp only [mem_matching, not_exists, not_and]
    · obtain ⟨hmem, -, hlive, htags⟩ := mem_matching.mp (hsome c hc)
      exact ⟨hmem, hlive, htags⟩
  · by_cases hne : r.matching (lower keyword, tag) = []
    · rw [hne, List.length_nil, List.length_eq_zero_iff] at hcount
      rw [hne, hcount]
      exact .nil
    · rw [answers_eq hp hpassed hset hne, hcount]
      have hturns := (turns_perm (r.matching (lower keyword, tag)) (r.offset (offsetKey (lower keyword) tag))).map
        fun e => e.map Prod.snd
      rwa [List.map_map] at hturns

/-- A registry of connected clients. -/
def registered (requestTypes : List (String × ClientId)) (tags : ClientId → Finset String) : Registry where
  server :=
    { clients := (requestTypes.map Prod.snd).toFinset
      requestTypes := requestTypes
      requestTypeOffsets := ∅
      apiRequests := ∅
      appTransactions := ∅
      netTransactions := ∅
      posted := []
      outbox := [] }
  tags := tags

def inviteRegistry : Registry := registered [("invite", 1), ("invite", 2)] fun _ => {"a"}

/-- A selection for a tag comes between two selections without one. -/
def inviteSelections : List Event := [.select "INVITE" none, .select "INVITE" (some "a"), .select "INVITE" none]

theorem invite_fair : (answers ("invite", none) inviteRegistry inviteSelections).Perm [some 1, some 2] := by
  have hpassed : AllPassed inviteSelections := by
    intro keyword tag hmem
    simp only [inviteSelections, List.mem_cons, List.not_mem_nil, or_false, Event.select.injEq] at hmem
    rcases hmem with ⟨rfl, rfl⟩ | ⟨rfl, rfl⟩ | ⟨rfl, rfl⟩ <;> exact .inl ⟨by decide, by decide⟩
  have hset : ∀ done, done <+: inviteSelections →
      ((run step inviteRegistry done).matching ("invite", none)).Perm (inviteRegistry.matching ("invite", none)) := by
    intro done hdone
    rw [matching_selections fun e he => ?_]
    have hmem := hdone.subset he
    simp only [inviteSelections, List.mem_cons, List.not_mem_nil, or_false] at hmem
    rcases hmem with rfl | rfl | rfl <;> exact nofun
  exact (selections_fair inviteRegistry).2 "INVITE" none inviteSelections (.inl ⟨by decide, by decide⟩) hpassed hset rfl

def cdrRegistry : Registry :=
  registered [("cdr:attempt", 1), ("cdr:attempt", 2), ("cdr", 3), ("cdr", 4)] fun _ => {"attempt"}

/-- A selection for a method CDR with a tag comes between two selections for attempt records. -/
def cdrSelections : List Event := [.select "cdr:attempt" none, .select "CDR" (some "attempt"), .select "cdr:attempt" none]

/-- The two verbs share an offset, so that both selections for attempt records return the same of two clients;
    and INVITE shares one with invite. -/
theorem shared_offset :
    ((∀ done, done <+: cdrSelections →
        (run step cdrRegistry done).matching ("cdr:attempt", none) = cdrRegistry.matching ("cdr:attempt", none)) ∧
      cdrRegistry.matching ("cdr:attempt", none) = [("cdr:attempt", 1), ("cdr:attempt", 2)] ∧
      answers ("cdr:attempt", none) cdrRegistry cdrSelections = [some 1, some 1]) ∧
    (inviteRegistry.handle (.select "INVITE" none)).2 = some 1 ∧
    ((run step inviteRegistry [.select "INVITE" none, .select "invite" none]).handle (.select "INVITE" none)).2 = some 1 := by
  refine ⟨⟨fun done hdone => ?_, rfl, rfl⟩, rfl, rfl⟩
  refine matching_selections fun e he => ?_
  have hmem := hdone.subset he
  simp only [cdrSelections, List.mem_cons, List.not_mem_nil, or_false] at hmem
  rcases hmem with rfl | rfl | rfl <;> exact nofun

end Drachtio.Client.Registry
