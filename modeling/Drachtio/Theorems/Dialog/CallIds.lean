import Drachtio.Client.Commands
import Drachtio.Dialog.Tables
import Drachtio.Lib.Fields

/-! The lookup of a dialog by its Call-ID alone, and the requests that clients send with nothing else. -/

namespace Drachtio.Dialog
open Client (Session CommandEnv SplitMsg)

namespace Registries

variable {s : Registries} {d : SipDialog} {leg : Leg} {callId suffix : String}

/-- A stable dialog of the controller. -/
def Stable (leg : Leg) (d : SipDialog) (s : Registries) : Prop := s.legs.lookup leg = some d ∧ d.stable = true

theorem mem_entries_iff : (⟨leg, d⟩ : Sigma fun _ : Leg => SipDialog) ∈ s.legs.entries ↔ s.legs.lookup leg = some d :=
  AList.mem_lookup_iff.symm

/-- What is found under a dialog id is a stable dialog with that id. -/
theorem findDialogById_some {x : Leg × SipDialog} (h : s.findDialogById suffix = some x) :
    s.Stable x.1 x.2 ∧ x.2.dialogId = suffix := by
  obtain ⟨e, he, rfl⟩ := Option.map_eq_some_iff.mp h
  have hp := List.find?_some he
  rw [Bool.and_eq_true, beq_iff_eq] at hp
  exact ⟨⟨mem_entries_iff.mp (List.mem_of_find?_eq_some he), hp.1⟩, hp.2⟩

theorem findDialogById_none : s.findDialogById suffix = none ↔ ∀ leg d, s.Stable leg d → d.dialogId ≠ suffix := by
  rw [findDialogById, find, Option.map_eq_none_iff, List.find?_eq_none]
  constructor
  · intro h leg d hd hid
    exact h ⟨leg, d⟩ (mem_entries_iff.mpr hd.1) (by simp [hd.2, hid])
  · rintro h ⟨leg, d⟩ he hp
    rw [Bool.and_eq_true, beq_iff_eq] at hp
    exact h leg d ⟨mem_entries_iff.mp he, hp.1⟩ hp.2

/-- A dialog id goes on differently behind the Call-ID than the ids that the lookup makes up. -/
theorem dialogId_ne_of_callId (hcall : d.callId = callId) :
    d.dialogId ≠ callId ++ ";uas" ∧ d.dialogId ≠ callId ++ ";uac" := by
  subst hcall
  constructor
  all_goals
    intro h
    have hlist := congrArg String.toList h
    rw [SipDialog.dialogId, String.toList_append, String.toList_append, String.toList_append, List.append_assoc] at hlist
    have hrest := List.append_cancel_left hlist
    have hlength := congrArg List.length hrest
    rw [List.length_append] at hlength
    have hfixed : ";from-tag=".toList.length = 10 := rfl
    have hsuffix : ";uas".toList.length = 4 ∧ ";uac".toList.length = 4 := ⟨rfl, rfl⟩
    omega

/-- No dialog whose tag is a token has an id that the lookup makes up. -/
theorem dialogId_ne_of_tag (htag : ';' ∉ d.fromTag.toList) (callId : String) :
    d.dialogId ≠ callId ++ ";uas" ∧ d.dialogId ≠ callId ++ ";uac" := by
  have hid : d.dialogId.toList = d.callId.toList ++ ';' :: ("from-tag=".toList ++ d.fromTag.toList) := by
    rw [SipDialog.dialogId, String.toList_append, String.toList_append, List.append_assoc]
    rfl
  have hrest : ';' ∉ "from-tag=".toList ++ d.fromTag.toList := by
    rw [List.mem_append]
    exact not_or.mpr ⟨by decide, htag⟩
  constructor
  all_goals
    intro h
    have hlist := hid.symm.trans (congrArg String.toList h)
    rw [String.toList_append] at hlist
  · obtain ⟨-, hsuffix⟩ := Fields.append_sep_inj_last hrest (show ';' ∉ "uas".toList by decide) hlist
    cases hsuffix
  · obtain ⟨-, hsuffix⟩ := Fields.append_sep_inj_last hrest (show ';' ∉ "uac".toList by decide) hlist
    cases hsuffix

/-- The lookup finds a dialog exactly when a stable dialog has the Call-ID, and then one that has it; and a request with
    this Call-ID, and neither a transaction id nor a dialog id, is sent inside such a dialog. -/
structure FoundByCallId (callId : String) (s : Registries) : Prop where
  complete : (s.findDialogByCallId callId).isSome = true ↔ ∃ leg d, s.Stable leg d ∧ d.callId = callId
  sound : ∀ x, s.findDialogByCallId callId = some x → s.Stable x.1 x.2 ∧ x.2.callId = callId
  inside : ∀ (session : Session) (env : CommandEnv) (msgId : String) (more : List String) (m : SplitMsg),
    (∀ id, env.findDialogByCallId id = (s.findDialogByCallId id).map (·.2.dialogId)) →
    Client.startsWith m.startLine "SIP/" = false → Client.getValueForHeader m.headers "Call-ID" = some callId →
    (∃ leg d, s.Stable leg d ∧ d.callId = callId) →
      ∃ leg d, s.Stable leg d ∧ d.callId = callId ∧ (session.sip env msgId "" "" more m).call =
        some (.sendRequestInsideDialog msgId d.dialogId m.startLine m.headers m.body env.transactionUuid)

/-- A dialog that is found by a Call-ID has another one. -/
theorem findDialogByCallId_some {x : Leg × SipDialog} (h : s.findDialogByCallId callId = some x) :
    s.Stable x.1 x.2 ∧ (x.2.dialogId = callId ++ ";uas" ∨ x.2.dialogId = callId ++ ";uac") := by
  rcases Option.or_eq_some_iff.mp h with huas | ⟨-, huac⟩
  · exact (findDialogById_some huas).imp_right .inl
  · exact (findDialogById_some huac).imp_right .inr

/-- The lookup by Call-ID does what it should just when no stable dialog has the Call-ID, and none an id that is the
    Call-ID and the suffix of a role. -/
theorem found_by_call_id_iff (callId : String) (s : Registries) :
    s.FoundByCallId callId ↔
      ∀ leg d, s.Stable leg d → d.callId ≠ callId ∧ d.dialogId ≠ callId ++ ";uas" ∧ d.dialogId ≠ callId ++ ";uac" := by
  constructor
  · intro h
    have hnone : s.findDialogByCallId callId = none := by
      cases hx : s.findDialogByCallId callId with
      | none => rfl
      | some x =>
        have hother := dialogId_ne_of_callId (h.sound x hx).2
        exact absurd (findDialogByCallId_some hx).2 (not_or.mpr hother)
    have hids := Option.or_eq_none_iff.mp hnone
    intro leg d hd
    refine ⟨fun hcall => ?_, findDialogById_none.mp hids.1 leg d hd, findDialogById_none.mp hids.2 leg d hd⟩
    have hfound := h.complete.mpr ⟨leg, d, hd, hcall⟩
    rw [hnone] at hfound
    cases hfound
  · intro h
    have hnobody : ¬ ∃ leg d, s.Stable leg d ∧ d.callId = callId := by
      rintro ⟨leg, d, hd, hcall⟩
      exact (h leg d hd).1 hcall
    have hnone : s.findDialogByCallId callId = none :=
      Option.or_eq_none_iff.mpr ⟨findDialogById_none.mpr fun leg d hd => (h leg d hd).2.1,
        findDialogById_none.mpr fun leg d hd => (h leg d hd).2.2⟩
    refine ⟨iff_of_false (by simp [hnone]) hnobody, fun x hx => ?_, fun _ _ _ _ _ _ _ _ hd => absurd hd hnobody⟩
    rw [hnone] at hx
    cases hx

/-- An established dialog is not found by its Call-ID, and a request with it goes out outside the dialog. -/
theorem established_dialog_missed :
    let d : SipDialog := ⟨"c1", "t1", "i1", true, none, 200, [], none, false, none, true, false⟩
    let s : Registries := { Registries.empty with legs := AList.insert 1 d ∅ }
    s.Stable 1 d ∧ d.callId = "c1" ∧ s.findDialogByCallId "c1" = none ∧ ¬ s.FoundByCallId "c1" := by
  refine ⟨⟨rfl, rfl⟩, rfl, by decide, fun h => ?_⟩
  have hfound := h.complete.mpr ⟨1, _, ⟨rfl, rfl⟩, rfl⟩
  exact absurd hfound (by decide)

end Registries

end Drachtio.Dialog
