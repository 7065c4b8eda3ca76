import Drachtio.Theorems.Dialog.Registered

/-! The conditions under which each handler keeps the registries of dialogs in agreement, read off the state before
    it, and that they are enough. -/

namespace Drachtio.Dialog.Registries

open Proxy (Method)
open Client (ClientId)
open Pending (PendingRequests PendingRequest Arrival)

variable {R : ClientId → ClientId → Prop} {s s' : Registries} {leg : Leg} {d : SipDialog} {id t : String}

/-! ### What the handlers do to the view -/

theorem view_congr (h : Routed s s') (hdialogs : s'.dialogs = s.dialogs) : view s' = view s := by
  unfold view
  rw [hdialogs, h.gone, obs_congr h.legs, obs_congr h.legs]

@[simp] theorem view_routeAckRequestInsideDialog {u : String} : view (s.routeAckRequestInsideDialog u t id) = view s := by
  refine view_congr routed_routeAckRequestInsideDialog ?_
  unfold routeAckRequestInsideDialog
  split <;> rfl

@[simp] theorem view_routeRequestInsideInvite : view (s.routeRequestInsideInvite t id) = view s := by
  refine view_congr routed_routeRequestInsideInvite ?_
  unfold routeRequestInsideInvite
  split <;> rfl

@[simp] theorem view_flushTransaction {code : Nat} {m : Method} {existing : Bool} :
    view (s.flushTransaction t code m existing) = view s := by
  refine view_congr routed_flushTransaction ?_
  unfold flushTransaction
  split <;> rfl

theorem view_routeRequestInsideDialog {r : Request} :
    view (s.routeRequestInsideDialog r id).1 = if r.method = .bye ∨
    r.isFinalNotify = true then (view s).setDialog id none else view s := by
  have hsend : ∀ c, view ((s.addNetTransaction c r.transactionId).send c r.transactionId id) = view s := fun _ => rfl
  unfold routeRequestInsideDialog
  cases s.clientForRequest r id with
  | none =>
    dsimp only
    split
    · exact view_removeDialog
    · rfl
  | some c =>
    dsimp only
    split
    · rw [view_removeDialog, hsend]
    · exact hsend c

@[simp] theorem view_routeUnsolicitedBye : view (s.routeUnsolicitedBye id) = (view s).setDialog id none := by
  unfold routeUnsolicitedBye
  rw [view_removeDialog]
  cases s.findClientForDialog id <;> rfl

/-- A response takes the dialog id away when the client of the transaction is gone, and when it answers a BYE. -/
def forgets (t : String) (m : Method) (s : Registries) : Bool := (s.findClientForAppTransaction t).isNone || m == .bye

theorem view_routeResponseInsideTransaction {m : Method} {status : Nat} :
    view (s.routeResponseInsideTransaction t id m status) = if s.forgets t m = true then (view s).setDialog id none
    else view s := by
  unfold routeResponseInsideTransaction forgets
  cases s.findClientForAppTransaction t with
  | none => exact view_removeDialog
  | some c =>
    have hsend : ∀ s' : Registries, view (s'.send c t id) = view s' := fun _ => rfl
    have happ : ∀ s' : Registries, view (s'.removeAppTransaction t) = view s' := fun _ => rfl
    have hs : view (if 200 ≤ status then (s.send c t id).removeAppTransaction t else s.send c t id) = view s := by
      split
      · rw [happ, hsend]
      · exact hsend s
    dsimp only
    by_cases hbye : m = .bye
    · rw [if_pos hbye, view_removeDialog, hs, if_pos (by simp [hbye])]
    · rw [if_neg hbye, hs, if_neg (by simp [hbye])]

@[simp] theorem view_processMessageStatelessly {a : Arrival} : view (s.processMessageStatelessly a) = view s := by
  unfold processMessageStatelessly
  dsimp only
  cases (if s.pending.admits a = true ∧ a.routed = false then a.client else none) <;> rfl

/-! ### Changes that do not show -/

/-- A change of an object that touches neither its ids nor where it is held. -/
structure Hidden (g : SipDialog → SipDialog) : Prop where
  dialogId : ∀ d, (g d).dialogId = d.dialogId
  owner : ∀ d, (g d).owner = d.owner
  stable : ∀ d, (g d).stable = d.stable
  invite : ∀ d, (g d).invite.isSome = d.invite.isSome

theorem view_modify_hidden {g : SipDialog → SipDialog} (hg : Hidden g) : view (s.modify leg g) = view s := by
  refine view_modify_of_eq (fun d => ?_) fun d => ?_
  · unfold shownStable
    rw [hg.stable, hg.dialogId, hg.owner]
  · unfold shownInvite
    rw [hg.invite, hg.dialogId]

theorem hidden_incoming {f : List String → List String} : Hidden fun d => { d with incoming := f d.incoming } :=
  ⟨fun _ => rfl, fun _ => rfl, fun _ => rfl, fun _ => rfl⟩

theorem hidden_status {code : Nat} : Hidden fun d => { d with status := code } :=
  ⟨fun _ => rfl, fun _ => rfl, fun _ => rfl, fun _ => rfl⟩

theorem hidden_invite {f : InviteInProgress → InviteInProgress} : Hidden fun d => { d with invite := d.invite.map f } :=
  ⟨fun _ => rfl, fun _ => rfl, fun _ => rfl, fun _ => Option.isSome_map⟩

/-- Adding a dialog whose object has changed in ways that do not show. -/
theorem view_addDialog_of {d' : SipDialog} (hd' : s'.legs.lookup leg = some d') (hview : view s' = view s)
    (hcandidate : s'.candidate d.transactionId d.dialogId = s.candidate d.transactionId d.dialogId)
    (htxn : d'.transactionId = d.transactionId) (hid : d'.dialogId = d.dialogId) (howner : d'.owner = d.owner)
    (hstable : d'.stable = d.stable) (hinvite : d'.invite.isSome = d.invite.isSome) :
    view (s'.addDialog leg d) =
      (view s).set leg d.dialogId (s.candidate d.transactionId d.dialogId) (if s.Becomes d then some d.owner else none)
      d.invite.isSome := by
  have hadd : s'.addDialog leg d = s'.addDialog leg d' := by
    unfold addDialog
    rw [htxn, hid]
  have hbecomes : s'.Becomes d' ↔ s.Becomes d := by
    have hfound : (s'.findDialogById d.dialogId).isSome = (s.findDialogById d.dialogId).isSome := by
      rw [Bool.eq_iff_iff, findDialogById_isSome, findDialogById_isSome, hview]
    unfold Becomes
    rw [hstable, hid, hfound]
  rw [hadd, view_addDialog hd', hview, htxn, hid, hcandidate, howner, hinvite]
  simp only [hbecomes]

/-! ### Responses of an application -/

/-- The response to an INVITE or SUBSCRIBE in progress goes out. -/
def Sends (d : SipDialog) (env : RespondEnv) (s : Registries) : Prop :=
  (env.cseqUpdate = false ∨ d.update = none) ∧ d.status < 200 ∧ env.transportGone = false ∧
    d.invite.any (·.orq.isSome) = false ∧ (s.findDialogById d.dialogId).isSome = false ∧ env.replyFails = false

instance {env : RespondEnv} : Decidable (s.Sends d env) := inferInstanceAs (Decidable (_ ∧ _ ∧ _))

/-- A 200 for an INVITE enters a dialog, and so does a 200 or 202 for a SUBSCRIBE; any other response to a SUBSCRIBE
    ends it. -/
def RespondKeeps (R : ClientId → ClientId → Prop) (leg : Leg) (d : SipDialog) (code : Nat) (env : RespondEnv)
    (s : Registries) : Prop :=
  s.Sends d env →
    if d.isInvite = true then (code = 200 → s.Enters R d)
    else if code = 202 ∨ code = 200 then s.Enters R d
    else s.MayEnd leg d

instance [DecidableRel R] {code : Nat} {env : RespondEnv} : Decidable (s.RespondKeeps R leg d code env) :=
  inferInstanceAs (Decidable (_ → ite _ _ _))

theorem MayEnd.mayLeave (h : s.MayEnd leg d) : s.MayLeave leg d := .inr h

/-- Nobody else has the id of a stable dialog that there is not. -/
theorem known_of_free (hfree : (s.findDialogById id).isSome = false) : s.Known leg id := by
  intro howned
  obtain ⟨⟨l, e⟩, he, hp⟩ := List.any_eq_true.mp howned
  simp only [Bool.and_eq_true, bne_iff_ne, ne_eq, beq_iff_eq] at hp
  obtain ⟨-, ⟨hid, hstable⟩, -⟩ := hp
  have hfound := findDialogById_isSome.mpr ⟨l, e.owner, hid ▸ view_stable_of_lookup (mem_entries.mp he) hstable⟩
  rw [hfree] at hfound
  exact nomatch hfound

theorem view_respondToUpdate {u : String} : view (s.respondToUpdate leg u) = view s := by
  unfold respondToUpdate
  have hupdate : Hidden fun d => { d with update := none } := ⟨fun _ => rfl, fun _ => rfl, fun _ => rfl, fun _ => rfl⟩
  have hirq : view (s.removeIrq u) = view s := rfl
  have hnet : ∀ s' : Registries, view (s'.removeNetTransaction u) = view s' := fun _ => rfl
  rw [view_modify_hidden hupdate, hnet, view_modify_hidden (@hidden_incoming (·.erase u)), hirq]

/-- What the response does to the view: nothing, or it goes out. -/
theorem view_sendResponse {code : Nat} {env : RespondEnv} (hupdate : env.cseqUpdate = false ∨ d.update = none) :
    (view (s.sendResponse leg d code env).1 = view s ∧ (s.sendResponse leg d code env).2 = false) ∨
      s.Sends d env ∧
      s.sendResponse leg d code env = ((s.modify leg fun d => { d with status := code }).replyToInvite leg d code,
      !d.isInvite) := by
  unfold sendResponse
  have hstatus : view (s.modify leg fun d => { d with status := code }) = view s := view_modify_hidden hidden_status
  split
  · exact .inl ⟨rfl, rfl⟩
  · rename_i hlt
    split
    · exact .inl ⟨rfl, rfl⟩
    · rename_i hgone
      rw [not_or] at hgone
      split
      · exact .inl ⟨rfl, rfl⟩
      · rename_i hfree
        dsimp only
        split
        · cases env.rel with
          | none => exact .inl ⟨hstatus, rfl⟩
          | some rel =>
            exact .inl ⟨(view_modify_hidden (@hidden_invite fun i => { i with reliables := rel :: i.reliables })).trans
              hstatus, rfl⟩
        · split
          · exact .inl ⟨hstatus, rfl⟩
          · rename_i hfails
            exact .inr ⟨⟨hupdate, Nat.lt_of_not_le hlt, Bool.eq_false_iff.mpr hgone.1, Bool.eq_false_iff.mpr hgone.2,
              Bool.eq_false_iff.mpr hfree, Bool.eq_false_iff.mpr hfails⟩, rfl⟩

theorem agree_respondToInvite {code : Nat} {env : RespondEnv} (h : (view s).Agree R) (hd : s.legs.lookup leg = some d)
    (hkeeps : s.RespondKeeps R leg d code env) : (view (s.respondToInvite leg d code env)).Agree R := by
  unfold respondToInvite
  cases hu : (if env.cseqUpdate = true then d.update else none) with
  | some u =>
    dsimp only
    rw [view_respondToUpdate]
    exact h
  | none =>
    have hupdate : env.cseqUpdate = false ∨ d.update = none := by
      by_cases hc : env.cseqUpdate = true
      · exact .inr (by rwa [if_pos hc] at hu)
      · exact .inl (Bool.eq_false_iff.mpr hc)
    dsimp only
    rcases @view_sendResponse s leg d code env hupdate with ⟨hview, hclear⟩ | ⟨hsends, hreply⟩
    · rw [hclear, if_neg Bool.false_ne_true, view_flushTransaction, hview]
      exact h
    · have hk := hkeeps hsends
      have hknown : s.Known leg d.dialogId := known_of_free hsends.2.2.2.2.1
      have hstatus : view (s.modify leg fun d => { d with status := code }) = view s := view_modify_hidden hidden_status
      have hadd : view ((s.modify leg fun d => { d with status := code }).addDialog leg d) =
          (view s).set leg d.dialogId (s.candidate d.transactionId d.dialogId) (if s.Becomes d then some d.owner else none)
            d.invite.isSome := by
        have hd' : (s.modify leg fun d => { d with status := code }).legs.lookup leg = some { d with status := code } := by
          rw [lookup_modify_self, hd, Option.map_some]
        exact view_addDialog_of hd' hstatus candidate_modify rfl rfl rfl rfl rfl
      rw [hreply]
      dsimp only
      unfold replyToInvite
      by_cases hinvite : d.isInvite = true
      · rw [if_pos hinvite] at hk
        rw [if_pos hinvite, if_neg (by simp [hinvite]), view_flushTransaction]
        split
        · rename_i hcode
          have htimer : Hidden fun d => { d with timerH := true } := ⟨fun _ => rfl, fun _ => rfl, fun _ => rfl, fun _ => rfl⟩
          rw [view_modify_hidden htimer, hadd]
          exact agree_enter h hd (fun _ => hk hcode) hknown
        · rw [hstatus]
          exact h
      · rw [if_neg hinvite] at hk
        rw [if_neg hinvite, if_pos (by simp [hinvite]), view_clearInvite, view_flushTransaction]
        split
        · rename_i hcode
          rw [if_pos hcode] at hk
          rw [hadd, View.set_setInvite_none]
          exact agree_enter h hd (fun _ => hk) hknown
        · rename_i hcode
          rw [if_neg hcode] at hk
          rw [hstatus]
          exact agree_leave h hd hk.mayLeave

/-! ### A pending request that gets a leg -/

/-- The dialog that the response to a pending INVITE or SUBSCRIBE makes, with its invite in progress. -/
def newInvite (t : String) (env : RespondEnv) (s : Registries) : Option SipDialog :=
  match s.pending.find t with
  | none => none
  | some p =>
    if s.pending.isCanceled p = true ∨ env.tportShutdown = true ∨ env.createFails = true then none
    else
      let method := p.sip.request.getD .unknown
      if method = .invite ∨ method = .subscribe then
        some { SipDialog.new p.sip.callId.val env.fromTag t (method == .invite) (s.netTransactions.lookup t) 100 with
          invite := some ⟨none, [], false⟩ }
      else none

theorem isCanceled_findAndRemove (c : PendingRequests) (p : PendingRequest) :
    (c.findAndRemove t false).1.isCanceled p = c.isCanceled p := by
  have hcanceled : (c.findAndRemove t false).1.canceled = c.canceled := by
    unfold PendingRequests.findAndRemove
    cases c.txnId2Invite.lookup t with
    | none => rfl
    | some p =>
      dsimp only
      unfold PendingRequests.removeTimeout PendingRequests.fault
      rw [if_neg Bool.false_ne_true]
      split <;> split <;> rfl
  unfold PendingRequests.isCanceled
  rw [hcanceled]

/-- The leg for a pending request is made: the request is not pending any more, and its dialog is on the leg. -/
structure SetUp (t : String) (leg : Leg) (d : SipDialog) (s s' : Registries) : Prop where
  gone : s'.gone = s.gone
  net : s'.netTransactions = s.netTransactions
  app : s'.appTransactions = s.appTransactions
  dialogs : s'.dialogs = s.dialogs
  pending : s'.pending = (s.pending.findAndRemove t false).1
  irqs : s'.irqs = s.irqs
  rips : s'.rips = s.rips
  self : s'.legs.lookup leg = some d
  others : ∀ l, l ≠ leg → s'.legs.lookup l = s.legs.lookup l
  transactionId : d.transactionId = t
  invite : d.invite = some ⟨none, [], false⟩
  stable : d.stable = false

/-- A response to a pending request makes the new dialog, an incoming request or nothing. -/
theorem setupLegForIncomingRequest_cases {env : RespondEnv} (hnone : s.findInviteByTransactionId t = none) :
    (s.newInvite t env = none ∧ ∃ irqs, s.setupLegForIncomingRequest t env =
      { s with pending := (s.pending.findAndRemove t false).1, irqs := irqs } ∧
        (irqs = s.irqs ∨ ∃ irq : Irq, irq.method ≠ .invite ∧ irqs = s.irqs.insertNew t irq)) ∨
    ∃ d, s.newInvite t env = some d ∧ SetUp t env.leg d s (s.setupLegForIncomingRequest t env) := by
  have hsnd := findAndRemove_snd s.pending t false
  unfold setupLegForIncomingRequest newInvite PendingRequests.find
  cases hp : s.pending.txnId2Invite.lookup t with
  | none =>
    rw [hp] at hsnd
    dsimp only
    rw [hsnd]
    exact .inl ⟨rfl, s.irqs, rfl, .inl rfl⟩
  | some p =>
    rw [hp] at hsnd
    dsimp only
    rw [hsnd]
    dsimp only
    rw [isCanceled_findAndRemove]
    split
    · exact .inl ⟨rfl, s.irqs, rfl, .inl rfl⟩
    · split
      · rename_i hmethod
        refine .inr ⟨_, rfl, ?_⟩
        have hself :
          (s.legs.insert env.leg (SipDialog.new p.sip.callId.val env.fromTag t (p.sip.request.getD .unknown == .invite)
            (s.netTransactions.lookup t) 100)).lookup env.leg = some (SipDialog.new p.sip.callId.val env.fromTag t
              (p.sip.request.getD .unknown == .invite) (s.netTransactions.lookup t) 100) := AList.lookup_insert ..
        unfold newDialog insertInvite
        dsimp only
        rw [hself]
        dsimp only
        rw [if_neg, modify_of_lookup _ hself]
        · refine ⟨rfl, rfl, rfl, rfl, rfl, rfl, rfl, AList.lookup_insert .., fun l hl => ?_, rfl, rfl, rfl⟩
          exact (AList.lookup_insert_ne hl).trans (AList.lookup_insert_ne hl)
        · intro hsome
          obtain ⟨⟨l, e⟩, hfound⟩ := Option.isSome_iff_exists.mp hsome
          obtain ⟨he, hinvite, htxn⟩ := findInviteByTransactionId_eq_some hfound
          by_cases hl : l = env.leg
          · rw [hl, hself] at he
            cases he
            exact nomatch hinvite
          · have hold : s.legs.lookup l = some e := (AList.lookup_insert_ne hl).symm.trans he
            exact findInviteByTransactionId_eq_none hnone hold hinvite htxn
      · rename_i hmethod
        exact .inl ⟨rfl, _, rfl, .inr ⟨_, fun h => hmethod (.inl h), rfl⟩⟩

/-- The response is for the dialog that was set up. -/
theorem SetUp.found (h : SetUp t leg d s s') (hnone : s.findInviteByTransactionId t = none) :
    s'.findInviteByTransactionId t = some (leg, d) := by
  have hinvite : d.invite.isSome = true := by rw [h.invite, Option.isSome_some]
  cases hf : s'.findInviteByTransactionId t with
  | none => exact absurd h.transactionId (findInviteByTransactionId_eq_none hf h.self hinvite)
  | some x =>
    obtain ⟨l, e⟩ := x
    obtain ⟨he, hei, het⟩ := findInviteByTransactionId_eq_some hf
    by_cases hl : l = leg
    · rw [hl, h.self] at he
      cases he
      rw [hl]
    · exact absurd het (findInviteByTransactionId_eq_none hnone ((h.others l hl).symm.trans he) hei)

/-- The invite in progress that a response is for: one that there is, or a new one. -/
def respondsTo (t : String) (env : RespondEnv) (s : Registries) : Option (Leg × SipDialog) :=
  (s.findInviteByTransactionId t).or ((s.newInvite t env).map fun d => (env.leg, d))

theorem SetUp.view (h : SetUp t leg d s s') (hfree : s.legs.lookup leg = none) :
    s'.view = s.view.setInvite leg (some d.dialogId) := by
  refine View.ext ?_ h.gone ?_ ?_
  · show (fun id => s'.dialogs.lookup id) = fun id => s.dialogs.lookup id
    rw [h.dialogs]
  · funext l
    by_cases hl : l = leg
    · have hnow : obs shownStable s' l = none := by
        rw [hl, obs_of_lookup h.self, shownStable, if_neg (Bool.eq_false_iff.mp h.stable)]
      have hbefore : obs shownStable s l = none := by rw [hl, obs, hfree, Option.bind_none]
      exact hnow.trans hbefore.symm
    · exact congrArg (Option.bind · shownStable) (h.others l hl)
  · funext l
    by_cases hl : l = leg
    · have hnow : obs shownInvite s' l = some d.dialogId := by
        rw [hl, obs_of_lookup h.self, shownInvite, if_pos (by rw [h.invite, Option.isSome_some])]
      have hset : (s.view.setInvite leg (some d.dialogId)).invites l = some d.dialogId := by
        rw [hl]
        exact Function.update_self ..
      exact hnow.trans hset.symm
    · have hset : (s.view.setInvite leg (some d.dialogId)).invites l = obs shownInvite s l := Function.update_of_ne hl _ _
      exact (congrArg (Option.bind · shownInvite) (h.others l hl)).trans hset.symm

theorem Sends.of_stable {env : RespondEnv} (h : s'.Sends d env) (hview : (view s').stable = (view s).stable) :
    s.Sends d env := by
  have hfound : (s'.findDialogById d.dialogId).isSome = (s.findDialogById d.dialogId).isSome := by
    rw [Bool.eq_iff_iff, findDialogById_isSome, findDialogById_isSome, hview]
  exact ⟨h.1, h.2.1, h.2.2.1, h.2.2.2.1, hfound ▸ h.2.2.2.2.1, h.2.2.2.2.2⟩

/-- What a response needs is not changed by making the leg it is for. -/
theorem RespondKeeps.setUp {code : Nat} {env : RespondEnv} (h : s.RespondKeeps R leg d code env) (hsetup : SetUp t leg d s s')
    (hfree : s.legs.lookup leg = none) : s'.RespondKeeps R leg d code env := by
  intro hsends
  have hview : (view s').stable = (view s).stable := by
    rw [hsetup.view hfree]
    rfl
  have henters : s.Enters R d → s'.Enters R d := by
    unfold Enters lock
    rw [candidate_congr hsetup.gone hsetup.dialogs hsetup.net hsetup.app, hsetup.gone]
    exact fun h => h
  have hmay : s.MayEnd leg d → s'.MayEnd leg d := by
    rintro (hunknown | helse)
    · exact .inl (hsetup.dialogs ▸ hunknown)
    · obtain ⟨l, e, hne, he, hheld⟩ := heldElsewhere_iff.mp helse
      exact .inr (heldElsewhere_iff.mpr ⟨l, e, hne, (hsetup.others l hne).trans he, hheld⟩)
  have hk := h (hsends.of_stable hview)
  split at hk
  · rename_i hinvite
    rw [if_pos hinvite]
    exact fun hcode => henters (hk hcode)
  · rename_i hinvite
    rw [if_neg hinvite]
    split at hk
    · rename_i hcode
      rw [if_pos hcode]
      exact henters hk
    · rename_i hcode
      rw [if_neg hcode]
      exact hmay hk

theorem view_respondToIrq {code : Nat} {irq : Irq} {existing : Bool} {env : RespondEnv} :
    view (s.respondToIrq t code irq existing env) = view s := by
  have hirq : view (s.removeIrq t) = view s := rfl
  unfold respondToIrq
  rw [view_flushTransaction]
  split
  · split
    · rw [view_modify_hidden (@hidden_incoming (·.erase t)), hirq]
    · exact hirq
  · exact hirq

theorem agree_doRespondToSipRequest {code : Nat} {env : RespondEnv} (h : (view s).Agree R) (hleg : env.leg ∉ s.legs)
    (hkeeps : t ∈ s.irqs ∨ ∀ x ∈ s.respondsTo t env, s.RespondKeeps R x.1 x.2 code env) :
    (view (s.doRespondToSipRequest t code env)).Agree R := by
  unfold doRespondToSipRequest
  cases hirq : s.irqs.lookup t with
  | some irq =>
    dsimp only
    rw [view_respondToIrq]
    exact h
  | none =>
    have hk : ∀ x ∈ s.respondsTo t env, s.RespondKeeps R x.1 x.2 code env :=
      hkeeps.resolve_left (AList.lookup_eq_none.mp hirq)
    dsimp only
    cases hfound : s.findInviteByTransactionId t with
    | some x =>
      obtain ⟨leg, d⟩ := x
      obtain ⟨hd, -, -⟩ := findInviteByTransactionId_eq_some hfound
      exact agree_respondToInvite h hd (hk (leg, d) (by rw [respondsTo, hfound]; rfl))
    | none =>
      dsimp only
      rcases @setupLegForIncomingRequest_cases s t env hfound with ⟨-, irqs, hsetup, -⟩ | ⟨d, hnew, hsetup⟩
      · rw [hsetup]
        have hview : view { s with pending := (s.pending.findAndRemove t false).1, irqs := irqs } = view s := rfl
        have hnone :
          findInviteByTransactionId t { s with pending := (s.pending.findAndRemove t false).1, irqs := irqs } = none := hfound
        rw [hnone]
        dsimp only
        cases irqs.lookup t with
        | some irq =>
          dsimp only
          rw [view_respondToIrq, hview]
          exact h
        | none =>
          dsimp only
          rw [view_flushTransaction, hview]
          exact h
      · have hfree : s.legs.lookup env.leg = none := AList.lookup_eq_none.mpr hleg
        have hk' : s.RespondKeeps R env.leg d code env := hk (env.leg, d) (by rw [respondsTo, hfound, hnew]; rfl)
        have hagree : (view (s.setupLegForIncomingRequest t env)).Agree R := by
          rw [hsetup.view hfree]
          exact h.invite (view_on_of_none hfree)
        rw [hsetup.found hfound]
        exact agree_respondToInvite hagree hsetup.self (hk'.setUp hsetup hfree)

/-! ### Requests on a leg -/

/-- No object but that of the leg has the transaction id. -/
def OnlyAt (leg : Leg) (t : String) (s : Registries) : Prop := ∀ l e, s.legs.lookup l = some e → e.transactionId = t → l = leg

theorem OnlyAt.grows {U W : String → Prop} (h : s.OnlyAt leg t) (hg : Grows U W s s') : s'.OnlyAt leg t := by
  intro l e he ht
  obtain ⟨e', he', heq⟩ := hg.legs l e he
  exact h l e' he' (heq.trans ht)

theorem Distinct.onlyAt (h : s.Distinct) (hd : s.legs.lookup leg = some d) : s.OnlyAt leg d.transactionId :=
  fun l e he ht => h.once l leg e d he hd ht

theorem setInvite_none_of_lookup (hd : s.legs.lookup leg = some d) (hinvite : d.invite.isSome = false) :
    (view s).setInvite leg none = view s := by
  have hshown : (view s).invites leg = none := (obs_of_lookup hd).trans (if_neg (Bool.eq_false_iff.mp hinvite))
  refine View.ext rfl rfl rfl ?_
  exact (congrArg (Function.update (view s).invites leg) hshown.symm).trans (Function.update_eq_self ..)

theorem view_clearReinvite {e : SipDialog} (honly : s.OnlyAt leg d.transactionId) (he : s.legs.lookup leg = some e)
    (htxn : e.transactionId = d.transactionId) : view (s.clearReinvite d) = (view s).setInvite leg none := by
  unfold clearReinvite
  cases hfound : s.findInviteByTransactionId d.transactionId with
  | none =>
    have hinvite : e.invite.isSome = false := by
      rw [← Bool.not_eq_true]
      exact fun hsome => findInviteByTransactionId_eq_none hfound he hsome htxn
    exact (setInvite_none_of_lookup he hinvite).symm
  | some x =>
    obtain ⟨l, e'⟩ := x
    obtain ⟨hl, -, ht⟩ := findInviteByTransactionId_eq_some hfound
    cases honly l e' hl ht
    dsimp only
    rw [← view_clearInvite]
    split
    · rfl
    · split <;> rfl

theorem view_endDialog {r : Request} {routed : Bool} {e : SipDialog} (honly : s.OnlyAt leg d.transactionId)
    (he : s.legs.lookup leg = some e) (htxn : e.transactionId = d.transactionId) :
    view (s.endDialog leg d r routed) = ((view s).setStable leg none).setInvite leg none := by
  have hview : view ((s.clearSipTimers leg).clearStable leg) = (view s).setStable leg none := by
    rw [view_clearStable, view_clearSipTimers]
  have honly' : ((s.clearSipTimers leg).clearStable leg).OnlyAt leg d.transactionId :=
    honly.grows (U := fun _ => False) (W := fun _ => False) (Grows.clearSipTimers.trans Grows.clearStable)
  have he' : ((s.clearSipTimers leg).clearStable leg).legs.lookup leg = some { e with timerH := false, stable := false } := by
    unfold clearStable clearSipTimers
    rw [lookup_modify_self, lookup_modify_self, he]
    rfl
  rw [← hview]
  generalize hs' : (s.clearSipTimers leg).clearStable leg = s'
  rw [hs'] at honly' he'
  unfold endDialog
  rw [hs']
  dsimp only
  split
  · exact view_clearReinvite honly' he' htxn
  · split
    · exact view_clearReinvite honly' he' htxn
    · exact view_clearReinvite honly' he' htxn

theorem view_admitRequest {r : Request} {routed : Bool} {e : SipDialog} (honly : s.OnlyAt leg d.transactionId)
    (he : s.legs.lookup leg = some e) (htxn : e.transactionId = d.transactionId) :
    view (s.admitRequest leg d r routed) =
      if r.ends d = true then ((view s).setStable leg none).setInvite leg none else view s := by
  unfold admitRequest
  dsimp only
  split
  · exact view_endDialog (s := s.addIncomingRequestTransaction r.transactionId ⟨r.method, d.owner⟩) honly he htxn
  · rfl

/-- A request takes the dialog id away. -/
def Forgets (r : Request) : Prop := r.method = .bye ∨ r.isFinalNotify = true

instance {r : Request} : Decidable (Forgets r) := inferInstanceAs (Decidable (_ ∨ _))

/-- A request ends the dialog; a NOTIFY does so only when there is a client for it. -/
def Leaves (d : SipDialog) (r : Request) (s : Registries) : Prop :=
  r.ends d = true ∧ ((s.clientForRequest r d.dialogId).isSome = true ∨ r.method = .bye)

instance {r : Request} : Decidable (s.Leaves d r) := inferInstanceAs (Decidable (_ ∧ _))

theorem isFinalNotify_method {r : Request} (h : r.isFinalNotify = true) : r.method = .notify := by
  unfold Request.isFinalNotify at h
  simp only [Bool.and_eq_true, beq_iff_eq] at h
  exact h.1.1

theorem ends_method {r : Request} (h : r.ends d = true) : r.method = .bye ∨ r.method = .notify := by
  unfold Request.ends at h
  simp only [Bool.or_eq_true, Bool.and_eq_true, beq_iff_eq] at h
  exact h.imp_right fun h => h.1.1

/-- The requests that come before the final response do not end a dialog, except for a BYE. -/
theorem view_earlyRequest {r : Request} {e : SipDialog} (honly : s.OnlyAt leg d.transactionId)
    (he : s.legs.lookup leg = some e)
    (htxn : e.transactionId = d.transactionId) :
    view (s.earlyRequest leg d r) = if r.method = .bye then ((view s).setStable leg none).setInvite leg none else view s := by
  have hkept : r.isStateless = false → view (s.admitRequest leg d r false) =
      if r.method = .bye then ((view s).setStable leg none).setInvite leg none else view s := by
    intro hstateless
    rw [view_admitRequest honly he htxn]
    by_cases hbye : r.method = .bye
    · rw [if_pos hbye, if_pos (by simp [Request.ends, hbye])]
    · rw [if_neg hbye, if_neg]
      intro hends
      rcases ends_method hends with h | h
      · exact hbye h
      · rw [Request.isStateless, h] at hstateless
        exact nomatch hstateless
  unfold earlyRequest
  split
  · rename_i hstateless
    have hbye : r.method ≠ .bye := by
      intro h
      rw [Request.isStateless, h] at hstateless
      exact nomatch hstateless
    rw [if_neg hbye, view_processMessageStatelessly, view_modify_hidden (@hidden_incoming (·.erase r.transactionId))]
  · rename_i hstateless
    split
    · rename_i hupdate
      have hbye : r.method ≠ .bye := fun h => nomatch h.symm.trans hupdate
      rw [if_neg hbye]
      split
      · rfl
      · have hhidden : Hidden fun d => { d with update := some r.transactionId } :=
          ⟨fun _ => rfl, fun _ => rfl, fun _ => rfl, fun _ => rfl⟩
        have hends : r.ends d = false := by simp [Request.ends, hupdate]
        unfold admitRequest
        dsimp only
        rw [if_neg (Bool.eq_false_iff.mp hends)]
        have hadd : ∀ s' : Registries, view (s'.addIncomingRequestTransaction r.transactionId ⟨r.method, d.owner⟩) =
          view s' := fun _ => rfl
        rw [hadd, view_routeRequestInsideInvite, view_modify_hidden hhidden]
    · exact hkept (Bool.eq_false_iff.mpr hstateless)

theorem view_otherInsideDialog {r : Request} (honly : s.OnlyAt leg d.transactionId) (hd : s.legs.lookup leg = some d)
    (hsmall : r.tooSmall = false) :
    view (s.otherInsideDialog leg d r) =
      if s.Leaves d r then ((if Forgets r then (view s).setDialog d.dialogId none else view s).setStable leg
      none).setInvite leg none
      else if Forgets r then (view s).setDialog d.dialogId none else view s := by
  unfold otherInsideDialog
  have hs1 :
    ∃ s1, (if r.method = .bye then s else s.modify leg fun d => { d with incoming := r.transactionId :: d.incoming }) = s1 ∧
      view s1 = view s ∧ s1.clientForRequest r d.dialogId = s.clientForRequest r d.dialogId ∧ s1.OnlyAt leg d.transactionId ∧
      ∃ e, s1.legs.lookup leg = some e ∧ e.transactionId = d.transactionId := by
    by_cases hbye : r.method = .bye
    · exact ⟨s, if_pos hbye, rfl, rfl, honly, d, hd, rfl⟩
    · refine ⟨_, if_neg hbye, view_modify_hidden (@hidden_incoming (r.transactionId :: ·)), ?_, ?_,
        { d with incoming := r.transactionId :: d.incoming }, ?_, rfl⟩
      · rw [modify_eq]
        rfl
      · exact honly.grows (U := fun _ => False) (W := fun _ => False) (Grows.modify fun _ => rfl)
      · rw [lookup_modify_self, hd, Option.map_some]
  obtain ⟨s1, hs1, hview, hclient, honly1, e, he, htxn⟩ := hs1
  rw [hs1]
  dsimp only
  rw [if_neg (Bool.eq_false_iff.mp hsmall)]
  have hroute : view (s1.routeRequestInsideDialog r d.dialogId).1 =
      if Forgets r then (view s).setDialog d.dialogId none else view s := by
    rw [view_routeRequestInsideDialog, hview]
    rfl
  have hrouted : (s1.routeRequestInsideDialog r d.dialogId).2 = (s.clientForRequest r d.dialogId).isSome := by
    rw [← hclient]
    rfl
  have hsame : Routed s1 (s1.routeRequestInsideDialog r d.dialogId).1 := routed_routeRequestInsideDialog
  have he2 : (s1.routeRequestInsideDialog r d.dialogId).1.legs.lookup leg = some e := by rw [hsame.legs, he]
  have honly2 : (s1.routeRequestInsideDialog r d.dialogId).1.OnlyAt leg d.transactionId :=
    honly1.grows (U := fun _ => False) (W := fun _ => False) hsame.grows
  rw [← hroute, hrouted]
  generalize (s1.routeRequestInsideDialog r d.dialogId).1 = s2 at he2 honly2
  by_cases hsome : (s.clientForRequest r d.dialogId).isSome = true
  · rw [if_pos hsome, view_admitRequest honly2 he2 htxn]
    by_cases hends : r.ends d = true
    · have hleaves : s.Leaves d r := ⟨hends, .inl hsome⟩
      rw [if_pos hends, if_pos hleaves]
    · have hstays : ¬s.Leaves d r := fun hl => hends hl.1
      rw [if_neg hends, if_neg hstays]
  · rw [if_neg hsome]
    by_cases hbye : r.method = .bye
    · have hends : r.ends d = true := by simp [Request.ends, hbye]
      have hleaves : s.Leaves d r := ⟨hends, .inr hbye⟩
      rw [if_pos hleaves, if_pos hbye]
      split
      · rw [view_earlyRequest honly2 he2 htxn, if_pos hbye]
      · rw [view_admitRequest honly2 he2 htxn, if_pos hends]
    · have hstays : ¬s.Leaves d r := fun hl => hl.2.elim hsome hbye
      rw [if_neg hstays, if_neg hbye]
      split
      · rw [view_earlyRequest honly2 he2 htxn, if_neg hbye]
      · rfl

/-- A request that takes the dialog id away must end the dialog, and one that ends it must leave the id to others. -/
def OtherKeeps (leg : Leg) (d : SipDialog) (r : Request) (s : Registries) : Prop :=
  if Forgets r then
    s.ownedElsewhere leg d.dialogId = false ∧ (s.Leaves d r ∨ d.stable = false ∨ (s.lock d.owner).isSome = false)
  else s.Leaves d r → s.MayEnd leg d

instance {r : Request} : Decidable (s.OtherKeeps leg d r) := inferInstanceAs (Decidable (ite _ _ _))

/-- No pending INVITE is found for a CANCEL on a leg. -/
def comesTooLate (r : Request) (s : Registries) : Bool :=
  (s.pending.findInviteByCallIdAndBranch r.logsInfo r.arrival.sip).any Option.isNone

/-- What a request on a leg needs. -/
def RequestKeeps (leg : Leg) (d : SipDialog) (r : Request) (s : Registries) : Prop :=
  (r.method = .ack → d.invite.isSome = true → s.MayLeave leg d) ∧
  (r.method = .cancel → s.comesTooLate r = true → s.ownedElsewhere leg d.dialogId = false) ∧
  (r.method ≠ .ack → r.method ≠ .cancel → r.tooSmall = false → s.OtherKeeps leg d r)

instance {r : Request} : Decidable (s.RequestKeeps leg d r) := inferInstanceAs (Decidable (_ ∧ _ ∧ _))

theorem agree_clearInvite (h : (view s).Agree R) (hd : s.legs.lookup leg = some d)
    (hmay : d.invite.isSome = true → s.MayLeave leg d) :
    ((view s).setInvite leg none).Agree R := by
  by_cases hinvite : d.invite.isSome = true
  · exact agree_leave h hd (hmay hinvite)
  · rw [setInvite_none_of_lookup hd (Bool.eq_false_iff.mpr hinvite)]
    exact h

/-- Nobody loses a stable dialog whose own id is forgotten. -/
theorem agree_forget_of_unowned (h : (view s).Agree R) (hd : s.legs.lookup leg = some d)
    (hothers : s.ownedElsewhere leg d.dialogId = false) (hown : d.stable = false ∨ (s.lock d.owner).isSome = false) :
    ((view s).setDialog d.dialogId none).Agree R := by
  refine h.forget fun l k hl => ?_
  by_cases hleg : l = leg
  · obtain ⟨e, he, hstable, -, howner⟩ := view_stable_eq_some hl
    rw [hleg, hd] at he
    cases he
    by_contra hk
    rcases hown with hunstable | hgone
    · exact nomatch hunstable.symm.trans hstable
    · rw [howner, lock_isSome (show k ∉ s.gone from hk)] at hgone
      exact nomatch hgone
  · exact gone_of_ownedElsewhere_eq_false hothers hleg hl

theorem agree_processRequestInsideDialog {r : Request} (h : (view s).Agree R) (hdistinct : s.Distinct)
    (hkeeps : ∀ d ∈ s.findDialogByLeg leg, s.RequestKeeps leg d r) : (view (s.processRequestInsideDialog leg r)).Agree R := by
  unfold processRequestInsideDialog
  cases hfound : s.findDialogByLeg leg with
  | none => exact h
  | some d =>
    obtain ⟨hd, -⟩ := findDialogByLeg_eq_some hfound
    obtain ⟨hack, hcancel, hother⟩ := hkeeps d hfound
    dsimp only
    split
    · exact h
    · split
      · rename_i hmethod
        unfold ackInsideDialog
        rw [view_routeAckRequestInsideDialog, view_clearSipTimers, view_clearInvite]
        exact agree_clearInvite h hd (hack hmethod)
      · rename_i hmethod
        unfold cancelInsideDialog
        split
        · exact h
        · rename_i p _
          dsimp only
          cases s.findClientForNetTransaction p.transactionId <;> exact h
        · rename_i hp
          have hothers := hcancel hmethod (by rw [comesTooLate, hp]; rfl)
          rw [view_clearInvite, view_clearStable, view_routeUnsolicitedBye, view_clearSipTimers]
          exact agree_drop_all h hd hothers
      · rename_i hnotAck hnotCancel
        by_cases hsmall : r.tooSmall = true
        · unfold otherInsideDialog
          dsimp only
          rw [if_pos hsmall]
          split
          · exact h
          · rw [view_modify_hidden (@hidden_incoming (r.transactionId :: ·))]
            exact h
        · have hsmall : r.tooSmall = false := Bool.eq_false_iff.mpr hsmall
          have hk := hother hnotAck hnotCancel hsmall
          rw [view_otherInsideDialog (hdistinct.onlyAt hd) hd hsmall]
          unfold OtherKeeps at hk
          by_cases hforgets : Forgets r
          · rw [if_pos hforgets] at hk ⊢
            split
            · exact agree_drop_all h hd hk.1
            · rename_i hstays
              exact agree_forget_of_unowned h hd hk.1 (hk.2.resolve_left hstays)
          · rw [if_neg hforgets] at hk ⊢
            split
            · rename_i hleaves
              exact agree_end h hd (hk hleaves)
            · exact h

end Drachtio.Dialog.Registries
