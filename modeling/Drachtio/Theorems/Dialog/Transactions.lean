import Drachtio.Theorems.Dialog.Owners
import Drachtio.Theorems.Dialog.Releases
import Drachtio.Theorems.Pending.Tables

/-! How the work for applications keeps the registries of transactions in agreement, and the runs of the whole system
    in which they stay so. -/

namespace Drachtio.Dialog.Registries

open Machine
open Proxy (Method)
open Client (ClientId)
open Pending (PendingRequests PendingRequest Arrival)

variable {s s' : Registries} {leg : Leg} {d : SipDialog} {t u id : String} {X Y : String → Prop} {op : Op}

/-! ### Responses of an application -/

theorem flushTransaction_eq {code : Nat} {m : Method} {existing : Bool} :
    s.flushTransaction t code m existing = s ∨ s.flushTransaction t code m existing = s.removeNetTransaction t := by
  unfold flushTransaction
  split
  · exact .inr rfl
  · exact .inl rfl

/-- A final response takes the net transaction away, but for the 200 to an INVITE, which waits for its ACK. -/
theorem net_flushTransaction {code : Nat} {m : Method} {existing : Bool} (hfinal : 200 ≤ code)
    (hm : existing = true ∨ m ≠ .invite) :
    t ∉ (s.flushTransaction t code m existing).netTransactions := by
  have hflush : (m ≠ .invite ∧ 200 ≤ code) ∨ (m = .invite ∧ 200 < code) ∨ (m = .invite ∧ code = 200 ∧ existing = true) := by
    by_cases hinvite : m = .invite
    · rcases Nat.lt_or_eq_of_le hfinal with hlt | heq
      · exact .inr (.inl ⟨hinvite, hlt⟩)
      · exact .inr (.inr ⟨hinvite, heq.symm, hm.resolve_right (not_not.mpr hinvite)⟩)
    · exact .inl ⟨hinvite, hfinal⟩
  unfold flushTransaction
  rw [if_pos hflush]
  exact fun hmem => (AList.mem_erase.mp hmem).1 rfl

theorem frame_flushTransaction {code : Nat} {m : Method} {existing : Bool} (hX : X t) :
    Frame X Y s (s.flushTransaction t code m existing) := by
  rcases @flushTransaction_eq s t code m existing with h | h
  · rw [h]
    exact Frame.refl
  · rw [h]
    exact Frame.removeNetTransaction hX

theorem frame_respondToIrq {code : Nat} {irq : Irq} {existing : Bool} {env : RespondEnv} (hX : X t) :
    Frame X Y s (s.respondToIrq t code irq existing env) := by
  unfold respondToIrq
  have hremove : Frame X Y s (s.removeIrq t) := Frame.removeIrq hX
  refine hremove.trans (Frame.trans ?_ (frame_flushTransaction hX))
  split
  · split
    · exact Frame.modify fun _ => rfl
    · exact Frame.refl
  · exact Frame.refl

/-- The net transaction goes, or there is none, and there is no incoming request. -/
theorem backedAt_flushTransaction {code : Nat} {m : Method} {existing : Bool} (hcode : 200 ≤ code ∨ t ∉ s.netTransactions)
    (hm : existing = true ∨ m ≠ .invite) (hirq : t ∉ s.irqs) : (s.flushTransaction t code m existing).BackedAt t := by
  refine .absent ?_ ?_
  · rcases hcode with hfinal | hfree
    · exact net_flushTransaction hfinal hm
    · rcases @flushTransaction_eq s t code m existing with h | h
      · rw [h]
        exact hfree
      · rw [h]
        exact fun hmem => hfree (AList.mem_erase.mp hmem).2
  · rw [routed_flushTransaction.irqs]
    exact hirq

/-- A response takes the incoming request away, and a final one its net transaction. -/
theorem backedAt_respondToIrq {code : Nat} {irq : Irq} {existing : Bool} {env : RespondEnv}
    (hcode : 200 ≤ code ∨ t ∉ s.netTransactions) (hm : existing = true ∨ irq.method ≠ .invite) :
    (s.respondToIrq t code irq existing env).BackedAt t := by
  have hirq : t ∉ (s.removeIrq t).irqs := fun hmem => (AList.mem_erase.mp hmem).1 rfl
  have hnet : 200 ≤ code ∨ t ∉ (s.removeIrq t).netTransactions := hcode
  unfold respondToIrq
  dsimp only
  split
  · split
    · refine backedAt_flushTransaction ?_ hm ?_
      · rw [modify_eq]
        exact hnet
      · rw [modify_eq]
        exact hirq
    · exact backedAt_flushTransaction hnet hm hirq
  · exact backedAt_flushTransaction hnet hm hirq

theorem frame_sendResponse {code : Nat} {env : RespondEnv} : Frame X Y s (s.sendResponse leg d code env).1 := by
  unfold sendResponse
  have hstatus : Frame X Y s (s.modify leg fun d => { d with status := code }) := Frame.modify fun _ => rfl
  split
  · exact Frame.refl
  · split
    · exact Frame.refl
    · split
      · exact Frame.refl
      · refine hstatus.trans ?_
        dsimp only
        generalize (s.modify leg fun d => { d with status := code }) = s1
        split
        · split
          · refine Frame.modify fun d => ?_
            unfold shownTransaction
            cases d.invite <;> rfl
          · exact Frame.refl
        · split
          · exact Frame.refl
          · unfold replyToInvite
            split
            · split
              · exact Frame.addDialog.trans (Frame.modify fun _ => rfl)
              · exact Frame.refl
            · split
              · exact Frame.addDialog
              · exact Frame.refl

/-- A provisional response to a SUBSCRIBE ends its invite in progress, and so the object must go with it. -/
def RespondReleases (leg : Leg) (d : SipDialog) (code : Nat) (env : RespondEnv) (s : Registries) : Prop :=
  s.Sends d env → d.isInvite = false → code < 200 → s.Releases d (d.timerH || s.ripped leg)

instance {code : Nat} {env : RespondEnv} : Decidable (s.RespondReleases leg d code env) :=
  inferInstanceAs (Decidable (_ → _ → _ → _))

theorem backed_respondToUpdate (hb : s.Backed) : (s.respondToUpdate leg u).Backed := by
  unfold respondToUpdate
  have hremove : Frame (· = u) (fun _ => False) s (s.removeIrq u) := Frame.removeIrq rfl
  have hincoming : Frame (· = u) (fun _ => False) (s.removeIrq u)
      ((s.removeIrq u).modify leg fun d => { d with incoming := d.incoming.erase u }) := Frame.modify fun _ => rfl
  have hirqs : ((s.removeIrq u).modify leg fun d => { d with incoming := d.incoming.erase u }).irqs = s.irqs.erase u := by
    rw [modify_eq]
    rfl
  generalize ((s.removeIrq u).modify leg fun d => { d with incoming := d.incoming.erase u }) = s1 at hincoming hirqs
  have hnet : Frame (· = u) (fun _ => False) s1 (s1.removeNetTransaction u) := Frame.removeNetTransaction rfl
  refine hb.frame_at (((hremove.trans hincoming).trans hnet).trans (Frame.modify fun _ => rfl)) (.absent ?_ ?_)
  · rw [modify_eq]
    exact fun hmem => (AList.mem_erase.mp hmem).1 rfl
  · rw [modify_eq]
    show u ∉ s1.irqs
    rw [hirqs]
    exact fun hmem => (AList.mem_erase.mp hmem).1 rfl

theorem handled_respondToInvite {code : Nat} {env : RespondEnv} (hb : s.Backed) (hdistinct : s.Distinct)
    (hd : s.legs.lookup leg = some d) (hkeeps : s.RespondReleases leg d code env) :
    (s.respondToInvite leg d code env).Handled := by
  unfold respondToInvite
  cases hu : (if env.cseqUpdate = true then d.update else none) with
  | some v => exact (backed_respondToUpdate hb).handled
  | none =>
    have hupdate : env.cseqUpdate = false ∨ d.update = none := by
      by_cases hc : env.cseqUpdate = true
      · exact .inr (by rwa [if_pos hc] at hu)
      · exact .inl (Bool.eq_false_iff.mpr hc)
    dsimp only
    have hb1 : (s.sendResponse leg d code env).1.Backed := hb.frame frame_sendResponse
    have hdistinct1 : (s.sendResponse leg d code env).1.Distinct := hdistinct.shrinks Grows.sendResponse
    have hnoirq : d.transactionId ∉ (s.sendResponse leg d code env).1.irqs := by
      have hf : Frame (fun _ => False) (fun _ => False) s (s.sendResponse leg d code env).1 := frame_sendResponse
      exact fun hmem => hdistinct.irqs leg d hd ((mem_congr (hf.irqs _ id)).mp hmem)
    have hb2 : ((s.sendResponse leg d code env).1.flushTransaction d.transactionId code (inviteMethod d) false).Backed := by
      rcases @flushTransaction_eq (s.sendResponse leg d code env).1 d.transactionId code (inviteMethod d) false with h | h
      · rw [h]
        exact hb1
      · rw [h]
        exact fun t => (hb1 t).removeNetTransaction hnoirq
    by_cases hdone : (s.sendResponse leg d code env).2 = true
    · rw [if_pos hdone]
      rcases @view_sendResponse s leg d code env hupdate with ⟨-, hclear⟩ | ⟨hsends, hreply⟩
      · -- Only a SUBSCRIBE is cleared by the response itself.
        exact nomatch hclear.symm.trans hdone
      · have hsubscribe : d.isInvite = false := by
          rw [hreply] at hdone
          simpa using hdone
        have hmethod : inviteMethod d ≠ .invite := by
          unfold inviteMethod
          rw [hsubscribe]
          split
          · exact nofun
          · exact nofun
        have hgrows : Grows (fun _ => False) (fun _ => False) s
            ((s.sendResponse leg d code env).1.flushTransaction d.transactionId code (inviteMethod d) false) :=
          Grows.sendResponse.trans routed_flushTransaction.grows
        cases he :
          ((s.sendResponse leg d code env).1.flushTransaction d.transactionId code (inviteMethod d) false).legs.lookup
          leg with
        | none =>
          rw [clearInvite, modify_of_none _ he]
          exact hb2.handled
        | some e =>
          obtain ⟨d', hd', htxn⟩ := hgrows.legs leg e he
          cases hd.symm.trans hd'
          refine handled_release_of_quiet hb2 (hdistinct.shrinks hgrows) he (frame_clearInvite he) fun hincoming hmem => ?_
          by_cases hfinal : 200 ≤ code
          · exact absurd (htxn ▸ hmem) (net_flushTransaction hfinal (.inr hmethod))
          · -- A provisional response to a SUBSCRIBE: the dialog goes with its object, if nothing else holds it.
            have hsame : (s.sendResponse leg d code env).1.flushTransaction d.transactionId code (inviteMethod d) false =
                s.modify leg fun d => { d with status := code } := by
              have hsent : (s.sendResponse leg d code env).1 = s.modify leg fun d => { d with status := code } := by
                rw [hreply]
                dsimp only
                unfold replyToInvite
                rw [if_neg (Bool.eq_false_iff.mp hsubscribe), if_neg (by omega)]
              rw [hsent]
              unfold flushTransaction
              exact if_neg (by omega)
            have hstable : d.stable = false := by
              by_contra hne
              have hfound := findDialogById_isSome.mpr ⟨leg, d.owner, view_stable_of_lookup hd (Bool.not_eq_false _ ▸ hne)⟩
              exact nomatch hsends.2.2.2.2.1.symm.trans hfound
            have hcleared : ((s.modify leg fun d => { d with status := code }).clearInvite leg).legs.lookup leg =
                some { d with status := code, invite := none } := by
              rw [clearInvite, lookup_modify_self, lookup_modify_self, hd]
              rfl
            rw [hsame] at he hmem ⊢
            rw [lookup_modify_self, hd] at he
            cases he
            have hnet : d.transactionId ∈ s.netTransactions := by
              rw [modify_eq] at hmem
              exact hmem
            have hfree := (hkeeps hsends hsubscribe (Nat.lt_of_not_le hfinal) hincoming).resolve_left (not_not.mpr hnet)
            obtain ⟨htimer, hripped⟩ := Bool.or_eq_false_iff.mp hfree
            exact leaving_of_lookup hcleared rfl hstable rfl htimer (ripped_modify.trans (ripped_modify.trans hripped))
    · rw [if_neg hdone]
      exact hb2.handled

theorem mem_findAndRemove (c : PendingRequests) (ht : t ≠ u) (h : t ∈ c.txnId2Invite) :
    t ∈ (c.findAndRemove u false).1.txnId2Invite := by
  rw [findAndRemove_txnId2Invite]
  exact AList.mem_erase.mpr ⟨ht, h⟩

/-- The INVITE or SUBSCRIBE that was pending is in progress. -/
theorem Backed.setUp (hb : s.Backed) (hsetup : SetUp t leg d s s') (hdistinct : s'.Distinct)
    (hfree : s.legs.lookup leg = none) :
    s'.Backed := by
  have hshown : obs shownTransaction s' leg = some (t, none) := by
    rw [obs_of_lookup hsetup.self, shownTransaction, hsetup.invite, hsetup.transactionId]
    rfl
  intro t'
  by_cases ht' : t' = t
  · rw [ht']
    exact .of_incoming hdistinct hshown
  · have hpending : BackedAt t' { s with pending := (s.pending.findAndRemove t false).1 } :=
      (hb t').pending rfl rfl rfl rfl (mem_findAndRemove s.pending ht')
    refine hpending.frame (X := fun _ => False) (Y := (· = t)) ⟨hsetup.gone, hsetup.pending, ?_, ?_, fun l u o hu => ?_⟩
      id ht'
    · exact fun u _ => by rw [hsetup.net]
    · exact fun u _ => by rw [hsetup.irqs]
    · by_cases hl : l = leg
      · have hnone : obs shownTransaction { s with pending := (s.pending.findAndRemove t false).1 } leg = none := by
          show (s.legs.lookup leg).bind shownTransaction = none
          rw [hfree, Option.bind_none]
        rw [hl, hshown, hnone]
        refine iff_of_false (fun heq => hu ?_) (by simp)
        cases heq
        rfl
      · exact Eq.congr_left (congrArg (Option.bind · shownTransaction) (hsetup.others l hl))

/-- What a response needs: it is final, or there is no net transaction, unless it is for an INVITE or SUBSCRIBE in
    progress. -/
def RespondSettles (t : String) (code : Nat) (env : RespondEnv) (s : Registries) : Prop :=
  if t ∈ s.irqs then 200 ≤ code ∨ t ∉ s.netTransactions
  else
    (∀ x ∈ s.respondsTo t env, s.RespondReleases x.1 x.2 code env) ∧
      (s.respondsTo t env = none → 200 ≤ code ∨ t ∉ s.netTransactions)

instance {o : Option (Leg × SipDialog)} : Decidable (o = none) := decidable_of_iff _ Option.isNone_iff_eq_none

instance {code : Nat} {env : RespondEnv} : Decidable (s.RespondSettles t code env) :=
  inferInstanceAs (Decidable (ite _ _ ((∀ x ∈ respondsTo _ _ _, RespondReleases x.1 x.2 _ _ _) ∧ (_ → _))))

theorem handled_doRespondToSipRequest {code : Nat} {env : RespondEnv} (hb : s.Backed) (hdistinct : s.Distinct)
    (hleg : env.leg ∉ s.legs)
    (hkeeps : s.RespondSettles t code env) : (s.doRespondToSipRequest t code env).Handled := by
  unfold doRespondToSipRequest
  unfold RespondSettles at hkeeps
  cases hirq : s.irqs.lookup t with
  | some irq =>
    rw [if_pos (AList.mem_of_lookup hirq)] at hkeeps
    exact (hb.frame_at (frame_respondToIrq rfl) (backedAt_respondToIrq hkeeps (.inl rfl))).handled
  | none =>
    have hnoirq : t ∉ s.irqs := AList.lookup_eq_none.mp hirq
    rw [if_neg hnoirq] at hkeeps
    obtain ⟨hreleases, hsettles⟩ := hkeeps
    dsimp only
    cases hfound : s.findInviteByTransactionId t with
    | some x =>
      obtain ⟨leg, d⟩ := x
      obtain ⟨hd, -, -⟩ := findInviteByTransactionId_eq_some hfound
      exact handled_respondToInvite hb hdistinct hd (hreleases (leg, d) (by rw [respondsTo, hfound]; rfl))
    | none =>
      dsimp only
      have hsetupDistinct : (s.setupLegForIncomingRequest t env).Distinct := hdistinct.setupLegForIncomingRequest
      rcases @setupLegForIncomingRequest_cases s t env hfound with ⟨hnew, irqs, hsetup, hirqs⟩ | ⟨d, hnew, hsetup⟩
      · -- No dialog is set up: the request is an irq from now on, or it is answered without one.
        have hcode : 200 ≤ code ∨ t ∉ s.netTransactions := hsettles (by rw [respondsTo, hfound, hnew]; rfl)
        have hother : ∀ t', t' ≠ t → BackedAt t' { s with pending := (s.pending.findAndRemove t false).1, irqs := irqs } := by
          intro t' ht'
          have hsame : irqs.lookup t' = s.irqs.lookup t' := by
            rcases hirqs with h | ⟨irq, -, h⟩
            · rw [h]
            · rw [h]
              exact AList.lookup_insertNew_ne ht'
          exact (hb t').pending rfl rfl hsame rfl (mem_findAndRemove s.pending ht')
        have hnone :
          findInviteByTransactionId t { s with pending := (s.pending.findAndRemove t false).1, irqs := irqs } = none := hfound
        rw [hsetup, hnone]
        dsimp only
        cases hlookup : irqs.lookup t with
        | some irq =>
          dsimp only
          have hmethod : irq.method ≠ .invite := by
            rcases hirqs with h | ⟨irq', hmethod, h⟩
            · rw [h, hirq] at hlookup
              cases hlookup
            · rw [h, AList.lookup_insertNew_self, hirq] at hlookup
              cases hlookup
              exact hmethod
          refine Backed.handled fun t' => ?_
          by_cases ht' : t' = t
          · rw [ht']
            exact backedAt_respondToIrq hcode (.inr hmethod)
          · exact (hother t' ht').frame (X := (· = t)) (Y := fun _ => False) (frame_respondToIrq rfl) ht' id
        | none =>
          dsimp only
          refine Backed.handled fun t' => ?_
          by_cases ht' : t' = t
          · rw [ht']
            exact backedAt_flushTransaction hcode (.inr Method.noConfusion) (AList.lookup_eq_none.mp hlookup)
          · exact (hother t' ht').frame (X := (· = t)) (Y := fun _ => False) (frame_flushTransaction rfl) ht' id
      · -- The dialog that is set up is answered like one that was there before.
        have hfree : s.legs.lookup env.leg = none := AList.lookup_eq_none.mpr hleg
        have hk : s.RespondReleases env.leg d code env := hreleases (env.leg, d) (by rw [respondsTo, hfound, hnew]; rfl)
        have hk' : (s.setupLegForIncomingRequest t env).RespondReleases env.leg d code env := by
          intro hsends hsubscribe hcode hincoming
          have hview : (view (s.setupLegForIncomingRequest t env)).stable = (view s).stable := by
            rw [hsetup.view hfree]
            rfl
          have hreleased := hk (hsends.of_stable hview) hsubscribe hcode hincoming
          rw [ripped, hsetup.rips, hsetup.net]
          exact hreleased
        rw [hsetup.found hfound]
        exact handled_respondToInvite (hb.setUp hsetup hsetupDistinct hfree) hsetupDistinct hsetup.self hk'

/-! ### Requests of an application -/

theorem frame_addTransactionFor {client : ClientId} {m : Method} : Frame X Y s (s.addTransactionFor client m t) := by
  rw [addTransactionFor_eq]
  exact Frame.of_eq rfl rfl rfl rfl rfl

theorem shownTransaction_of_sent (h : d.invite.any (·.orq.isSome) = true) :
    ∃ orq, shownTransaction d = some (d.transactionId, some orq) := by
  obtain ⟨i, hi, hsome⟩ := (Option.any_eq_true _ _).mp h
  obtain ⟨orq, horq⟩ := Option.isSome_iff_exists.mp hsome
  exact ⟨orq, by rw [shownTransaction, hi, Option.map_some, horq]⟩

/-- An INVITE that we sent has no net transaction, so it may go. -/
theorem backed_clearInvite (hb : s.Backed) (hdistinct : s.Distinct) (hd : s.legs.lookup leg = some d)
    (hsent : d.invite.any (·.orq.isSome) = true) : (s.clearInvite leg).Backed := by
  obtain ⟨orq, hshown⟩ := shownTransaction_of_sent hsent
  have hframe : Frame (fun _ => False) (· = d.transactionId) s (s.clearInvite leg) := frame_clearInvite hd
  intro t
  by_cases ht : t = d.transactionId
  · rw [ht]
    have hnet := (hb d.transactionId).sent leg orq ((obs_of_lookup hd).trans hshown)
    refine .absent (fun hmem => hnet ((mem_congr (hframe.net _ id)).mp hmem)) fun hmem => ?_
    exact hdistinct.irqs leg d hd ((mem_congr (hframe.irqs _ id)).mp hmem)
  · exact (hb t).frame hframe id ht

theorem backed_cancelReinvite (hb : s.Backed) (hdistinct : s.Distinct) (hd : s.legs.lookup leg = some d) :
    (s.cancelReinvite leg d).Backed := by
  unfold cancelReinvite
  split
  · rename_i hsent
    have hb1 := backed_clearInvite hb hdistinct hd hsent
    unfold clearRIPByDialogId
    split
    · exact hb1.frame (Frame.of_eq rfl rfl rfl rfl rfl)
    · exact hb1
  · exact hb

/-- We send an INVITE in a dialog that has none in progress. -/
theorem backed_insertInvite {orq : Orq} {reliables : List Reliable} {canceled : Bool} (hb : s.Backed) (hdistinct : s.Distinct)
    (hd : s.legs.lookup leg = some d) : (s.insertInvite leg ⟨some orq, reliables, canceled⟩).Backed := by
  unfold insertInvite
  rw [hd]
  dsimp only
  split
  · exact hb
  · rename_i hnone
    have hinvite : d.invite.isSome = false := by
      rw [← Bool.not_eq_true]
      exact fun hsome => findInviteByTransactionId_eq_none (Option.not_isSome_iff_eq_none.mp hnone) hd hsome rfl
    have hnet : d.transactionId ∉ s.netTransactions := by
      intro hmem
      have hincoming := isSome_of_any (hb.incoming hdistinct hd hmem)
      exact nomatch hinvite.symm.trans hincoming
    intro t
    by_cases ht : t = d.transactionId
    · rw [ht]
      refine .absent ?_ ?_
      · rw [modify_eq]
        exact hnet
      · rw [modify_eq]
        exact hdistinct.irqs leg d hd
    · have hshown : obs shownTransaction (s.modify leg fun d => { d with invite := some ⟨some orq, reliables, canceled⟩ }) =
          Function.update (obs shownTransaction s) leg (some (d.transactionId, some orq)) := obs_modify hd
      refine (hb t).frame (X := fun _ => False) (Y := (· = d.transactionId))
        ⟨?_, ?_, fun u _ => ?_, fun u _ => ?_, fun l u o hu => ?_⟩ id ht
      · rw [modify_eq]
      · rw [modify_eq]
      · rw [modify_eq]
      · rw [modify_eq]
      · rw [hshown]
        by_cases hl : l = leg
        · rw [hl, Function.update_self]
          refine iff_of_false (fun heq => hu ?_) fun hold => hu ?_
          · cases heq
            rfl
          · obtain ⟨e, he, htxn, -⟩ := obs_shownTransaction hold
            cases hd.symm.trans he
            exact htxn.symm
        · rw [Function.update_of_ne hl]

/-- The INVITE that an application answers with an ACK of its own may go. -/
theorem handled_sendAck (hb : s.Backed) (hdistinct : s.Distinct) (hd : s.legs.lookup leg = some d)
    (hkeeps : d.status = 200 → s.Releases d (!d.ackBye || d.timerH || s.ripped leg)) : (s.sendAck leg d).Handled := by
  have hclear : Frame (fun _ => False) (· = d.transactionId) s (s.clearInvite leg) := frame_clearInvite hd
  have hd1 : (s.clearInvite leg).legs.lookup leg = some { d with invite := none } := by
    rw [clearInvite, lookup_modify_self, hd]
    rfl
  have hrips1 : (s.clearInvite leg).ripped leg = s.ripped leg := ripped_modify
  unfold sendAck
  split
  · rename_i hstatus
    have hk := hkeeps hstatus
    dsimp only
    split
    · rename_i hack
      have hbye : Routed (s.clearInvite leg) ((s.clearInvite leg).routeUnsolicitedBye d.dialogId) :=
        routed_routeUnsolicitedBye
      have hd2 : ((s.clearInvite leg).notifyTerminateStaleDialog leg d).legs.lookup leg =
          some { d with invite := none, stable := false } := by
        rw [notifyTerminateStaleDialog, clearStable, lookup_modify_self, hbye.legs, hd1]
        rfl
      refine handled_release_of_quiet hb hdistinct hd (hclear.trans Frame.notifyTerminateStaleDialog) fun hincoming hmem => ?_
      obtain ⟨hheld, hripped⟩ := Bool.or_eq_false_iff.mp ((hk hincoming).resolve_left (not_not.mpr hmem))
      obtain ⟨-, htimer⟩ := Bool.or_eq_false_iff.mp hheld
      exact leaving_of_lookup hd2 rfl rfl rfl htimer (ripped_modify.trans (hbye.ripped.trans (hrips1.trans hripped)))
    · rename_i hack
      refine handled_release_of_quiet hb hdistinct hd hclear fun hincoming hmem => ?_
      obtain ⟨hheld, -⟩ := Bool.or_eq_false_iff.mp ((hk hincoming).resolve_left (not_not.mpr hmem))
      have hbye : d.ackBye = true := by simpa using (Bool.or_eq_false_iff.mp hheld).1
      exact absurd hbye hack
  · exact (hb.frame Frame.clearStableById).handled

theorem handled_doSendRequestInsideDialog {client : ClientId} {m : Method} {env : SendEnv} (hb : s.Backed)
    (hdistinct : s.Distinct)
    (hkeeps : ∀ x ∈ s.findDialogById id, m = .ack → env.fails = false → x.2.status = 200 →
      s.Releases x.2 (!x.2.ackBye || x.2.timerH || s.ripped x.1)) :
      (s.doSendRequestInsideDialog client t id m env).Handled := by
  unfold doSendRequestInsideDialog
  have happ : ∀ s' : Registries, s'.Backed → (s'.removeAppTransaction t).Backed :=
    fun s' h => h.frame (Frame.of_eq rfl rfl rfl rfl rfl)
  have hadd : Frame (fun _ => False) (fun _ => False) s (s.addTransactionFor client m t) := frame_addTransactionFor
  obtain ⟨s1, hs1, hlegs, hnet, hirqs, hrips, hpending⟩ : ∃ s1, s.addTransactionFor client m t = s1 ∧ s1.legs = s.legs ∧
      s1.netTransactions = s.netTransactions ∧ s1.irqs = s.irqs ∧ s1.rips = s.rips ∧ s1.pending = s.pending := by
    refine ⟨_, rfl, ?_, ?_, ?_, ?_, ?_⟩ <;> rw [addTransactionFor_eq]
  rw [hs1] at hadd ⊢
  have hb1 : s1.Backed := hb.frame hadd
  have hdistinct1 : s1.Distinct := hdistinct.shrinks (Grows.of_eq hirqs hpending hlegs)
  have hfind : s1.findDialogById id = s.findDialogById id := by
    unfold findDialogById find
    rw [hlegs]
  dsimp only
  rw [hfind]
  cases hfound : s.findDialogById id with
  | none => exact (happ s1 hb1).handled
  | some x =>
    obtain ⟨leg, d⟩ := x
    have hd : s1.legs.lookup leg = some d := by
      rw [hlegs]
      exact (findDialogById_eq_some hfound).1
    have hk := hkeeps (leg, d) hfound
    dsimp only
    split
    · refine (happ _ ?_).handled
      split
      · exact backed_cancelReinvite hb1 hdistinct1 hd
      · exact hb1
    · rename_i hok
      rw [not_or] at hok
      split
      · rename_i hack
        have hnotBye : m ≠ .bye := fun hbye => nomatch hack.symm.trans hbye
        rw [if_neg hnotBye]
        refine handled_sendAck hb1 hdistinct1 hd fun hstatus => ?_
        have hreleases := hk hack (Bool.eq_false_iff.mpr hok.1) hstatus
        unfold Releases ripped
        rw [hnet, hrips]
        exact hreleases
      · unfold sendInTransaction
        dsimp only
        split
        · rename_i hinvite
          have hnotBye : m ≠ .bye := fun hbye => nomatch hinvite.symm.trans hbye
          rw [if_neg hnotBye]
          refine Backed.handled ?_
          have hrip : Frame (fun _ => False) (fun _ => False) s1 (s1.addRIP env.orq
              ⟨t, d.dialogId, some leg, m == .bye || (!d.isInvite && m == .notify && env.terminated)⟩) :=
              Frame.of_eq rfl rfl rfl rfl rfl
          exact backed_insertInvite (hb1.frame hrip) (hdistinct1.shrinks Grows.addRIP) hd
        · refine Backed.handled ?_
          have hb2 : (if m = .bye then s1.cancelReinvite leg d else s1).Backed := by
            split
            · exact backed_cancelReinvite hb1 hdistinct1 hd
            · exact hb1
          exact hb2.frame (Frame.of_eq rfl rfl rfl rfl rfl)

/-- A new object, for an id that nothing has -/
theorem Backed.newDialog {orq : Option Orq} (hb : s.Backed) (hunused : s.Unused d.transactionId)
    (hfree : s.legs.lookup leg = none) :
    (s.newDialog leg d orq).Backed := by
  intro t
  by_cases ht : t = d.transactionId
  · rw [ht]
    refine .absent ?_ ?_
    · rw [newDialog_eq]
      exact hb.unused hunused
    · rw [newDialog_eq]
      exact hunused.1
  · refine (hb t).frame (X := fun _ => False) (Y := (· = d.transactionId))
      ⟨?_, ?_, fun u _ => ?_, fun u _ => ?_, fun l u o hu => ?_⟩ id ht
    · rw [newDialog_eq]
    · rw [newDialog_eq]
    · rw [newDialog_eq]
    · rw [newDialog_eq]
    · by_cases hl : l = leg
      · refine iff_of_false (fun hnow => hu ?_) fun hold => ?_
        · obtain ⟨e, he, htxn, -⟩ := obs_shownTransaction hnow
          rcases lookup_newDialog he with ⟨-, heq⟩ | ⟨hne, -⟩
          · exact htxn.symm.trans heq
          · exact absurd hl hne
        · obtain ⟨e, he, -, -⟩ := obs_shownTransaction hold
          rw [hl, hfree] at he
          exact nomatch he
      · exact Eq.congr_left (congrArg (Option.bind · shownTransaction) (lookup_newDialog_of_ne hl))

theorem backed_doSendRequestOutsideDialog {client : ClientId} {m : Method} {env : SendOutsideEnv} (hb : s.Backed)
    (hunused : s.Unused t)
    (hleg : env.leg ∉ s.legs) : (s.doSendRequestOutsideDialog client t m env).Backed := by
  unfold doSendRequestOutsideDialog
  have hadd : Frame (fun _ => False) (fun _ => False) s (s.addTransactionFor client m t) := frame_addTransactionFor
  obtain ⟨s1, hs1, hlegs, hirqs, hpending⟩ : ∃ s1, s.addTransactionFor client m t = s1 ∧ s1.legs = s.legs ∧ s1.irqs = s.irqs ∧
      s1.pending = s.pending := by
    refine ⟨_, rfl, ?_, ?_, ?_⟩ <;> rw [addTransactionFor_eq]
  rw [hs1] at hadd ⊢
  have hb1 : s1.Backed := hb.frame hadd
  have hunused1 : s1.Unused t := by
    unfold Unused
    rw [hirqs, hpending, hlegs]
    exact hunused
  dsimp only
  split
  · exact hb1.frame (Frame.of_eq rfl rfl rfl rfl rfl)
  · split
    · exact hb1.newDialog hunused1 (AList.lookup_eq_none.mpr (hlegs ▸ hleg))
    · exact hb1.frame (Frame.of_eq rfl rfl rfl rfl rfl)

theorem findInviteByOrq_sent {orq : Orq} (h : s.findInviteByOrq orq = some (leg, d)) :
    s.legs.lookup leg = some d ∧ d.invite.any (·.orq.isSome) = true := by
  obtain ⟨hd, hp⟩ := find_eq_some h
  obtain ⟨i, hi, horq⟩ := (Option.any_eq_true _ _).mp hp
  refine ⟨hd, ?_⟩
  rw [hi]
  show i.orq.isSome = true
  rw [beq_iff_eq.mp horq]
  rfl

theorem backed_processResponseOutsideDialog {orq : Orq} {resp : Response} (hb : s.Backed) (hdistinct : s.Distinct) :
    (s.processResponseOutsideDialog orq resp).Backed := by
  unfold processResponseOutsideDialog
  split
  · cases hfound : s.findInviteByOrq orq with
    | none => exact hb
    | some x =>
      obtain ⟨leg, d⟩ := x
      obtain ⟨hd, hsent⟩ := findInviteByOrq_sent hfound
      obtain ⟨orq', hshown⟩ := shownTransaction_of_sent hsent
      have hnet := (hb d.transactionId).sent leg orq' ((obs_of_lookup hd).trans hshown)
      have hframe : Frame (fun _ => False) (· = d.transactionId) s (s.responseToInvite leg d resp) := by
        refine Frame.responseToInvite fun e he => ?_
        cases hd.symm.trans he
        rfl
      intro t
      by_cases ht : t = d.transactionId
      · rw [ht]
        refine .absent (fun hmem => hnet ((mem_congr (hframe.net _ id)).mp hmem)) fun hmem => ?_
        exact hdistinct.irqs leg d hd ((mem_congr (hframe.irqs _ id)).mp hmem)
      · exact (hb t).frame hframe id ht
  · split
    · exact hb
    · split
      · have hclear : Frame (fun _ => False) (fun _ => False) s (s.clearRIP orq) := Frame.of_eq rfl rfl rfl rfl rfl
        exact hb.frame (hclear.trans Frame.routeResponseInsideTransaction)
      · exact hb.frame Frame.routeResponseInsideTransaction

/-! ### Steps and runs -/

/-- What a step needs to keep the registries of transactions in agreement. -/
def Settles (s : Registries) : Op → Prop
  | .proxyRequest t => ∀ irq ∈ s.irqs.lookup t, s.Lost irq.owner
  | .doProxy t => t ∈ s.pending.txnId2Invite → t ∉ s.netTransactions
  | .doRespondToSipRequest t code env => s.RespondSettles t code env
  | .doSendRequestInsideDialog _ _ id m env =>
    ∀ x ∈ s.findDialogById id, m = .ack → env.fails = false → x.2.status = 200 →
      s.Releases x.2 (!x.2.ackBye || x.2.timerH || s.ripped x.1)
  | .processRequestInsideDialog leg r => ∀ d ∈ s.findDialogByLeg leg, s.RequestReleases leg d r
  | .processCancelOrAck leg .timeout =>
    ∀ d ∈ s.legs.lookup leg, d.invite.any (·.orq.isNone) = true → s.Releases d (d.stable || s.ripped leg)
  | .processCancelOrAck leg (.ack _) => ∀ d ∈ s.legs.lookup leg, d.invite.any (·.orq.isNone) = true → s.AckKeeps leg d
  | .processPrack rel _ =>
    ∀ x ∈ s.findInviteByReliable rel, (s.candidate x.2.transactionId x.2.dialogId).isSome = true ∨ s.Lost x.2.owner
  | .notifyCancelTimeoutReachedIIP leg =>
    ∀ d ∈ s.legs.lookup leg, d.invite.any (·.canceled) = true → s.Releases d (d.stable || d.timerH || s.ripped leg)
  | .endRetransmitFinalResponse leg _ => ∀ d ∈ s.legs.lookup leg, d.timerH = true → s.Releases d (s.ripped leg)
  | _ => True

instance instDecidableSettles : ∀ op, Decidable (s.Settles op)
  | .proxyRequest _ => inferInstanceAs (Decidable (∀ irq ∈ _, Lost (Irq.owner irq) _))
  | .doProxy _ => inferInstanceAs (Decidable (_ → _))
  | .doRespondToSipRequest _ _ _ => inferInstanceAs (Decidable (RespondSettles _ _ _ _))
  | .doSendRequestInsideDialog _ _ _ _ _ =>
    inferInstanceAs (Decidable (∀ x ∈ findDialogById _ _, _ → _ → _ → Releases x.2 _ _))
  | .processRequestInsideDialog _ _ => inferInstanceAs (Decidable (∀ d ∈ _, RequestReleases _ d _ _))
  | .processCancelOrAck _ .timeout => inferInstanceAs (Decidable (∀ d ∈ _, _ → Releases d _ _))
  | .processCancelOrAck _ (.ack _) => inferInstanceAs (Decidable (∀ d ∈ _, _ → AckKeeps _ d _))
  | .processPrack _ _ => inferInstanceAs (Decidable (∀ x ∈ findInviteByReliable _ _, _ ∨ Lost x.2.owner _))
  | .notifyCancelTimeoutReachedIIP _ => inferInstanceAs (Decidable (∀ d ∈ _, _ → Releases d _ _))
  | .endRetransmitFinalResponse _ _ => inferInstanceAs (Decidable (∀ d ∈ _, _ → Releases d _ _))
  | .processCancelOrAck _ .cancel
  | .processMessageStatelessly _ | .cancelPending _ | .routeNewRequestToClient _ _ | .timeout _
  | .doSendRequestOutsideDialog _ _ _ _ | .doSendCancelRequest _ | .processResponseOutsideDialog _ _
  | .processResponseInsideDialog _ _
  | .processResponseToRefreshingReinvite _ _ | .doSessionTimerHandling _ _ | .retransmitFinalResponse _ | .timeoutBye _
  | .disconnect _ => isTrue trivial

theorem handled_handle (hb : s.Backed) (hdistinct : s.Distinct) (hpaired : s.pending.Paired) (hfresh : s.Fresh op)
    (hkeeps : s.Settles op) :
    (s.handle op).Handled := by
  have hdistinct' := hdistinct.handle hfresh
  cases op with
  | processMessageStatelessly a =>
    exact (backed_processMessageStatelessly hb hdistinct' (hb.unused hfresh) hfresh.1).handled
  | cancelPending p => exact Backed.handled fun t => ⟨(hb t).net, (hb t).sent, (hb t).irq⟩
  | routeNewRequestToClient client t =>
    rw [handle, routeNewRequestToClient] at hdistinct' ⊢
    cases hp : s.pending.find t with
    | none => exact hb.handled
    | some p =>
      rw [hp] at hdistinct'
      have hmem : t ∈ s.pending.txnId2Invite := AList.mem_of_lookup hp
      have hframe : Frame (· = t) (fun _ => False) s ((s.addNetTransaction client t).send client t "") :=
        Frame.trans (Frame.addNetTransaction rfl) (Frame.of_eq rfl rfl rfl rfl rfl)
      exact (hb.frame_at hframe (.of_pending hdistinct' hmem)).handled
  | timeout handle =>
    rw [Registries.handle, timeout]
    cases ht : s.pending.timeouts.lookup handle with
    | none => exact hb.handled
    | some t =>
      obtain ⟨p, hp, -, hfire⟩ := hpaired.fire_eq ht
      -- The client of the request is forgotten with it.
      refine Backed.handled fun t' => ?_
      dsimp only
      by_cases ht' : t' = t
      · rw [ht']
        refine .absent (fun hmem => (AList.mem_erase.mp hmem).1 rfl) ?_
        exact hdistinct.apart t (AList.mem_of_lookup hp)
      · refine (hb t').pending rfl (AList.lookup_erase_ne ht') rfl rfl fun hmem => ?_
        show t' ∈ (s.pending.fire handle).txnId2Invite
        rw [hfire]
        exact AList.mem_erase.mpr ⟨ht', hmem⟩
  | proxyRequest t =>
    refine Backed.handled fun t' => ?_
    by_cases ht' : t' = t
    · have hnet : t' ∉ (s.removeNetTransaction t).netTransactions := fun hmem => (AList.mem_erase.mp hmem).1 ht'
      refine ⟨fun hmem => absurd hmem hnet, fun _ _ _ => hnet, fun irq hirq => .inr ?_⟩
      exact hkeeps irq (ht' ▸ hirq)
    · exact (hb t').frame (X := (· = t)) (Y := fun _ => False) (Frame.removeNetTransaction rfl) ht' id
  | doProxy t =>
    refine Backed.handled fun t' => ?_
    by_cases ht' : t' = t ∧ t ∈ s.pending.txnId2Invite
    · rw [ht'.1]
      -- The id is not in m_mapNetTransactions, by the condition.
      exact .absent (hkeeps ht'.2) (hdistinct.apart t ht'.2)
    · refine (hb t').pending rfl rfl rfl rfl fun hmem => ?_
      exact mem_findAndRemove s.pending (fun heq => ht' ⟨heq, heq ▸ hmem⟩) hmem
  | doRespondToSipRequest t code env => exact handled_doRespondToSipRequest hb hdistinct hfresh hkeeps
  | doSendRequestInsideDialog client t id m env => exact handled_doSendRequestInsideDialog hb hdistinct hkeeps
  | doSendRequestOutsideDialog client t m env => exact (backed_doSendRequestOutsideDialog hb hfresh.1 hfresh.2).handled
  | doSendCancelRequest t =>
    rw [handle, doSendCancelRequest]
    cases s.findInviteByTransactionId t with
    | none => exact hb.handled
    | some x =>
      refine (hb.frame (Frame.modify fun d => ?_)).handled
      unfold shownTransaction
      cases d.invite <;> rfl
  | processRequestInsideDialog leg r => exact handled_processRequestInsideDialog hb hdistinct hfresh hkeeps
  | processCancelOrAck leg e =>
    refine handled_processCancelOrAck hb hdistinct fun d hd hincoming => ?_
    cases e with
    | timeout => exact hkeeps d hd hincoming
    | cancel => trivial
    | ack t => exact hkeeps d hd hincoming
  | processPrack rel r => exact handled_processPrack hb hdistinct' hfresh.1 hkeeps
  | processResponseOutsideDialog orq resp => exact (backed_processResponseOutsideDialog hb hdistinct).handled
  | processResponseInsideDialog orq resp => exact (hb.frame Frame.processResponseInsideDialog).handled
  | processResponseToRefreshingReinvite orq status => exact (hb.frame Frame.processResponseToRefreshingReinvite).handled
  | doSessionTimerHandling leg refresh => exact (hb.frame Frame.doSessionTimerHandling).handled
  | notifyCancelTimeoutReachedIIP leg => exact handled_notifyCancelTimeoutReachedIIP hb hdistinct hkeeps
  | endRetransmitFinalResponse leg byeFails => exact handled_endRetransmitFinalResponse hb hdistinct hkeeps
  | retransmitFinalResponse leg =>
    rw [handle, retransmitFinalResponse]
    cases s.legs.lookup leg with
    | none => exact hb.handled
    | some d =>
      dsimp only
      split
      · exact hb.handled
      · exact (hb.frame Frame.clearSipTimers).handled
  | timeoutBye t =>
    rw [handle, timeoutBye]
    have hb1 : Backed { s with byeTimers := s.byeTimers.erase t } := hb.frame (Frame.of_eq rfl rfl rfl rfl rfl)
    split
    · dsimp only
      split
      · have hframe : Frame (· = t) (fun _ => False) { s with byeTimers := s.byeTimers.erase t }
            ((removeIrq t { s with byeTimers := s.byeTimers.erase t }).removeNetTransaction t) :=
          Frame.trans (Frame.removeIrq rfl) (Frame.removeNetTransaction rfl)
        refine (hb1.frame_at hframe (.absent ?_ ?_)).handled
        · exact fun hmem => (AList.mem_erase.mp hmem).1 rfl
        · exact fun hmem => (AList.mem_erase.mp hmem).1 rfl
      · exact hb1.handled
    · exact hb.handled
  | disconnect client =>
    refine Backed.handled fun t => ⟨(hb t).net, (hb t).sent, fun irq hirq => ?_⟩
    -- A client that is gone stays gone.
    refine ((hb t).irq irq hirq).imp_right fun hlost => ?_
    obtain ⟨c, hc, hgone⟩ := hlost
    exact ⟨c, hc, Finset.mem_insert_of_mem hgone⟩

/-! ### The pending requests -/

/-- The timeout of a new request gets a handle that is not in use. -/
def FreshHandle (s : Registries) : Op → Prop
  | .processMessageStatelessly a => a.handle ∉ s.pending.timeouts
  | .processRequestInsideDialog _ r => r.arrival.handle ∉ s.pending.timeouts
  | _ => True

instance instDecidableFreshHandle : ∀ op, Decidable (s.FreshHandle op)
  | .processMessageStatelessly _ | .processRequestInsideDialog _ _ => inferInstanceAs (Decidable (_ ∉ _))
  | .cancelPending _ | .routeNewRequestToClient _ _ | .timeout _ | .proxyRequest _ | .doProxy _ | .doRespondToSipRequest _ _ _
  | .doSendRequestInsideDialog _ _ _ _ _ | .doSendRequestOutsideDialog _ _ _ _ | .doSendCancelRequest _
  | .processCancelOrAck _ _
  | .processPrack _ _ | .processResponseOutsideDialog _ _ | .processResponseInsideDialog _ _
  | .processResponseToRefreshingReinvite _ _ | .doSessionTimerHandling _ _ | .notifyCancelTimeoutReachedIIP _
  | .endRetransmitFinalResponse _ _ | .retransmitFinalResponse _ | .timeoutBye _ | .disconnect _ => isTrue trivial

theorem pending_processMessageStatelessly {a : Arrival} : (s.processMessageStatelessly a).pending = s.pending.arrive a := by
  unfold processMessageStatelessly
  dsimp only
  split
  · rfl
  · rfl

/-- A request on a leg is treated as a new one, cancels a pending one, or leaves the pending requests alone. -/
theorem pending_processRequestInsideDialog {r : Request} :
    (s.processRequestInsideDialog leg r).pending = s.pending ∨
    (s.processRequestInsideDialog leg r).pending = s.pending.arrive r.arrival ∨
      ∃ p, (s.processRequestInsideDialog leg r).pending = s.pending.cancel p := by
  unfold processRequestInsideDialog
  split
  · exact .inl rfl
  · rename_i d _
    split
    · exact .inl rfl
    · split
      · have hframe : Frame (fun _ => True) (fun _ => True) s (s.ackInsideDialog leg d r) :=
          Frame.trans (Frame.trans (Frame.clearInvite fun _ _ => trivial) Frame.clearSipTimers)
            (Frame.routeAckRequestInsideDialog trivial)
        exact .inl hframe.pending
      · unfold cancelInsideDialog
        split
        · exact .inl rfl
        · rename_i p _
          refine .inr (.inr ⟨p, ?_⟩)
          dsimp only
          split
          · rfl
          · rfl
        · have hframe : Frame (fun _ => True) (fun _ => True) s
              ((((s.clearSipTimers leg).routeUnsolicitedBye d.dialogId).clearStable leg).clearInvite leg) :=
            Frame.trans (Frame.trans (Frame.trans Frame.clearSipTimers Frame.routeUnsolicitedBye) Frame.clearStable)
              (Frame.clearInvite fun _ _ => trivial)
          exact .inl hframe.pending
      · unfold otherInsideDialog
        dsimp only
        obtain ⟨s1, hs1, hframe1⟩ : ∃ s1, (if r.method = .bye then s
            else s.modify leg fun d => { d with incoming := r.transactionId :: d.incoming }) = s1 ∧
            Frame (fun _ => True) (fun _ => True) s s1 := by
          by_cases hbye : r.method = .bye
          · exact ⟨s, if_pos hbye, Frame.refl⟩
          · exact ⟨_, if_neg hbye, Frame.modify fun _ => rfl⟩
        rw [hs1]
        split
        · exact .inl hframe1.pending
        · have hframe2 : Frame (fun _ => True) (fun _ => True) s (s1.routeRequestInsideDialog r d.dialogId).1 :=
            hframe1.trans (Frame.routeRequestInsideDialog trivial)
          generalize (s1.routeRequestInsideDialog r d.dialogId).1 = s2 at hframe2
          have hkept : ∀ routed, (s2.admitRequest leg d r routed).pending = s.pending :=
            fun routed => (hframe2.trans (Frame.admitRequest trivial fun _ => trivial)).pending
          split
          · exact .inl (hkept true)
          · split
            · unfold earlyRequest
              split
              · have hincoming : Frame (fun _ => True) (fun _ => True) s2
                    (s2.modify leg fun d => { d with incoming := d.incoming.erase r.transactionId }) :=
                    Frame.modify fun _ => rfl
                rw [pending_processMessageStatelessly, (hframe2.trans hincoming).pending]
                exact .inr (.inl rfl)
              · split
                · split
                  · exact .inl hframe2.pending
                  · have hupdate : Frame (fun _ => True) (fun _ => True) s2
                        (s2.modify leg fun d => { d with update := some r.transactionId }) := Frame.modify fun _ => rfl
                    have hframe3 := (hframe2.trans hupdate).trans
                      ((@Frame.routeRequestInsideInvite _ d.transactionId d.dialogId _ _).trans
                        (@Frame.admitRequest _ leg d _ _ r false trivial fun _ => trivial))
                    exact .inl hframe3.pending
                · exact .inl (hkept false)
            · split
              · exact .inl (hkept false)
              · exact .inl hframe2.pending

theorem pending_respondToInvite {code : Nat} {env : RespondEnv} : (s.respondToInvite leg d code env).pending = s.pending := by
  unfold respondToInvite
  split
  · unfold respondToUpdate
    rw [modify_eq]
    show ((s.removeIrq _).modify leg _).pending = s.pending
    rw [modify_eq]
    rfl
  · have hframe : Frame (fun _ => True) (fun _ => True) s
        ((s.sendResponse leg d code env).1.flushTransaction d.transactionId code (inviteMethod d) false) :=
      frame_sendResponse.trans (frame_flushTransaction trivial)
    dsimp only
    split
    · exact (hframe.trans (Frame.clearInvite fun _ _ => trivial)).pending
    · exact hframe.pending

theorem pending_doRespondToSipRequest {code : Nat} {env : RespondEnv} :
    (s.doRespondToSipRequest t code env).pending = s.pending ∨
      (s.doRespondToSipRequest t code env).pending = (s.pending.findAndRemove t false).1 := by
  have hirq : ∀ (s' : Registries) (irq : Irq) (existing : Bool),
      (s'.respondToIrq t code irq existing env).pending = s'.pending := by
    intro s' irq existing
    have hframe : Frame (fun _ => True) (fun _ => True) s' (s'.respondToIrq t code irq existing env) :=
      frame_respondToIrq trivial
    exact hframe.pending
  unfold doRespondToSipRequest
  split
  · exact .inl (hirq s _ true)
  · split
    · exact .inl pending_respondToInvite
    · rename_i hfound
      right
      dsimp only
      have hsetup : (s.setupLegForIncomingRequest t env).pending = (s.pending.findAndRemove t false).1 := by
        rcases @setupLegForIncomingRequest_cases s t env hfound with ⟨-, irqs, hsetup, -⟩ | ⟨d, -, hsetup⟩
        · rw [hsetup]
        · exact hsetup.pending
      split
      · exact pending_respondToInvite.trans hsetup
      · split
        · exact (hirq _ _ false).trans hsetup
        · have hflush : Frame (fun _ => True) (fun _ => True) (s.setupLegForIncomingRequest t env)
              ((s.setupLegForIncomingRequest t env).flushTransaction t code .unknown false) := frame_flushTransaction trivial
          exact hflush.pending.trans hsetup

theorem pending_doSendRequestInsideDialog {client : ClientId} {m : Method} {env : SendEnv} :
    (s.doSendRequestInsideDialog client t id m env).pending = s.pending := by
  unfold doSendRequestInsideDialog
  have hadd : (s.addTransactionFor client m t).pending = s.pending := by
    have hframe : Frame (fun _ => True) (fun _ => True) s (s.addTransactionFor client m t) := frame_addTransactionFor
    exact hframe.pending
  generalize s.addTransactionFor client m t = s1 at hadd
  dsimp only
  split
  · exact hadd
  · rename_i l d _
    have hclear : (s1.clearInvite l).pending = s1.pending := by
      rw [clearInvite, modify_eq]
    have hcancel : (if m = .bye then s1.cancelReinvite l d else s1).pending = s.pending := by
      split
      · unfold cancelReinvite clearRIPByDialogId
        split
        · split
          · exact hclear.trans hadd
          · exact hclear.trans hadd
        · exact hadd
      · exact hadd
    generalize (if m = .bye then s1.cancelReinvite l d else s1) = s2 at hcancel
    split
    · exact hcancel
    · split
      · have hframe : Frame (fun _ => True) (fun _ => True) s2 (s2.sendAck l d) := by
          unfold sendAck
          split
          · dsimp only
            split
            · exact Frame.trans (Frame.clearInvite fun _ _ => trivial) Frame.notifyTerminateStaleDialog
            · exact Frame.clearInvite fun _ _ => trivial
          · exact Frame.clearStableById
        exact hframe.pending.trans hcancel
      · unfold sendInTransaction
        dsimp only
        split
        · rcases insertInvite_cases l ⟨some env.orq, [], false⟩ (s2.addRIP env.orq
            ⟨t, d.dialogId, some l, m == .bye || (!d.isInvite && m == .notify && env.terminated)⟩) with h | h
          · rw [h]
            exact hcancel
          · rw [h, modify_eq]
            exact hcancel
        · exact hcancel

theorem pending_doSendRequestOutsideDialog {client : ClientId} {m : Method} {env : SendOutsideEnv} :
    (s.doSendRequestOutsideDialog client t m env).pending = s.pending := by
  unfold doSendRequestOutsideDialog
  have hadd : (s.addTransactionFor client m t).pending = s.pending := by
    have hframe : Frame (fun _ => True) (fun _ => True) s (s.addTransactionFor client m t) := frame_addTransactionFor
    exact hframe.pending
  generalize s.addTransactionFor client m t = s1 at hadd
  dsimp only
  split
  · exact hadd
  · split
    · rw [newDialog_eq]
      exact hadd
    · exact hadd

theorem pending_processPrack {rel : Reliable} {r : Request} : (s.processPrack rel r).pending = s.pending := by
  unfold processPrack
  split
  · rfl
  · rename_i l d _
    have hframe : Frame (fun _ => True) (fun _ => True) s
        ((s.addDialogForTransaction d.transactionId d.dialogId).routeRequestInsideDialog r d.dialogId).1 :=
      Frame.addDialogForTransaction.trans (Frame.routeRequestInsideDialog trivial)
    dsimp only
    rw [addIncomingRequestTransaction, modify_eq]
    exact hframe.pending

theorem pending_processCancelOrAck {e : IncomingEvent} : (s.processCancelOrAck leg e).pending = s.pending := by
  unfold processCancelOrAck
  split
  · rfl
  · rename_i d _
    have hclear : ∀ s' : Registries, Frame (fun _ => True) (fun _ => True) s' (s'.clearInvite leg) :=
      fun _ => Frame.clearInvite fun _ _ => trivial
    cases e with
    | timeout => exact (Frame.clearSipTimers.trans (hclear _)).pending
    | cancel => exact ((Frame.routeRequestInsideInvite.trans (Frame.removeNetTransaction trivial)).trans (hclear _)).pending
    | ack t => exact (((hclear s).trans Frame.clearSipTimers).trans (Frame.routeAckRequestInsideDialog trivial)).pending

theorem paired_take (h : s.pending.Paired) : (s.pending.findAndRemove t false).1.Paired :=
  @PendingRequests.Paired.step s.pending (.findAndRemove t) h trivial

theorem paired_handle (h : s.pending.Paired) (hfresh : s.Fresh op) (hhandle : s.FreshHandle op) :
    (s.handle op).pending.Paired := by
  -- a request is kept under a new uuid, with a new timeout
  have harrive : ∀ a : Arrival, a.uuid ∉ s.pending.txnId2Invite → a.handle ∉ s.pending.timeouts →
    (s.pending.arrive a).Paired :=
    fun a huuid hnew => @PendingRequests.Paired.step s.pending (.arrive a) h ⟨huuid, hnew⟩
  have hsame : ∀ s' : Registries, s'.pending = s.pending → s'.pending.Paired := fun s' heq => heq ▸ h
  cases op with
  | processMessageStatelessly a =>
    rw [handle, pending_processMessageStatelessly]
    exact harrive a hfresh.2.1 hhandle
  | cancelPending p => exact @PendingRequests.Paired.step s.pending (.cancel p) h trivial
  | routeNewRequestToClient client t =>
    rw [handle, routeNewRequestToClient]
    cases s.pending.find t <;> exact h
  | timeout handle =>
    rw [Registries.handle, timeout]
    cases s.pending.timeouts.lookup handle with
    | none => exact h
    | some t => exact @PendingRequests.Paired.step s.pending (.fire handle) h trivial
  | proxyRequest t => exact h
  | doProxy t => exact paired_take h
  | doRespondToSipRequest t code env =>
    rw [handle]
    rcases @pending_doRespondToSipRequest s t code env with heq | heq
    · exact hsame _ heq
    · rw [heq]
      exact paired_take h
  | doSendRequestInsideDialog client t id m env => exact hsame _ pending_doSendRequestInsideDialog
  | doSendRequestOutsideDialog client t m env => exact hsame _ pending_doSendRequestOutsideDialog
  | doSendCancelRequest t =>
    rw [handle, doSendCancelRequest]
    cases s.findInviteByTransactionId t with
    | none => exact h
    | some x =>
      dsimp only
      rw [modify_eq]
      exact h
  | processRequestInsideDialog leg r =>
    rw [handle]
    rcases @pending_processRequestInsideDialog s leg r with heq | heq | ⟨p, heq⟩
    · exact hsame _ heq
    · rw [heq]
      exact harrive r.arrival hfresh.2.1.2.1 hhandle
    · rw [heq]
      exact @PendingRequests.Paired.step s.pending (.cancel p) h trivial
  | processCancelOrAck leg e => exact hsame _ pending_processCancelOrAck
  | processPrack rel r => exact hsame _ pending_processPrack
  | processResponseOutsideDialog orq resp =>
    rw [handle, processResponseOutsideDialog]
    split
    · split
      · exact h
      · rename_i l d _
        have hframe : Frame (fun _ => True) (fun _ => True) s (s.responseToInvite l d resp) :=
          Frame.responseToInvite fun _ _ => trivial
        exact hsame _ hframe.pending
    · split
      · exact h
      · rw [routed_routeResponseInsideTransaction.pending]
        split
        · exact h
        · exact h
  | processResponseInsideDialog orq resp =>
    have hframe : Frame (fun _ => True) (fun _ => True) s (s.processResponseInsideDialog orq resp) :=
      Frame.processResponseInsideDialog
    exact hsame _ hframe.pending
  | processResponseToRefreshingReinvite orq status =>
    have hframe : Frame (fun _ => True) (fun _ => True) s (s.processResponseToRefreshingReinvite orq status) :=
      Frame.processResponseToRefreshingReinvite
    exact hsame _ hframe.pending
  | doSessionTimerHandling leg refresh =>
    have hframe : Frame (fun _ => True) (fun _ => True) s (s.doSessionTimerHandling leg refresh) :=
      Frame.doSessionTimerHandling
    exact hsame _ hframe.pending
  | notifyCancelTimeoutReachedIIP leg =>
    rw [handle, notifyCancelTimeoutReachedIIP]
    split
    · exact h
    · rw [clearInvite, modify_eq]
      exact h
  | endRetransmitFinalResponse leg byeFails =>
    rw [handle, endRetransmitFinalResponse]
    split
    · exact h
    · rename_i d _
      have hclear : Frame (fun _ => True) (fun _ => True) s ((s.clearSipTimers leg).clearInvite leg) :=
        Frame.clearSipTimers.trans (Frame.clearInvite fun _ _ => trivial)
      dsimp only
      split
      · exact hsame _ (hclear.trans Frame.clearStable).pending
      · exact hsame _ (hclear.trans (Frame.routeUnsolicitedBye.trans Frame.clearStable)).pending
  | retransmitFinalResponse leg =>
    rw [handle, retransmitFinalResponse]
    split
    · exact h
    · split
      · exact h
      · rw [clearSipTimers, modify_eq]
        exact h
  | timeoutBye t =>
    rw [handle, timeoutBye]
    split
    · dsimp only
      split
      · exact h
      · exact h
    · exact h
  | disconnect client => exact h

theorem pending_collect : s.collect.pending = s.pending := by
  refine collect_induction (P := fun s' => s'.pending = s.pending) rfl fun s' leg d h _ _ _ _ => ?_
  rw [destroy_eq]
  exact h

/-! ### The registries agree -/

/-- A transaction id in m_mapNetTransactions is that of an incoming request, of an invite in progress or of a pending
    request, and one in m_mapTransactionId2Irq is in m_mapNetTransactions unless its client has disconnected. -/
def TransactionsAgree (s : Registries) : Prop :=
  (∀ t ∈ s.netTransactions.keys, t ∈ s.irqs ∨ (s.findInviteByTransactionId t).isSome = true ∨ t ∈ s.pending.txnId2Invite) ∧
    ∀ e ∈ s.irqs.entries, e.1 ∈ s.netTransactions ∨ s.Lost e.2.owner

instance : Decidable s.TransactionsAgree :=
  inferInstanceAs (Decidable ((∀ t ∈ _, _ ∨ _ ∨ _) ∧ ∀ e ∈ s.irqs.entries, e.1 ∈ s.netTransactions ∨ s.Lost e.2.owner))

/-- The condition on the steps of a run: ids and handles are new, and the registries are kept in agreement. -/
def Thorough (s : Registries) (op : Op) : Prop := s.Fresh op ∧ s.FreshHandle op ∧ s.Settles op

instance : Decidable (s.Thorough op) := inferInstanceAs (Decidable (_ ∧ _ ∧ _))

theorem backed_empty : empty.Backed := fun t => .absent (AList.notMem_empty t) (AList.notMem_empty t)

theorem backed_run {ops : List Op} (h : Meets step Thorough empty ops) : (run step empty ops).Backed := by
  refine (run_induction (I := fun s => s.Backed ∧ s.Distinct ∧ s.pending.Paired) (fun s op hs hok => ?_)
    ⟨backed_empty, distinct_empty, PendingRequests.paired_empty⟩ h).1
  obtain ⟨hb, hdistinct, hpaired⟩ := hs
  obtain ⟨hfresh, hhandle, hsettles⟩ := hok
  refine ⟨?_, hdistinct.step hfresh, ?_⟩
  · exact (handled_handle hb hdistinct hpaired hfresh hsettles).collect (hdistinct.handle hfresh)
  · rw [step, pending_collect]
    exact paired_handle hpaired hfresh hhandle

theorem transactions_agree (ops : List Op) (h : Meets step Thorough empty ops) : (run step empty ops).TransactionsAgree := by
  have hb := backed_run h
  generalize run step empty ops = s at hb
  refine ⟨fun t ht => ?_, fun e he => ?_⟩
  · rcases (hb t).net (AList.mem_keys.mpr ht) with hirq | hpending | ⟨l, hl⟩
    · exact .inl hirq
    · exact .inr (.inr hpending)
    · obtain ⟨d, hd, htxn, hinvite⟩ := obs_shownTransaction hl
      refine .inr (.inl ?_)
      by_contra hnone
      exact findInviteByTransactionId_eq_none (Option.not_isSome_iff_eq_none.mp hnone) hd (isSome_of_any hinvite) htxn
  · exact (hb e.1).irq e.2 (AList.mem_lookup_iff.mpr he)

/-- A call is answered, and then an INFO in its dialog. -/
def answeredCall (code : Nat) : List Op :=
  [.processMessageStatelessly (arrivalOf (inviteSip 1) false 7 1 "t1"), .doRespondToSipRequest "t1" 200 (responseOn 4 none),
    .processCancelOrAck 4 (.ack "t2"), infoInDialog, .doRespondToSipRequest "t5" code (responseOn 5 none)]

theorem final_response_settles :
    Meets step Thorough empty (answeredCall 200) ∧ (run step empty (answeredCall 200)).TransactionsAgree := by
  have h : Meets step Thorough empty (answeredCall 200) := by decide
  exact ⟨h, transactions_agree _ h⟩

/-- A provisional response takes the incoming request away, and leaves its net transaction. -/
theorem provisional_response_leaks : ∃ ops, Meets step (fun s op => s.Fresh op ∧ s.FreshHandle op) empty ops ∧
    ¬(run step empty ops).TransactionsAgree := ⟨answeredCall 180, by decide, by decide⟩

end Drachtio.Dialog.Registries
