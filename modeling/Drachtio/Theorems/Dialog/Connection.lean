import Drachtio.Dialog.Connection
import Drachtio.Lib.Run

/-! The references to transports and the transactions of ACKs that the dialogs hold: nothing is given back that is not
    held, and what is held in the end are the ACKs that were overwritten. -/

namespace Drachtio.Dialog

open Controller (Tport ContactAliases Uri2InvalidData)
open Ledger (owned owned_take owned_give)
open Machine

namespace Connection

/-! ### The books of a dialog -/

/-- What m_tp, m_orqAck and the ACKs that were overwritten stand for -/
def owns (tp : Option Tport) (orqAck : Option Orq) (lost : List Orq) : Multiset Resource :=
  ↑(tp.toList.map Resource.tport ++ orqAck.toList.map Resource.ack ++ lost.map Resource.ack)

/-- The books of a dialog that has something in its hands, besides what its members hold. -/
def Books (d : Connection) (hand : Multiset Resource) : Prop := owned d.books = some (hand + owns d.pin.tp d.orqAck d.lost)

section
variable {d : Connection} {hand : Multiset Resource} {r : Resource} {env : NetEnv} {tp : Tport} {orq : Orq}

theorem owns_tport (tp : Tport) (orqAck : Option Orq) (lost : List Orq) :
    owns (some tp) orqAck lost = .tport tp ::ₘ owns none orqAck lost := rfl

theorem owns_ack (tp : Option Tport) (orq : Orq) (lost : List Orq) :
    owns tp (some orq) lost = .ack orq ::ₘ owns tp none lost := by
  refine Multiset.coe_eq_coe.mpr ?_
  rw [List.append_assoc, List.append_assoc]
  exact List.perm_middle

/-- An ACK that is overwritten is still owned. -/
theorem owns_lost (tp : Option Tport) (orqAck : Option Orq) (lost : List Orq) :
    owns tp none (lost ++ orqAck.toList) = owns tp orqAck lost := by
  refine Multiset.coe_eq_coe.mpr ?_
  rw [List.append_assoc, List.append_assoc, List.map_append]
  have hcomm : (lost.map Resource.ack ++ orqAck.toList.map Resource.ack).Perm
    (orqAck.toList.map Resource.ack ++ lost.map Resource.ack) :=
    List.perm_append_comm
  exact hcomm.append_left _

theorem Books.take (h : d.Books hand) : (d.take r).Books (r ::ₘ hand) := by
  have hbooks := owned_take (r := r) h
  rwa [← Multiset.cons_add] at hbooks

theorem Books.give (h : d.Books (r ::ₘ hand)) : (d.give r).Books hand := by
  unfold Books at h
  rw [Multiset.cons_add] at h
  exact owned_give h

theorem unpin_tp (d : Connection) : d.unpin.pin.tp = none := by
  unfold Connection.unpin
  split
  · assumption
  · rfl

@[simp] theorem unpin_orqAck (d : Connection) : d.unpin.orqAck = d.orqAck := by
  unfold Connection.unpin
  split <;> rfl

/-- What the operations on the transport leave as it is -/
def rest (d : Connection) : Connection := { d with pin := ⟨none, "", ""⟩, orqAck := none, home := none, books := [] }

/-- What reads nothing of the transport is the same. -/
theorem eq_of_rest {α : Type} (f : Connection → α) (hf : ∀ d, f d.rest = f d) {d d' : Connection}
    (h : d.rest = d'.rest) : f d = f d' :=
  (hf d).symm.trans ((congrArg f h).trans (hf d'))

theorem gone_of_rest {d d' : Connection} (h : d.rest = d'.rest) : d.gone = d'.gone :=
  eq_of_rest Connection.gone (fun _ => rfl) h

theorem lost_of_rest {d d' : Connection} (h : d.rest = d'.rest) : d.lost = d'.lost :=
  eq_of_rest Connection.lost (fun _ => rfl) h

theorem destroyAckOnClose_of_rest {d d' : Connection} (h : d.rest = d'.rest) : d.destroyAckOnClose = d'.destroyAckOnClose :=
  eq_of_rest Connection.destroyAckOnClose (fun _ => rfl) h

theorem unpin_rest (d : Connection) : d.unpin.rest = d.rest := by
  unfold Connection.unpin
  split <;> rfl

theorem Books.unpin (h : d.Books hand) : d.unpin.Books hand := by
  unfold Connection.unpin
  split
  · exact h
  · rename_i tp hpin
    have hhand : { d with pin := { d.pin with tp := none } }.Books (.tport tp ::ₘ hand) := by
      unfold Books at h ⊢
      rwa [hpin, owns_tport, Multiset.add_cons, ← Multiset.cons_add] at h
    exact hhand.give

theorem Books.checkTportState (h : d.Books hand) : (d.checkTportState env).Books hand := by
  unfold Connection.checkTportState
  split
  · exact h.unpin
  · exact h

theorem Books.setTport (h : d.Books hand) : (d.setTport tp).Books hand := by
  have htake : (d.unpin.take (.tport tp)).Books (.tport tp ::ₘ hand) := h.unpin.take
  have hpin : (d.unpin.take (.tport tp)).pin.tp = none := unpin_tp d
  unfold Books at htake ⊢
  rwa [hpin, Multiset.cons_add, ← Multiset.add_cons] at htake

/-- The transaction of the delayed ACK is destroyed. -/
theorem Books.release (h : d.Books hand) (hack : d.orqAck = some orq) :
    { d.give (.ack orq) with orqAck := none }.Books hand := by
  have hhand : { d with orqAck := none }.Books (.ack orq ::ₘ hand) := by
    unfold Books at h ⊢
    rwa [hack, owns_ack, Multiset.add_cons, ← Multiset.cons_add] at h
  exact hhand.give

theorem Books.getTport (h : d.Books hand) : (d.getTport env).Books hand := by
  have hcheck : (d.checkTportState env).Books hand := h.checkTportState
  unfold Connection.getTport
  dsimp only
  split
  · rename_i orq hpin hack
    split
    · exact hcheck
    · rename_i tp htp
      split
      · exact hcheck.take.give.release hack
      · have hset :
          { ((d.checkTportState env).take (.tport tp) |>.setTport tp).give (.tport tp) with home := some tp }.Books hand :=
          hcheck.take.setTport.give
        exact hset.release ((unpin_orqAck _).trans hack)
  · exact hcheck

theorem Books.setOrqAck {destroy : Bool} (h : d.Books (.ack orq ::ₘ hand)) : (d.setOrqAck orq destroy).Books hand := by
  unfold Books at h ⊢
  rw [Multiset.cons_add, ← Multiset.add_cons, ← owns_lost, ← owns_ack] at h
  exact h

theorem Books.sendAck (h : d.Books hand) : (d.sendAck env orq).Books hand := by
  unfold Connection.sendAck
  dsimp only
  split
  · exact h.take.setOrqAck
  · exact h.take.take.setTport.give.give

theorem Books.currentTport {c : NatSetup} {remoteTarget : Option Controller.ContactUrl} {aliases : ContactAliases}
    (h : d.Books hand) :
    (d.currentTport c env remoteTarget aliases).2.Books hand := by
  unfold Connection.currentTport
  dsimp only
  split
  · exact h.getTport
  · dsimp only
    split
    · exact h.getTport
    · exact h.getTport.setTport

/-- When the object is destroyed, what is left are the ACKs that were overwritten. -/
theorem Books.destroy (h : d.Books 0) (hdestroy : d.orqAck.isSome = true → d.destroyAckOnClose = true) :
    d.destroy.Books 0 ∧ d.destroy.pin.tp = none ∧ d.destroy.orqAck = none := by
  have hclose : d.unpin.orqAck.isSome = true → d.unpin.destroyAckOnClose = true := by
    unfold Connection.unpin
    split <;> exact hdestroy
  unfold Connection.destroy
  dsimp only
  split
  · rename_i hack
    exact ⟨h.unpin, unpin_tp d, hack⟩
  · rename_i orq hack
    rw [if_pos (hclose (by rw [hack]; rfl))]
    exact ⟨h.unpin.release hack, unpin_tp d, rfl⟩

/-! ### What the operations leave as it is -/

theorem getTport_rest (env : NetEnv) (d : Connection) : (d.getTport env).rest = d.rest := by
  have hcheck : (d.checkTportState env).rest = d.rest := by
    unfold Connection.checkTportState
    split
    · exact unpin_rest d
    · rfl
  unfold Connection.getTport
  dsimp only
  split
  · split
    · exact hcheck
    · split
      · exact hcheck
      · exact (unpin_rest _).trans hcheck
  · exact hcheck


theorem checkTportState_orqAck (env : NetEnv) (d : Connection) : (d.checkTportState env).orqAck = d.orqAck := by
  unfold Connection.checkTportState
  split
  · exact unpin_orqAck d
  · rfl

theorem getTport_orqAck (env : NetEnv) (d : Connection) :
    (d.getTport env).orqAck = d.orqAck ∨ (d.getTport env).orqAck = none := by
  have hcheck : (d.checkTportState env).orqAck = d.orqAck := checkTportState_orqAck env d
  unfold Connection.getTport
  dsimp only
  split
  · split
    · exact .inl hcheck
    · exact .inr rfl
  · exact .inl hcheck

/-- m_tp is not closed, and the transport of a delayed ACK is not known. -/
structure Looked (env : NetEnv) (d : Connection) : Prop where
  closed : ∀ tp ∈ d.pin.tp, env.closed tp = false
  delayed : d.pin.tp = none → ∀ orq ∈ d.orqAck, env.transport orq = none

theorem checkTportState_closed : ∀ tp ∈ (d.checkTportState env).pin.tp, env.closed tp = false := by
  intro tp htp
  unfold Connection.checkTportState at htp
  split at htp
  · exact absurd htp (by rw [unpin_tp]; exact Option.not_mem_none tp)
  · rename_i hany
    rw [Option.mem_def.mp htp, Option.any_some] at hany
    exact Bool.eq_false_iff.mpr hany

theorem looked_getTport (env : NetEnv) (d : Connection) : (d.getTport env).Looked env := by
  unfold Connection.getTport
  dsimp only
  split
  · rename_i orq hpin hack
    split
    · rename_i hdelayed
      refine ⟨by simp [hpin], fun _ orq' horq => ?_⟩
      obtain rfl : orq = orq' := Option.some.inj (hack.symm.trans horq)
      exact hdelayed
    · rename_i tp htp
      split
      · exact ⟨fun tp' htp' => absurd (htp'.symm.trans hpin) (by simp), fun _ orq' horq => absurd horq
          (Option.not_mem_none orq')⟩
      · rename_i hclosed
        refine ⟨fun tp' htp' => ?_, fun hpin' => nomatch hpin'⟩
        obtain rfl : tp = tp' := Option.some.inj htp'
        exact Bool.eq_false_iff.mpr hclosed
  · rename_i hother
    refine ⟨checkTportState_closed, fun hpin orq horq => absurd horq ?_⟩
    exact fun horq => hother orq hpin horq

theorem getTport_of_looked (h : d.Looked env) : d.getTport env = d := by
  have hcheck : d.checkTportState env = d := by
    unfold Connection.checkTportState
    cases hpin : d.pin.tp with
    | none => rfl
    | some tp => exact if_neg (by rw [Option.any_some, h.closed tp hpin]; exact Bool.false_ne_true)
  unfold Connection.getTport
  rw [hcheck]
  dsimp only
  split
  · rename_i orq hpin hack
    rw [h.delayed hpin orq hack]
  · rfl

theorem currentTport_rest (c : NatSetup) (env : NetEnv) (remoteTarget : Option Controller.ContactUrl)
    (aliases : ContactAliases) (d : Connection) : (d.currentTport c env remoteTarget aliases).2.rest = d.rest := by
  unfold Connection.currentTport
  dsimp only
  split
  · exact getTport_rest env d
  · dsimp only
    split
    · exact getTport_rest env d
    · exact (unpin_rest _).trans (getTport_rest env d)

@[simp] theorem currentTport_orqAck (c : NatSetup) (env : NetEnv) (remoteTarget : Option Controller.ContactUrl)
    (aliases : ContactAliases) (d : Connection) :
    (d.currentTport c env remoteTarget aliases).2.orqAck = (d.getTport env).orqAck := by
  unfold Connection.currentTport
  dsimp only
  split
  · rfl
  · dsimp only
    split
    · rfl
    · exact unpin_orqAck _

theorem sendAck_delayed (h : env.transport orq = none) : d.sendAck env orq = (d.take (.ack orq)).setOrqAck orq true := by
  unfold Connection.sendAck
  rw [h]

theorem sendAck_known (h : env.transport orq = some tp) :
    (d.sendAck env orq).orqAck = d.orqAck ∧ (d.sendAck env orq).rest = d.rest := by
  unfold Connection.sendAck
  rw [h]
  exact ⟨unpin_orqAck ((d.take (.ack orq)).take (.tport tp)), unpin_rest ((d.take (.ack orq)).take (.tport tp))⟩

theorem sendAck_gone : (d.sendAck env orq).gone = d.gone := by
  cases h : env.transport orq with
  | none => rw [sendAck_delayed h]; rfl
  | some tp => exact gone_of_rest (sendAck_known h).2

theorem sendAck_destroys (h : d.orqAck.isSome = true → d.destroyAckOnClose = true) :
    (d.sendAck env orq).orqAck.isSome = true → (d.sendAck env orq).destroyAckOnClose = true := by
  cases hknown : env.transport orq with
  | none =>
    rw [sendAck_delayed hknown]
    exact fun _ => rfl
  | some tp =>
    obtain ⟨hack, hrest⟩ := @sendAck_known d _ _ _ hknown
    rw [hack, destroyAckOnClose_of_rest hrest]
    exact h

/-- An ACK is overwritten by one whose transport is not known either. -/
theorem sendAck_lost_iff : (d.sendAck env orq).lost = [] ↔ d.lost = [] ∧ (env.transport orq = none → d.orqAck = none) := by
  cases hknown : env.transport orq with
  | none =>
    rw [sendAck_delayed hknown]
    show d.lost ++ d.orqAck.toList = [] ↔ _
    rw [List.append_eq_nil_iff]
    refine and_congr_right fun _ => ?_
    cases d.orqAck <;> simp
  | some tp =>
    rw [lost_of_rest (@sendAck_known d _ _ _ hknown).2]
    simp

theorem destroy_lost (d : Connection) : d.destroy.lost = d.lost := by
  unfold Connection.destroy
  dsimp only
  split
  · exact lost_of_rest (unpin_rest d)
  · split <;> exact lost_of_rest (unpin_rest d)

/-- A response changes the route and nothing else. -/
theorem processResponse_eq (c : NatSetup) (r : InviteResponse) (d : Connection) :
    d.processResponse c r = { d with routeUri := (d.processResponse c r).routeUri, responses := d.responses ++ [r] } := by
  unfold Connection.processResponse
  dsimp only
  split
  · rfl
  · split
    · rfl
    · split <;> rfl

end

end Connection

/-- The request is an ACK that goes out. -/
def InDialogRequest.acknowledges (r : InDialogRequest) : Bool :=
  r.method == .ack && r.status == 200 && !r.noRoute && !r.throws

/-- What one element of a list is replaced by may add a condition of its own. -/
theorem forall_mem_set_iff {α : Type} {P : α → Prop} {q : Prop} {l : List α} {i : Nat} {x y : α} (hi : l[i]? = some x)
    (hiff : P y ↔ P x ∧ q) : (∀ z ∈ l.set i y, P z) ↔ (∀ z ∈ l, P z) ∧ q := by
  have hlt : i < l.length := (List.getElem?_eq_some_iff.mp hi).1
  constructor
  · intro hset
    have hy : P x ∧ q := hiff.mp (hset y (List.mem_set hlt y))
    refine ⟨fun z hz => ?_, hy.2⟩
    obtain ⟨j, hj⟩ := List.mem_iff_getElem?.mp hz
    by_cases hij : i = j
    · obtain rfl : x = z := Option.some.inj (hi.symm.trans (hij ▸ hj))
      exact hy.1
    · exact hset z (List.mem_of_getElem? ((List.getElem?_set_ne hij).trans hj))
  · rintro ⟨hl, hq⟩ z hz
    rcases List.mem_or_eq_of_mem_set hz with hz | rfl
    · exact hl z hz
    · exact hiff.mpr ⟨hl x (List.mem_of_getElem? hi), hq⟩

namespace Calls
open Connection

variable {c : NatSetup} {s : Calls} {e : Event} {i : Nat} {env : NetEnv} {target : Option Target} {d : Connection}
  {r : InDialogRequest}

theorem dialog_eq_some : s.dialog i = some d ↔ s.dialogs[i]? = some d ∧ d.gone = false := by
  unfold dialog
  rw [Option.filter_eq_some_iff]
  simp

/-- To follow a peer may change the aliases and the dialog. -/
theorem follow_cases (c : NatSetup) (env : NetEnv) (target : Option Target) (d : Connection) (s : Calls) :
    s.follow c env target d = (s, d) ∨
    s.regBinding target = none ∧
      s.follow c env target d = ({ s with aliases := (d.currentTport c env (target.map Target.contactUrl) s.aliases).1 },
        (d.currentTport c env (target.map Target.contactUrl) s.aliases).2) := by
  unfold follow
  split
  · exact .inl rfl
  · rename_i hnone
    exact .inr ⟨hnone, rfl⟩

theorem follow_dialogs (c : NatSetup) (env : NetEnv) (target : Option Target) (d : Connection) (s : Calls) :
    (s.follow c env target d).1.dialogs = s.dialogs := by
  rcases follow_cases c env target d s with heq | ⟨-, heq⟩ <;> rw [heq]

theorem follow_rest (c : NatSetup) (env : NetEnv) (target : Option Target) (d : Connection) (s : Calls) :
    (s.follow c env target d).2.rest = d.rest := by
  rcases follow_cases c env target d s with heq | ⟨-, heq⟩
  · rw [heq]
  · rw [heq]
    exact currentTport_rest _ _ _ _ _

theorem follow_orqAck (c : NatSetup) (env : NetEnv) (target : Option Target) (d : Connection) (s : Calls) :
    (s.follow c env target (d.getTport env)).2.orqAck = (d.getTport env).orqAck := by
  rcases follow_cases c env target (d.getTport env) s with heq | ⟨-, heq⟩
  · rw [heq]
  · rw [heq]
    exact (currentTport_orqAck _ _ _ _ _).trans (congrArg orqAck (getTport_of_looked (looked_getTport env d)))

/-- The dialog before a request goes out -/
def followed (c : NatSetup) (env : NetEnv) (target : Option Target) (d : Connection) (s : Calls) : Connection :=
  (s.follow c env target (d.getTport env)).2

theorem InDialogRequest.acknowledges_iff : r.acknowledges = true ↔
    r.method = .ack ∧ r.status = 200 ∧ ¬ (r.noRoute = true ∨ r.throws = true) := by
  unfold InDialogRequest.acknowledges
  simp [and_assoc]

theorem sendInside_dialogs (c : NatSetup) (env : NetEnv) (i : Nat) (r : InDialogRequest) (d : Connection) (s : Calls) :
    (s.sendInside c env i r d).1.dialogs = s.dialogs.set i
      (if r.acknowledges = true then (s.followed c env r.remoteTarget d).sendAck env r.orq else s.followed c env
      r.remoteTarget d) := by
  simp only [InDialogRequest.acknowledges_iff]
  unfold Calls.sendInside followed
  dsimp only
  rw [follow_dialogs]
  by_cases hthrows : r.noRoute = true ∨ r.throws = true
  · rw [if_pos hthrows, if_neg fun h => h.2.2 hthrows]
  · rw [if_neg hthrows]
    by_cases hack : r.method = .ack
    · rw [if_pos hack]
      by_cases hstatus : r.status = 200
      · rw [if_pos hstatus, if_pos ⟨hack, hstatus, hthrows⟩]
      · have hno : ¬ (r.method = .ack ∧ r.status = 200 ∧ ¬ (r.noRoute = true ∨ r.throws = true)) := fun h => hstatus h.2.1
        rw [if_neg hstatus, if_neg hno]
    · have hno : ¬ (r.method = .ack ∧ r.status = 200 ∧ ¬ (r.noRoute = true ∨ r.throws = true)) := fun h => hack h.1
      rw [if_neg hack, if_neg hno]
      split <;> rfl

theorem byeForCancel_dialogs (c : NatSetup) (env : NetEnv) (i : Nat) (target : Option Target) (d : Connection) (s : Calls) :
    (s.byeForCancel c env i target d).1.dialogs = s.dialogs.set i
      (if (target.bind (·.address)).isSome = true then s.followed c env target d else d.getTport env) := by
  unfold Calls.byeForCancel followed
  dsimp only
  split
  · rw [follow_dialogs]
  · rfl

/-- What every operation of a dialog keeps while it exists, as long as the aliases are as they should be. -/
structure Kept (c : NatSetup) (A : ContactAliases → Prop) (P : Connection → Prop) : Prop where
  incoming : ∀ m, P (.ofIncoming c m)
  outgoing : ∀ m, P (.ofOutgoing m)
  response : ∀ r d, d.uac = true → d.gone = false → P d → P (d.processResponse c r)
  getTport : ∀ env d, d.gone = false → P d → P (d.getTport env)
  currentTport : ∀ env target aliases d, A aliases → d.gone = false → P d → P (d.currentTport c env target aliases).2
  sendAck : ∀ env orq d, d.gone = false → P d → P (d.sendAck env orq)
  destroy : ∀ d, d.gone = false → P d → P d.destroy

section
variable {A : ContactAliases → Prop} {P : Connection → Prop}

theorem Kept.followed (h : Kept c A P) (env : NetEnv) (target : Option Target) (hA : A s.aliases)
    (hgone : d.gone = false) (hd : P d) :
    P (s.followed c env target d) ∧ (s.followed c env target d).gone = false := by
  have hget : (d.getTport env).gone = false := (gone_of_rest (getTport_rest env d)).trans hgone
  refine ⟨?_, (gone_of_rest (follow_rest _ _ _ _ _)).trans hget⟩
  unfold Calls.followed
  rcases follow_cases c env target (d.getTport env) s with heq | ⟨-, heq⟩
  · rw [heq]
    exact h.getTport env d hgone hd
  · rw [heq]
    exact h.currentTport _ _ _ _ hA hget (h.getTport env d hgone hd)

theorem forall_mem_set (i : Nat) (hs : ∀ d ∈ s.dialogs, P d) (hd : P d) : ∀ x ∈ s.dialogs.set i d, P x := by
  intro x hx
  rcases List.mem_or_eq_of_mem_set hx with hx | rfl
  · exact hs x hx
  · exact hd

theorem Kept.sendInside (h : Kept c A P) (hA : A s.aliases) (hs : ∀ d ∈ s.dialogs, P d) (hgone : d.gone = false) (hd : P d) :
    ∀ x ∈ (s.sendInside c env i r d).1.dialogs, P x := by
  obtain ⟨hfollowed, hgone⟩ := h.followed env r.remoteTarget hA hgone hd
  rw [sendInside_dialogs]
  refine forall_mem_set i hs ?_
  split
  · exact h.sendAck env r.orq _ hgone hfollowed
  · exact hfollowed

theorem Kept.byeForCancel (h : Kept c A P) (hA : A s.aliases) (hs : ∀ d ∈ s.dialogs, P d) (hgone : d.gone = false)
    (hd : P d) :
    ∀ x ∈ (s.byeForCancel c env i target d).1.dialogs, P x := by
  rw [byeForCancel_dialogs]
  refine forall_mem_set i hs ?_
  split
  · exact (h.followed env target hA hgone hd).1
  · exact h.getTport env d hgone hd

theorem Kept.step (h : Kept c A P) (hA : A s.aliases) (hs : ∀ d ∈ s.dialogs, P d) : ∀ d ∈ (step c s e).1.dialogs, P d := by
  have hdialog : ∀ {i d}, s.dialog i = some d → P d ∧ d.gone = false := fun hd =>
    ⟨hs _ (List.mem_of_getElem? (dialog_eq_some.mp hd).1), (dialog_eq_some.mp hd).2⟩
  have hnew : ∀ {d'}, P d' → ∀ d ∈ s.dialogs ++ [d'], P d := fun hd' d hd =>
    (List.mem_append.mp hd).elim (hs d) fun heq => List.mem_singleton.mp heq ▸ hd'
  cases e with
  | message tp named sip => exact hs
  | binding op => exact hs
  | incoming m => exact hnew (h.incoming m)
  | outgoing m => exact hnew (h.outgoing m)
  | response i r =>
    unfold Calls.step
    dsimp only
    split
    · exact hs
    · rename_i d hd
      split
      · rename_i huac
        exact forall_mem_set i hs (h.response r d huac (hdialog hd).2 (hdialog hd).1)
      · exact hs
  | send i env r =>
    unfold Calls.step
    dsimp only
    split
    · exact hs
    · rename_i d hd
      exact h.sendInside hA hs (hdialog hd).2 (hdialog hd).1
  | own i env =>
    unfold Calls.step
    dsimp only
    split
    · exact hs
    · rename_i d hd
      exact forall_mem_set i hs (h.getTport env d (hdialog hd).2 (hdialog hd).1)
  | byeForCancel i env target =>
    unfold Calls.step
    dsimp only
    split
    · exact hs
    · rename_i d hd
      exact h.byeForCancel hA hs (hdialog hd).2 (hdialog hd).1
  | destroy i =>
    unfold Calls.step
    dsimp only
    split
    · exact hs
    · rename_i d hd
      exact forall_mem_set i hs (h.destroy d (hdialog hd).2 (hdialog hd).1)

theorem Kept.run {es : List Event} (h : Kept c A P) (hA : ∀ s e, A s.aliases → A (Calls.step c s e).1.aliases)
    (hs : A s.aliases)
    (hd : ∀ d ∈ s.dialogs, P d) : ∀ d ∈ (final (Calls.step c) s es).dialogs, P d :=
  (run_invariant (I := fun s => A s.aliases ∧ ∀ d ∈ s.dialogs, P d) (fun s e hI => ⟨hA s e hI.1, h.step hI.1 hI.2⟩)
    ⟨hs, hd⟩).2

end

/-! ### What the dialogs hold -/

/-- The books are right, and the transaction of a delayed ACK will be destroyed with the object. -/
structure Held (d : Connection) : Prop where
  books : d.Books 0
  destroys : d.orqAck.isSome = true → d.destroyAckOnClose = true
  gone : d.gone = true → d.pin.tp = none ∧ d.orqAck = none

theorem ofOutgoing_tp (m : UacInvite) : (ofOutgoing m).pin.tp = m.tp := by
  unfold ofOutgoing
  dsimp only
  split
  · rename_i tp htp
    exact htp.symm
  · rename_i hnone
    rw [hnone]
    split <;> rfl

theorem held_kept (c : NatSetup) : Kept c (fun _ => True) Held where
  incoming m := ⟨owned_take Ledger.owned_nil, (fun h => nomatch h), (fun h => nomatch h)⟩
  outgoing m := by
    refine ⟨?_, (fun h => nomatch h), (fun h => nomatch h)⟩
    unfold Books
    rw [ofOutgoing_tp]
    show owned (m.tp.toList.map fun tp => .take (.tport tp)) = some (0 + owns m.tp none [])
    cases m.tp with
    | none => rfl
    | some tp => exact owned_take Ledger.owned_nil
  response r d huac hgone h := by
    rw [processResponse_eq]
    exact ⟨h.books, h.destroys, h.gone⟩
  getTport env d hgone h := by
    have hrest := getTport_rest env d
    refine ⟨h.books.getTport, fun hack => ?_, fun hgone' => absurd ((gone_of_rest hrest).symm.trans hgone') (by simp [hgone])⟩
    rcases getTport_orqAck env d with heq | heq
    · exact (destroyAckOnClose_of_rest hrest).trans (h.destroys (heq ▸ hack))
    · rw [heq] at hack
      exact nomatch hack
  currentTport env target aliases d _ hgone h := by
    have hrest := currentTport_rest c env target aliases d
    refine ⟨h.books.currentTport, fun hack => ?_, fun hgone' => absurd ((gone_of_rest hrest).symm.trans hgone')
      (by simp [hgone])⟩
    rw [currentTport_orqAck] at hack
    rcases getTport_orqAck env d with heq | heq
    · exact (destroyAckOnClose_of_rest hrest).trans (h.destroys (heq ▸ hack))
    · rw [heq] at hack
      exact nomatch hack
  sendAck env orq d hgone h :=
    ⟨h.books.sendAck, sendAck_destroys h.destroys, fun hgone' => absurd (sendAck_gone.symm.trans hgone') (by simp [hgone])⟩
  destroy d hgone h := by
    obtain ⟨hbooks, hpin, hack⟩ := h.books.destroy h.destroys
    refine ⟨hbooks, fun hsome => ?_, fun _ => ⟨hpin, hack⟩⟩
    rw [hack] at hsome
    exact nomatch hsome

/-! ### ACKs that are overwritten -/

/-- The state after an event, whatever is put out -/
def next (c : NatSetup) (s : Calls) (e : Event) : Calls := (step c s e).1

/-- No ACK goes out whose transport is not known while an earlier one still waits for its own. -/
def Awaited (s : Calls) : Event → Prop
  | .send i env r => r.acknowledges = true → env.transport r.orq = none → ∀ d ∈ s.dialog i, (d.getTport env).orqAck = none
  | _ => True

theorem followed_lost (c : NatSetup) (env : NetEnv) (target : Option Target) (d : Connection) (s : Calls) :
    (s.followed c env target d).lost = d.lost :=
  (lost_of_rest (follow_rest _ _ _ _ _)).trans (lost_of_rest (getTport_rest env d))

theorem lost_next : (∀ d ∈ (s.next c e).dialogs, d.lost = []) ↔ (∀ d ∈ s.dialogs, d.lost = []) ∧ s.Awaited e := by
  have hnew : ∀ {d' : Connection}, d'.lost = [] →
      ((∀ d ∈ s.dialogs ++ [d'], d.lost = []) ↔ (∀ d ∈ s.dialogs, d.lost = []) ∧ True) := by
    intro d' hd'
    rw [List.forall_mem_append, List.forall_mem_singleton]
    exact and_congr_right fun _ => iff_true_intro hd'
  have hsame : ∀ {i : Nat} {d d' : Connection}, s.dialog i = some d → d'.lost = d.lost →
      ((∀ x ∈ s.dialogs.set i d', x.lost = []) ↔ (∀ d ∈ s.dialogs, d.lost = []) ∧ True) := fun hd hlost =>
    forall_mem_set_iff (dialog_eq_some.mp hd).1 (by rw [hlost]; exact (and_iff_left trivial).symm)
  unfold next
  cases e with
  | message tp named sip => exact (and_iff_left trivial).symm
  | binding op => exact (and_iff_left trivial).symm
  | incoming m => exact hnew rfl
  | outgoing m => exact hnew rfl
  | response i r =>
    unfold step
    dsimp only
    split
    · exact (and_iff_left trivial).symm
    · rename_i d hd
      split
      · exact hsame hd (by rw [processResponse_eq])
      · exact (and_iff_left trivial).symm
  | send i env r =>
    unfold step Awaited
    dsimp only
    cases hd : s.dialog i with
    | none => simp
    | some d =>
      dsimp only
      rw [sendInside_dialogs]
      refine forall_mem_set_iff (dialog_eq_some.mp hd).1 ?_
      have hlost : (s.followed c env r.remoteTarget d).lost = d.lost := followed_lost _ _ _ _ _
      have hack : (s.followed c env r.remoteTarget d).orqAck = (d.getTport env).orqAck := follow_orqAck _ _ _ _ _
      split
      · rename_i hacknowledges
        rw [sendAck_lost_iff, hlost, hack]
        simp [hacknowledges]
      · rename_i hacknowledges
        rw [hlost]
        simp [hacknowledges]
  | own i env =>
    unfold step
    dsimp only
    split
    · exact (and_iff_left trivial).symm
    · rename_i d hd
      exact hsame hd (lost_of_rest (getTport_rest env d))
  | byeForCancel i env target =>
    unfold step
    dsimp only
    split
    · exact (and_iff_left trivial).symm
    · rename_i d hd
      rw [byeForCancel_dialogs]
      refine hsame hd ?_
      split
      · exact followed_lost _ _ _ _ _
      · exact lost_of_rest (getTport_rest env d)
  | destroy i =>
    unfold step
    dsimp only
    split
    · exact (and_iff_left trivial).symm
    · rename_i d hd
      exact hsame hd (destroy_lost d)

/-! ### What the table of bindings holds -/

def tableOwns (m : Uri2InvalidData Tport) : Multiset Resource := ↑(m.entries.map fun e => Resource.tport e.2.tp)

theorem tableOwns_erase {m : Uri2InvalidData Tport} {k : String} {v : Controller.UaInvalidData Tport}
    (h : m.lookup k = some v) :
    tableOwns m = .tport v.tp ::ₘ tableOwns (m.erase k) :=
  Multiset.coe_eq_coe.mpr ((AList.perm_of_lookup h).map _)

theorem tableOwns_insert (m : Uri2InvalidData Tport) (k : String) (v : Controller.UaInvalidData Tport) :
    tableOwns (m.insert k v) = .tport v.tp ::ₘ tableOwns (m.erase k) := rfl

theorem tableOwns_keep (m : Uri2InvalidData Tport) (p : String → Controller.UaInvalidData Tport → Bool) :
    tableOwns m = ↑((m.entries.filter fun e => !p e.1 e.2).map fun e => Resource.tport e.2.tp) + tableOwns (m.keep p) := by
  refine Multiset.coe_eq_coe.mpr ?_
  have hperm := (List.filter_append_perm (fun e => p e.1 e.2) m.entries).symm.trans List.perm_append_comm
  have hmap := hperm.map fun e => Resource.tport e.2.tp
  rwa [List.map_append] at hmap

theorem books_binding {op : Uri2InvalidData.Op Tport} (h : owned s.books = some (tableOwns s.bindings)) :
    owned (s.books ++ bookBinding s.bindings op) = some (tableOwns (s.bindings.step op)) := by
  cases op with
  | cache a expires tp now =>
    show owned (s.books ++ bookBinding s.bindings (.cache a expires tp now)) =
      some (tableOwns (s.bindings.cacheTportForSubscription a.user a.host expires tp now))
    unfold bookBinding Uri2InvalidData.cacheTportForSubscription
    dsimp only
    cases hold : s.bindings.lookup (Controller.UaInvalidData.new a.user a.host expires tp now).getUri with
    | none =>
      dsimp only
      rw [tableOwns_insert, AList.erase_of_notMem (AList.lookup_eq_none.mp hold)]
      exact owned_take h
    | some old =>
      dsimp only
      rw [tableOwns_insert, ← List.append_assoc]
      rw [tableOwns_erase hold] at h
      split
      · rename_i heq
        subst heq
        rw [List.append_nil]
        exact Ledger.owned_lend h
      · exact Ledger.owned_swap (Ledger.owned_lend h)
  | flush a now =>
    show owned (s.books ++ bookBinding s.bindings (.flush a now)) = some (tableOwns (s.bindings.erase a.uri))
    unfold bookBinding
    dsimp only
    cases hold : s.bindings.lookup a.uri with
    | none =>
      dsimp only
      rwa [List.append_nil, AList.erase_of_notMem (AList.lookup_eq_none.mp hold)]
    | some d =>
      rw [tableOwns_erase hold] at h
      exact owned_give h
  | find a now =>
    show owned (s.books ++ []) = _
    rwa [List.append_nil]
  | watchdog now =>
    have hkeep := tableOwns_keep s.bindings fun _ d => !d.isExpired now
    simp only [Bool.not_not] at hkeep
    have hgive : bookBinding s.bindings (.watchdog now) =
        ((s.bindings.entries.filter fun e => e.2.isExpired now).map fun e => Resource.tport e.2.tp).map .give := by
      rw [List.map_map]
      rfl
    rw [hgive]
    exact Ledger.owned_giveAll (h.trans (congrArg some hkeep))

theorem follow_table (c : NatSetup) (env : NetEnv) (target : Option Target) (d : Connection) (s : Calls) :
    (s.follow c env target d).1.bindings = s.bindings ∧ (s.follow c env target d).1.books = s.books := by
  rcases follow_cases c env target d s with heq | ⟨-, heq⟩ <;> rw [heq] <;> exact ⟨rfl, rfl⟩

theorem sendInside_table (c : NatSetup) (env : NetEnv) (i : Nat) (r : InDialogRequest) (d : Connection) (s : Calls) :
    (s.sendInside c env i r d).1.bindings = s.bindings ∧ (s.sendInside c env i r d).1.books = s.books := by
  have hfollow := follow_table c env r.remoteTarget (d.getTport env) s
  unfold Calls.sendInside
  dsimp only
  split
  · exact hfollow
  · split
    · split <;> exact hfollow
    · split <;> exact hfollow

/-- Nothing but what is done with the table changes it or its books. -/
theorem table_next (s : Calls) (e : Event) : (∃ op, e = .binding op) ∨
    (s.next c e).bindings = s.bindings ∧ (s.next c e).books = s.books := by
  unfold next
  cases e with
  | binding op => exact .inl ⟨op, rfl⟩
  | message tp named sip => exact .inr ⟨rfl, rfl⟩
  | incoming m => exact .inr ⟨rfl, rfl⟩
  | outgoing m => exact .inr ⟨rfl, rfl⟩
  | response i r =>
    unfold step
    dsimp only
    split
    · exact .inr ⟨rfl, rfl⟩
    · split <;> exact .inr ⟨rfl, rfl⟩
  | send i env r =>
    unfold step
    dsimp only
    split
    · exact .inr ⟨rfl, rfl⟩
    · exact .inr (sendInside_table _ _ _ _ _ _)
  | own i env =>
    unfold step
    dsimp only
    split <;> exact .inr ⟨rfl, rfl⟩
  | byeForCancel i env target =>
    unfold step
    dsimp only
    split
    · exact .inr ⟨rfl, rfl⟩
    · unfold Calls.byeForCancel
      dsimp only
      split
      · exact .inr (follow_table _ _ _ _ _)
      · exact .inr ⟨rfl, rfl⟩
  | destroy i =>
    unfold step
    dsimp only
    split <;> exact .inr ⟨rfl, rfl⟩

theorem books_next (h : owned s.books = some (tableOwns s.bindings)) :
    owned (s.next c e).books = some (tableOwns (s.next c e).bindings) := by
  rcases table_next (c := c) s e with ⟨op, rfl⟩ | ⟨hbindings, hbooks⟩
  · exact books_binding h
  · rw [hbindings, hbooks]
    exact h

/-- After every run each dialog has given back exactly what it does not hold any more, and never what it did not hold: while
    it exists it holds its transport and a delayed ACK, and in the end nothing but ACKs that were overwritten. Of these there
    is none exactly when no ACK went out whose transport was not known while an earlier one still waited for its own. The
    table of bindings holds one reference for each of its entries. -/
theorem references_held (c : NatSetup) (es : List Event) :
    (∀ d ∈ (run (next c) empty es).dialogs, owned d.books = some (owns d.pin.tp d.orqAck d.lost) ∧
      (d.gone = true → d.pin.tp = none ∧ d.orqAck = none)) ∧
    ((∀ d ∈ (run (next c) empty es).dialogs, d.lost = []) ↔ Meets (next c) Awaited empty es) ∧
    owned (run (next c) empty es).books = some (tableOwns (run (next c) empty es).bindings) := by
  have htable : ∀ s e, owned s.books = some (tableOwns s.bindings) →
      owned (next c s e).books = some (tableOwns (next c s e).bindings) := fun s e => books_next
  have hlost : (∀ d ∈ (run (next c) empty es).dialogs, d.lost = []) ↔
      (∀ d ∈ empty.dialogs, d.lost = []) ∧ Meets (next c) Awaited empty es :=
    @run_iff _ _ (next c) Awaited empty es (fun _ => True) (fun s => ∀ d ∈ s.dialogs, d.lost = []) (fun _ _ _ => trivial)
      (fun _ _ _ => lost_next) trivial
  refine ⟨fun d hd => ?_, ?_, run_invariant htable rfl⟩
  · have hheld : Held d := (held_kept c).run (fun _ _ _ => trivial) trivial (fun _ hx => absurd hx List.not_mem_nil) d hd
    exact ⟨hheld.books.trans (congrArg some (zero_add _)), hheld.gone⟩
  · rw [hlost]
    exact and_iff_right fun d hd => absurd hd List.not_mem_nil

end Calls

end Drachtio.Dialog
