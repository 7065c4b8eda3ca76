import Drachtio.Lib.Fields
import Drachtio.Lib.Run
import Drachtio.Proxy.Registry

/-! Messages find the core of their transaction: the identifier determines Call-ID, method, number and
    branch, and what belongs to one transaction has one identifier. -/

namespace Drachtio.Proxy

open Sip (Message Token identifier identifiedMethod_of_ne identifiedMethod_cancel)
open Machine

/-- A SIP transaction as its requests name it. -/
structure Transaction where
  callId : Token
  method : Token
  seq : UInt32
  branch : Option Token
deriving DecidableEq

namespace Transaction

def id (t : Transaction) : String := identifier t.callId.val t.method.val t.seq (t.branch.map (·.val))

end Transaction

/-- The transaction a request other than a CANCEL belongs to. -/
def transactionOf (sip : Message) : Transaction := ⟨sip.callId, sip.cseq.methodName, sip.cseq.seq, sip.branch⟩

theorem toList_identifier (callId method : String) (seq : UInt32) (branch : Option String) :
    (identifier callId method seq branch).toList =
      callId.toList ++ '|' :: (method.toList ++ '|' :: (Nat.toDigits 10 seq.toNat ++
        match branch with
        | some b => '|' :: b.toList
        | none => [])) := by
  unfold identifier
  cases branch <;> simp [Nat.toList_repr]

theorem bar_notMem_seq (seq : UInt32) : '|' ∉ Nat.toDigits 10 seq.toNat := Fields.notMem_toDigits (by decide) _

theorem Transaction.id_inj {t t' : Transaction} (h : t.id = t'.id) : t = t' := by
  obtain ⟨c, m, n, b⟩ := t
  obtain ⟨c', m', n', b'⟩ := t'
  have hl := congrArg String.toList h
  simp only [Transaction.id, toList_identifier] at hl
  obtain ⟨hc, hl⟩ := Fields.append_sep_inj c.property c'.property hl
  obtain ⟨hm, hl⟩ := Fields.append_sep_inj m.property m'.property hl
  have hc : c = c' := Subtype.ext (String.toList_inj.mp hc)
  have hm : m = m' := Subtype.ext (String.toList_inj.mp hm)
  have hnb : n.toNat = n'.toNat ∧ b = b' := by
    cases b with
    | none =>
      cases b' with
      | none => exact ⟨Fields.toDigits_inj (by simpa using hl), rfl⟩
      | some y =>
        simp only [Option.map_none, List.append_nil, Option.map_some] at hl
        exact absurd hl.symm (Fields.append_sep_ne (bar_notMem_seq n))
    | some x =>
      cases b' with
      | none =>
        simp only [Option.map_none, List.append_nil, Option.map_some] at hl
        exact absurd hl (Fields.append_sep_ne (bar_notMem_seq n'))
      | some y =>
        simp only [Option.map_some] at hl
        obtain ⟨hn, hb⟩ := Fields.append_sep_inj (bar_notMem_seq n) (bar_notMem_seq n') hl
        exact ⟨Fields.toDigits_inj hn, congrArg some (Subtype.ext (String.toList_inj.mp hb))⟩
  obtain ⟨hn, rfl⟩ := hnb
  obtain rfl := UInt32.toNat_inj.mp hn
  rw [hc, hm]

/-- A response that came back over the Via this server pushed on top of the request's. -/
def IsResponseTo (sip r : Message) : Prop :=
  r.request.isSome ∧ sip.request = none ∧ sip.callId = r.callId ∧ sip.cseq = r.cseq ∧ ∃ own, sip.via = own :: r.via

/-- The CANCEL of an INVITE. -/
def IsCancelOf (sip r : Message) : Prop :=
  r.request = some .invite ∧ sip.request = some .cancel ∧ sip.callId = r.callId ∧ sip.cseq.seq = r.cseq.seq ∧
    sip.branch = r.branch

theorem identifier_request {r : Message} {m : Method} (hr : r.request = some m) (hm : m ≠ .cancel) :
    makeUniqueSipTransactionIdentifier r = (transactionOf r).id := by
  have hc : r.request ≠ some .cancel := fun h => hm (Option.some.inj (hr ▸ h))
  simp only [makeUniqueSipTransactionIdentifier, identifiedMethod_of_ne hc, identifyingBranch, hr]
  rfl

theorem identifier_response {sip r : Message} (h : IsResponseTo sip r) :
    makeUniqueSipTransactionIdentifier sip = (transactionOf r).id := by
  obtain ⟨-, hs, hcall, hcseq, own, hvia⟩ := h
  have hc : sip.request ≠ some .cancel := by simp [hs]
  have hb : sip.nextBranch = r.branch := by simp only [Message.nextBranch, Message.branch, hvia, List.tail_cons]
  simp only [makeUniqueSipTransactionIdentifier, identifiedMethod_of_ne hc, identifyingBranch, hs, hb, hcall, hcseq]
  rfl

theorem identifier_cancel {sip r : Message} (h : IsCancelOf sip r) :
    makeUniqueSipTransactionIdentifier sip = (transactionOf r).id := by
  obtain ⟨hr, hs, hcall, hseq, hb⟩ := h
  have hm : r.cseq.methodName.val = "INVITE" := r.sane .invite (by rw [hr]; rfl) "INVITE" rfl
  simp only [makeUniqueSipTransactionIdentifier, identifiedMethod_cancel hs, identifyingBranch, hs, hcall, hseq, hb,
    transactionOf, Transaction.id, hm]

/-! ### The registry -/

/-- The messages of a transaction: its request and the retransmissions of it, the responses to it, and the
    CANCEL of an INVITE. -/
def BelongsTo (sip : Message) (r : Registry.Proxied) : Prop :=
  ((∃ m, sip.request = some m ∧ m ≠ .cancel) ∧ transactionOf sip = transactionOf r.val) ∨
  IsResponseTo sip r.val ∨ IsCancelOf sip r.val

/-- What the changes leave as the core of a transaction: the one added first and not removed since. -/
def ownerStep {Core : Type} (t : Transaction) (owner : Option Core) : Registry.Op Core → Option Core
  | .add sip p => if transactionOf sip.val = t then some (owner.getD p) else owner
  | .remove sip => if transactionOf sip.val = t then none else owner

theorem identifier_belongs {sip : Message} {r : Registry.Proxied} (h : BelongsTo sip r) :
    makeUniqueSipTransactionIdentifier sip = (transactionOf r.val).id := by
  rcases h with ⟨⟨m, hs, hm⟩, ht⟩ | h | h
  · rw [identifier_request hs hm, ht]
  · exact identifier_response h
  · exact identifier_cancel h

theorem identifier_proxied (r : Registry.Proxied) :
    makeUniqueSipTransactionIdentifier r.val = (transactionOf r.val).id := by
  obtain ⟨m, hr, hm⟩ := r.property
  exact identifier_request hr hm

section
variable {Core : Type}

theorem lookup_step (m : Registry Core) (op : Registry.Op Core) (t : Transaction) :
    (Registry.step m op).lookup t.id = ownerStep t (m.lookup t.id) op := by
  cases op with
  | add sip p =>
    simp only [Registry.step, Registry.addProxy, ownerStep, identifier_proxied]
    split
    · rename_i ht
      rw [ht, AList.lookup_insertNew_self]
    · rename_i ht
      exact AList.lookup_insertNew_ne fun h => ht (Transaction.id_inj h).symm
  | remove sip =>
    simp only [Registry.step, Registry.removeProxy, ownerStep, identifier_proxied]
    split
    · rename_i ht
      rw [ht, AList.lookup_erase]
    · rename_i ht
      exact AList.lookup_erase_ne fun h => ht (Transaction.id_inj h).symm

theorem lookup_run (m : Registry Core) (ops : List (Registry.Op Core)) (t : Transaction) :
    (run Registry.step m ops).lookup t.id = run (ownerStep t) (m.lookup t.id) ops := by
  induction ops generalizing m with
  | nil => rfl
  | cons op ops ih => rw [run_cons, run_cons, ih, lookup_step]

end

/-- Responses, CANCELs and retransmissions have the identifier of the request they belong to, no two
    transactions share one, and so a message finds the core of its transaction after any changes. -/
theorem transactions_matched :
    (∀ r sip : Message, r.request ≠ some .cancel → IsResponseTo sip r →
      makeUniqueSipTransactionIdentifier sip = makeUniqueSipTransactionIdentifier r) ∧
    (∀ r sip : Message, IsCancelOf sip r →
      makeUniqueSipTransactionIdentifier sip = makeUniqueSipTransactionIdentifier r) ∧
    (∀ r r' : Message, r.request.isSome → r'.request.isSome → r.request ≠ some .cancel → r'.request ≠ some .cancel →
      makeUniqueSipTransactionIdentifier r = makeUniqueSipTransactionIdentifier r' →
      r.callId = r'.callId ∧ r.cseq = r'.cseq ∧ r.branch = r'.branch) ∧
    (∀ (Core : Type) (ops : List (Registry.Op Core)) (r : Registry.Proxied) (sip : Message), BelongsTo sip r →
      (run Registry.step ∅ ops).getProxy sip = run (ownerStep (transactionOf r.val)) none ops ∧
      (run Registry.step ∅ ops).isProxyingRequest sip = (run (ownerStep (transactionOf r.val)) none ops).isSome) := by
  refine ⟨?_, ?_, ?_, ?_⟩
  · intro r sip hr h
    obtain ⟨m, hm⟩ := Option.isSome_iff_exists.mp h.1
    rw [identifier_response h, identifier_request hm fun hc => hr (hc ▸ hm)]
  · intro r sip h
    rw [identifier_cancel h, identifier_request h.1 nofun]
  · intro r r' hr hr' hc hc' h
    obtain ⟨m, hm⟩ := Option.isSome_iff_exists.mp hr
    obtain ⟨m', hm'⟩ := Option.isSome_iff_exists.mp hr'
    rw [identifier_request hm fun he => hc (he ▸ hm), identifier_request hm' fun he => hc' (he ▸ hm')] at h
    have ht := Transaction.id_inj h
    simp only [transactionOf, Transaction.mk.injEq] at ht
    obtain ⟨hcall, hname, hseq, hb⟩ := ht
    exact ⟨hcall, Sip.CSeq.ext hseq hname, hb⟩
  · intro Core ops r sip h
    have hl := lookup_run (∅ : Registry Core) ops (transactionOf r.val)
    rw [AList.lookup_empty, ← identifier_belongs h] at hl
    refine ⟨hl, ?_⟩
    rw [← hl, Registry.isProxyingRequest, Bool.eq_iff_iff, decide_eq_true_iff, AList.lookup_isSome]

/-- The CANCEL of an INVITE and the response to that CANCEL. -/
def cancelRequest : Message := .ofMethod .cancel (.ofString "a") 1 [⟨some (.ofString "z")⟩]

def cancelResponse : Message :=
  ⟨none, .ofString "a", ⟨1, .ofString "CANCEL"⟩, [⟨none⟩, ⟨some (.ofString "z")⟩], nofun⟩

/-- A CANCEL goes by the identifier of its INVITE, the response to it does not. -/
theorem cancel_response_unmatched :
    ¬ ∀ r sip : Message, IsResponseTo sip r →
      makeUniqueSipTransactionIdentifier sip = makeUniqueSipTransactionIdentifier r := by
  intro h
  have hid := h cancelRequest cancelResponse ⟨rfl, rfl, rfl, rfl, ⟨none⟩, rfl⟩
  revert hid
  decide

end Drachtio.Proxy
