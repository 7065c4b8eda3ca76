import Drachtio.Proxy.ClientTransaction

/-! What the controllers read of a parsed SIP message (`sip_t`) to tell transactions apart, and the
    identifier that drachtio.cpp makes of it. -/

namespace Drachtio.Sip

open Proxy (Method)

/-- A text that the SIP grammar keeps free of `|`: a Call-ID, a method name, a branch. -/
def Token := { s : String // '|' ∉ s.toList }
deriving DecidableEq

/-- The name of a method the stack knows. -/
def methodName : Method → Option String
  | .unknown => none
  | .invite => some "INVITE"
  | .ack => some "ACK"
  | .cancel => some "CANCEL"
  | .bye => some "BYE"
  | .options => some "OPTIONS"
  | .register => some "REGISTER"
  | .info => some "INFO"
  | .prack => some "PRACK"
  | .update => some "UPDATE"
  | .message => some "MESSAGE"
  | .subscribe => some "SUBSCRIBE"
  | .notify => some "NOTIFY"
  | .refer => some "REFER"
  | .publish => some "PUBLISH"

structure Via where
  branch : Option Token
deriving DecidableEq

@[ext] structure CSeq where
  seq : UInt32
  methodName : Token
deriving DecidableEq

/-- A message is a request with a method or a response. The stack's sanity check (sip_sanity_check, made
    before a request is looked at) has compared the method with the one of the CSeq. -/
structure Message where
  request : Option Method
  callId : Token
  cseq : CSeq
  via : List Via
  sane : ∀ m ∈ request, ∀ name ∈ methodName m, cseq.methodName.val = name

/-- The text without the separators in it. -/
def Token.ofString (s : String) : Token := ⟨String.ofList (s.toList.filter (· ≠ '|')), by simp⟩

namespace Message

/-- A request with the CSeq of its method. -/
def ofMethod (m : Method) (callId : Token) (seq : UInt32) (via : List Via) : Message where
  request := some m
  callId := callId
  cseq := ⟨seq, .ofString ((methodName m).getD "")⟩
  via := via
  sane := by
    intro m' hm' name hname
    obtain rfl := Option.some.inj hm'
    rw [hname]
    cases m <;> cases hname <;> rfl

/-- The v_branch of the topmost Via. -/
def branch (sip : Message) : Option Token := sip.via.head?.bind (·.branch)

/-- The v_branch of the Via below the topmost one. -/
def nextBranch (sip : Message) : Option Token := sip.via.tail.head?.bind (·.branch)

end Message

/-- The method part of a transaction identifier: a CANCEL names the INVITE it cancels. -/
def identifiedMethod (sip : Message) : String :=
  if sip.request = some .cancel then "INVITE" else sip.cseq.methodName.val

theorem identifiedMethod_of_ne {sip : Message} (h : sip.request ≠ some .cancel) :
    identifiedMethod sip = sip.cseq.methodName.val := if_neg h

theorem identifiedMethod_cancel {sip : Message} (h : sip.request = some .cancel) : identifiedMethod sip = "INVITE" :=
  if_pos h

/-- The parts that every transaction identifier has, and a branch when there is one. -/
def identifier (callId method : String) (seq : UInt32) (branch : Option String) : String :=
  callId ++ "|" ++ method ++ "|" ++ Nat.repr seq.toNat ++
    match branch with
    | some b => "|" ++ b
    | none => ""

/-- The identifier of drachtio.cpp, which the pending requests are kept by. -/
def makeUniqueSipTransactionIdentifier (sip : Message) : String :=
  identifier sip.callId.val (identifiedMethod sip) sip.cseq.seq (sip.branch.map (·.val))

end Drachtio.Sip
