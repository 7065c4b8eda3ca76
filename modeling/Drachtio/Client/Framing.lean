import Mathlib.Data.List.Infix

/-! The byte stream of an application connection (`BaseClient` and `Client` in client.cpp): a message is
    its length in decimal, a `#`, and its bytes. `readHandler` is one completion of an asynchronous read.

    What a message does is not part of this module: `Handlers` stands for `processClientMessage` and
    `outboundReady` over a state `σ` of their own. -/

namespace Drachtio.Client

/-- The bytes of an ASCII text. -/
def bytes (s : String) : List UInt8 := s.toList.map fun c => UInt8.ofNat c.toNat

def hash : UInt8 := 35

/-- A message as `Client::send` and `read_handler` put it on the socket. -/
def frame (str : List UInt8) : List UInt8 := bytes (Nat.repr str.length) ++ hash :: str

/-- What `Client::send` writes: nothing for an empty message. -/
def send (str : List UInt8) : Option (List UInt8) := if str = [] then none else some (frame str)

def isdigit (c : UInt8) : Bool := 48 ≤ c && c ≤ 57

/-- The exceptions of the reader. The first two are caught; a `bad_lexical_cast` is no `runtime_error` and
    is not caught, and `front()` of an empty buffer is undefined. -/
inductive ReadError where
  | invalidLength | badLexicalCast | emptyBuffer
deriving DecidableEq, Repr

/-- The loop of `readMessageLength`: the digits taken so far, the character last taken, what is left. -/
def readDigits (ch : List UInt8) : List UInt8 → Except ReadError (List UInt8 × UInt8 × List UInt8)
  | [] => .error .emptyBuffer
  | c :: rest =>
    if c = hash then .ok (ch, c, rest)
    else if isdigit c = false then .error .invalidLength
    else if rest = [] ∨ 6 ≤ (ch ++ [c]).length then .ok (ch ++ [c], c, rest)
    else readDigits (ch ++ [c]) rest

/-- boost::lexical_cast of at most five digits to an unsigned int. -/
def lexicalCast (ch : List UInt8) : Except ReadError Nat :=
  if ch = [] then .error .badLexicalCast
  else .ok (Nat.ofDigitChars 10 (ch.map fun b => Char.ofNat b.toNat) 0)

/-- The buffer left, the length read, and whether there is more to do with the buffer. Digits without
    their `#` are put back. -/
def readMessageLength (buffer : List UInt8) : Except ReadError (List UInt8 × Nat × Bool) := do
  let (ch, c, rest) ← readDigits [] buffer
  if ch.length = 6 then throw .invalidLength
  if rest = [] ∧ c ≠ hash then return (rest ++ ch, 0, false)
  let len ← lexicalCast ch
  return (rest, len, !rest.isEmpty)

/-- What a message does: the new state, the response to write, and the result, which is missing when the
    call throws. -/
structure Handlers (σ : Type) where
  processClientMessage : List UInt8 → σ → σ × List UInt8 × Option Bool
  isOutbound : Bool
  outboundReady : σ → σ

/-- The next read was issued, the controller was told to drop the client (`leave`), or neither: an exception
    left the read handler for the event loop, which logs it, and the client stays with nothing reading. -/
inductive Status where
  | reading | left | escaped
deriving DecidableEq, Repr

structure Connection (σ : Type) where
  /-- m_buffer, a circular buffer -/
  buffer : List UInt8
  /-- m_nMessageLength -/
  messageLength : Nat
  status : Status
  /-- The messages `processClientMessage` was called on. -/
  calls : List (List UInt8)
  /-- What was written to the socket. -/
  written : List (List UInt8)
  world : σ

namespace Connection

variable {σ : Type}

/-- A connection as `BaseClient` sets it up. -/
def new (w : σ) : Connection σ := ⟨[], 0, .reading, [], [], w⟩

/-- The capacity of m_buffer. -/
def capacity : Nat := 12228

/-- The size of m_readBuf. -/
def readSize : Nat := 8192

/-- Insertion at the end of a circular buffer overwrites its oldest bytes. -/
def insertEnd (data : List UInt8) (c : Connection σ) : Connection σ :=
  let all := c.buffer ++ data
  { c with buffer := all.drop (all.length - capacity) }

/-- Put the outcome of the length parser into the connection; the result is whether to go on. -/
def readLength (c : Connection σ) : Connection σ × Bool :=
  match readMessageLength c.buffer with
  | .ok (buffer, len, continueOn) => ({ c with buffer := buffer, messageLength := len }, continueOn)
  | .error .invalidLength => ({ c with status := .left }, false)
  | .error _ => ({ c with status := .escaped }, false)

/-- The message at the front of the buffer is processed, and the response to it written. -/
def processMessage (h : Handlers σ) (c : Connection σ) : Connection σ × Bool :=
  let msg := c.buffer.take c.messageLength
  let (world, response, result) := h.processClientMessage msg c.world
  match result with
  | none => ({ c with calls := c.calls ++ [msg], world := world, status := .left }, false)
  | some bContinue =>
    let written := if response = [] then c.written else c.written ++ [frame response]
    let c := { c with calls := c.calls ++ [msg], world := world, written := written }
    if bContinue = false then ({ c with status := .left }, false)
    else if h.isOutbound = true ∧ bytes "|authenticate|" <:+: msg then ({ c with world := h.outboundReady c.world }, true)
    else (c, true)

/-- The processed message leaves the buffer, and the length of a message that follows it is read. -/
def reload (c : Connection σ) : Connection σ × Bool :=
  let c := { c with buffer := c.buffer.drop c.messageLength }
  if c.buffer = [] then ({ c with messageLength := 0 }, true)
  else c.readLength

/-- The loop over the full messages of the buffer; every round takes at least one byte out of it. -/
def processMessages (h : Handlers σ) : Nat → Connection σ → Connection σ
  | 0, c => c
  | fuel + 1, c =>
    if c.messageLength ≤ c.buffer.length ∧ 0 < c.messageLength then
      let (c, continueOn) := c.processMessage h
      if continueOn = false then c
      else
        let (c, continueOn) := c.reload
        if continueOn = false then c else processMessages h fuel c
    else c

/-- A read of some bytes completes without an error. -/
def readHandler (h : Handlers σ) (c : Connection σ) (data : List UInt8) : Connection σ :=
  if c.status = .reading then
    let c := c.insertEnd data
    if c.messageLength = 0 then
      let (c, continueOn) := c.readLength
      if continueOn = false then c else c.processMessages h c.buffer.length
    else c.processMessages h c.buffer.length
  else c

/-- How an asynchronous read ends: with an error, or with some bytes. -/
inductive Completion where
  | failed
  | read (data : List UInt8)
deriving DecidableEq, Repr

def complete (h : Handlers σ) (c : Connection σ) : Completion → Connection σ
  | .failed => if c.status = .reading then { c with status := .left } else c
  | .read data => c.readHandler h data

end Connection

end Drachtio.Client
