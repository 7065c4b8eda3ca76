import Mathlib.Data.List.AList
import Mathlib.Order.Lattice

/-! The timer queue (`TimerQueue` in timer-queue.cpp): a doubly linked list of entries in the order of their
    deadlines over one operating system timer.

    Objects live in a heap by address. Every dereference goes through `entry`, `setNext` or `setPrev`, which
    record an access to something that is not there; a failed assert is recorded too, and execution goes on
    as it does in the packaged builds, which define NDEBUG. Times are a linear order: `su_time_cmp` compares
    two of them. The functions of expired entries run when the queue is consistent again, so what they call
    on it are further steps. -/

namespace Drachtio.Timer

/-- What can go wrong: an assert of the source, a pointer that leads nowhere, a walk that does not end. -/
inductive Fault where
  | addTail | addPosition | removeLength | removeTail | removePrev | removeNext | removeCount | doTimerHead
  | doTimerLength | badPointer | endless
deriving DecidableEq, Repr

structure QueueEntry (τ : Type) where
  next : Option Nat
  prev : Option Nat
  when : τ
deriving DecidableEq, Repr

structure TimerQueue (τ : Type) where
  heap : AList fun _ : Nat => QueueEntry τ
  head : Option Nat
  tail : Option Nat
  length : Int
  inTimer : Bool
  /-- The time the operating system timer is set for. -/
  timer : Option τ
  /-- The entries whose function has been called. -/
  fired : List Nat
  faults : List Fault

namespace TimerQueue

variable {τ : Type} [LinearOrder τ]

def empty : TimerQueue τ := ⟨∅, none, none, 0, false, none, [], []⟩

def fault (f : Fault) (q : TimerQueue τ) : TimerQueue τ := { q with faults := q.faults ++ [f] }

def assert (holds : Bool) (f : Fault) (q : TimerQueue τ) : TimerQueue τ := if holds = true then q else q.fault f

/-- The object a pointer leads to. -/
def entry (p : Option Nat) (q : TimerQueue τ) : Option (QueueEntry τ) := p.bind q.heap.lookup

def modify (p : Option Nat) (f : QueueEntry τ → QueueEntry τ) (q : TimerQueue τ) : TimerQueue τ :=
  match p with
  | none => q.fault .badPointer
  | some a =>
    match q.heap.lookup a with
    | none => q.fault .badPointer
    | some e => { q with heap := q.heap.insert a (f e) }

def setNext (p next : Option Nat) (q : TimerQueue τ) : TimerQueue τ := q.modify p fun e => { e with next := next }

def setPrev (p prev : Option Nat) (q : TimerQueue τ) : TimerQueue τ := q.modify p fun e => { e with prev := prev }

/-- su_timer_set_at with the deadline of an entry. -/
def armFor (p : Option Nat) (q : TimerQueue τ) : TimerQueue τ :=
  match q.entry p with
  | none => q.fault .badPointer
  | some e => { q with timer := some e.when }

/-- The do-while loop of `add`: the entry goes before the first one with a later deadline. -/
def insertBefore (a : Nat) (when : τ) : Nat → Nat → Option Nat → TimerQueue τ → TimerQueue τ
  | 0, _, _, q => q.fault .endless
  | fuel + 1, idx, ptr, q =>
    match q.entry ptr with
    | none => q.fault .badPointer
    | some e =>
      if when < e.when then
        let q := q.setNext (some a) ptr
        let q := if idx = 0 then { q with head := some a } else (q.setPrev (some a) e.prev).setNext e.prev (some a)
        q.setPrev ptr (some a)
      else
        match e.next with
        | none => q.fault .addPosition -- assert( NULL != ptr )
        | some b => insertBefore a when fuel (idx + 1) (some b) q

/-- Whether the entry goes behind the last one. -/
def isLast (when : τ) (q : TimerQueue τ) : Bool :=
  match q.entry q.tail with
  | none => false
  | some e => decide (e.when < when)

/-- Add an entry at the address `a`, which the allocator has found free. -/
def add (a : Nat) (when : τ) (q : TimerQueue τ) : TimerQueue τ :=
  let q := { q with heap := q.heap.insert a ⟨none, none, when⟩ }
  let q :=
    match q.head with
    | none => { q.assert q.tail.isNone .addTail with head := some a, tail := some a }
    | some h =>
      if q.isLast when = true then { (q.setPrev (some a) q.tail).setNext q.tail (some a) with tail := some a }
      else q.insertBefore a when q.heap.entries.length 0 (some h)
  let q := { q with length := q.length + 1 }
  if q.head = some a then { q with timer := some when } else q

/-- Take the entry out of the list; the result is missing when it is in none. -/
def unlink (a : Nat) (e : QueueEntry τ) (q : TimerQueue τ) : Option (TimerQueue τ) :=
  if q.head = some a then
    let q : TimerQueue τ := { q with head := e.next }
    if q.head.isSome = true then some (q.setPrev q.head none)
    else some { q.assert (decide (q.length = 1)) .removeLength with tail := none }
  else if q.tail = some a then
    let q := q.assert (q.head.isSome && e.prev.isSome) .removeTail
    let q := { q with tail := e.prev }
    some (q.setNext q.tail none)
  else if e.prev = none ∧ e.next = none then none
  else
    let q := (q.assert e.prev.isSome .removePrev).assert e.next.isSome .removeNext
    some ((q.setNext e.prev e.next).setPrev e.next e.prev)

/-- After an entry has gone the timer is stopped, or set for the entry that has become the first. -/
def rearm (e : QueueEntry τ) (q : TimerQueue τ) : TimerQueue τ :=
  if q.head = none then { q with timer := none }
  else if q.head = e.next then q.armFor q.head
  else q

def delete (a : Nat) (q : TimerQueue τ) : TimerQueue τ := { q with heap := q.heap.erase a }

def remove (a : Nat) (q : TimerQueue τ) : TimerQueue τ :=
  match q.heap.lookup a with
  | none => q.fault .badPointer
  | some e =>
    match q.unlink a e with
    | none => q.delete a
    | some q =>
      let q := { q with length := q.length - 1 }
      ((q.assert (decide (0 ≤ q.length)) .removeCount).rearm e).delete a

/-- The entry, which is the first one, leaves the queue. -/
def detachHead (e : QueueEntry τ) (q : TimerQueue τ) : TimerQueue τ :=
  let q : TimerQueue τ := { q with length := q.length - 1, head := e.next }
  if q.head.isSome = true then q.setPrev q.head none else { q with tail := none }

/-- The loop of `doTimer` over the expired entries, which are gathered into a list of their own; the result
    is the head of that list. The links of the first one are cleared before the loop reads its successor. -/
def expire (now : τ) : Nat → Option Nat → Option Nat → Option Nat → TimerQueue τ → TimerQueue τ × Option Nat
  | 0, _, expired, _, q => (q.fault .endless, expired)
  | _ + 1, none, expired, _, q => (q, expired)
  | fuel + 1, some ptr, expired, tailExpired, q =>
    match q.heap.lookup ptr with
    | none => (q.fault .badPointer, expired)
    | some e =>
      if e.when < now then
        let q := q.detachHead e
        match expired with
        | none =>
          let q := (q.setPrev (some ptr) none).setNext (some ptr) none
          expire now fuel ((q.entry (some ptr)).bind (·.next)) (some ptr) (some ptr) q
        | some _ =>
          let q := (q.setNext tailExpired (some ptr)).setPrev (some ptr) tailExpired
          expire now fuel ((q.entry (some ptr)).bind (·.next)) expired (some ptr) q
      else (q, expired)

/-- The functions of the expired entries are called, and the entries deleted. -/
def callExpired : Nat → Option Nat → TimerQueue τ → TimerQueue τ
  | _, none, q => q
  | 0, some _, q => q.fault .endless
  | fuel + 1, some p, q =>
    match q.heap.lookup p with
    | none => q.fault .badPointer
    | some e => callExpired fuel e.next { q.delete p with fired := q.fired ++ [p] }

def doTimer (now : τ) (q : TimerQueue τ) : TimerQueue τ :=
  if q.inTimer = true then q
  else
    let q := { q with inTimer := true }
    let q := q.assert q.head.isSome .doTimerHead
    let (q, expired) := q.expire now (q.heap.entries.length + 1) q.head none none
    let q := if q.head = none then q.assert (decide (q.length = 0)) .doTimerLength else q.armFor q.head
    let q := { q with inTimer := false }
    q.callExpired (q.heap.entries.length) expired

/-- A call on the queue. A firing of the operating system timer disarms it and runs `doTimer`. -/
inductive Op (τ : Type) where
  | add (a : Nat) (milliseconds : UInt32) (now : τ)
  | remove (a : Nat)
  | doTimer (now : τ)

/-- One call; `suTimeAdd` adds milliseconds to a time. -/
def step (suTimeAdd : τ → UInt32 → τ) (q : TimerQueue τ) : Op τ → TimerQueue τ
  | .add a milliseconds now => q.add a (suTimeAdd now milliseconds)
  | .remove a => q.remove a
  | .doTimer now => { q with timer := none }.doTimer now

end TimerQueue

end Drachtio.Timer
