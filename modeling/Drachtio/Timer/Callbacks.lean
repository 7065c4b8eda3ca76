import Drachtio.Timer.TimerQueue

/-! A firing of the timer whose expired entries call back: their functions add and remove entries before
    `doTimer` returns. -/

namespace Drachtio.Timer.TimerQueue

variable {τ : Type} [LinearOrder τ]

/-- A call on the queue from the function of an expired entry. -/
inductive Call (τ : Type) where
  | add (a : Nat) (milliseconds : UInt32) (now : τ)
  | remove (a : Nat)

def call (suTimeAdd : τ → UInt32 → τ) (q : TimerQueue τ) : Call τ → TimerQueue τ
  | .add a milliseconds now => q.add a (suTimeAdd now milliseconds)
  | .remove a => q.remove a

/-- The last loop of `doTimer`; the function of an entry makes the calls of the entry, and the successor is
    read when it has returned. -/
def callBack (suTimeAdd : τ → UInt32 → τ) (calls : Nat → List (Call τ)) : Nat → Option Nat → TimerQueue τ → TimerQueue τ
  | _, none, q => q
  | 0, some _, q => q.fault .endless
  | fuel + 1, some p, q =>
    match q.heap.lookup p with
    | none => q.fault .badPointer
    | some _ =>
      let q := (calls p).foldl (call suTimeAdd) { q with fired := q.fired ++ [p] }
      match q.heap.lookup p with
      | none => q.fault .badPointer
      | some e => callBack suTimeAdd calls fuel e.next (q.delete p)

/-- `doTimer` up to its last loop, and the expired entries. -/
def gather (now : τ) (q : TimerQueue τ) : TimerQueue τ × Option Nat :=
  let q := { q with inTimer := true }
  let q := q.assert q.head.isSome .doTimerHead
  let (q, expired) := q.expire now (q.heap.entries.length + 1) q.head none none
  let q := if q.head = none then q.assert (decide (q.length = 0)) .doTimerLength else q.armFor q.head
  ({ q with inTimer := false }, expired)

def doTimerCalling (suTimeAdd : τ → UInt32 → τ) (calls : Nat → List (Call τ)) (now : τ) (q : TimerQueue τ) : TimerQueue τ :=
  if q.inTimer = true then q
  else
    let (q, expired) := q.gather now
    q.callBack suTimeAdd calls q.heap.entries.length expired

end Drachtio.Timer.TimerQueue
