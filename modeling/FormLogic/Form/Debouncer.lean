/-!
# Debouncing

A deadline that every new event puts off. Times are counted from a common start, in the unit of the
caller, who gives them and the delay.
-/

namespace FormLogic

/-- A deadline that may be pending. -/
structure Debouncer where
  delay : Nat
  deadline? : Option Nat
  deriving DecidableEq

namespace Debouncer

def ofDelay (delay : Nat) : Debouncer :=
  ⟨delay, none⟩

/-- Sets the deadline a delay after `now`, in place of any other. -/
def schedule (d : Debouncer) (now : Nat) : Debouncer :=
  { d with deadline? := some (now + d.delay) }

def cancel (d : Debouncer) : Debouncer :=
  { d with deadline? := none }

def isPending (d : Debouncer) : Bool :=
  d.deadline?.isSome

/-- Whether the deadline has come. -/
def isDue (d : Debouncer) (now : Nat) : Bool :=
  d.deadline?.any (· ≤ now)

/-- Whether the deadline has come; if so, it is no longer pending. -/
def fire (d : Debouncer) (now : Nat) : Debouncer × Bool :=
  if d.isDue now then (d.cancel, true) else (d, false)

/-- What may happen to a debouncer. -/
inductive Event where
  | schedule (now : Nat)
  | cancel
  | fire (now : Nat)

/-- What an event leaves, and for `fire` whether the deadline had come. -/
def step (d : Debouncer) : Event → Debouncer × Option Bool
  | .schedule now => (d.schedule now, none)
  | .cancel => (d.cancel, none)
  | .fire now =>
    let (d, fired) := d.fire now
    (d, some fired)

end Debouncer

end FormLogic
