/-
  TaskEngine/Lane.lean
  ====================
  **The lanes of the subscribers.**

  Every subscriber has a lane: a bounded queue, and a worker that takes events out of it one by one
  and has the subscriber handle them.  Offering an event never waits: a lane that is full, or whose
  worker is gone, refuses it.  A worker takes an event out of the queue before it is handled, so the
  whole queue is free while the subscriber is busy.

  A subscriber that panics over an event is reported and its worker goes on, unless asking for its
  name panics too, or the panic was one of the call itself: then the worker is gone, and what is
  queued with it.

  `Lane.accepted` and `Lane.handled` keep what the lane took and what its subscriber was given.
-/
import TaskEngine.Behaviour
import TaskEngine.Time.Instant

namespace TaskEngine

inductive Refusal where
  | full
  | closed
deriving DecidableEq, Repr

def Refusal.label : Refusal → String
  | full => "full"
  | closed => "closed"

inductive Worker where
  | waiting
  /-- The subscriber is busy with an event until `due`. -/
  | handling (event : Event) (due : Instant)
  | gone
deriving DecidableEq, Repr

/-- A subscriber with its queue and worker. -/
structure Lane where
  subscriber : Subscriber
  /-- The events that wait, the oldest first. -/
  queue : List Event := []
  /-- Whether more events may come. -/
  isOpen : Bool := true
  worker : Worker := .waiting
  /-- The events that were taken, the newest first. -/
  accepted : List Event := []
  /-- The events that the subscriber was given, with the time, the newest first. -/
  handled : List (Instant × Event) := []

namespace Lane

/-- How many events may wait. -/
def capacity (l : Lane) : Nat := max l.subscriber.capacity 1

def isGone (l : Lane) : Bool := l.worker == .gone

def refusal? (l : Lane) : Option Refusal :=
  if l.isGone then some .closed
  else if l.capacity ≤ l.queue.length then some .full
  else none

def offer (l : Lane) (e : Event) : Lane :=
  match l.refusal? with
  | some _ => l
  | none => { l with queue := l.queue ++ [e], accepted := e :: l.accepted }

/-- What is reported when the lane is offered an event; refused reports of refusals are not. -/
def offerReport? (l : Lane) (e : Event) : Option Event :=
  if e.kind = .subscriberOverflow then none
  else l.refusal?.map fun r => .overflow l.subscriber.name r.label

def close (l : Lane) : Lane := { l with isOpen := false }

/-! ### The worker -/

/-- The worker is done with the event that the subscriber was given last: what came of it decides
what is reported and whether the worker goes on. -/
def delivered (l : Lane) (e : Event) : Lane × List Event :=
  match l.subscriber.reception l.handled.length e with
  | .handled => ({ l with worker := .waiting }, [])
  | .panicked =>
      ({ l with worker := .waiting },
        [.subscriberPanic l.subscriber.name (l.subscriber.panicText e)])
  | .unnamed | .refused => ({ l with worker := .gone, queue := [] }, [])

/-- Works through the queued events until one takes time, the worker is gone or none is left.
An empty queue ends the worker of a lane that is closed. -/
def workThrough (now : Instant) : List Event → Lane → Lane × List Event
  | [], l => ({ l with queue := [], worker := if l.isOpen then .waiting else .gone }, [])
  | e :: rest, l =>
      let taken := { l with queue := rest, handled := (now, e) :: l.handled }
      let time := l.subscriber.timeFor taken.handled.length e
      if time.isZero then
        let (after, reports) := taken.delivered e
        if after.isGone then (after, reports)
        else
          let (final, more) := workThrough now rest after
          (final, reports ++ more)
      else ({ taken with worker := .handling e (now.later time) }, [])

/-- One turn of the worker, with the reports that it publishes. -/
def work (now : Instant) (l : Lane) : Lane × List Event :=
  match l.worker with
  | .gone => (l, [])
  | .waiting => l.workThrough now l.queue
  | .handling e due =>
      if due.isDue now then
        let (after, reports) := l.delivered e
        if after.isGone then (after, reports)
        else
          let (final, more) := after.workThrough now after.queue
          (final, reports ++ more)
      else (l, [])

/-- Whether a turn of the worker would change anything. -/
def canWork (now : Instant) (l : Lane) : Bool :=
  match l.worker with
  | .gone => false
  | .waiting => !l.queue.isEmpty || !l.isOpen
  | .handling _ due => due.isDue now

/-- The deadline that the worker waits for. -/
def alarm? (l : Lane) : Option Instant :=
  match l.worker with
  | .handling _ due => some due
  | .waiting | .gone => none

end Lane

/-! ### All lanes together -/

def openLanes (subscribers : List Subscriber) : List Lane :=
  subscribers.map fun subscriber => { subscriber }

/-- Offers an event to every lane; the refusals are reported. -/
def emitTo (lanes : List Lane) (e : Event) : List Lane × List Event :=
  (lanes.map (·.offer e), lanes.filterMap (·.offerReport? e))

/-- Has the worker of lane `i` take a turn. -/
def workLane (now : Instant) (lanes : List Lane) (i : Nat) : List Lane × List Event :=
  match lanes[i]? with
  | some l => let (l', reports) := l.work now; (lanes.set i l', reports)
  | none => (lanes, [])

/-- Whether the workers of all lanes have ended. -/
def allGone (lanes : List Lane) : Bool := lanes.all (·.isGone)

end TaskEngine
