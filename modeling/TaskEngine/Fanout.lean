/-
  TaskEngine/Fanout.lean
  ======================
  **Lanes on their own.**

  A fan-out is a set of lanes without an engine: events are offered to it directly, and what the
  lanes report is written to a ring that nobody passes on.  Its processes are the workers.
-/
import TaskEngine.Lane
import TaskEngine.Machine
import TaskEngine.Ring

namespace TaskEngine

/-- Lanes with a ring for their reports. -/
structure Fanout where
  now : Instant := .zero
  bus : Ring Event
  /-- The number of the next report to be read. -/
  cursor : Nat := 0
  lanes : List Lane
  /-- Whether events may still be offered. -/
  isOpen : Bool := true

namespace Fanout

def create (subscribers : List Subscriber) (busCapacity : Nat) : Fanout where
  bus := .ofCapacity busCapacity
  lanes := openLanes subscribers

def publishAll (f : Fanout) (events : List Event) : Fanout :=
  { f with bus := events.foldl Ring.push f.bus }

def emit (f : Fanout) (e : Event) : Fanout :=
  let (lanes, reports) := emitTo f.lanes e
  { f with lanes }.publishAll reports

/-- No more events may come; the workers end when they have handled what waits. -/
def close (f : Fanout) : Fanout := { f with lanes := f.lanes.map (·.close), isOpen := false }

def turn (i : Nat) (f : Fanout) : Fanout :=
  let (lanes, reports) := workLane f.now f.lanes i
  { f with lanes }.publishAll reports

/-- Before time moves on a worker takes one turn at most, and a worker whose alarm has rung gets
rid of an event: so many turns settle the lanes, and after so many alarms nothing is left in them. -/
def patience (f : Fanout) : Nat := f.lanes.foldr (fun l turns => l.queue.length + 2 + turns) 1

/-- The processes of a fan-out are the workers of its lanes. -/
def machine : Machine Fanout Nat where
  live f := (f.lanes.zipIdx.filter fun p => !p.1.isGone).map (·.2)
  able f i := (f.lanes[i]?).any (·.canWork f.now)
  turn := turn
  alarms f := f.lanes.filterMap (·.alarm?)
  now := now
  setNow t f := { f with now := t }
  patience := patience

end Fanout

end TaskEngine
