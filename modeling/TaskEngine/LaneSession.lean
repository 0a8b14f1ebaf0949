/-
  TaskEngine/LaneSession.lean
  ===========================
  **A fan-out driven step by step.**

  A session offers events to lanes, lets time pass, and asks what subscribers were given and what
  was reported since it last asked.
-/
import TaskEngine.Broadcast
import TaskEngine.Fanout

namespace TaskEngine

/-- A fan-out with its processes, and how much was asked for already. -/
structure LaneSession where
  executor : Executor Fanout Nat
  /-- For every lane, how many of its events were shown. -/
  shown : List Nat

namespace LaneSession

def create (subscribers : List Subscriber) (busCapacity : Nat) : LaneSession where
  executor := .refresh Fanout.machine { state := .create subscribers busCapacity }
  shown := subscribers.map fun _ => 0

def fanout (s : LaneSession) : Fanout := s.executor.state

def now (s : LaneSession) : Instant := s.fanout.now

def isOpen (s : LaneSession) : Bool := s.fanout.isOpen

def size (s : LaneSession) : Nat := s.fanout.lanes.length

def emit (s : LaneSession) (e : Event) : LaneSession :=
  { s with executor := s.executor.update Fanout.machine (·.emit e) }

def settle (s : LaneSession) : LaneSession :=
  { s with executor := s.executor.settle Fanout.machine }

def sleep (s : LaneSession) (d : Duration) : LaneSession :=
  { s with executor := s.executor.sleep Fanout.machine d }

/-- Closes the lanes and waits until all workers have ended. -/
def close (s : LaneSession) : LaneSession :=
  if s.isOpen then
    let closed := s.executor.update Fanout.machine (·.close)
    let (executor, _) := closed.await Fanout.machine
      (fun f => (f, if allGone f.lanes then some () else none)) none
    { s with executor := executor.settle Fanout.machine }
  else s

/-- The events that subscriber `i` was given since this was last asked. -/
def seen (s : LaneSession) (i : Nat) : LaneSession × List (Instant × Event) :=
  let handled := ((s.fanout.lanes[i]?).map (·.handled)).getD []
  let fresh := handled.take (handled.length - (s.shown[i]?).getD 0)
  ({ s with shown := s.shown.set i handled.length }, fresh.reverse)

/-- The reports that nobody has read. -/
def reports (s : LaneSession) : LaneSession × List Received :=
  let f := s.fanout
  let missed := f.bus.oldest - f.cursor
  let entries := (f.bus.unread f.cursor).map Received.event
  ({ s with executor := { s.executor with state := { f with cursor := f.bus.sent } } },
    if 0 < missed then .lagged missed :: entries else entries)

end LaneSession

end TaskEngine
