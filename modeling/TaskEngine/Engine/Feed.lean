/-
  TaskEngine/Engine/Feed.lean
  ===========================
  **From the ring to the lanes.**

  The pump reads the ring and offers every event to every lane, up to and including the first
  `AllStoppedWithin`; then it closes the lanes and waits for their workers.  What a lane refuses is
  reported on the ring it was read from.

  Forwarding comes to its end: an event that is not itself a report of a refusal causes at most one
  report for each lane, and a report causes none, so `forwardBound` reads are enough.
-/
import TaskEngine.Engine.State

namespace TaskEngine

namespace Engine

def emit (e : Engine) (event : Event) : Engine :=
  let (lanes, reports) := emitTo e.lanes event
  ({ e with lanes }.note (.forwarded event)).publishAll reports

/-- Passing an event on changes the lanes, the ring and the journal, and nothing else. -/
theorem emit_eq (e : Engine) (event : Event) :
    e.emit event = { e with
      lanes := (emitTo e.lanes event).1
      bus := (emitTo e.lanes event).2.foldl Ring.push e.bus
      journal := ((emitTo e.lanes event).2.map fun report =>
        ⟨e.now, .published report none⟩).reverse ++ ⟨e.now, .forwarded event⟩ :: e.journal } :=
  publishAll_eq ..

def closeLanes (e : Engine) : Engine := { e with lanes := e.lanes.map (·.close) }

def workLane (e : Engine) (i : Nat) : Engine :=
  let (lanes, reports) := TaskEngine.workLane e.now e.lanes i
  { e with lanes }.publishAll reports

/-- A turn of a worker changes its lane, the ring and the journal, and nothing else. -/
theorem workLane_eq (e : Engine) (i : Nat) :
    e.workLane i = { e with
      lanes := (TaskEngine.workLane e.now e.lanes i).1
      bus := (TaskEngine.workLane e.now e.lanes i).2.foldl Ring.push e.bus
      journal := ((TaskEngine.workLane e.now e.lanes i).2.map fun report =>
        ⟨e.now, .published report none⟩).reverse ++ e.journal } :=
  publishAll_eq ..

/-- Passes events on until none is left, at most `fuel` of them; stops after the first
`AllStoppedWithin` if `untilEnd` is set, and says whether it did. -/
def forward (untilEnd : Bool) : (fuel : Nat) → Engine → Engine × Bool
  | 0, e => (e, false)
  | fuel + 1, e =>
      match e.bus.next? e.cursor with
      | none => (e, false)
      | some (event, cursor) =>
          let passed := { e with cursor }.emit event
          if untilEnd && event.kind = .allStoppedWithin then (passed, true)
          else forward untilEnd fuel passed

/-- A number of reads after which nothing is left to pass on. -/
def forwardBound (e : Engine) : Nat := e.bus.backlog e.cursor * (e.lanes.length + 1)

def forwardAll (e : Engine) : Engine := (e.forward false e.forwardBound).1

def awaitWorkers (e : Engine) : Engine :=
  if allGone e.lanes then { e with pump := .ended } else { e with pump := .closing }

def turnPump (e : Engine) : Engine :=
  match e.pump with
  | .receiving =>
      let (e, ended) := e.forward true e.forwardBound
      if ended then e.closeLanes.awaitWorkers else e
  | .closing => e.awaitWorkers
  | .absent | .ended => e

/-- Whether a turn of the pump would change anything. -/
def canPump (e : Engine) : Bool :=
  match e.pump with
  | .receiving => (e.bus.next? e.cursor).isSome
  | .closing => allGone e.lanes
  | .absent | .ended => false

end Engine

end TaskEngine
