/-
  TaskEngine/Broadcast.lean
  =========================
  **A ring with named readers.**

  Readers join and leave; each sees what is published while it is there, as far as the ring keeps
  it.  Once the publishing side is gone, readers get what is left, and then that it is closed.
-/
import TaskEngine.Event
import TaskEngine.Ring

namespace TaskEngine

/-- A ring of events with named readers. -/
structure Broadcast where
  ring : Ring Event
  /-- Whether there is still somebody to publish. -/
  isOpen : Bool := true
  readers : List (String × Nat) := []

inductive Received where
  | event (e : Event)
  | lagged (missed : Nat)
  | empty
  | closed
deriving Repr

namespace Broadcast

def create (capacity : Nat) : Broadcast := { ring := .ofCapacity capacity }

def leave (b : Broadcast) (id : String) : Broadcast :=
  { b with readers := b.readers.filter (·.1 != id) }

def hasReader (b : Broadcast) (id : String) : Bool := b.readers.any (·.1 == id)

def seat (b : Broadcast) (id : String) (cursor : Nat) : Broadcast :=
  { b.leave id with readers := (id, cursor) :: (b.leave id).readers }

/-- A reader joins, in the place of an older one of that name. -/
def join? (b : Broadcast) (id : String) : Option Broadcast :=
  if b.isOpen then some (b.seat id b.ring.sent) else none

def publish? (b : Broadcast) (e : Event) : Option Broadcast :=
  if b.isOpen then some { b with ring := b.ring.push e } else none

def close (b : Broadcast) : Broadcast := { b with isOpen := false }

/-- A reader looks for its next event, without waiting. -/
def receive? (b : Broadcast) (id : String) : Option (Broadcast × Received) :=
  (b.readers.lookup id).map fun cursor =>
    match b.ring.read cursor with
    | .entry e cursor => (b.seat id cursor, .event e)
    | .lagged missed cursor => (b.seat id cursor, .lagged missed)
    | .empty => (b, if b.isOpen then .empty else .closed)

/-- What a reader receives until nothing is left, in at most `fuel` looks. -/
def drainWithin (id : String) : (fuel : Nat) → Broadcast → Broadcast × List Received
  | 0, b => (b, [])
  | fuel + 1, b =>
      match b.receive? id with
      | some (b, .event e) => let (b, rest) := drainWithin id fuel b; (b, .event e :: rest)
      | some (b, .lagged n) => let (b, rest) := drainWithin id fuel b; (b, .lagged n :: rest)
      | some (b, .empty) | some (b, .closed) => (b, [])
      | none => (b, [])

/-- All that is left for a reader: one report of what it missed, and what the ring keeps. -/
def drain? (b : Broadcast) (id : String) : Option (Broadcast × List Received) :=
  (b.readers.lookup id).map fun cursor => drainWithin id (b.ring.backlog cursor + 1) b

end Broadcast

end TaskEngine
