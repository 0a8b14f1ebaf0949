/-
  TaskEngine/Config.lean
  ======================
  **Settings of an engine.**

  A timeout of zero stands for none, and the event ring holds at least one event.
-/
import TaskEngine.Time.Duration

namespace TaskEngine

/-- Settings of an engine, with their defaults. -/
structure Config where
  /-- How long a shutdown waits for the work in flight. -/
  grace : Duration := .ofParts 30 0
  /-- How many events the ring keeps for a reader that is behind. -/
  busCapacity : Nat := 1024
  /-- How long a run may take if its task does not say; zero is without limit. -/
  timeout : Duration := .zero
  /-- Whether cancellations count as failures if the task does not say. -/
  reportCancellations : Bool := false
deriving DecidableEq, Repr

namespace Config

def defaultTimeout (c : Config) : Option Duration :=
  if c.timeout.isZero then none else some c.timeout

def clampedBusCapacity (c : Config) : Nat := max c.busCapacity 1

end Config

end TaskEngine
