/-
  TaskEngine/Spec.lean
  ====================
  **What to run, and how.**

  A `Spec` is a piece of work with its schedule and its options.  There are two ways to write one:
  a chain of calls that each set a field at once (`Spec.Call`), and a draft that collects options
  and is turned into a spec at the end (`Draft`).

  `Spec.resolve` checks a spec against the settings of an engine and fixes what the spec left open.
-/
import TaskEngine.Behaviour
import TaskEngine.Config
import TaskEngine.Policy

namespace TaskEngine

open Text

/-! ### Schedules -/

structure Every where
  interval : Duration
  tick : TickPolicy := .fixedDelay
  /-- Whether the first tick is at once, and not one interval later. -/
  startImmediately : Bool := false
deriving DecidableEq, Repr

/-- How a task gets its runs. -/
inductive Schedule where
  | onDemand
  | every (e : Every)
deriving DecidableEq, Repr

namespace Schedule

def isPeriodic : Schedule → Bool
  | onDemand => false
  | every _ => true

def label : Schedule → String
  | onDemand => "trigger"
  | every _ => "every"

/-- The schedule as a description of a task shows it. -/
def description : Schedule → String
  | onDemand => "Trigger"
  | every e =>
      "Every(Every \x7b interval: " ++ e.interval.text ++ ", tick: " ++ e.tick.description
        ++ ", start_immediately: " ++ toString e.startImmediately ++ " \x7d)"

/-- Changes the periodic part, if there is one. -/
def mapEvery (f : Every → Every) : Schedule → Schedule
  | onDemand => onDemand
  | every e => every (f e)

end Schedule

/-! ### Specs -/

/-- What to run, and how. -/
structure Spec where
  work : Work
  schedule : Schedule
  /-- The name to find the task by; nothing finds a task with the empty name. -/
  name : String := ""
  tags : List String := []
  maxConcurrent : Nat := 1
  overlap : Overlap := .skip
  /-- How long a run may take; left open, or zero, the settings of the engine decide. -/
  timeout : Option Duration := none
  reportCancellations : Option Bool := none
  hook : Option Hook := none
deriving DecidableEq, Repr

namespace Spec

def onDemand (work : Work) : Spec := { work, schedule := .onDemand }

def every (work : Work) (interval : Duration) : Spec := { work, schedule := .every { interval } }

def withName (s : Spec) (name : String) : Spec := { s with name }

def withTags (s : Spec) (tags : List String) : Spec := { s with tags }

def withMaxConcurrent (s : Spec) (maxConcurrent : Nat) : Spec := { s with maxConcurrent }

def withOverlap (s : Spec) (overlap : Overlap) : Spec := { s with overlap }

def withTick (s : Spec) (tick : TickPolicy) : Spec :=
  { s with schedule := s.schedule.mapEvery fun e => { e with tick } }

def withInterval (s : Spec) (interval : Duration) : Spec :=
  { s with schedule := s.schedule.mapEvery fun e => { e with interval } }

/-- Sets whether a periodic task begins with a tick. -/
def withStartImmediately (s : Spec) (startImmediately : Bool) : Spec :=
  { s with schedule := s.schedule.mapEvery fun e => { e with startImmediately } }

def withTimeout (s : Spec) (timeout : Option Duration) : Spec := { s with timeout }

def withReportCancellations (s : Spec) (yes : Bool) : Spec :=
  { s with reportCancellations := some yes }

def withHook (s : Spec) (hook : Hook) : Spec := { s with hook := some hook }

/-- One call of the chain that completes a spec. -/
inductive Call where
  | name (name : String)
  | tags (tags : List String)
  | maxConcurrent (n : Nat)
  | overlap (overlap : Overlap)
  | tick (tick : TickPolicy)
  | interval (interval : Duration)
  | startImmediately (yes : Bool)
  | timeout (timeout : Option Duration)
  | reportCancellations (yes : Bool)
  | hook (hook : Hook)
deriving DecidableEq, Repr

def apply (s : Spec) : Call → Spec
  | .name name => s.withName name
  | .tags tags => s.withTags tags
  | .maxConcurrent n => s.withMaxConcurrent n
  | .overlap overlap => s.withOverlap overlap
  | .tick tick => s.withTick tick
  | .interval interval => s.withInterval interval
  | .startImmediately yes => s.withStartImmediately yes
  | .timeout timeout => s.withTimeout timeout
  | .reportCancellations yes => s.withReportCancellations yes
  | .hook hook => s.withHook hook

end Spec

/-! ### Drafts -/

/-- Options collected for a spec. -/
structure Draft where
  name : String
  tags : List String := []
  interval : Option Duration := none
  tick : TickPolicy := .fixedDelay
  startImmediately : Bool := false
  maxConcurrent : Nat := 1
  overlap : Overlap := .skip
  timeout : Option Duration := none
  reportCancellations : Option Bool := none
  hook : Option Hook := none
deriving DecidableEq, Repr

namespace Draft

/-- One call that adds an option to a draft. -/
inductive Call where
  | every (interval : Duration)
  | tick (tick : TickPolicy)
  | startImmediately
  /-- Adds a tag behind those given before. -/
  | tag (tag : String)
  | maxConcurrent (n : Nat)
  | overlap (overlap : Overlap)
  | timeout (timeout : Duration)
  | reportCancellations (yes : Bool)
  | hook (hook : Hook)
deriving DecidableEq, Repr

def apply (d : Draft) : Call → Draft
  | .every interval => { d with interval := some interval }
  | .tick tick => { d with tick }
  | .startImmediately => { d with startImmediately := true }
  | .tag tag => { d with tags := d.tags ++ [tag] }
  | .maxConcurrent n => { d with maxConcurrent := n }
  | .overlap overlap => { d with overlap }
  | .timeout timeout => { d with timeout := some timeout }
  | .reportCancellations yes => { d with reportCancellations := some yes }
  | .hook hook => { d with hook := some hook }

/-- The spec that a draft describes, for a piece of work. -/
def build (d : Draft) (work : Work) : Spec :=
  let base := match d.interval with
    | some interval =>
        ((Spec.every work interval).withTick d.tick).withStartImmediately d.startImmediately
    | none => Spec.onDemand work
  let named := ((((base.withName d.name).withTags d.tags).withMaxConcurrent
    d.maxConcurrent).withOverlap d.overlap).withTimeout d.timeout
  let reporting := match d.reportCancellations with
    | some yes => named.withReportCancellations yes
    | none => named
  match d.hook with
  | some hook => reporting.withHook hook
  | none => reporting

end Draft

/-! ### Resolution -/

/-- A checked spec with nothing left open. -/
structure ResolvedSpec where
  work : Work
  schedule : Schedule
  name : String
  tags : List String
  maxConcurrent : Nat
  overlap : Overlap
  timeout : Option Duration
  reportCancellations : Bool
  hook : Option Hook
deriving DecidableEq, Repr

/-- Whether the schedule is periodic without an interval. -/
def Schedule.lacksInterval : Schedule → Bool
  | onDemand => false
  | every e => e.interval.isZero

/-- Checks a spec, and fills in the settings that it leaves open. -/
def Spec.resolve (s : Spec) (config : Config) : Except RegistrationError ResolvedSpec :=
  if s.maxConcurrent = 0 then .error .invalidCapacity
  else if s.schedule.lacksInterval then .error .invalidInterval
  else .ok {
    work := s.work
    schedule := s.schedule
    name := s.name
    tags := s.tags
    maxConcurrent := s.maxConcurrent
    overlap := s.overlap
    timeout := (s.timeout.filter (!·.isZero)).or config.defaultTimeout
    reportCancellations := s.reportCancellations.getD config.reportCancellations
    hook := s.hook }

/-- The description of a task by its name and schedule. -/
def ResolvedSpec.description (s : ResolvedSpec) : String :=
  "TaskHandle \x7b name: " ++ quote s.name ++ ", schedule: " ++ s.schedule.description ++ " \x7d"

end TaskEngine
