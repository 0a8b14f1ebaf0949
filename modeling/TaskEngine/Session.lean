/-
  TaskEngine/Session.lean
  =======================
  **A world driven step by step.**

  A session makes calls of an engine one after another, lets time pass, keeps the waits and calls
  that it has not heard the end of under names of its choice, and asks for what was noted since it
  last asked.  Between steps no process takes a turn, unless the step lets them.
-/
import TaskEngine.Arrangement
import TaskEngine.World.Processes

namespace TaskEngine

/-- A wait for a run, in the hands of the caller. -/
inductive RunWait where
  /-- The request was turned away, and the caller has not been told. -/
  | rejected (error : RequestError)
  /-- The caller was told that the request was turned away. -/
  | spent
  | waiting (waiter : WaiterId)
  | delivered
deriving DecidableEq, Repr

inductive Held where
  | wait (w : RunWait)
  | call (id : Nat)
deriving DecidableEq, Repr

/-- What looking after a wait or a call finds. -/
inductive Finding where
  | unknown
  | pending
  | waited (result : WaitResult)
  | alreadyDelivered
  | answered (time : Instant) (result : CallResult)

/-- A world with its processes, what the caller keeps, and how much was shown to it. -/
structure Session where
  executor : Executor World Process
  held : List (String × Held) := []
  /-- For every lane, how many of its events were shown. -/
  eventsShown : List Nat
  /-- For every lane, how many of its events were shown as records of the log. -/
  recordsShown : List Nat
  /-- How many entries of the journal there were when traces were last asked for. -/
  tracesShown : Nat := 0
  /-- How many entries of the journal there were when the log was last asked for. -/
  logShown : Nat := 0

namespace Session

def create (config : Config) (subscribers : List Subscriber) (hook : Option Hook)
    (handler : Handler) : Session where
  executor := .refresh World.machine { state := .create config subscribers hook handler }
  eventsShown := subscribers.map fun _ => 0
  recordsShown := subscribers.map fun _ => 0

def world (s : Session) : World := s.executor.state

def engine (s : Session) : Engine := s.world.engine

def now (s : Session) : Instant := s.world.now

def change (s : Session) (f : World → World) : Session :=
  { s with executor := s.executor.update World.machine f }

def ask {α : Type} (s : Session) (f : World → World × α) : Session × α :=
  let (w, a) := f s.world
  (s.change fun _ => w, a)

def askEngine {α : Type} (s : Session) (f : Engine → Engine × α) : Session × α :=
  s.ask fun w => let (engine, a) := f w.engine; ({ w with engine }, a)

/-! ### Calls that take no time -/

def add (s : Session) (spec : Spec) : Session × Except RegistrationError TaskId :=
  s.ask (·.add spec)

def hasTask (s : Session) (t : TaskId) : Bool := t < s.engine.tasks.length

def start (s : Session) (token : String) : Session × LifecycleResult :=
  s.askEngine (·.start (.named token))

def cancel (s : Session) (token : String) : Session :=
  s.change (·.onEngine (·.cancel (.named token)))

def request (s : Session) (t : TaskId) : Session × AdmissionResult := s.askEngine (·.request t none)

def requestTimes (t : TaskId) : Nat → Session → Session × List AdmissionResult
  | 0, s => (s, [])
  | n + 1, s =>
      let (s, result) := s.request t
      let (s, results) := requestTimes t n s
      (s, result :: results)

def trigger (s : Session) (name : String) : Session × AdmissionResult :=
  s.askEngine (·.trigger name)

def release (s : Session) (t : TaskId) (permits : Nat) : Session := s.change (·.release t permits)

/-! ### What is kept under a name -/

/-- Lets go of what is kept under a name: a caller that waits leaves, a call goes on. -/
def discard (s : Session) (id : String) : Session :=
  let rest := s.held.filter (·.1 != id)
  match s.held.lookup id with
  | some (.wait (.waiting waiter)) =>
      { s.change (·.onEngine (·.detach waiter)) with held := rest }
  | _ => { s with held := rest }

def keep (s : Session) (id : String) (h : Held) : Session :=
  let s := s.discard id
  { s with held := (id, h) :: s.held }

/-- Replaces what is kept under a name by what has become of it. -/
def rekeep (s : Session) (id : String) (h : Held) : Session :=
  { s with held := s.held.map fun p => if p.1 = id then (id, h) else p }

def wait (s : Session) (t : TaskId) (id : String) : Session :=
  match s.askEngine (·.requestWaiting t) with
  | (s, waiter, .ok _) => s.keep id (.wait (.waiting waiter))
  | (s, _, .error err) => s.keep id (.wait (.rejected err))

def keepCall (s : Session) (id : String) (f : World → World × Nat) : Session :=
  let (s, call) := s.ask f
  s.keep id (.call call)

/-- The limit of a wait that may take as long as `d`. -/
def within (s : Session) (d : Duration) : WaitLimit := .deadline (s.now.later d) d

def waitWithin (s : Session) (t : TaskId) (d : Duration) (id : String) : Session :=
  s.keepCall id (·.callWait t (s.within d))

def waitByNameWithin (s : Session) (name : String) (d : Duration) (id : String) : Session :=
  s.keepCall id (·.callWaitByName name (s.within d))

def waitUntil (s : Session) (t : TaskId) (token : String) (id : String) : Session :=
  s.keepCall id (·.callWait t (.token (.named token)))

def beginShutdown (s : Session) (token : Option String) (id : String) : Session :=
  s.keepCall id (·.callShutdown (token.map .named) false)

/-- What a wait for a run comes to when it is looked at. -/
def lookAtWait (e : Engine) : RunWait → RunWait × Finding
  | .rejected err => (.spent, .waited (.error err))
  | .spent => (.spent, .waited (.error .closed))
  | .waiting waiter =>
      match e.delivery? waiter with
      | some d => (.delivered, .waited d.result)
      | none => (.waiting waiter, .pending)
  | .delivered => (.delivered, .alreadyDelivered)

def poll (s : Session) (id : String) : Session × Finding :=
  match s.held.lookup id with
  | none => (s, .unknown)
  | some (.wait w) =>
      let (w, finding) := lookAtWait s.engine w
      (s.rekeep id (.wait w), finding)
  | some (.call n) =>
      match s.world.callResult? n with
      | some (time, result) => (s, .answered time result)
      | none => (s, .pending)

def drop (s : Session) (id : String) : Session × Bool :=
  match s.held.lookup id with
  | none => (s, false)
  | some (.wait _) => (s.discard id, true)
  | some (.call n) => ((s.change (·.abortCall n)).discard id, true)

/-! ### Steps that let processes take turns -/

def settle (s : Session) : Session := { s with executor := s.executor.settle World.machine }

def sleep (s : Session) (d : Duration) : Session :=
  { s with executor := s.executor.sleep World.machine d }

/-- Lets time pass until `poll` has an answer, for at most `limit` if there is one. -/
def awaitAnswer {α : Type} (s : Session) (limit : Option Duration)
    (poll : World → World × Option α) : Session × Option α :=
  let (executor, answer) := s.executor.await World.machine poll limit
  ({ s with executor }, answer)

/-- How long is waited for what is kept under a name: an hour. -/
def longestWait : Duration := .ofParts 3600 0

/-- Waits for what is kept under a name, and keeps it no longer.  With the answer comes its time. -/
def await (s : Session) (id : String) : Session × Option (Instant × Finding) :=
  match s.held.lookup id with
  | none => (s, some (s.now, .unknown))
  | some (.wait w) =>
      let (s, answer) := s.awaitAnswer (some longestWait) fun world =>
        match lookAtWait world.engine w with
        | (_, .pending) => (world, none)
        | (_, finding) => (world, some (world.now, finding))
      ((s.discard id).settle, answer)
  | some (.call n) =>
      let (s, answer) := s.awaitAnswer (some longestWait) fun world =>
        (world, (world.callResult? n).map fun r => (r.1, Finding.answered r.1 r.2))
      ((s.discard id).settle, answer)

def shutdown (s : Session) (token : Option String) : Session × Option (Instant × CallResult) :=
  let (s, n) := s.ask (·.callShutdown (token.map .named) true)
  let (s, answer) := s.awaitAnswer none fun world =>
    let world := if (world.call? n).any world.canCall then world.turnCall n else world
    (world, world.callResult? n)
  ((s.change (·.removeCall n)).settle, answer)

/-! ### What was noted -/

/-- The events that subscriber `i` was given since this was last asked. -/
def events (s : Session) (i : Nat) : Session × List (Instant × Event) :=
  let handled := match s.engine.lanes[i]? with
    | some l => if l.subscriber.logs then [] else l.handled
    | none => []
  let fresh := handled.take (handled.length - (s.eventsShown[i]?).getD 0)
  ({ s with eventsShown := s.eventsShown.set i handled.length },
    arrange (fun p => Place.ofEvent p.1 p.2) fresh.reverse)

/-- The entries of the journal that came after the first `shown`, in order. -/
def entriesAfter (s : Session) (shown : Nat) : List Entry :=
  (s.engine.journal.take (s.engine.journal.length - shown)).reverse

/-- What the code of callers noted since this was last asked. -/
def traces (s : Session) : Session × List (Instant × String × Trace) :=
  let fresh := (s.entriesAfter s.tracesShown).filterMap fun entry =>
    entry.note.traced?.map fun t => (entry.time, t)
  ({ s with tracesShown := s.engine.journal.length },
    arrange (fun p => { time := p.1, task := some p.2.1, rank := 1 }) fresh)

/-- The records that a lane with a log writer wrote after the first `shown`. -/
def laneRecords (l : Lane) (shown : Nat) : List (Instant × LogRecord) :=
  if l.subscriber.logs then
    (l.handled.take (l.handled.length - shown)).reverse.map fun p => (p.1, .ofEvent p.2)
  else []

/-- What was written to the log since this was last asked. -/
def records (s : Session) : Session × List (Instant × LogRecord) :=
  let written := (s.entriesAfter s.logShown).filterMap fun entry =>
    entry.note.logged?.map fun r => (entry.time, r)
  let byLanes := (s.engine.lanes.zip s.recordsShown).flatMap fun p => laneRecords p.1 p.2
  ({ s with
     logShown := s.engine.journal.length
     recordsShown := s.engine.lanes.map (·.handled.length) },
    arrange (fun p => Place.ofRecord p.1 p.2) (written ++ byLanes))

end Session

end TaskEngine
