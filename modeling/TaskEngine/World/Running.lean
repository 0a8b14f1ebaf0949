/-
  TaskEngine/World/Running.lean
  =============================
  **One run, from its first turn to its end.**

  A run calls the hook of the engine and that of its task, announces itself, and calls the work.
  When the work has answered, panicked or used up its time, the outcome is shown to both hooks, a
  failure also to the handler, the end is announced, and the run is finished.  A panic of a hook or
  of the handler is written to the log and changes nothing else.

  Within one turn the work plays its actions until it has to wait (`World.play`).
-/
import TaskEngine.World.State

namespace TaskEngine

inductive Halt where
  /-- It has to wait, and has these actions before it. -/
  | paused (pause : Pause) (rest : List Action)
  | answered (result : Except WorkError Unit)
  | panicked (info : String)

namespace World

/-! ### Callbacks -/

def guarded (w : World) (task callback : String) (panic : Option String) : World :=
  match panic with
  | some info => w.log (.ofCallbackPanic task callback info)
  | none => w

def callBefore (w : World) (callback : Callback) (hook : Option Hook) (spec : ResolvedSpec)
    (run : Run) : World :=
  match hook with
  | none => w
  | some .silent => w.note (.called callback run.id)
  | some (.noting id panics _ trigger _) =>
      let number := run.id.number
      ((((w.note (.called callback run.id)).trace spec.name
        (.before id number run.merged spec.tags)).triggerFor spec.name trigger).guarded spec.name
          "before_run" (if number ∈ panics then some (Hook.panicTextBefore number) else none))

def callAfter (w : World) (callback : Callback) (hook : Option Hook) (spec : ResolvedSpec)
    (run : Run) (outcome : Outcome) : World :=
  match hook with
  | none => w
  | some .silent => w.note (.called callback run.id)
  | some (.noting id _ panics _ trigger) =>
      let number := run.id.number
      ((((w.note (.called callback run.id)).trace spec.name
        (.after id number run.merged spec.tags outcome)).triggerFor spec.name trigger).guarded
          spec.name "after_run"
            (if number ∈ panics then some (Hook.panicTextAfter number) else none))

/-- What a handler does besides noting or logging: it may ask for a run, and may panic. -/
def handlerConduct (w : World) (task callback : String) (trigger : Option String) (panics : Bool) :
    World :=
  (w.triggerFor task trigger).guarded task callback
    (if panics then some Handler.panicText else none)

def callHandler (w : World) (task : String) (run : RunId) (outcome : Outcome) : World :=
  match outcome with
  | .succeeded | .canceled _ => w
  | .failed e =>
      let w := w.note (.called (.onError e) run)
      match w.handler with
      | .logging => w.log (.ofWorkError task e)
      | .noting trigger panics =>
          (w.trace task (.onError e)).handlerConduct task "on_error" trigger panics
  | .panicked info =>
      let w := w.note (.called (.onPanic info) run)
      match w.handler with
      | .logging => w.log (.ofWorkPanic task info)
      | .noting trigger panics =>
          (w.trace task (.onPanic info)).handlerConduct task "on_panic" trigger panics

/-! ### The work -/

/-- Whether the gate of a task lets a newcomer through at once. -/
def gateIsFree (w : World) (t : TaskId) : Bool :=
  match w.workshops[t]? with
  | some s => s.line.length < s.permits
  | none => false

/-- Whether a run that waits at the gate of its task has its permit. -/
def hasPermit (w : World) (id : RunId) : Bool :=
  match w.workshops[id.task]? with
  | some s => (s.line.take s.permits).contains id
  | none => false

def passGate (w : World) (id : RunId) : World :=
  w.updateWorkshop id.task fun s => { s with permits := s.permits - 1, line := s.line.erase id }

def joinLine (w : World) (id : RunId) : World :=
  w.updateWorkshop id.task fun s => { s with line := s.line ++ [id] }

/-- A run that is cut short leaves the line at the gate. -/
def leaveLine (w : World) (id : RunId) : World :=
  w.updateWorkshop id.task fun s => { s with line := s.line.erase id }

/-- Has the cancellation of a token noted. -/
def watchToken (w : World) (task : String) (token : Token) : World :=
  { w with
    sentinels := w.sentinels ++ [{ id := w.nextSentinel, task, token }]
    nextSentinel := w.nextSentinel + 1 }

/-- Plays actions until the work has to wait or comes to an end. -/
def play (id : RunId) (task : String) (token : Token) : List Action → World → World × Halt
  | [], w => (w, .answered (.ok ()))
  | a :: rest, w =>
      match a with
      | .succeed => (w, .answered (.ok ()))
      | .answer err => (w, .answered (.error err))
      | .panic info => (w, .panicked info)
      | .sleep d =>
          if d.isZero then play id task token rest w
          else (w, .paused (.sleep (w.now.later d)) rest)
      | .sleepOrCancel d =>
          if w.engine.isCancelled token then (w, .answered (.error .canceled))
          else if d.isZero then play id task token rest w
          else (w, .paused (.sleepOrCancel (w.now.later d)) rest)
      | .gate =>
          if w.gateIsFree id.task then play id task token rest (w.passGate id)
          else (w.joinLine id, .paused .gate rest)
      | .untilCancel =>
          if w.engine.isCancelled token then (w, .answered (.error .canceled))
          else (w, .paused (.cancel false) rest)
      | .awaitCancel =>
          if w.engine.isCancelled token then play id task token rest w
          else (w, .paused (.cancel true) rest)
      | .check =>
          if w.engine.isCancelled token then (w, .answered (.error .canceled))
          else play id task token rest w
      | .trigger target => play id task token rest (w.triggerFor task (some target))
      | .cancel t => play id task token rest (w.onEngine (·.cancel t))
      | .state target =>
          play id task token rest (w.trace task (.state (w.engine.statusOf? target)))
      | .watchToken => play id task token rest (w.watchToken task token)

/-- Whether what a run waits for is there. -/
def pauseOver (w : World) (run : Run) : Pause → Bool
  | .sleep due => due.isDue w.now
  | .sleepOrCancel due => w.engine.isCancelled run.token || due.isDue w.now
  | .gate => w.hasPermit run.id
  | .cancel _ => w.engine.isCancelled run.token

def resume (w : World) (task : String) (run : Run) (pause : Pause) (rest : List Action) :
    World × Halt :=
  let go (w : World) := play run.id task run.token rest w
  match pause with
  | .sleep _ => go w
  | .sleepOrCancel _ =>
      if w.engine.isCancelled run.token then (w, .answered (.error .canceled)) else go w
  | .gate => go (w.passGate run.id)
  | .cancel goesOn => if goesOn then go w else (w, .answered (.error .canceled))

/-! ### The run -/

/-- What follows once the outcome of a run is known. -/
def conclude (w : World) (spec : ResolvedSpec) (run : Run) (started : Instant) (outcome : Outcome) :
    World :=
  let elapsed := w.now.since started
  ((((w.callAfter .engineAfter w.hook spec run outcome).callAfter .taskAfter spec.hook spec run
    outcome).callHandler spec.name run.id outcome).publishAbout run.id.task
      (Engine.terminalEvent spec.name run.id.number outcome elapsed)).onEngine
        (·.finish run.id outcome)

/-- Acts on what the actions of the work came to. -/
def afterPlay (w : World) (spec : ResolvedSpec) (run : Run) (call : Nat) (started : Instant)
    (limit : Option (Duration × Instant)) : Halt → World
  | .paused pause rest =>
      w.onEngine (·.setProgress run.id (.working call started limit pause rest))
  | .answered result =>
      (w.trace spec.name (.workEnd call .returned)).conclude spec run started
        (.ofAnswer spec.reportCancellations result)
  | .panicked info =>
      (w.trace spec.name (.workEnd call .panicked)).conclude spec run started (.panicked info)

def callWork (w : World) (spec : ResolvedSpec) (run : Run) : World :=
  match spec.work.refusal? run.id.number with
  | some _ => w.onEngine (·.abandon run.id)
  | none =>
      let number := ((w.workshops[run.id.task]?).map (·.calls)).getD 0
      let called := ((w.updateWorkshop run.id.task fun s => { s with calls := number + 1 }).note
        (.called .work run.id)).trace spec.name
          (.work (number + 1) (w.engine.isCancelled run.token))
      let (played, halt) :=
        play run.id spec.name run.token (Work.clampedGet spec.work.calls number) called
      let limit := spec.timeout.map fun d => (d, w.now.later d)
      played.afterPlay spec run (number + 1) w.now limit halt

def launch (w : World) (spec : ResolvedSpec) (run : Run) : World :=
  (((w.callBefore .engineBefore w.hook spec run).callBefore .taskBefore spec.hook spec
    run).publishAbout run.id.task
      { kind := .runStarted, task := some spec.name, run := some run.id.number }).callWork spec run

def timeIsUp (w : World) (limit : Option (Duration × Instant)) : Bool :=
  match limit with
  | some (_, due) => due.isDue w.now
  | none => false

/-- The time of a run is up: its work is dropped, its token cancelled, and the run has failed. -/
def cutShort (w : World) (spec : ResolvedSpec) (run : Run) (call : Nat) (started : Instant)
    (limit : Duration) : World :=
  (((w.leaveLine run.id).trace spec.name (.workEnd call .dropped)).onEngine
    (·.cancel run.token)).conclude spec run started
      (.ofAnswer spec.reportCancellations (.error (.timeout limit)))

/-- A later turn of a run: its work is looked at first, then its time. -/
def continueRun (w : World) (spec : ResolvedSpec) (run : Run) (call : Nat) (started : Instant)
    (limit : Option (Duration × Instant)) (pause : Pause) (rest : List Action) : World :=
  if w.pauseOver run pause then
    let (played, halt) := w.resume spec.name run pause rest
    played.afterPlay spec run call started limit halt
  else match limit with
    | some (d, due) => if due.isDue w.now then w.cutShort spec run call started d else w
    | none => w

def turnRun (w : World) (id : RunId) : World :=
  match w.engine.run? id, w.engine.tasks[id.task]? with
  | some run, some task =>
      match run.progress with
      | .launched => w.launch task.spec run
      | .working call started limit pause rest =>
          w.continueRun task.spec run call started limit pause rest
  | _, _ => w

/-- Whether a turn of a run would change anything. -/
def canRun (w : World) (run : Run) : Bool :=
  match run.progress with
  | .launched => true
  | .working _ _ limit pause _ => w.pauseOver run pause || w.timeIsUp limit

def runAlarms (run : Run) : List Instant :=
  match run.progress with
  | .launched => []
  | .working _ _ limit pause _ =>
      (limit.map (·.2)).toList ++ match pause with
        | .sleep due | .sleepOrCancel due => [due]
        | .gate | .cancel _ => []

end World

end TaskEngine
