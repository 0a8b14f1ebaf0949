/-
  TaskEngine/Proofs/Polls.lean
  ============================
  **Shutdowns are polled.**

  A shutdown is a call that is polled until it answers: first for the runs, the schedules and the
  watcher to end, then for the lanes to be drained.  A poll comes down to one of two turns: that of a
  shutdown which waits for the runs, in the engine as it finds it (`poll_of_started`), or that of one
  which waits for the lanes (`turnShutdown_of_flushing`).
-/
import TaskEngine.Proofs.Stopping

namespace TaskEngine

namespace Engine

variable {e : Engine}

/-! ## 1. Polls -/

/-- A shutdown is asked for, or one that is under way is looked at again. -/
inductive Poll where
  | asks (bound : Bound) (grace : Duration)
  | waits (s : Shutdown)

namespace Poll

def shutdown : Poll → Shutdown
  | asks bound grace => { bound, grace }
  | waits s => s

def move : Poll → Move
  | asks bound grace => .shutdown bound grace
  | waits s => .awaitShutdown s

/-- Whether the poll may come: a shutdown waits for runs while the engine is stopping or when it has
stopped meanwhile, and for the lanes when it has stopped. -/
def fits (e : Engine) : Poll → Bool
  | asks .. => true
  | waits s =>
      match s.stage with
      | .draining => e.isClosing
      | .awaitingPump | .awaitingWorkers => e.phase == .stopped

end Poll

def poll (e : Engine) : Poll → Engine × ShutdownState
  | .asks bound grace => e.shutdown bound grace
  | .waits s => e.turnShutdown s

theorem perform_move (e : Engine) (p : Poll) : e.perform p.move = (e.poll p).1 := by
  cases p <;> rfl

theorem stopped_of_flushing {s : Shutdown} (fits : (Poll.waits s).fits e = true)
    (flushing : s.stage ≠ .draining) : e.phase = .stopped := by
  cases stage : s.stage with
  | draining => exact absurd stage flushing
  | awaitingPump => simpa [Poll.fits, stage] using fits
  | awaitingWorkers => simpa [Poll.fits, stage] using fits

theorem allows_move {p : Poll} (fits : p.fits e = true) : e.allows p.move = true := by
  cases p with
  | asks bound grace => rfl
  | waits s =>
      show e.isClosing = true
      by_cases draining : s.stage = .draining
      · simpa [Poll.fits, draining] using fits
      · simp [isClosing, stopped_of_flushing fits draining]

/-- The engine as a shutdown finds it: a running one is asked to stop first. -/
def asked (e : Engine) : Engine :=
  if e.phase = .running then e.beginStopping.publish { kind := .shutdownRequested } else e

theorem asked_of_running (running : e.phase = .running) :
    e.asked = e.beginStopping.publish { kind := .shutdownRequested } := by
  rw [asked, if_pos running]

theorem asked_of_not_running (other : e.phase ≠ .running) : e.asked = e := by
  rw [asked, if_neg other]

theorem phase_asked (started : e.phase = .running ∨ e.phase = .stopping) :
    e.asked.phase = .stopping := by
  rcases started with running | stopping
  · rw [asked_of_running running]
    rfl
  · rw [asked_of_not_running (by rw [stopping]; decide), stopping]

theorem isIdle_asked (e : Engine) : e.asked.isIdle = e.isIdle := by
  unfold asked
  split
  · have loop (t : TaskRecord) : t.markStopping.loop = t.loop := by
      unfold TaskRecord.markStopping
      split <;> rfl
    exact isIdle_congr rfl rfl (loops_map loop e.tasks)
  · rfl

/-- Shutdowns of an engine that is running or stopping wait for the runs. -/
theorem poll_of_started {p : Poll} (started : e.phase = .running ∨ e.phase = .stopping)
    (fits : p.fits e = true) :
    e.poll p = e.asked.turnShutdown p.shutdown ∧ p.shutdown.stage = .draining := by
  cases p with
  | asks bound grace =>
      refine ⟨?_, rfl⟩
      rcases started with running | stopping
      · simp only [poll, shutdown, running, asked_of_running running, Poll.shutdown]
      · have same : e.asked = e := asked_of_not_running (by rw [stopping]; decide)
        simp only [poll, shutdown, stopping, same, Poll.shutdown]
  | waits s =>
      have draining : s.stage = .draining := by
        by_contra flushing
        exact (ne_of_started started).2 (stopped_of_flushing fits flushing)
      refine ⟨?_, draining⟩
      have closing : e.isClosing = true := by simpa [Poll.fits, draining] using fits
      have other : e.phase ≠ .running := by
        intro running
        simp [isClosing, running] at closing
      rw [asked_of_not_running other]
      rfl

/-! ## 2. The last wait -/

theorem turnShutdown_of_flushing {s : Shutdown} (flushing : s.stage ≠ .draining) :
    e.turnShutdown s = (e, e.turnFlush s) := by
  cases stage : s.stage with
  | draining => exact absurd stage flushing
  | awaitingPump => rw [turnShutdown, stage]
  | awaitingWorkers => rw [turnShutdown, stage]

/-- The last wait of a shutdown goes on or ends in success. -/
theorem turnFlush_cases (e : Engine) (s : Shutdown) :
    e.turnFlush s = .error (.ok ()) ∨ e.turnFlush s = .ok s := by
  unfold turnFlush
  dsimp only
  repeat' split
  all_goals first | exact .inl rfl | exact .inr rfl

theorem turnFlush_of_reached {s : Shutdown} (reached : e.boundReached s.bound = true) :
    e.turnFlush s = .error (.ok ()) := by
  simp [turnFlush, reached]

/-- How the last wait begins: somebody else has begun it, the pump is waited for, or the lanes are
fed what is in the ring, closed and waited for. -/
inductive FlushStep (e : Engine) (s : Shutdown) : Engine × ShutdownState → Prop where
  | taken (idle : e.dispatch = .idle) : FlushStep e s (e, .error (.ok ()))
  | pump (pumping : e.dispatch = .pumping) :
      FlushStep e s ({ e with dispatch := .idle },
        { e with dispatch := .idle }.turnFlush { s with stage := .awaitingPump })
  | lanes (buffered : e.dispatch = .buffered) :
      FlushStep e s ({ e with dispatch := .idle }.forwardAll.closeLanes,
        { e with dispatch := .idle }.forwardAll.closeLanes.turnFlush
          { s with stage := .awaitingWorkers })

theorem beginFlush_step (e : Engine) (s : Shutdown) : FlushStep e s (e.beginFlush s) := by
  unfold beginFlush
  split
  · exact .taken ‹_›
  · exact .pump ‹_›
  · exact .lanes ‹_›

theorem beginFlush_of_reached {s : Shutdown}
    (reached : (e.beginFlush s).1.boundReached s.bound = true) :
    (e.beginFlush s).2 = .error (.ok ()) := by
  have step := e.beginFlush_step s
  generalize e.beginFlush s = begun at step reached ⊢
  cases step with
  | taken idle => rfl
  | pump pumping => exact turnFlush_of_reached (s := { s with stage := .awaitingPump }) reached
  | lanes buffered => exact turnFlush_of_reached (s := { s with stage := .awaitingWorkers }) reached

/-- Beginning the last wait is no error. -/
theorem beginFlush_ne_error (e : Engine) (s : Shutdown) (err : LifecycleError) :
    (e.beginFlush s).2 ≠ .error (.error err) := by
  have flush (e : Engine) (s : Shutdown) : e.turnFlush s ≠ .error (.error err) := by
    rcases e.turnFlush_cases s with ends | waits
    · rw [ends]
      exact nofun
    · rw [waits]
      exact nofun
  have step := e.beginFlush_step s
  generalize e.beginFlush s = begun at step ⊢
  cases step with
  | taken idle => exact nofun
  | pump pumping =>
      dsimp only
      exact flush _ _
  | lanes buffered =>
      dsimp only
      exact flush _ _

end Engine

end TaskEngine
