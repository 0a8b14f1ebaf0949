/-
  TaskEngine/Proofs/Isolation.lean
  ================================
  **Lanes do not feel each other.**

  Two sessions that are driven by the same steps and have one subscriber in common agree about its
  lane, whatever the other lanes are (`lane_is_isolated`).  A step does to a lane what the lane and
  the clock decide (`Sound.settle`, `Sound.sleep`, `Sound.close`), and the clock shows the same as
  long as the sessions are open.  Closing waits for all workers, so afterwards the clocks may differ;
  but then no worker is left that could look at them.
-/
import TaskEngine.Proofs.Rounds

namespace TaskEngine

namespace LaneSession

/-- What is asked of a session. -/
inductive Step where
  | emit (e : Event)
  | settle
  | sleep (d : Duration)
  | close
deriving DecidableEq, Repr

/-- A session that was closed is offered no events. -/
def perform (s : LaneSession) : Step → LaneSession
  | .emit e => if s.isOpen then s.emit e else s
  | .settle => s.settle
  | .sleep d => s.sleep d
  | .close => s.close

def after (s : LaneSession) (steps : List Step) : LaneSession := steps.foldl perform s

def lane? (s : LaneSession) (i : Nat) : Option Lane := s.fanout.lanes[i]?

/-- What subscriber `i` was given, with the times, the oldest first. -/
def handledBy (s : LaneSession) (i : Nat) : List (Instant × Event) :=
  (((s.lane? i).map (·.handled)).getD []).reverse

/-- The event that lane `i` refuses in a step, with the reason. -/
def refusal (s : LaneSession) (i : Nat) : Step → List (Event × Refusal)
  | .emit e => if s.isOpen then (((s.lane? i).bind (·.refusal?)).map (e, ·)).toList else []
  | .settle | .sleep _ | .close => []

/-- The events that lane `i` refuses, with the reasons, in order. -/
def refusals (s : LaneSession) (i : Nat) : List Step → List (Event × Refusal)
  | [] => []
  | step :: steps => s.refusal i step ++ (s.perform step).refusals i steps

/-! ## 1. What a step does to the lanes -/

variable {s s' : LaneSession} {i j : Nat}

/-- The executor knows its workers, the clock stands on whole milliseconds, and closing has ended
all workers. -/
structure Sound (s : LaneSession) : Prop where
  staffed : Fanout.Staffed s.executor
  whole : s.now.IsWhole
  ended : s.isOpen = false → ∀ l ∈ s.fanout.lanes, l.isGone = true

theorem sound_create (subscribers : List Subscriber) (busCapacity : Nat) :
    (create subscribers busCapacity).Sound := by
  refine ⟨Fanout.staffed_refresh List.nodup_nil ?_, Nat.dvd_zero _, ?_⟩
  · exact fun i mem => absurd mem List.not_mem_nil
  · intro closed
    exact absurd closed Bool.noConfusion

/-- What a step does that does not close the session: the clock moves on from now to `clock now`, and
every lane becomes what `look now` makes of it. -/
structure Passes (s s' : LaneSession) (clock : Instant → Instant) (look : Instant → Lane → Lane) :
    Prop where
  sound : s'.Sound
  isOpen : s'.isOpen = s.isOpen
  now : s'.now = clock s.now
  lanes : s'.fanout.lanes = s.fanout.lanes.map (look s.now)
  /-- A lane without a worker stays as it is. -/
  stays : ∀ now l, l.isGone = true → look now l = l

/-- The session with its processes further on. -/
theorem Sound.passes {clock : Instant → Instant} {look : Instant → Lane → Lane}
    {y : Executor Fanout Nat} (sound : s.Sound) (staffed : Fanout.Staffed y)
    (isOpen : y.state.isOpen = s.isOpen) (now : y.state.now = clock s.now)
    (whole : (clock s.now).IsWhole) (lanes : y.state.lanes = s.fanout.lanes.map (look s.now))
    (stays : ∀ now l, l.isGone = true → look now l = l) :
    Passes s { s with executor := y } clock look := by
  refine ⟨⟨staffed, ?_, ?_⟩, isOpen, now, lanes, stays⟩
  · rw [← now] at whole
    exact whole
  · intro closed l mem
    obtain ⟨before, old, rfl⟩ := List.mem_map.mp (lanes ▸ mem)
    have gone := sound.ended (isOpen.symm.trans closed) before old
    rwa [stays s.now before gone]

theorem Sound.emit (sound : s.Sound) (e : Event) :
    Passes s (s.emit e) id (fun _ l => l.offer e) := by
  have same : ((s.fanout).emit e).lanes.length = s.fanout.lanes.length := List.length_map _
  have staffed : Fanout.Staffed (s.executor.update Fanout.machine (·.emit e)) :=
    sound.staffed.update same
  exact sound.passes staffed rfl rfl sound.whole rfl fun _ l gone => l.offer_of_isGone gone e

theorem Sound.settle (sound : s.Sound) : Passes s s.settle id (fun now l => (l.work now).1) := by
  have settles := sound.staffed.settle
  apply sound.passes settles.staffed settles.isOpen settles.now sound.whole
  · exact settles.lanes
  · intro now l gone
    rw [l.work_of_isGone _ gone]

theorem Sound.sleep (sound : s.Sound) (d : Duration) :
    Passes s (s.sleep d) (fun now => now.ticks (Fanout.naps now d))
      (fun now l => (l.work now).1.passes now (Fanout.naps now d)) := by
  have sleeps := sound.staffed.sleep sound.whole d
  apply sound.passes sleeps.staffed sleeps.isOpen sleeps.now
  · exact Instant.isWhole_ticks sound.whole _
  · exact sleeps.lanes.trans List.map_map
  · intro now l gone
    rw [l.work_of_isGone _ gone, Lane.passes_of_isGone gone]

/-- What closing does: every lane is looked at until no worker is left. -/
structure Closes (s s' : LaneSession) : Prop where
  sound : s'.Sound
  isOpen : s'.isOpen = false
  lanes : ∃ n, s'.fanout.lanes = s.fanout.lanes.map fun l => (l.close.work s.now).1.passes s.now n

theorem close_of_closed (closed : s.isOpen = false) : s.close = s := by
  rw [close, if_neg (Bool.eq_false_iff.mp closed)]

theorem Sound.close (sound : s.Sound) (isOpen : s.isOpen = true) : Closes s s.close := by
  have staffed : Fanout.Staffed (s.executor.update Fanout.machine (·.close)) :=
    sound.staffed.update (List.length_map _)
  have closed : ∀ l ∈ (s.executor.update Fanout.machine (·.close)).state.lanes,
      l.isOpen = false := by
    intro l mem
    obtain ⟨before, -, rfl⟩ := List.mem_map.mp mem
    rfl
  have drains := staffed.await sound.whole closed
  rcases waited : (s.executor.update Fanout.machine (·.close)).await Fanout.machine
    Fanout.drained? none with ⟨y, answer⟩
  rw [waited] at drains
  unfold Fanout.drained? at waited
  rw [LaneSession.close, if_pos isOpen]
  dsimp only
  rw [waited]
  have settles := drains.staffed.settle
  have lanes := settles.lanes.trans (Fanout.rested_of_gone drains.gone)
  obtain ⟨n, drained⟩ := drains.lanes
  refine ⟨⟨settles.staffed, ?_, ?_⟩, settles.isOpen.trans drains.isOpen, n, ?_⟩
  · have time := settles.now
    have whole := drains.whole
    rw [← time] at whole
    exact whole
  · intro _ l mem
    exact drains.gone l (lanes ▸ mem)
  · have looked : (s.executor.update Fanout.machine (·.close)).state.rested =
        s.fanout.lanes.map fun l => (l.close.work s.now).1 := List.map_map
    rw [looked, List.map_map] at drained
    exact lanes.trans drained

/-! ## 2. Two sessions -/

/-- Two sound sessions that agree about one lane of each, and about the time while they are open. -/
structure Alike (i j : Nat) (s s' : LaneSession) : Prop where
  first : s.Sound
  second : s'.Sound
  isOpen : s'.isOpen = s.isOpen
  now : s.isOpen = true → s'.now = s.now
  lane : ∃ l, s.lane? i = some l ∧ s'.lane? j = some l

theorem Passes.lane? {clock : Instant → Instant} {look : Instant → Lane → Lane} {l : Lane}
    (passes : Passes s s' clock look) (found : s.lane? i = some l) :
    s'.lane? i = some (look s.now l) := by
  rw [LaneSession.lane?] at found ⊢
  rw [passes.lanes, List.getElem?_map, found, Option.map_some]

theorem Sound.isGone_of_closed {l : Lane} (sound : s.Sound) (closed : s.isOpen = false)
    (found : s.lane? i = some l) : l.isGone = true :=
  sound.ended closed l (List.mem_of_getElem? found)

/-- A step that does not close the sessions. -/
theorem Alike.pass {t t' : LaneSession} {clock : Instant → Instant} {look : Instant → Lane → Lane}
    (alike : Alike i j s s') (here : Passes s t clock look) (there : Passes s' t' clock look) :
    Alike i j t t' := by
  obtain ⟨l, found, found'⟩ := alike.lane
  refine ⟨here.sound, there.sound, ?_, ?_, look s.now l, here.lane? found, ?_⟩
  · rw [there.isOpen, here.isOpen, alike.isOpen]
  · intro isOpen
    rw [there.now, here.now, alike.now (here.isOpen.symm.trans isOpen)]
  · rw [there.lane? found']
    rcases isOpen : s.isOpen
    · -- after closing the clocks may differ, but nothing happens to the lane any more
      have gone := alike.first.isGone_of_closed isOpen found
      rw [here.stays _ l gone, here.stays _ l gone]
    · rw [alike.now isOpen]

theorem Alike.close (alike : Alike i j s s') (isOpen : s.isOpen = true) :
    Alike i j s.close s'.close := by
  obtain ⟨l, found, found'⟩ := alike.lane
  have here := alike.first.close isOpen
  have there := alike.second.close (alike.isOpen.trans isOpen)
  obtain ⟨m, lanes⟩ := here.lanes
  obtain ⟨n, lanes'⟩ := there.lanes
  have at_ : s.close.lane? i = some ((l.close.work s.now).1.passes s.now m) := by
    rw [lane?] at found ⊢
    rw [lanes, List.getElem?_map, found, Option.map_some]
  have at' : s'.close.lane? j = some ((l.close.work s.now).1.passes s.now n) := by
    rw [lane?] at found' ⊢
    rw [lanes', List.getElem?_map, found', Option.map_some, alike.now isOpen]
  have gone := here.sound.isGone_of_closed here.isOpen at_
  have gone' := there.sound.isGone_of_closed there.isOpen at'
  refine ⟨here.sound, there.sound, there.isOpen.trans here.isOpen.symm, ?_, _, at_, ?_⟩
  · intro open'
    exact absurd (here.isOpen.symm.trans open') Bool.noConfusion
  · rw [at', Lane.passes_unique gone' gone]

theorem Alike.perform (alike : Alike i j s s') (step : Step) :
    Alike i j (s.perform step) (s'.perform step) := by
  cases step with
  | emit e =>
      rw [LaneSession.perform, LaneSession.perform, alike.isOpen]
      split
      · exact alike.pass (alike.first.emit e) (alike.second.emit e)
      · exact alike
  | settle => exact alike.pass alike.first.settle alike.second.settle
  | sleep d => exact alike.pass (alike.first.sleep d) (alike.second.sleep d)
  | close =>
      rcases isOpen : s.isOpen
      · rw [LaneSession.perform, LaneSession.perform, close_of_closed isOpen,
          close_of_closed (alike.isOpen.trans isOpen)]
        exact alike
      · exact alike.close isOpen

theorem Alike.refusal (alike : Alike i j s s') (step : Step) :
    s'.refusal j step = s.refusal i step := by
  obtain ⟨l, found, found'⟩ := alike.lane
  cases step with
  | emit e => rw [LaneSession.refusal, LaneSession.refusal, alike.isOpen, found, found']
  | settle => rfl
  | sleep d => rfl
  | close => rfl

theorem Alike.refusals (alike : Alike i j s s') (steps : List Step) :
    s'.refusals j steps = s.refusals i steps := by
  induction steps generalizing s s' with
  | nil => rfl
  | cons step steps ih =>
      rw [LaneSession.refusals, LaneSession.refusals, alike.refusal, ih (alike.perform step)]

theorem Alike.after (alike : Alike i j s s') (steps : List Step) :
    Alike i j (s.after steps) (s'.after steps) := by
  induction steps generalizing s s' with
  | nil => exact alike
  | cons step steps ih => exact ih (alike.perform step)

theorem alike_create {subscribers others : List Subscriber} {shared : Subscriber}
    (here : subscribers[i]? = some shared) (there : others[j]? = some shared)
    (busCapacity otherCapacity : Nat) :
    Alike i j (create subscribers busCapacity) (create others otherCapacity) := by
  refine ⟨sound_create .., sound_create .., rfl, fun _ => rfl, { subscriber := shared }, ?_, ?_⟩
  · exact (List.getElem?_map ..).trans (congrArg _ here)
  · exact (List.getElem?_map ..).trans (congrArg _ there)

/-- **Lanes do not feel each other.**  Two sessions with one subscriber in common, at any place in
each, are driven by the same steps: it is given the same events, in the same order and at the same
times, and its lane refuses the same events for the same reasons; indeed the lane is the same.  How
many other subscribers there are does not matter, nor their capacities and delays, the events they
panic over and whether their workers are lost by that, nor the size of the ring for reports. -/
theorem lane_is_isolated {subscribers others : List Subscriber} {shared : Subscriber} {i j : Nat}
    (here : subscribers[i]? = some shared) (there : others[j]? = some shared)
    (busCapacity otherCapacity : Nat) (steps : List Step) :
    ((create subscribers busCapacity).after steps).handledBy i =
        ((create others otherCapacity).after steps).handledBy j ∧
      (create subscribers busCapacity).refusals i steps =
        (create others otherCapacity).refusals j steps ∧
      ((create subscribers busCapacity).after steps).lane? i =
        ((create others otherCapacity).after steps).lane? j := by
  have alike := alike_create here there busCapacity otherCapacity
  obtain ⟨l, found, found'⟩ := (alike.after steps).lane
  refine ⟨?_, (alike.refusals steps).symm, found.trans found'.symm⟩
  rw [handledBy, handledBy, found, found']

/-- A subscriber that is busy with every event, and has room for one more. -/
def slow : Subscriber := { name := "slow", capacity := 1, delay := .ofMilliseconds 3 }

/-- A subscriber whose worker is lost over the first kind of event. -/
def frail : Subscriber := { name := "frail", panicsOn := [.taskAdded], losesName := true }

/-- Two events before the workers look and two while one is busy; the last waits for the end. -/
def busyDay : List Step :=
  [.emit { kind := .taskAdded }, .emit { kind := .runStarted }, .settle, .emit { kind := .runStarted },
    .emit { kind := .managerStarted }, .sleep (.ofMilliseconds 4), .emit { kind := .runSucceeded },
    .close, .settle]

theorem lane_is_isolated_busy :
    ([frail, slow][1]? = some slow ∧ [slow][0]? = some slow) ∧
      ((create [frail, slow] 1).after busyDay).handledBy 1 =
        [(⟨0⟩, { kind := .taskAdded }), (⟨3000000⟩, { kind := .runStarted }),
          (⟨6000000⟩, { kind := .runSucceeded })] ∧
      (create [frail, slow] 1).refusals 1 busyDay =
        [({ kind := .runStarted }, .full), ({ kind := .managerStarted }, .full)] := by
  have here : [frail, slow][1]? = some slow := rfl
  have there : [slow][0]? = some slow := rfl
  obtain ⟨handled, refused, -⟩ := lane_is_isolated here there 1 16 busyDay
  rw [handled, refused]
  exact ⟨⟨here, there⟩, by decide +kernel, by decide +kernel⟩

end LaneSession

end TaskEngine
