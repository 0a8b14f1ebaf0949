/-
  TaskEngine/Proofs/EndMarker.lean
  ================================
  **Whether the end marker of a shutdown reaches the lanes.**

  A shutdown that succeeds publishes `AllStoppedWithin` and waits for the pump, which reads up to
  that event, passes it on, closes the lanes and ends with their workers.  The marker waits in a ring
  that is written without waiting, though, and reports of the lanes are written there too.

  With a single lane whose subscriber panics over reports of panics and over the end marker at most,
  each event that is read makes room for the one report that it can cause, and the workers publish
  nothing: the marker is read (`WindsUp`).  With two lanes, one event can cause two reports; and a
  panic over anything else can be reported while the marker waits.  In both cases a small ring loses
  the marker, and the shutdown waits for ever.
-/
import TaskEngine.Proofs.Quiescence
import TaskEngine.Proofs.Stopping

namespace TaskEngine

namespace Engine

variable {e e' : Engine}

/-! ## 1. What a shutdown relies on -/

/-- The end marker was the last event to be passed on, the lanes are closed, and pump and workers
have ended; a shutdown that waits for the pump returns. -/
structure Flushed (e : Engine) : Prop where
  last : ∃ event rest, e.forwarded = event :: rest ∧ event.kind = .allStoppedWithin
  closed : ∀ l ∈ e.lanes, l.isOpen = false
  workers : allGone e.lanes = true
  pump : e.pump = .ended
  returns : ∀ s : Shutdown, s.stage = .awaitingPump → e.turnFlush s = .error (.ok ())

/-- Whenever a started engine has stopped, the pump finds an end marker in the ring as long as it
receives; turns of the pump and the workers run out, and when they have, everything is flushed. -/
def KeepsEndMarker (config : Config) (subs : List Subscriber) : Prop :=
  ∀ (before : List Move) (m : Move) (later : List Move),
    (create config subs).admits (before ++ m :: later) = true →
    (((create config subs).after before).phase = .running ∨
      ((create config subs).after before).phase = .stopping) →
    (((create config subs).after before).perform m).phase = .stopped →
    let e := (create config subs).after (before ++ m :: later)
    (e.pump = .receiving → ∃ event ∈ e.bus.unread e.cursor, event.kind = .allStoppedWithin) ∧
      e.ComesToRest ∧ ((∀ next, ¬FeedStep e next) → e.Flushed)

/-! ## 2. A single lane -/

/-- A started engine that has stopped: as long as the pump receives, an end marker waits for it; from
then on the marker is the last event that was passed on. -/
structure WindsUp (e : Engine) : Prop where
  stopped : e.phase = .stopped
  idle : e.isIdle = true
  taken : e.dispatch = .idle
  manned : e.pump ≠ .absent
  marked : e.pump = .receiving →
    ∃ event ∈ e.bus.unread e.cursor, event.kind = .allStoppedWithin
  last : e.pump ≠ .receiving →
    ∃ event rest, e.forwarded = event :: rest ∧ event.kind = .allStoppedWithin
  closed : e.pump ≠ .receiving → ∀ l ∈ e.lanes, l.isOpen = false
  ended : e.pump = .ended → allGone e.lanes = true

theorem Completed.marked (h : Completed e e') (trails : e.Trails) :
    ∃ event ∈ e'.bus.unread e'.cursor, event.kind = .allStoppedWithin := by
  rw [h.bus, h.cursor, Ring.unread_push _ _ trails]
  exact ⟨{ kind := .allStoppedWithin }, List.mem_append_right _ (List.mem_singleton_self _), rfl⟩

theorem Stops.windsUp (h : Stops e e') (attended : e.Attended) (trails : e.Trails)
    (started : e.phase = .running ∨ e.phase = .stopping) : e'.WindsUp := by
  obtain ⟨found, events, s, published, idle, rfl⟩ := h
  obtain ⟨receiving, pumping⟩ := attended.busy started
  have receives : found.pump = .receiving := published.pump.trans receiving
  have trails' : found.Trails := by
    rw [Trails, published.cursor, published.bus]
    exact Nat.le_trans trails (sent_le_foldl _ _)
  have done : Completed found (found.complete s).1 := by
    apply completed s
    rw [published.dispatch, pumping]
    decide
  have still : (found.complete s).1.pump = .receiving := done.pump.trans receives
  refine ⟨done.phase, done.idle.trans idle, done.dispatch, ?_, fun _ => done.marked trails',
    fun other => absurd still other, fun other => absurd still other, ?_⟩
  · rw [still]
    decide
  · intro ended
    cases still.symm.trans ended

theorem length_emitTo_le (lanes : List Lane) (event : Event) :
    (emitTo lanes event).2.length ≤ lanes.length :=
  List.length_filterMap_le _ _

/-- Once the marker has been passed on and the lanes are closed, the pump waits for the workers. -/
theorem windsUp_awaitWorkers (stopped : e.awaitWorkers.phase = .stopped)
    (idle : e.awaitWorkers.isIdle = true) (taken : e.dispatch = .idle)
    (last : ∃ event rest, e.forwarded = event :: rest ∧ event.kind = .allStoppedWithin)
    (closed : ∀ l ∈ e.lanes, l.isOpen = false) : e.awaitWorkers.WindsUp := by
  unfold awaitWorkers at stopped idle ⊢
  split
  · rename_i gone
    rw [if_pos gone] at stopped idle
    exact ⟨stopped, idle, taken, (fun absent => nomatch absent), (fun receiving => nomatch receiving),
      fun _ => last, fun _ => closed, fun _ => gone⟩
  · rename_i some
    rw [if_neg some] at stopped idle
    exact ⟨stopped, idle, taken, (fun absent => nomatch absent), (fun receiving => nomatch receiving),
      fun _ => last, fun _ => closed, (fun ended => nomatch ended)⟩

/-- Reading one event makes room for the one report that it can cause. -/
theorem WindsUp.receive (h : e.WindsUp) (single : e.lanes.length = 1) : e.receive.WindsUp := by
  have aside := aside_receive e
  have idle : e.receive.isIdle = true := by
    rw [isIdle_congr aside.runs aside.watching (by rw [aside.tasks])]
    exact h.idle
  have phase := aside.phase.trans h.stopped
  have step := e.receive_step
  generalize e.receive = after at step idle phase ⊢
  cases step with
  | nothing quiet => exact h
  | passes event cursor receiving next goesOn =>
      have few := length_emitTo_le e.lanes event
      have room := e.bus.length_unread_le e.cursor
      have read := Ring.unread_of_next? next
      rw [read, List.length_cons] at room
      have waits := unread_foldl_of_room (emitTo e.lanes event).2
        (Ring.le_sent_of_next? next) (by omega)
      obtain ⟨marker, mem, isMarker⟩ := h.marked receiving
      rw [read] at mem
      have ahead : marker ∈ e.bus.unread cursor := by
        rcases List.mem_cons.mp mem with rfl | mem
        · exact absurd isMarker goesOn
        · exact mem
      rw [emit_eq] at idle phase ⊢
      refine ⟨phase, idle, h.taken, h.manned, fun _ => ⟨marker, ?_, isMarker⟩,
        fun other => absurd receiving other, fun other => absurd receiving other, ?_⟩
      · show marker ∈ (List.foldl Ring.push e.bus (emitTo e.lanes event).2).unread cursor
        rw [waits]
        exact List.mem_append_left _ ahead
      · intro ended
        cases receiving.symm.trans ended
  | ends event cursor receiving next last =>
      have passed : ({ e with cursor }.emit event).closeLanes.forwarded = event :: e.forwarded :=
        forwarded_emit { e with cursor } event
      have dispatch : ({ e with cursor }.emit event).closeLanes.dispatch = .idle := by
        rw [closeLanes, emit_eq]
        exact h.taken
      apply windsUp_awaitWorkers phase idle dispatch ⟨event, e.forwarded, passed, last⟩
      intro l mem
      obtain ⟨open', -, rfl⟩ := List.mem_map.mp mem
      rfl
  | awaits closing =>
      have away : e.pump ≠ .receiving := by
        rw [closing]
        decide
      exact windsUp_awaitWorkers phase idle h.taken (h.last away) (h.closed away)

/-- The workers publish nothing while the marker waits, and none goes on that has ended. -/
theorem WindsUp.work (h : e.WindsUp) (guarded : e.Guarded) (i : Nat) : (e.workLane i).WindsUp := by
  have aside := aside_workLane e i
  have idle : (e.workLane i).isIdle = true := by
    rw [isIdle_congr aside.runs aside.watching (by rw [aside.tasks])]
    exact h.idle
  have pump := e.pump_workLane i
  have forwarded := forwarded_workLane e i
  have dispatch : (e.workLane i).dispatch = e.dispatch := by rw [workLane_eq]
  have cursor : (e.workLane i).cursor = e.cursor := by rw [workLane_eq]
  rcases e.workLane_cases i with ⟨-, same⟩ | ⟨l, there, lanes, bus⟩
  · rw [same]
    exact h
  · have mem : l ∈ e.lanes := List.mem_of_getElem? there
    refine ⟨aside.phase.trans h.stopped, idle, dispatch.trans h.taken, ?_, ?_, ?_, ?_, ?_⟩
    · rw [pump]
      exact h.manned
    · rw [pump, cursor, bus]
      intro receiving
      rw [guarded.silent (.inl receiving) mem]
      exact h.marked receiving
    · rw [pump, forwarded]
      exact h.last
    · rw [pump, lanes]
      intro away l' mem'
      rcases List.mem_or_eq_of_mem_set mem' with mem' | rfl
      · exact h.closed away l' mem'
      · exact (Lane.worked_work e.now l).isOpen.trans (h.closed away l mem)
    · rw [pump, lanes]
      intro ended
      have gone := List.all_eq_true.mp (h.ended ended)
      apply List.all_eq_true.mpr
      intro l' mem'
      rcases List.mem_or_eq_of_mem_set mem' with mem' | rfl
      · exact gone l' mem'
      · exact Lane.isGone_work (gone l mem)

theorem WindsUp.complete (h : e.WindsUp) (trails : e.Trails) (s : Shutdown) :
    (e.complete s).1.WindsUp := by
  have done : Completed e (e.complete s).1 := by
    apply completed s
    rw [h.taken]
    decide
  refine ⟨done.phase, done.idle.trans h.idle, done.dispatch, ?_, fun _ => done.marked trails,
    ?_, ?_, ?_⟩
  · rw [done.pump]
    exact h.manned
  · rw [done.pump, done.forwarded]
    exact h.last
  · rw [done.pump, done.lanes]
    exact h.closed
  · rw [done.pump, done.lanes]
    exact h.ended

theorem WindsUp.aftermath (h : e.WindsUp) (guarded : e.Guarded) (trails : e.Trails)
    (single : e.lanes.length = 1) (step : Aftermath e e') : e'.WindsUp := by
  cases step with
  | rests rests =>
      have idle := rests.isIdle
      obtain ⟨published, phase, -⟩ := rests
      have bus : e'.bus = e.bus := published.bus
      refine ⟨phase.trans h.stopped, idle.trans h.idle, published.dispatch.trans h.taken, ?_,
        ?_, ?_, ?_, ?_⟩
      · rw [published.pump]
        exact h.manned
      · rw [published.pump, bus, published.cursor]
        exact h.marked
      · rw [published.pump, published.forwarded]
        exact h.last
      · rw [published.pump, published.lanes]
        exact h.closed
      · rw [published.pump, published.lanes]
        exact h.ended
  | receive => exact h.receive single
  | work i => exact h.work guarded i
  | complete s => exact h.complete trails s

/-- When no turns are left, the marker was read: the workers of closed lanes without anything to do
have ended, and so has the pump. -/
theorem WindsUp.flushed (h : e.WindsUp) (rest : ∀ next, ¬FeedStep e next) : e.Flushed := by
  have idle : e.canPump = false := Bool.eq_false_iff.mpr fun due => rest _ (.pump due)
  have away : e.pump ≠ .receiving := by
    intro receiving
    obtain ⟨marker, mem, -⟩ := h.marked receiving
    cases next : e.bus.next? e.cursor with
    | none =>
        rw [Ring.unread_eq_nil_of_next? next] at mem
        cases mem
    | some found =>
        rw [canPump, receiving] at idle
        simp [next] at idle
  have gone : allGone e.lanes = true := by
    apply List.all_eq_true.mpr
    intro l mem
    obtain ⟨i, inside, there⟩ := List.getElem_of_mem mem
    apply Lane.isGone_of_resting e.now (h.closed away l mem)
    intro later after
    refine Bool.eq_false_iff.mpr fun due => rest _ (.work i l later after ?_ due)
    rw [List.getElem?_eq_getElem inside, there]
  have pump : e.pump = .ended := by
    cases pump : e.pump with
    | absent => exact absurd pump h.manned
    | receiving => exact absurd pump away
    | ended => rfl
    | closing =>
        rw [canPump, pump] at idle
        exact absurd gone (Bool.eq_false_iff.mp idle)
  refine ⟨h.last away, h.closed away, gone, pump, ?_⟩
  intro s stage
  simp [turnFlush, stage, pump]

/-- **A single subscriber that panics over reports of panics and over the end marker at most cannot
make a shutdown lose its end marker.** -/
theorem keepsEndMarker_of_tempered (config : Config) {subs : List Subscriber}
    (single : subs.length = 1) (tempered : ∀ s ∈ subs, ∀ k ∈ s.panicsOn, k.isTame = false) :
    KeepsEndMarker config subs := by
  intro before m later admitted started stopped
  obtain ⟨first, admitted⟩ := (admits_append ..).mp admitted
  obtain ⟨allowed, rest⟩ := (admits_cons ..).mp admitted
  let I (e : Engine) : Prop := e.Trails ∧ e.Guarded ∧ e.subscribers = subs
  have feeds (e e' : Engine) (h : I e) (step : Feeds e e') : I e' :=
    ⟨h.1.feeds step, h.2.1.feeds step, step.subscribers.trans h.2.2⟩
  have length {e : Engine} (h : I e) : e.lanes.length = 1 := by
    rw [← single, ← h.2.2, subscribers, List.length_map]
  have some : subs ≠ [] := by
    rintro rfl
    cases single
  have held : I ((create config subs).after before) := feeds_after feeds first
    ⟨trails_create config subs, guarded_create config tempered, subscribers_create config subs⟩
  have attended : ((create config subs).after before).Attended :=
    feeds_after (fun _ _ h => Attended.feeds h) first (attended_create config some)
  -- from the stop on, the engine winds up
  have begun := (perform_stops started stopped).windsUp attended held.1 started
  have done : (((create config subs).after before).perform m |>.after later).WindsUp ∧
      I (((create config subs).after before).perform m |>.after later) := by
    refine invariant_after (P := fun e => e.WindsUp ∧ I e) ?_ rest
      ⟨begun, feeds_perform feeds allowed held⟩
    rintro e m allowed ⟨winds, held⟩
    have step := perform_stopped winds.stopped winds.idle allowed
    exact ⟨winds.aftermath held.2.1 held.1 (length held) step, feeds_perform feeds allowed held⟩
  rw [← after_cons, ← after_append] at done
  obtain ⟨winds, held⟩ := done
  exact ⟨winds.marked, held.2.1.comesToRest held.1, winds.flushed⟩

/-! ## 3. Lost markers -/

/-- A history in which the pump is left without the marker of a shutdown. -/
structure LosesEndMarker (config : Config) (subs : List Subscriber) (before : List Move) (m : Move)
    (later : List Move) : Prop where
  admitted : (create config subs).admits (before ++ m :: later) = true
  started : ((create config subs).after before).phase = .running ∨
    ((create config subs).after before).phase = .stopping
  stopped : (((create config subs).after before).perform m).phase = .stopped
  receiving : ((create config subs).after (before ++ m :: later)).pump = .receiving
  lost : ∀ event ∈ ((create config subs).after (before ++ m :: later)).bus.unread
    ((create config subs).after (before ++ m :: later)).cursor, event.kind ≠ .allStoppedWithin

theorem LosesEndMarker.not_keeps {config : Config} {subs : List Subscriber} {before later : List Move}
    {m : Move} (h : LosesEndMarker config subs before m later) : ¬KeepsEndMarker config subs := by
  intro keeps
  obtain ⟨event, mem, marker⟩ :=
    (keeps before m later h.admitted h.started h.stopped).1 h.receiving
  exact h.lost event mem marker

def patientShutdown : Shutdown := { bound := .token (.named "never"), grace := .zero }

/-- The last event is given to the subscriber, and then the runs, the watcher and the schedule end. -/
def windingDown : List Move :=
  [.receive, .finish ⟨0, 1⟩ .succeeded, .finish ⟨0, 2⟩ .succeeded,
    .shutdown patientShutdown.bound .zero, .watch, .schedule 0]

/-- The subscriber panics over an ordinary event while the marker waits in a ring for one event. -/
theorem losesEndMarker_of_ordinary {k : EventKind} (ordinary : k.isOrdinary = true) :
    LosesEndMarker { busCapacity := 1 } [{ name := "s", capacity := 1, panicsOn := [k] }]
      (leadingTo k ++ windingDown) (.awaitShutdown patientShutdown) [.work 0] := by
  cases k <;> first
    | exact ⟨by decide, by decide, by decide, by decide, by decide⟩
    | cases ordinary

theorem losesEndMarker_of_overflow :
    LosesEndMarker { busCapacity := 1 }
      [{ name := "s", capacity := 1, panicsOn := [.subscriberOverflow] }]
      [.start (.named "t"), .receive, .shutdown patientShutdown.bound .zero, .receive, .work 0,
        .receive, .watch]
      (.awaitShutdown patientShutdown) [.work 0] :=
  ⟨by decide, by decide, by decide, by decide, by decide⟩

theorem emitTo_replicate_of_none {l : Lane} {event : Event} (silent : l.offerReport? event = none)
    (n : Nat) : emitTo (List.replicate n l) event = (List.replicate n (l.offer event), []) := by
  simp [emitTo, silent]

theorem emitTo_replicate_of_some {l : Lane} {event report : Event}
    (refused : l.offerReport? event = some report) (n : Nat) :
    emitTo (List.replicate n l) event =
      (List.replicate n (l.offer event), List.replicate n report) := by
  simp [emitTo, refused]

def narrowSubscriber : Subscriber := { name := "s", capacity := 1 }

/-- Its lane when it was given its first event. -/
def narrowLane : Lane := Lane.offer { subscriber := narrowSubscriber } { kind := .managerStarted }

theorem narrow_lanes (n : Nat) :
    (create { busCapacity := 2 } (List.replicate (n + 1) narrowSubscriber)).after
        [.start (.named "t"), .receive] =
      { (create { busCapacity := 2 } [narrowSubscriber]).after [.start (.named "t"), .receive] with
        lanes := List.replicate (n + 1) narrowLane } := by
  let started : Engine :=
    (create { busCapacity := 2 } (List.replicate (n + 1) narrowSubscriber)).perform (.start (.named "t"))
  have lanes : started.lanes = List.replicate (n + 1) { subscriber := narrowSubscriber } :=
    List.map_replicate
  have read : started.receive = { started with cursor := 1 }.emit { kind := .managerStarted } := rfl
  show started.receive = _
  rw [read, emit_eq]
  show ({ started with
    cursor := 1
    lanes := (emitTo started.lanes { kind := .managerStarted }).1
    bus := (emitTo started.lanes { kind := .managerStarted }).2.foldl Ring.push started.bus
    journal := _ } : Engine) = _
  rw [lanes, emitTo_replicate_of_none rfl]
  rfl

/-- Two or more full lanes write over the marker in a ring for two events. -/
theorem losesEndMarker_of_lanes (n : Nat) :
    LosesEndMarker { busCapacity := 2 } (List.replicate (n + 2) narrowSubscriber)
      ([.start (.named "t"), .receive] ++ [.shutdown patientShutdown.bound .zero, .watch])
      (.awaitShutdown patientShutdown) [.receive] := by
  let filled : Engine :=
    { (create { busCapacity := 2 } [narrowSubscriber]).after [.start (.named "t"), .receive] with
      lanes := List.replicate (n + 2) narrowLane }
  let stopped : Engine := filled.after
    [.shutdown patientShutdown.bound .zero, .watch, .awaitShutdown patientShutdown]
  have fills := narrow_lanes (n + 1)
  have first : (create { busCapacity := 2 } (List.replicate (n + 2) narrowSubscriber)).after
      ([.start (.named "t"), .receive] ++ [.shutdown patientShutdown.bound .zero, .watch]) =
        filled.after [.shutdown patientShutdown.bound .zero, .watch] := by
    rw [after_append, fills]
  have last : (create { busCapacity := 2 } (List.replicate (n + 2) narrowSubscriber)).after
      (([.start (.named "t"), .receive] ++ [.shutdown patientShutdown.bound .zero, .watch]) ++
        .awaitShutdown patientShutdown :: [.receive]) = stopped.receive := by
    rw [after_append, first]
    rfl
  -- the pump reads the request of the shutdown, which every lane refuses
  have reads : stopped.receive = { stopped with cursor := 2 }.emit { kind := .shutdownRequested } :=
    rfl
  have lanes : emitTo stopped.lanes { kind := .shutdownRequested } =
      (List.replicate (n + 2) narrowLane, List.replicate (n + 2) (.overflow "s" "full")) :=
    emitTo_replicate_of_some rfl (n + 2)
  constructor
  · rw [List.append_assoc, admits_append, fills]
    exact ⟨rfl, rfl⟩
  · rw [first]
    exact .inr rfl
  · rw [first]
    rfl
  · rw [last, reads, emit_eq]
    rfl
  · rw [last, reads, emit_eq]
    intro event mem
    have kept : event ∈ ((emitTo stopped.lanes { kind := .shutdownRequested }).2.foldl Ring.push
        stopped.bus).kept := Ring.mem_kept_of_mem_unread mem
    rw [lanes] at kept
    have full : stopped.bus.capacity ≤ (List.replicate (n + 2) (Event.overflow "s" "full")).length := by
      rw [List.length_replicate]
      exact Nat.le_add_left _ _
    rw [List.eq_of_mem_replicate (mem_kept_foldl_of_full full kept)]
    decide

/-! ## 4. Which subscribers can lose the marker -/

/-- **A shutdown keeps its end marker, whatever the sizes and delays, exactly if there is a single
subscriber and it panics over reports of panics and over the end marker at most.** -/
theorem keeps_end_marker_iff (kinds : List EventKind) (lanes : Nat) (some : 0 < lanes) :
    (∀ (config : Config) (subs : List Subscriber), subs.length = lanes →
      (∀ s ∈ subs, s.panicsOn ⊆ kinds) → KeepsEndMarker config subs) ↔
    lanes = 1 ∧ ∀ k ∈ kinds, k = .subscriberPanicked ∨ k = .allStoppedWithin := by
  constructor
  · intro keeps
    have single : lanes = 1 := by
      by_contra several
      obtain ⟨n, rfl⟩ : ∃ n, lanes = n + 2 := ⟨lanes - 2, by omega⟩
      refine (losesEndMarker_of_lanes n).not_keeps (keeps _ _ List.length_replicate ?_)
      intro s mem
      rw [List.eq_of_mem_replicate mem]
      exact List.nil_subset _
    subst single
    refine ⟨rfl, ?_⟩
    intro k mem
    by_contra other
    obtain ⟨noPanic, noEnd⟩ := not_or.mp other
    have within (s : Subscriber) (panics : s.panicsOn = [k]) : ∀ r ∈ [s], r.panicsOn ⊆ kinds := by
      intro r hr
      rw [List.mem_singleton.mp hr, panics]
      exact List.cons_subset.mpr ⟨mem, List.nil_subset _⟩
    by_cases overflow : k = .subscriberOverflow
    · subst overflow
      exact losesEndMarker_of_overflow.not_keeps (keeps _ _ rfl (within _ rfl))
    · have ordinary : k.isOrdinary = true := by
        cases k <;> first
          | rfl
          | exact absurd rfl overflow
          | exact absurd rfl noPanic
          | exact absurd rfl noEnd
      exact (losesEndMarker_of_ordinary ordinary).not_keeps (keeps _ _ rfl (within _ rfl))
  · rintro ⟨rfl, only⟩ config subs single within
    apply keepsEndMarker_of_tempered config single
    intro s hs k hk
    rcases only k (within s hs hk) with rfl | rfl <;> rfl

/-- A single subscriber that panics over nothing cannot lose the marker, even in a ring for one
event. -/
theorem keeps_end_marker_calm :
    0 < 1 ∧ KeepsEndMarker { busCapacity := 1 } [{ name := "s" }] := by
  have one : 0 < 1 := by decide
  refine ⟨one, (keeps_end_marker_iff [] 1 one).mpr ⟨rfl, by decide⟩ _ _ rfl ?_⟩
  intro s hs
  rw [List.mem_singleton.mp hs]
  exact List.nil_subset _

def startledSubscriber : Subscriber := { name := "s", panicsOn := [.shutdownRequested] }

/-- The marker is published before the worker takes its turn and panics. -/
def startledMoves : List Move :=
  [.start (.named "t"), .receive, .work 0, .shutdown patientShutdown.bound .zero, .receive, .watch]

/-- In a ring for one event the report of that panic takes the place of the marker: no turns are
left, the pump still receives, and the shutdown waits for it. -/
theorem end_marker_overwritten :
    let e := (create { busCapacity := 1 } [startledSubscriber]).after
      (startledMoves ++ .awaitShutdown patientShutdown :: [.work 0, .receive, .work 0])
    (∀ next, ¬FeedStep e next) ∧ e.pump = .receiving ∧
      e.turnFlush { patientShutdown with stage := .awaitingPump } =
        .ok { patientShutdown with stage := .awaitingPump } ∧
      ¬KeepsEndMarker { busCapacity := 1 } [startledSubscriber] := by
  intro e
  have lost : LosesEndMarker { busCapacity := 1 } [startledSubscriber] startledMoves
      (.awaitShutdown patientShutdown) [.work 0, .receive, .work 0] :=
    ⟨by decide, by decide, by decide, by decide, by decide⟩
  refine ⟨?_, rfl, rfl, lost.not_keeps⟩
  intro next step
  have idle : e.canPump = false := by decide
  obtain ⟨l, lanes, worker, queue, isOpen⟩ : ∃ l, e.lanes = [l] ∧ l.worker = .waiting ∧ l.queue = [] ∧
      l.isOpen = true := ⟨_, rfl, rfl, rfl, rfl⟩
  generalize e = final at idle lanes step
  cases step with
  | pump due => exact Bool.false_ne_true (idle.symm.trans due)
  | work i l' now later there due =>
      have only : l' = l := by
        have mem := List.mem_of_getElem? there
        rw [lanes] at mem
        exact List.mem_singleton.mp mem
      rw [only, Lane.canWork, worker, queue, isOpen] at due
      cases due

end Engine

end TaskEngine
