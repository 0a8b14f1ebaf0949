/-
  TaskEngine/Proofs/Courses.lean
  ==============================
  **The course of a run.**

  The marks of a run are what the journal notes of it in particular: the callbacks that were called
  for it, its two announcements, and its end (`Engine.marks`).  All of them are left in turns of the
  run itself.  Whatever else happens leaves none, and touches no run but that new ones may be
  launched (`Engine.Launches`); a turn adds marks of its own run (`Engine.Adds`).

  So the marks of a run are known from how far it has come (`Standing`): none before its first turn,
  the opening and the call of the work while that has not ended, and the whole course afterwards,
  each mark once and in one order.  A run whose work refuses to be called is lost at that call.
-/
import TaskEngine.Proofs.Beginnings
import TaskEngine.Proofs.Reporting

namespace TaskEngine

/-! ## 1. Marks -/

/-- What is noted of a run in particular. -/
inductive Mark where
  | called (callback : Callback)
  | published (event : Event)
  | finished (outcome : Outcome)
deriving DecidableEq, Repr

/-- The mark of run `id` that a note is, if it is one. -/
def Note.mark? (id : RunId) : Note → Option Mark
  | .called callback run => if run = id then some (.called callback) else none
  | .published event task =>
      if event.kind.isAboutRun ∧ task = some id.task ∧ event.run = some id.number then
        some (.published event)
      else none
  | .finished run outcome => if run = id then some (.finished outcome) else none
  | _ => none

/-- Whether the note is of a kind that is never a mark. -/
def Note.isPlain : Note → Bool
  | .published event _ => !event.kind.isAboutRun
  | .called .. | .finished .. => false
  | .requested .. | .armed .. | .ticked _ | .began .. | .forwarded _ | .logged _ | .traced .. => true

theorem Note.mark?_of_isPlain {n : Note} (h : n.isPlain = true) (id : RunId) : n.mark? id = none := by
  cases n with
  | published event task =>
      have other : event.kind.isAboutRun = false := by simpa [isPlain] using h
      simp [mark?, other]
  | _ => first | rfl | cases h

theorem Note.isPlain_of_leavesRuns {n : Note} (h : n.leavesRuns = true) : n.isPlain = true := by
  cases n with
  | published event task => exact h
  | _ => first | rfl | cases h

namespace Engine

variable {e e' e'' : Engine} {own : RunId} {more : List Mark}
  {becomes : Option Progress → Option Progress}

/-- The marks of a run, the oldest first. -/
def marks (e : Engine) (id : RunId) : List Mark := (e.journal.filterMap (·.note.mark? id)).reverse

/-- How far a run in flight has come. -/
def progress? (e : Engine) (id : RunId) : Option Progress := (e.run? id).map (·.progress)

theorem progress?_of_runs (runs : e'.runs = e.runs) (id : RunId) : e'.progress? id = e.progress? id := by
  rw [progress?, run?, runs]
  rfl

/-- Without a beginning being noted, no run begins. -/
theorem hasBegun_of_silent (h : Notes (fun n => ∀ id merged, n ≠ .began id merged) e e') {id : RunId}
    (begun : e'.hasBegun id) : e.hasBegun id := by
  obtain ⟨entries, journal, silent⟩ := h
  obtain ⟨entry, mem, merged, begins⟩ := begun
  rw [journal] at mem
  rcases List.mem_append.mp mem with mem | mem
  · exact absurd begins (silent entry mem id merged)
  · exact ⟨entry, mem, merged, begins⟩

theorem Numbered.hasBegun_of_progress? (h : e.Numbered) {id : RunId}
    (flying : (e.progress? id).isSome = true) : e.hasBegun id := by
  rw [progress?, Option.isSome_map] at flying
  obtain ⟨run, found⟩ := Option.isSome_iff_exists.mp flying
  obtain ⟨mem, rfl⟩ := mem_of_run? found
  exact h.inFlight run mem

/-! ## 2. What happens outside the turns of runs -/

/-- Nothing happened to runs but that some may have been launched. -/
structure Launches (e e' : Engine) : Prop where
  grows : Grows e e'
  notes : Notes (·.isPlain = true) e e'
  numbered : e.Numbered → e'.Numbered
  progress : e.Numbered → ∀ id, e.hasBegun id → e'.progress? id = e.progress? id
  launched : e.Numbered → ∀ id, ¬e.hasBegun id → e'.hasBegun id → e'.progress? id = some .launched

theorem Launches.marks (h : Launches e e') (id : RunId) : e'.marks id = e.marks id := by
  rw [Engine.marks, filterMap_of_notes (h.notes.mono fun _ plain => Note.mark?_of_isPlain plain id)]
  rfl

theorem Launches.begun (h : Launches e e') {id : RunId} (begun : e.hasBegun id) : e'.hasBegun id :=
  hasBegun_of_notes h.notes begun

theorem launches_of_runs (grows : Grows e e') (runs : e'.runs = e.runs)
    (plain : Notes (·.isPlain = true) e e')
    (silent : Notes (fun n => ∀ id merged, n ≠ .began id merged) e e') : Launches e e' where
  grows := grows
  notes := plain
  numbered := fun h => h.of_grows grows silent fun run mem => ⟨run, runs ▸ mem, rfl⟩
  progress := fun _ id _ => progress?_of_runs runs id
  launched := fun _ _ fresh begun => absurd (hasBegun_of_silent silent begun) fresh

theorem LeavesRuns.launches (h : LeavesRuns e e') (grows : Grows e e') : Launches e e' :=
  launches_of_runs grows h.runs (h.notes.mono fun _ => Note.isPlain_of_leavesRuns)
    (h.notes.mono fun _ left _ _ begins => by rw [begins] at left; cases left)

theorem launches_of_eq (tasks : e'.tasks = e.tasks) (runs : e'.runs = e.runs)
    (journal : e'.journal = e.journal) : Launches e e' :=
  (leavesRuns_of_eq runs journal).launches (grows_of_eq tasks)

theorem Launches.refl (e : Engine) : Launches e e := launches_of_eq rfl rfl rfl

theorem Launches.trans (first : Launches e e') (second : Launches e' e'') : Launches e e'' where
  grows := first.grows.trans second.grows
  notes := first.notes.trans second.notes
  numbered := fun h => second.numbered (first.numbered h)
  progress := by
    intro h id begun
    rw [second.progress (first.numbered h) id (first.begun begun), first.progress h id begun]
  launched := by
    intro h id fresh begun
    by_cases already : e'.hasBegun id
    · rw [second.progress (first.numbered h) id already, first.launched h id fresh already]
    · exact second.launched (first.numbered h) id already begun

theorem launches_note (e : Engine) {n : Note} (plain : n.isPlain = true)
    (silent : ∀ id merged, n ≠ .began id merged) : Launches e (e.note n) :=
  launches_of_runs (grows_of_eq rfl) rfl (notes_cons rfl plain) (notes_cons rfl silent)

/-- A number that is given out has not been in use. -/
theorem Numbered.not_hasBegun (h : e.Numbered) {t : TaskId} {task : TaskRecord}
    (known : e.tasks[t]? = some task) : ¬e.hasBegun ⟨t, task.runCount + 1⟩ := by
  intro begun
  obtain ⟨old, known', below⟩ := h.begun _ begun
  obtain rfl : task = old := Option.some.inj (known.symm.trans known')
  exact Nat.not_succ_le_self _ below

theorem launches_beginRun {t : TaskId} {task : TaskRecord} (known : e.tasks[t]? = some task)
    (merged : Bool) (waiters : List WaiterId) : Launches e (e.beginRun t merged waiters) where
  grows := grows_beginRun known merged waiters
  notes := notes_beginRun e t merged waiters fun _ => rfl
  numbered := fun h => h.beginRun known merged waiters
  progress := by
    intro h id begun
    have other : id ≠ ⟨t, task.runCount + 1⟩ := fun same => h.not_hasBegun known (same ▸ begun)
    simp [beginRun_eq known, progress?, run?, List.find?_append, Ne.symm other]
  launched := by
    intro h id fresh begun
    -- the one run that is new is the one that begins
    have new : id = ⟨t, task.runCount + 1⟩ := by
      obtain ⟨entry, mem, merged', begins⟩ := begun
      rw [beginRun_eq known] at mem
      rcases List.mem_cons.mp mem with rfl | mem
      · cases begins
        rfl
      · exact absurd ⟨entry, mem, merged', begins⟩ fresh
    subst new
    have absent : e.runs.find? (·.id == (⟨t, task.runCount + 1⟩ : RunId)) = none := by
      apply List.find?_eq_none.mpr
      intro run mem same
      exact fresh (beq_iff_eq.mp same ▸ h.inFlight run mem)
    simp [beginRun_eq known, progress?, run?, List.find?_append, absent]

theorem launches_request (e : Engine) (t : TaskId) (waiter : Option WaiterId) :
    Launches e (e.request t waiter).1 := by
  have answered (e' : Engine) (result : AdmissionResult) :
      Launches e' (e'.note (.requested t waiter result)) := launches_note e' rfl nofun
  have step := e.request_step t waiter
  generalize e.request t waiter = answer at step ⊢
  cases step with
  | refused err => exact answered e _
  | skipped task known full =>
      have told : LeavesRuns e (e.publishAbout t { kind := .runSkipped, task := some task.name }) :=
        leavesRuns_cons rfl rfl rfl
      exact (told.launches (grows_of_eq rfl)).trans (answered _ _)
  | merged task known admits willing full overlap =>
      have folded : LeavesRuns e (e.updateTask t (·.fold waiter)) := leavesRuns_of_eq rfl rfl
      have told : LeavesRuns e ((e.updateTask t (·.fold waiter)).publishAbout t
          { kind := .runMerged, task := some task.name }) :=
        folded.trans (leavesRuns_cons rfl rfl rfl)
      have grows : Grows e (e.updateTask t (·.fold waiter)) := grows_fold known waiter
      exact (told.launches (grows.trans (grows_of_eq rfl))).trans (answered _ _)
  | started task known admits willing room =>
      exact (launches_beginRun known false _).trans (answered _ _)

theorem launches_trigger (e : Engine) (name : String) : Launches e (e.trigger name).1 := by
  unfold trigger
  cases e.lookup? name with
  | none => exact .refl e
  | some t => exact launches_request e t none

theorem launches_requestWaiting (e : Engine) (t : TaskId) : Launches e (e.requestWaiting t).1 := by
  have drawn : LeavesRuns e (e.drawSerial t) := leavesRuns_of_eq rfl rfl
  rw [requestWaiting_fst]
  exact (drawn.launches (alike_drawSerial e t).grows).trans (launches_request ..)

theorem launches_turnLoop (e : Engine) (t : TaskId) : Launches e (e.turnLoop t) := by
  refine (stirs_turnLoop e t).relates .refl .trans ?_
  intro e e' stir
  rcases stir.leavesRuns with left | ⟨s, rfl⟩
  · exact left.launches (stir.change (l := .free)).grows
  · exact launches_request e s none

theorem launches_perform {m : Move} (other : m.leavesRuns = true) (allowed : e.allows m = true) :
    Launches e (e.perform m) :=
  (leavesRuns_perform other).launches (grows_perform allowed)

theorem launches_turnPump (e : Engine) : Launches e e.turnPump := by
  have receives (n : Nat) (e : Engine) : Launches e (e.after (List.replicate n .receive)) := by
    induction n generalizing e with
    | zero => exact .refl e
    | succ n ih => exact (launches_perform (m := .receive) rfl rfl).trans (ih _)
  obtain ⟨n, reads⟩ := turnPump_eq_receives e
  rw [reads]
  exact receives n e

/-! ## 3. What happens in the turns of a run -/

/-- Run `own`, which had begun, has left these marks and has come as far as `becomes` says; no other
run was touched. -/
structure Adds (own : RunId) (more : List Mark) (becomes : Option Progress → Option Progress)
    (e e' : Engine) : Prop where
  grows : Grows e e'
  begun : ∀ id, e.hasBegun id → e'.hasBegun id
  marks : e'.marks own = e.marks own ++ more
  unmarked : ∀ id, id ≠ own → e'.marks id = e.marks id
  notes : Notes (fun n => n.isPlain = true ∨ (n.mark? own).isSome = true) e e'
  numbered : e.Numbered → e'.Numbered
  progress : e.Numbered → e.hasBegun own → e'.progress? own = becomes (e.progress? own)
  stays : e.Numbered → ∀ id, id ≠ own → e.hasBegun id → e'.progress? id = e.progress? id
  launched : e.Numbered → ∀ id, id ≠ own → ¬e.hasBegun id → e'.hasBegun id →
    e'.progress? id = some .launched

theorem Launches.adds (h : Launches e e') (own : RunId) : Adds own [] id e e' where
  grows := h.grows
  begun := fun _ => h.begun
  marks := by rw [h.marks, List.append_nil]
  unmarked := fun id _ => h.marks id
  notes := h.notes.mono fun _ => .inl
  numbered := h.numbered
  progress := fun numbered => h.progress numbered own
  stays := fun numbered id _ => h.progress numbered id
  launched := fun numbered id _ => h.launched numbered id

theorem Adds.trans {more' : List Mark} {becomes' : Option Progress → Option Progress}
    (first : Adds own more becomes e e') (second : Adds own more' becomes' e' e'') :
    Adds own (more ++ more') (becomes' ∘ becomes) e e'' where
  grows := first.grows.trans second.grows
  begun := fun id begun => second.begun id (first.begun id begun)
  marks := by rw [second.marks, first.marks, List.append_assoc]
  unmarked := fun id other => (second.unmarked id other).trans (first.unmarked id other)
  notes := first.notes.trans second.notes
  numbered := fun h => second.numbered (first.numbered h)
  progress := by
    intro h begun
    rw [second.progress (first.numbered h) (first.begun own begun), first.progress h begun]
    rfl
  stays := by
    intro h id other begun
    rw [second.stays (first.numbered h) id other (first.begun id begun),
      first.stays h id other begun]
  launched := by
    intro h id other fresh begun
    by_cases already : e'.hasBegun id
    · rw [second.stays (first.numbered h) id other already, first.launched h id other fresh already]
    · exact second.launched (first.numbered h) id other already begun

theorem Adds.launches (first : Adds own more becomes e e') (second : Launches e' e'') :
    Adds own more becomes e e'' := by
  have both := first.trans (second.adds own)
  rwa [List.append_nil] at both

theorem Launches.trans_adds (first : Launches e e') (second : Adds own more becomes e' e'') :
    Adds own more becomes e e'' :=
  (first.adds own).trans second

/-- A mark is left in the journal, and nothing else happens to runs. -/
theorem adds_entry {n : Note} {time : Instant} {mark : Mark} (tasks : e'.tasks = e.tasks)
    (runs : e'.runs = e.runs) (journal : e'.journal = ⟨time, n⟩ :: e.journal)
    (silent : ∀ id merged, n ≠ .began id merged) (mine : n.mark? own = some mark)
    (others : ∀ id, id ≠ own → n.mark? id = none) : Adds own [mark] id e e' := by
  have silent : Notes (fun n => ∀ id merged, n ≠ .began id merged) e e' := notes_cons journal silent
  constructor
  case grows => exact grows_of_eq tasks
  case begun => exact fun _ => hasBegun_of_notes silent
  case marks =>
    simp only [Engine.marks, journal, List.filterMap_cons, mine, List.reverse_cons]
  case unmarked =>
    intro id other
    simp only [Engine.marks, journal, List.filterMap_cons, others id other]
  case notes => exact notes_cons journal (.inr (Option.isSome_of_eq_some mine))
  case numbered =>
    exact fun h => h.of_grows (grows_of_eq tasks) silent fun run mem => ⟨run, runs ▸ mem, rfl⟩
  case progress => exact fun _ _ => progress?_of_runs runs own
  case stays => exact fun _ id _ _ => progress?_of_runs runs id
  case launched => exact fun _ _ _ fresh begun => absurd (hasBegun_of_silent silent begun) fresh

theorem adds_called (e : Engine) (own : RunId) (callback : Callback) :
    Adds own [.called callback] id e (e.note (.called callback own)) :=
  adds_entry rfl rfl rfl nofun (if_pos rfl) fun _ other => if_neg (Ne.symm other)

theorem adds_publishAbout (e : Engine) {own : RunId} {event : Event}
    (about : event.kind.isAboutRun = true) (numbered : event.run = some own.number) :
    Adds own [.published event] id e (e.publishAbout own.task event) := by
  refine adds_entry rfl rfl rfl nofun (if_pos ⟨about, rfl, numbered⟩) ?_
  intro id other
  apply if_neg
  rintro ⟨-, task, number⟩
  obtain ⟨t, n⟩ := id
  obtain ⟨t', n'⟩ := own
  obtain rfl : t' = t := Option.some.inj task
  obtain rfl : n' = n := Option.some.inj (numbered.symm.trans number)
  exact other rfl

/-- Runs go, or come further, or not, and nothing is noted. -/
theorem adds_of_runs (tasks : e'.tasks = e.tasks) (journal : e'.journal = e.journal)
    (older : ∀ run ∈ e'.runs, ∃ old ∈ e.runs, old.id = run.id)
    (progress : e.hasBegun own → e'.progress? own = becomes (e.progress? own))
    (stays : ∀ id, id ≠ own → e'.progress? id = e.progress? id) : Adds own [] becomes e e' := by
  have silent : Notes (fun n => ∀ id merged, n ≠ .began id merged) e e' := notes_nothing journal
  constructor
  case grows => exact grows_of_eq tasks
  case begun => exact fun _ => hasBegun_of_notes silent
  case marks => rw [Engine.marks, journal, List.append_nil, Engine.marks]
  case unmarked =>
    intro id other
    rw [Engine.marks, journal, Engine.marks]
  case notes => exact notes_nothing journal
  case numbered => exact fun h => h.of_grows (grows_of_eq tasks) silent older
  case progress => exact fun _ => progress
  case stays => exact fun _ id other _ => stays id other
  case launched => exact fun _ _ _ fresh begun => absurd (hasBegun_of_silent silent begun) fresh

theorem run?_setProgress (e : Engine) (id : RunId) (progress : Progress) (other : RunId) :
    (e.setProgress id progress).run? other =
      (e.run? other).map fun r => if r.id = id then { r with progress } else r := by
  have sameId : ((·.id == other) ∘ fun r : Run => if r.id = id then { r with progress } else r) =
      (·.id == other) := by
    funext r
    simp only [Function.comp_apply]
    split <;> rfl
  rw [run?, setProgress, List.find?_map, sameId]
  rfl

theorem adds_setProgress (e : Engine) {own : RunId} (flying : (e.run? own).isSome = true)
    (progress : Progress) : Adds own [] (fun _ => some progress) e (e.setProgress own progress) := by
  apply adds_of_runs
  case tasks => rfl
  case journal => rfl
  case older =>
    intro run mem
    obtain ⟨old, memOld, rfl⟩ := List.mem_map.mp mem
    refine ⟨old, memOld, ?_⟩
    split <;> rfl
  case progress =>
    intro _
    obtain ⟨run, found⟩ := Option.isSome_iff_exists.mp flying
    obtain ⟨-, rfl⟩ := mem_of_run? found
    simp [progress?, run?_setProgress, found]
  case stays =>
    intro id other
    rw [progress?, run?_setProgress, progress?]
    cases found : e.run? id with
    | none => rfl
    | some run =>
        obtain ⟨-, rfl⟩ := mem_of_run? found
        simp [other]

theorem adds_removeRun (e : Engine) (own : RunId) :
    Adds own [] (fun _ => none) e (e.removeRun own) := by
  apply adds_of_runs
  case tasks => rfl
  case journal => rfl
  case older => exact fun run mem => ⟨run, List.mem_of_mem_filter mem, rfl⟩
  case progress =>
    intro _
    have gone : (e.removeRun own).run? own = none := by
      simp [run?, removeRun, List.find?_filter]
    rw [progress?, gone]
    rfl
  case stays =>
    intro id other
    have same : (e.removeRun own).run? id = e.run? id := by
      rw [run?, removeRun, List.find?_filter]
      refine congrArg (List.find? · e.runs) (funext fun run => ?_)
      by_cases named : run.id = id
      · simp [named, other]
      · simp [named]
    rw [progress?, same]
    rfl

/-- A run is lost: it is gone without a mark. -/
theorem adds_abandon (e : Engine) {own : RunId} (flying : (e.run? own).isSome = true) :
    Adds own [] (fun _ => none) e (e.abandon own) := by
  obtain ⟨run, found⟩ := Option.isSome_iff_exists.mp flying
  simp only [Engine.abandon, found]
  exact (adds_removeRun e own).launches (launches_of_eq rfl rfl rfl)

theorem adds_conclude {run : Run} {task : TaskRecord} (known : e.tasks[run.id.task]? = some task)
    (outcome : Outcome) :
    Adds run.id [.finished outcome] (fun _ => none) e (e.conclude run task outcome) := by
  let counted : Engine := { e.removeRun run.id with
    tasks := e.tasks.set run.id.task (task.conclude e.phase e.now outcome) }
  have removed := adds_removeRun e run.id
  have left : LeavesRuns (e.removeRun run.id) counted := leavesRuns_of_eq rfl rfl
  have counts : Launches (e.removeRun run.id) counted := left.launches (grows_conclude known outcome)
  have noted : Adds run.id [.finished outcome] id counted (counted.note (.finished run.id outcome)) :=
    adds_entry rfl rfl rfl nofun (if_pos rfl) fun _ other => if_neg (Ne.symm other)
  exact ((removed.launches counts).trans noted).launches (launches_of_eq rfl rfl rfl)

/-- A run comes to its end. -/
theorem adds_finish {id : RunId} (flying : (e.run? id).isSome = true)
    (known : ∃ task, e.tasks[id.task]? = some task) (outcome : Outcome) :
    Adds id [.finished outcome] (fun _ => none) e (e.finish id outcome) := by
  obtain ⟨run, found⟩ := Option.isSome_iff_exists.mp flying
  obtain ⟨task, known⟩ := known
  obtain ⟨-, rfl⟩ := mem_of_run? found
  have ended := adds_conclude known outcome
  simp only [finish, found, known]
  split
  · apply ended.launches
    unfold settleOwed
    split
    · exact launches_of_eq rfl rfl rfl
    · exact launches_beginRun (known_conclude known outcome) ..
  · exact ended

end Engine

/-! ## 4. The course of a run -/

section Course

variable (hook : Option Hook) (spec : ResolvedSpec) (id : RunId)

/-- What is noted until the work of a run is called, with `hook` around every run. -/
def opening : List Mark :=
  (hook.map fun _ => Mark.called .engineBefore).toList ++
    (spec.hook.map fun _ => Mark.called .taskBefore).toList ++
      [.published { kind := .runStarted, task := some spec.name, run := some id.number }]

/-- What is noted once the outcome of a run is known. -/
def closing (outcome : Outcome) (elapsed : Duration) : List Mark :=
  (hook.map fun _ => Mark.called .engineAfter).toList ++
    (spec.hook.map fun _ => Mark.called .taskAfter).toList ++
      (outcome.callback?.map Mark.called).toList ++
        [.published (Engine.terminalEvent spec.name id.number outcome elapsed), .finished outcome]

/-- The marks of a run that has begun, by how far it has come. -/
inductive Standing : Option Progress → List Mark → Prop where
  | launched : Standing (some .launched) []
  | working (calls : spec.work.refuses id.number = false) (call : Nat) (started : Instant)
      (limit : Option (Duration × Instant)) (pause : Pause) (rest : List Action) :
      Standing (some (.working call started limit pause rest))
        (opening hook spec id ++ [.called .work])
  | ended (calls : spec.work.refuses id.number = false) (outcome : Outcome) (elapsed : Duration)
      (fits : outcome.fits spec.reportCancellations = true) :
      Standing none
        (opening hook spec id ++ [.called .work] ++ closing hook spec id outcome elapsed)
  /-- The work refused the call, and the run is gone. -/
  | lost (refuses : spec.work.refuses id.number = true) : Standing none (opening hook spec id)

end Course

namespace World

open Engine

variable {w w' w'' : World} {own : RunId} {more : List Mark}
  {becomes : Option Progress → Option Progress}

/-! ### Turns of runs -/

/-- Nothing happened to runs but that some may have been launched, and the hook is the same. -/
structure Launches (w w' : World) : Prop where
  engine : w.engine.Launches w'.engine
  hook : w'.hook = w.hook

/-- Run `own` has come further, and the hook is the same. -/
structure Adds (own : RunId) (more : List Mark) (becomes : Option Progress → Option Progress)
    (w w' : World) : Prop where
  engine : Engine.Adds own more becomes w.engine w'.engine
  hook : w'.hook = w.hook

theorem Launches.refl (w : World) : Launches w w := ⟨.refl _, rfl⟩

theorem Launches.trans (first : Launches w w') (second : Launches w' w'') : Launches w w'' :=
  ⟨first.engine.trans second.engine, second.hook.trans first.hook⟩

theorem Launches.adds (h : Launches w w') (own : RunId) : Adds own [] id w w' :=
  ⟨h.engine.adds own, h.hook⟩

theorem Adds.trans {more' : List Mark} {becomes' : Option Progress → Option Progress}
    (first : Adds own more becomes w w') (second : Adds own more' becomes' w' w'') :
    Adds own (more ++ more') (becomes' ∘ becomes) w w'' :=
  ⟨first.engine.trans second.engine, second.hook.trans first.hook⟩

theorem Adds.launches (first : Adds own more becomes w w') (second : Launches w' w'') :
    Adds own more becomes w w'' :=
  ⟨first.engine.launches second.engine, second.hook.trans first.hook⟩

theorem Launches.trans_adds (first : Launches w w') (second : Adds own more becomes w' w'') :
    Adds own more becomes w w'' :=
  ⟨first.engine.trans_adds second.engine, second.hook.trans first.hook⟩

theorem launches_of_engine (engine : w'.engine = w.engine) (hook : w'.hook = w.hook) :
    Launches w w' :=
  ⟨engine ▸ .refl _, hook⟩

theorem Errand.launches (h : Errand w w') : Launches w w' := by
  have noted {w : World} {n : Note} (plain : n.isPlain = true) (silent : ∀ id merged, n ≠ .began id merged) :
      Launches w (w.note n) := ⟨launches_note _ plain silent, rfl⟩
  cases h with
  | trace task t => exact noted rfl nofun
  | log r => exact noted rfl nofun
  | trigger task target =>
      have asked : Launches w { w with engine := (w.engine.trigger target).1 } :=
        ⟨launches_trigger .., rfl⟩
      exact asked.trans (noted rfl nofun)
  | cancel t => exact ⟨launches_perform (m := .cancel t) rfl rfl, rfl⟩
  | workshop t f => exact launches_of_engine rfl rfl
  | watch task token => exact launches_of_engine rfl rfl

theorem Errands.launches (h : Errands w w') : Launches w w' :=
  h.relates .refl .trans Errand.launches

theorem adds_called (w : World) (own : RunId) (callback : Callback) :
    Adds own [.called callback] id w (w.note (.called callback own)) :=
  ⟨Engine.adds_called w.engine own callback, rfl⟩

theorem Calls.adds {callback? : Option Callback} (h : Calls callback? own w w') :
    Adds own (callback?.map Mark.called).toList id w w' := by
  cases h with
  | silent none =>
      rw [none]
      exact (Launches.refl w).adds own
  | called calls errands =>
      rw [calls]
      exact (adds_called w own _).launches errands.launches

theorem adds_callBefore (w : World) (callback : Callback) (hook : Option Hook) (spec : ResolvedSpec)
    (run : Run) : Adds run.id (hook.map fun _ => Mark.called callback).toList id w
      (w.callBefore callback hook spec run) := by
  have adds := (calls_callBefore w callback hook spec run).adds
  rwa [Option.map_map] at adds

theorem adds_callAfter (w : World) (callback : Callback) (hook : Option Hook) (spec : ResolvedSpec)
    (run : Run) (outcome : Outcome) :
    Adds run.id (hook.map fun _ => Mark.called callback).toList id w
      (w.callAfter callback hook spec run outcome) := by
  have adds := (calls_callAfter w callback hook spec run outcome).adds
  rwa [Option.map_map] at adds

section Turns

variable {hook : Option Hook} {spec : ResolvedSpec} {run : Run} {progress : Option Progress}
  {before : List Mark}

/-- The run is in flight in an engine that numbers its runs, for a task of that spec, and that hook
is around it. -/
structure Boards (hook : Option Hook) (w : World) (spec : ResolvedSpec) (run : Run) : Prop
    extends Hosts w spec run where
  numbered : w.engine.Numbered
  around : w.hook = hook

theorem Adds.boards (h : Adds run.id more id w w') (boards : w.Boards hook spec run) :
    w'.Boards hook spec run := by
  have present : (w.engine.progress? run.id).isSome = true := by
    rw [progress?, Option.isSome_map]
    exact boards.present
  have begun := boards.numbered.hasBegun_of_progress? present
  rw [← id_eq (w.engine.progress? run.id), ← h.engine.progress boards.numbered begun, progress?,
    Option.isSome_map] at present
  obtain ⟨task, known, rfl⟩ := boards.known
  obtain ⟨new, known', later⟩ := h.engine.grows _ task known
  exact ⟨⟨present, new, known', later.spec⟩, h.engine.numbered boards.numbered,
    h.hook.trans boards.around⟩

/-- What happens to the run takes it from where it stood, with the marks `before`, to where it
stands, which is beyond where it was launched. -/
def Takes (hook : Option Hook) (spec : ResolvedSpec) (run : RunId) (progress : Option Progress)
    (before : List Mark) (w w' : World) : Prop :=
  ∃ more becomes, Adds run more becomes w w' ∧ becomes progress ≠ some .launched ∧
    Standing hook spec run (becomes progress) (before ++ more)

theorem Adds.takes (first : Adds own more id w w')
    (rest : Takes hook spec own progress (before ++ more) w' w'') :
    Takes hook spec own progress before w w'' := by
  obtain ⟨more', becomes, adds, gone, stands⟩ := rest
  rw [List.append_assoc] at stands
  exact ⟨more ++ more', becomes, first.trans adds, gone, stands⟩

theorem Launches.takes (first : Launches w w') (rest : Takes hook spec own progress before w' w'') :
    Takes hook spec own progress before w w'' := by
  apply (first.adds own).takes
  rwa [List.append_nil]

/-- The marks of a run whose work has been called. -/
abbrev workCalled (hook : Option Hook) (spec : ResolvedSpec) (id : RunId) : List Mark :=
  opening hook spec id ++ [.called .work]

/-- The end of a run leaves all closing marks. -/
theorem adds_conclude (boards : w.Boards hook spec run) (started : Instant) (outcome : Outcome) :
    Adds run.id (closing hook spec run.id outcome (w.now.since started)) (fun _ => none) w
      (w.conclude spec run started outcome) := by
  obtain rfl := boards.around
  have first := adds_callAfter w .engineAfter w.hook spec run outcome
  have second := first.trans (adds_callAfter _ .taskAfter spec.hook spec run outcome)
  have third := second.trans (calls_callHandler _ spec.name run.id outcome).adds
  let event := terminalEvent spec.name run.id.number outcome (w.now.since started)
  have announced (w : World) : Adds run.id [.published event] id w (w.publishAbout run.id.task event) :=
    ⟨adds_publishAbout w.engine (isAboutRun_terminalEvent ..) (terminalEvent_run ..), rfl⟩
  have told := third.trans (announced _)
  have there := told.boards boards
  obtain ⟨task, known, -⟩ := there.known
  have finished : Adds run.id [.finished outcome] (fun _ => none) _
      (w.conclude spec run started outcome) :=
    ⟨Engine.adds_finish there.present ⟨task, known⟩ outcome, rfl⟩
  simpa [closing, List.append_assoc] using told.trans finished

theorem takes_conclude (boards : w.Boards hook spec run)
    (calls : spec.work.refuses run.id.number = false) (started : Instant) {outcome : Outcome} (fits : outcome.fits spec.reportCancellations = true) :
    Takes hook spec run.id progress (workCalled hook spec run.id) w
      (w.conclude spec run started outcome) :=
  ⟨_, _, adds_conclude boards started outcome, nofun, .ended calls outcome _ fits⟩

theorem takes_afterPlay (boards : w.Boards hook spec run)
    (calls : spec.work.refuses run.id.number = false) (call : Nat) (started : Instant) (limit : Option (Duration × Instant)) (halt : Halt) :
    Takes hook spec run.id progress (workCalled hook spec run.id) w
      (w.afterPlay spec run call started limit halt) := by
  have noted (how : WorkExit) {outcome : Outcome}
      (fits : outcome.fits spec.reportCancellations = true) :
      Takes hook spec run.id progress (workCalled hook spec run.id) w
        ((w.trace spec.name (.workEnd call how)).conclude spec run started outcome) := by
    have traced := (Errand.trace w spec.name (.workEnd call how)).launches
    exact traced.takes (takes_conclude ((traced.adds run.id).boards boards) calls started fits)
  cases halt with
  | paused pause rest =>
      have waits : Adds run.id [] (fun _ => some (.working call started limit pause rest)) w
          (w.onEngine (·.setProgress run.id (.working call started limit pause rest))) :=
        ⟨adds_setProgress w.engine boards.present _, rfl⟩
      refine ⟨_, _, waits, nofun, ?_⟩
      rw [List.append_nil]
      exact .working calls ..
  | answered result => exact noted _ (Outcome.fits_ofAnswer _ result)
  | panicked info => exact noted _ rfl

theorem takes_callWork (boards : w.Boards hook spec run) :
    Takes hook spec run.id progress (opening hook spec run.id) w (w.callWork spec run) := by
  unfold callWork
  split
  · rename_i info refusal
    have lost : Adds run.id [] (fun _ => none) w (w.onEngine (·.abandon run.id)) :=
      ⟨adds_abandon w.engine boards.present, rfl⟩
    refine ⟨_, _, lost, nofun, ?_⟩
    rw [List.append_nil]
    exact .lost (by rw [Work.refuses, refusal]; rfl)
  · rename_i accepted
    have calls : spec.work.refuses run.id.number = false := Work.refuses_eq_false_iff.mpr accepted
    have played (f : Workshop → Workshop) (t : Trace) (actions : List Action) :
        Adds run.id [.called .work] id w (play run.id spec.name run.token actions
          (((w.updateWorkshop run.id.task f).note (.called .work run.id)).trace spec.name t)).1 := by
      have entered := (Errand.workshop w run.id.task f).launches
      have called := entered.trans_adds (adds_called _ run.id .work)
      exact (called.launches (Errand.trace ..).launches).launches (errands_play ..).launches
    exact (played ..).takes (takes_afterPlay ((played ..).boards boards) calls ..)

/-- The first turn of a run. -/
theorem takes_launch (boards : w.Boards hook spec run) :
    Takes hook spec run.id progress [] w (w.launch spec run) := by
  obtain rfl := boards.around
  let begins : Event := { kind := .runStarted, task := some spec.name, run := some run.id.number }
  have announced (w : World) : Adds run.id [.published begins] id w (w.publishAbout run.id.task begins) :=
    ⟨adds_publishAbout w.engine rfl rfl, rfl⟩
  have first := adds_callBefore w .engineBefore w.hook spec run
  have second := first.trans (adds_callBefore _ .taskBefore spec.hook spec run)
  have opened : Adds run.id (opening w.hook spec run.id) id w _ := second.trans (announced _)
  exact opened.takes (takes_callWork (opened.boards boards))

theorem takes_cutShort (boards : w.Boards hook spec run)
    (calls : spec.work.refuses run.id.number = false) (call : Nat) (started : Instant) (limit : Duration) :
    Takes hook spec run.id progress (workCalled hook spec run.id) w
      (w.cutShort spec run call started limit) := by
  have dropped : Errands w (((w.leaveLine run.id).trace spec.name (.workEnd call .dropped)).onEngine
      (·.cancel run.token)) :=
    ((Errand.workshop ..).errands.trans (Errand.trace ..).errands).trans (Errand.cancel ..).errands
  have boards := (dropped.launches.adds run.id).boards boards
  exact dropped.launches.takes
    (takes_conclude boards calls started (Outcome.fits_ofAnswer _ _))

/-- A later turn of a run. -/
theorem takes_continueRun (boards : w.Boards hook spec run)
    (calls : spec.work.refuses run.id.number = false) (call : Nat) (started : Instant)
    (limit : Option (Duration × Instant)) (pause : Pause) (rest : List Action) :
    Takes hook spec run.id (some (.working call started limit pause rest))
      (workCalled hook spec run.id) w (w.continueRun spec run call started limit pause rest) := by
  have waits : Takes hook spec run.id (some (.working call started limit pause rest))
      (workCalled hook spec run.id) w w := by
    refine ⟨[], id, (Launches.refl w).adds run.id, nofun, ?_⟩
    rw [List.append_nil]
    exact .working calls ..
  unfold continueRun
  split
  · have resumed := (errands_resume w spec.name run pause rest).launches
    exact resumed.takes (takes_afterPlay ((resumed.adds run.id).boards boards) calls ..)
  · split
    · split
      · exact takes_cutShort boards calls ..
      · exact waits
    · exact waits

end Turns

end World

end TaskEngine
