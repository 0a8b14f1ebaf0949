/-
  TaskEngine/Proofs/Numbering.lean
  ================================
  **Where the numbers of runs are shown, and in which order.**

  The number of a run is shown at six stations: to both hooks before the run and after it, and in the
  two events that announce it (`Station`).  A run passes the stations before its work in its first
  turn, and those after its work in its last one, each once (`Standing.countP`).

  If runs are polled for the first time in the order in which they were launched
  (`World.inSpawnOrder`), the first turns of a task's runs come in the order of their numbers, since
  runs in flight stand in that order; so every station before the work is shown the numbers from 1 on,
  without gaps (`World.InOrder`).
-/
import Mathlib.Data.List.Count
import TaskEngine.Proofs.Acts
import TaskEngine.Proofs.Ledgers
import TaskEngine.Proofs.Owing

namespace TaskEngine

/-! ## 1. Stations -/

/-- Where the number of a run is shown: to the hook of the engine and that of the task before its
work, in the event that announces its beginning, and then once more when its work has ended. -/
inductive Station where
  | engineBefore
  | taskBefore
  | started
  | engineAfter
  | taskAfter
  | ended
deriving DecidableEq, Repr

def Callback.station? : Callback → Option Station
  | engineBefore => some .engineBefore
  | taskBefore => some .taskBefore
  | engineAfter => some .engineAfter
  | taskAfter => some .taskAfter
  | work | onError _ | onPanic _ => none

def EventKind.station? (k : EventKind) : Option Station :=
  if k = .runStarted then some .started else if k.isRunFinished then some .ended else none

def Mark.station? : Mark → Option Station
  | called callback => callback.station?
  | published event => event.kind.station?
  | finished _ => none

/-- The number that a note shows at a station to those who look after task `t`; an event might show
none. -/
def Note.number? (t : TaskId) (s : Station) : Note → Option (Option Nat)
  | .called callback run =>
      if run.task = t ∧ callback.station? = some s then some (some run.number) else none
  | .published event task =>
      if task = some t ∧ event.kind.station? = some s then some event.run else none
  | _ => none

namespace Station

/-- Whether the station comes before the work. -/
def isOpening : Station → Bool
  | engineBefore | taskBefore | started => true
  | engineAfter | taskAfter | ended => false

/-- Whether there is anybody at the station: events are always published, hooks may be missing. -/
def isHeard (hook : Option Hook) (spec : ResolvedSpec) : Station → Bool
  | engineBefore | engineAfter => hook.isSome
  | taskBefore | taskAfter => spec.hook.isSome
  | started | ended => true

/-- Whether the run of that number, which has come this far, has passed the station. -/
def isPassed (spec : ResolvedSpec) (number : Nat) (progress : Option Progress) (s : Station) : Bool :=
  if s.isOpening then progress ≠ some .launched else progress.isNone && !spec.work.refuses number

end Station

section Marks

variable {n : Note} {own : RunId} {mark : Mark} {t : TaskId} {s : Station}

theorem EventKind.isAboutRun_of_station? {k : EventKind} (h : k.station? = some s) :
    k.isAboutRun = true := by
  cases k <;> first | rfl | cases h

theorem Note.number?_of_isPlain (plain : n.isPlain = true) (t : TaskId) (s : Station) :
    n.number? t s = none := by
  cases n with
  | published event task =>
      have other : event.kind.isAboutRun = false := by simpa [isPlain] using plain
      apply if_neg
      rintro ⟨-, station⟩
      rw [EventKind.isAboutRun_of_station? station] at other
      cases other
  | _ => first | rfl | cases plain

/-- A mark of a run shows the number of the run. -/
theorem Note.number?_of_mark? (is : n.mark? own = some mark) (t : TaskId) (s : Station) :
    n.number? t s = if own.task = t ∧ mark.station? = some s then some (some own.number) else none := by
  cases n with
  | called callback run =>
      obtain ⟨rfl, called⟩ := Option.ite_none_right_eq_some.mp is
      obtain rfl := Option.some.inj called
      rfl
  | published event task =>
      obtain ⟨⟨-, rfl, numbered⟩, published⟩ := Option.ite_none_right_eq_some.mp is
      obtain rfl := Option.some.inj published
      rw [number?, numbered]
      exact if_congr (by rw [Option.some.injEq]; rfl) rfl rfl
  | finished run outcome =>
      obtain ⟨-, finished⟩ := Option.ite_none_right_eq_some.mp is
      obtain rfl := Option.some.inj finished
      exact (if_neg (fun h => nomatch h.2)).symm
  | _ => cases is

/-- A mark that announces a run is the event itself, about the task of the run. -/
theorem Note.eq_of_mark? {event : Event} (is : n.mark? own = some (.published event)) :
    n = .published event (some own.task) := by
  cases n with
  | called callback run => cases (Option.ite_none_right_eq_some.mp is).2
  | published event' task =>
      obtain ⟨⟨-, rfl, -⟩, same⟩ := Option.ite_none_right_eq_some.mp is
      obtain rfl : event' = event := Mark.published.inj (Option.some.inj same)
      rfl
  | finished run outcome => cases (Option.ite_none_right_eq_some.mp is).2
  | _ => cases is

/-- Numbers are shown by marks. -/
theorem Note.number?_eq_some_iff {k : Nat} : n.number? t s = some (some k) ↔
    (n.mark? ⟨t, k⟩).any (·.station? = some s) = true := by
  constructor
  · intro shows
    cases n with
    | called callback run =>
        obtain ⟨⟨rfl, station⟩, number⟩ := Option.ite_none_right_eq_some.mp shows
        obtain rfl : run.number = k := Option.some.inj (Option.some.inj number)
        simp [mark?, Mark.station?, station]
    | published event task =>
        obtain ⟨⟨about, station⟩, number⟩ := Option.ite_none_right_eq_some.mp shows
        have number := Option.some.inj number
        simp [mark?, EventKind.isAboutRun_of_station? station, about, number, Mark.station?, station]
    | _ => cases shows
  · intro passes
    obtain ⟨mark, is, station⟩ := (Option.any_eq_true ..).mp passes
    rw [number?_of_mark? is, if_pos ⟨rfl, of_decide_eq_true station⟩]

end Marks

/-! ### How often a run passes a station -/

section Course

variable {hook : Option Hook} {spec : ResolvedSpec} {id : RunId}

theorem station?_callback? (outcome : Outcome) (s : Station) :
    (outcome.callback?.map Mark.called).toList.countP (·.station? = some s) = 0 := by
  cases outcome <;> rfl

theorem station?_terminalEvent (task : String) (number : Nat) (outcome : Outcome)
    (elapsed : Duration) :
    (Engine.terminalEvent task number outcome elapsed).kind.station? = some .ended := by
  cases outcome <;> rfl

/-- A hook is called at its own station, if it is there. -/
theorem countP_called (hook : Option Hook) (callback : Callback) (s : Station) :
    (hook.map fun _ => Mark.called callback).toList.countP (·.station? = some s) =
      (hook.isSome && callback.station? = some s).toNat := by
  cases hook with
  | none => rfl
  | some hook =>
      by_cases there : callback.station? = some s
      · simp [Mark.station?, there]
      · simp [Mark.station?, there]

theorem countP_opening (hook : Option Hook) (spec : ResolvedSpec) (id : RunId) (s : Station) :
    (opening hook spec id).countP (·.station? = some s) =
      (s.isOpening && s.isHeard hook spec).toNat := by
  simp only [opening, List.countP_append, countP_called]
  cases s <;> simp [Station.isOpening, Station.isHeard, Callback.station?, Mark.station?,
    EventKind.station?]

theorem countP_closing (hook : Option Hook) (spec : ResolvedSpec) (id : RunId) (outcome : Outcome)
    (elapsed : Duration) (s : Station) :
    (closing hook spec id outcome elapsed).countP (·.station? = some s) =
      (!s.isOpening && s.isHeard hook spec).toNat := by
  have announced := station?_terminalEvent spec.name id.number outcome elapsed
  simp only [closing, List.countP_append, countP_called, station?_callback?]
  cases s <;> simp [Station.isOpening, Station.isHeard, Callback.station?, Mark.station?, announced]

/-- How far a run has come says which stations it has passed, each of them once. -/
theorem Standing.countP {progress : Option Progress} {marks : List Mark}
    (h : Standing hook spec id progress marks) (s : Station) :
    marks.countP (·.station? = some s) = (s.isHeard hook spec && s.isPassed spec id.number progress).toNat := by
  have working : [Mark.called .work].countP (·.station? = some s) = 0 := rfl
  cases h with
  | launched => simp [Station.isPassed]
  | working calls call started limit pause rest =>
      rw [List.countP_append, countP_opening, working]
      cases opens : s.isOpening <;> simp [Station.isPassed, opens]
  | ended calls outcome elapsed fits =>
      rw [List.countP_append, List.countP_append, countP_opening, working, countP_closing]
      cases opens : s.isOpening <;> simp [Station.isPassed, opens, calls]
  | lost refuses =>
      rw [countP_opening]
      cases opens : s.isOpening <;> simp [Station.isPassed, opens, refuses]

/-- A run is announced to have begun before it is announced to have ended. -/
theorem Standing.started_of_ended {progress : Option Progress} {marks before after : List Mark}
    {mark : Mark} (h : Standing hook spec id progress marks) (split : marks = before ++ mark :: after)
    (ends : mark.station? = some .ended) :
    .published { kind := .runStarted, task := some spec.name, run := some id.number } ∈ before := by
  have opens {rest : List Mark} (form : opening hook spec id ++ rest = before ++ mark :: after) :
      .published { kind := .runStarted, task := some spec.name, run := some id.number } ∈ before := by
    have starts : .published { kind := .runStarted, task := some spec.name, run := some id.number } ∈
        opening hook spec id := List.mem_append_right _ List.mem_cons_self
    rcases List.append_eq_append_iff.mp form with ⟨between, rfl, -⟩ | ⟨between, opens, rest⟩
    · exact List.mem_append_left _ starts
    · cases between with
      | nil =>
          rw [List.append_nil] at opens
          exact opens ▸ starts
      | cons first between =>
          -- no mark of the opening announces an end
          obtain ⟨rfl, -⟩ := List.cons.inj rest
          have none := countP_opening hook spec id .ended
          have here : mark ∈ opening hook spec id := opens ▸ List.mem_append_right _ List.mem_cons_self
          exact absurd (decide_eq_true ends) (List.countP_eq_zero.mp none mark here)
  cases h with
  | launched => simp at split
  | working calls call started limit pause rest => exact opens split
  | ended calls outcome elapsed fits => exact opens ((List.append_assoc ..).symm.trans split)
  | lost refuses => exact opens ((List.append_nil _).trans split)

end Course

namespace Engine

variable {e e' : Engine} {own : RunId} {t : TaskId} {s : Station}

/-! ## 2. What a station has been shown -/

/-- The numbers that a station has been shown by the runs of task `t`, in order. -/
def numbers (e : Engine) (t : TaskId) (s : Station) : List (Option Nat) :=
  (e.journal.filterMap (·.note.number? t s)).reverse

/-- A number is shown as often as its run has passed the station. -/
theorem count_numbers (e : Engine) (t : TaskId) (s : Station) (k : Nat) :
    (e.numbers t s).count (some k) = (e.marks ⟨t, k⟩).countP (·.station? = some s) := by
  rw [numbers, marks, List.count, List.countP_reverse, List.countP_reverse, List.countP_filterMap,
    List.countP_filterMap]
  have reads {α : Type} (p : α → Bool) (o : Option α) : (o.map p).getD false = o.any p := by
    cases o <;> rfl
  refine List.countP_congr fun entry _ => ?_
  rw [reads, reads, ← Note.number?_eq_some_iff, Option.any_eq_true]
  simp

/-- The marks that a run has left are what the stations have been shown since. -/
theorem Adds.numbers {more : List Mark} {becomes : Option Progress → Option Progress}
    (h : Adds own more becomes e e') (t : TaskId) (s : Station) :
    e'.numbers t s = e.numbers t s ++
      more.filterMap fun mark =>
        if own.task = t ∧ mark.station? = some s then some (some own.number) else none := by
  obtain ⟨entries, journal, left⟩ := h.notes
  have marked : (entries.filterMap (·.note.mark? own)).reverse = more := by
    have marks := h.marks
    rw [Engine.marks, journal, List.filterMap_append, List.reverse_append] at marks
    exact List.append_cancel_left marks
  rw [Engine.numbers, journal, List.filterMap_append, List.reverse_append, ← Engine.numbers, ← marked,
    List.filterMap_reverse, List.filterMap_filterMap]
  congr 2
  refine List.filterMap_congr fun entry mem => ?_
  rcases left entry mem with plain | mine
  · rw [Note.number?_of_isPlain plain, Note.mark?_of_isPlain plain]
    rfl
  · obtain ⟨mark, is⟩ := Option.isSome_iff_exists.mp mine
    rw [is, Note.number?_of_mark? is]
    rfl

theorem Adds.numbers_of_ne {more : List Mark} {becomes : Option Progress → Option Progress}
    (h : Adds own more becomes e e') (other : own.task ≠ t) (s : Station) :
    e'.numbers t s = e.numbers t s := by
  rw [h.numbers t s, List.filterMap_eq_nil_iff.mpr, List.append_nil]
  exact fun _ _ => if_neg fun mine => other mine.1

theorem Adds.numbers_own {more : List Mark} {becomes : Option Progress → Option Progress}
    (h : Adds own more becomes e e') (s : Station) :
    e'.numbers own.task s = e.numbers own.task s ++
      List.replicate (more.countP (·.station? = some s)) (some own.number) := by
  rw [h.numbers own.task s]
  congr 1
  clear h
  induction more with
  | nil => rfl
  | cons mark more ih =>
      rw [List.filterMap_cons, ih, List.countP_cons]
      by_cases there : mark.station? = some s
      · simp [there, List.replicate_succ]
      · simp [there]

end Engine

namespace World

open Engine

variable {w w' : World} {own : RunId} {more : List Mark}
  {becomes : Option Progress → Option Progress} {t : TaskId} {task : TaskRecord} {n : Nat}

/-! ## 3. Runs in order -/

/-- Whether anybody is at a station of task `t`. -/
def hears (w : World) (t : TaskId) (s : Station) : Bool :=
  (w.engine.tasks[t]?).any fun task => s.isHeard w.hook task.spec

theorem hears_of_known (known : w.engine.tasks[t]? = some task) (s : Station) :
    w.hears t s = s.isHeard w.hook task.spec := by
  rw [hears, known, Option.any_some]

/-- The first `n` runs of task `t` have had their first turns, in order, and the others that have
begun wait for theirs. -/
structure InOrder (w : World) (t : TaskId) (n : Nat) : Prop where
  begun : ∀ k, 1 ≤ k → k ≤ n → w.engine.hasBegun ⟨t, k⟩
  waits : ∀ k, w.engine.progress? ⟨t, k⟩ = some .launched ↔ n < k ∧ w.engine.hasBegun ⟨t, k⟩
  opened : ∀ s, s.isOpening = true →
    w.engine.numbers t s = if w.hears t s then (List.range' 1 n).map some else []
  closed : ∀ s, s.isOpening = false →
    w.engine.numbers t s = if w.hears t s then w.engine.numbers t .ended else []
  named : none ∉ w.engine.numbers t .ended

theorem inOrder_create (config : Config) (subscribers : List Subscriber) (hook : Option Hook)
    (handler : Handler) (t : TaskId) : (create config subscribers hook handler).InOrder t 0 where
  begun k positive none := absurd (Nat.le_trans positive none) (Nat.not_succ_le_zero 0)
  waits k := ⟨fun launched => (nomatch launched), fun ⟨_, _, mem, _⟩ => absurd mem List.not_mem_nil⟩
  opened s _ := by cases hook <;> rfl
  closed s _ := by cases hook <;> rfl
  named := List.not_mem_nil

/-- No station of an unknown task has been shown anything. -/
theorem InOrder.blank (h : w.InOrder t n) (numbered : w.engine.Numbered)
    (unknown : w.engine.tasks[t]? = none) : n = 0 ∧ ∀ s, w.engine.numbers t s = [] := by
  have deaf (s : Station) : w.hears t s = false := by rw [hears, unknown, Option.any_none]
  constructor
  · by_contra some
    obtain ⟨task, known, -⟩ := numbered.begun _ (h.begun 1 (Nat.le_refl 1) (Nat.pos_of_ne_zero some))
    rw [unknown] at known
    cases known
  · intro s
    cases opens : s.isOpening with
    | true => simpa [deaf] using h.opened s opens
    | false => simpa [deaf] using h.closed s opens

/-- A run that has no turn waits for its first one as before. -/
theorem InOrder.waits_of_ne (h : w.InOrder t n) (numbered : w.engine.Numbered)
    (consecutive : w'.engine.Consecutive) (adds : Adds own more becomes w w') {k : Nat}
    (other : ⟨t, k⟩ ≠ own) :
    w'.engine.progress? ⟨t, k⟩ = some .launched ↔ n < k ∧ w'.engine.hasBegun ⟨t, k⟩ := by
  by_cases already : w.engine.hasBegun ⟨t, k⟩
  · rw [adds.engine.stays numbered _ other already, h.waits k]
    simp only [already, adds.engine.begun _ already]
  · constructor
    · intro launched
      have begun := consecutive.numbered.hasBegun_of_progress? (Option.isSome_of_eq_some launched)
      refine ⟨Nat.lt_of_not_le fun below => already ?_, begun⟩
      exact h.begun k (((consecutive.ledger t).begun_iff k).mp begun).1 below
    · rintro ⟨-, begun⟩
      exact adds.engine.launched numbered _ other already begun

theorem Adds.hears (h : Adds own more becomes w w') (known : w.engine.tasks[t]? = some task)
    (s : Station) : w'.hears t s = w.hears t s := by
  obtain ⟨new, known', later⟩ := h.engine.grows t task known
  rw [hears_of_known known, hears_of_known known', h.hook, later.spec]

/-- What happens to other tasks leaves the order of the runs of a task alone. -/
theorem InOrder.elsewhere (h : w.InOrder t n) (numbered : w.engine.Numbered)
    (consecutive : w'.engine.Consecutive) (adds : Adds own more becomes w w')
    (other : own.task ≠ t) : w'.InOrder t n := by
  have silent := adds.engine.numbers_of_ne other
  have begun (k : Nat) (positive : 1 ≤ k) (below : k ≤ n) : w'.engine.hasBegun ⟨t, k⟩ :=
    adds.engine.begun _ (h.begun k positive below)
  have waits (k : Nat) := h.waits_of_ne (k := k) numbered consecutive adds
    fun same => other (same ▸ rfl)
  have named : none ∉ w'.engine.numbers t .ended := by
    rw [silent]
    exact h.named
  cases known : w.engine.tasks[t]? with
  | none =>
      -- the task may become known, and its stations heard, but it has had no run
      obtain ⟨rfl, blank⟩ := h.blank numbered known
      refine ⟨begun, waits, fun s _ => ?_, fun s _ => ?_, named⟩ <;> simp [silent, blank]
  | some task =>
      refine ⟨begun, waits, fun s opens => ?_, fun s closes => ?_, named⟩
      · rw [silent, adds.hears known]
        exact h.opened s opens
      · rw [silent, silent, adds.hears known]
        exact h.closed s closes

theorem Launches.inOrder (launches : Launches w w') (h : w.InOrder t n)
    (numbered : w.engine.Numbered) (consecutive : w'.engine.Consecutive) : w'.InOrder t n :=
  -- no run has a turn, so in particular none of this task
  h.elsewhere numbered consecutive (launches.adds ⟨t + 1, 0⟩) (Nat.succ_ne_self t)

/-! ### Turns of runs of the task -/

/-- In a turn a run passes the stations that lie between where it was and where it is then. -/
theorem countP_of_standing {hook : Option Hook} {spec : ResolvedSpec} {progress after : Option Progress}
    {before : List Mark} (was : Standing hook spec own progress before)
    (stands : Standing hook spec own after (before ++ more)) (s : Station) :
    more.countP (·.station? = some s) =
      (s.isHeard hook spec &&
        (s.isPassed spec own.number after && !s.isPassed spec own.number progress)).toNat := by
  have total := stands.countP s
  rw [List.countP_append, was.countP s] at total
  generalize more.countP _ = passed at total ⊢
  generalize s.isHeard hook spec = heard at total ⊢
  generalize s.isPassed spec own.number progress = early at total ⊢
  generalize s.isPassed spec own.number after = late at total ⊢
  cases heard <;> cases early <;> cases late <;> simp at total ⊢ <;> omega

section Turn

variable (h : w.InOrder own.task n) (known : w.engine.tasks[own.task]? = some task)
  (adds : Adds own more becomes w w')
  (passed : ∀ s : Station, more.countP (·.station? = some s) =
    (s.isHeard w.hook task.spec &&
      (s.isPassed task.spec own.number (w'.engine.progress? own) &&
        !s.isPassed task.spec own.number (w.engine.progress? own))).toNat)

include adds known passed

/-- What a station has been shown in a turn of a run. -/
theorem numbers_turn (s : Station) :
    w'.engine.numbers own.task s = w.engine.numbers own.task s ++
      List.replicate (w.hears own.task s && (s.isPassed task.spec own.number (w'.engine.progress? own) &&
        !s.isPassed task.spec own.number (w.engine.progress? own))).toNat (some own.number) := by
  rw [adds.engine.numbers_own, passed, hears_of_known known]

include h

/-- The stations after the work are shown the same numbers. -/
theorem InOrder.closed_turn (s : Station) (closes : s.isOpening = false) :
    w'.engine.numbers own.task s =
      if w'.hears own.task s then w'.engine.numbers own.task .ended else [] := by
  have heard : w.hears own.task .ended = true := hears_of_known known _
  have alike (progress : Option Progress) :
      s.isPassed task.spec own.number progress =
        Station.ended.isPassed task.spec own.number progress := by
    rw [Station.isPassed, closes]
    rfl
  rw [adds.hears known, numbers_turn known adds passed s, numbers_turn known adds passed .ended,
    h.closed s closes, alike, alike, heard]
  cases w.hears own.task s <;> simp

theorem InOrder.named_turn : none ∉ w'.engine.numbers own.task .ended := by
  rw [numbers_turn known adds passed .ended]
  simp [h.named, List.mem_replicate]

/-- The first turn of a run is that of the run after those that have had theirs. -/
theorem InOrder.turn_first (numbered : w.engine.Numbered) (consecutive : w'.engine.Consecutive)
    (begun : w.engine.hasBegun own) (gone : w'.engine.progress? own ≠ some .launched)
    (launched : w.engine.progress? own = some .launched) (next : own.number = n + 1) :
    w'.InOrder own.task (n + 1) := by
  refine ⟨?_, ?_, ?_, h.closed_turn known adds passed, h.named_turn known adds passed⟩
  · intro k positive below
    rcases Nat.lt_or_eq_of_le below with below | rfl
    · exact adds.engine.begun _ (h.begun k positive (Nat.le_of_lt_succ below))
    · exact next ▸ adds.engine.begun own begun
  · intro k
    by_cases mine : k = n + 1
    · subst mine
      rw [← next]
      exact ⟨fun waits => absurd waits gone, fun ⟨above, _⟩ => absurd above (Nat.lt_irrefl _)⟩
    · have other : (⟨own.task, k⟩ : RunId) ≠ own := fun same => mine (by rw [← next, ← same])
      rw [h.waits_of_ne numbered consecutive adds other]
      exact and_congr_left fun _ => by omega
  · intro s opens
    rw [adds.hears known, numbers_turn known adds passed, h.opened s opens, Station.isPassed, opens,
      launched, Station.isPassed, opens, List.range'_1_concat, next]
    cases w.hears own.task s <;> simp [gone, Nat.add_comm]

/-- A later turn of a run adds nothing to what the stations before the work have been shown. -/
theorem InOrder.turn_later (numbered : w.engine.Numbered) (consecutive : w'.engine.Consecutive)
    (begun : w.engine.hasBegun own) (gone : w'.engine.progress? own ≠ some .launched)
    (later : w.engine.progress? own ≠ some .launched) : w'.InOrder own.task n := by
  have past : ¬n < own.number := fun above => later ((h.waits own.number).mpr ⟨above, begun⟩)
  refine ⟨?_, ?_, ?_, h.closed_turn known adds passed, h.named_turn known adds passed⟩
  · exact fun k positive below => adds.engine.begun _ (h.begun k positive below)
  · intro k
    by_cases mine : (⟨own.task, k⟩ : RunId) = own
    · rw [mine]
      obtain rfl : k = own.number := congrArg RunId.number mine
      exact ⟨fun waits => absurd waits gone, fun ⟨above, _⟩ => absurd above past⟩
    · exact h.waits_of_ne numbered consecutive adds mine
  · intro s opens
    rw [adds.hears known, numbers_turn known adds passed, h.opened s opens, Station.isPassed, opens,
      Station.isPassed, opens]
    cases w.hears own.task s <;> simp [later]

end Turn

/-! ## 4. First turns in the order of launches -/

/-- The run of task `t` that was launched first among those that wait for their first turns. -/
def nextInLine? (w : World) (t : TaskId) : Option RunId :=
  (w.engine.runs.find? fun run => run.id.task = t ∧ run.progress = .launched).map (·.id)

/-- Whether no run is polled for the first time before one of the same task that was launched
earlier. -/
def isPolledInTurn (w : World) : Act → Bool
  | .turn (.run id) =>
      w.engine.progress? id = some .launched → w.nextInLine? id.task = some id
  | _ => true

/-- Whether runs are polled for the first time in the order in which they were launched. -/
def inSpawnOrder : World → List Act → Bool
  | _, [] => true
  | w, a :: acts => w.isPolledInTurn a && (w.perform a).inSpawnOrder acts

/-- The run that was launched first has the smallest number of those that wait for their first
turns. -/
theorem number_le_of_nextInLine? {id : RunId} {run : Run} (ranked : w.engine.Ranked)
    (next : w.nextInLine? t = some id) (mem : run ∈ w.engine.runs) (same : run.id.task = t)
    (launched : run.progress = .launched) : id.number ≤ run.id.number := by
  obtain ⟨first, found, rfl⟩ := Option.map_eq_some_iff.mp next
  obtain ⟨fits, before, after, runs, earlier⟩ := List.find?_eq_some_iff_append.mp found
  rw [Ranked, runs, List.map_append, List.map_cons] at ranked
  rw [runs] at mem
  rcases List.mem_append.mp mem with mem | mem
  · have other := earlier run mem
    simp [same, launched] at other
  · rcases List.mem_cons.mp mem with rfl | mem
    · exact Nat.le_refl _
    · obtain ⟨above, -⟩ := List.pairwise_cons.mp (List.pairwise_append.mp ranked).2.1
      have fits : first.id.task = t := (of_decide_eq_true fits).1
      exact Nat.le_of_lt (above _ (List.mem_map_of_mem mem) (fits.trans same.symm))

/-- A run that is polled in turn for the first time is the one after those that have been polled. -/
theorem InOrder.next (h : w.InOrder own.task n) (consecutive : w.engine.Consecutive)
    (polled : w.isPolledInTurn (.turn (.run own)) = true)
    (launched : w.engine.progress? own = some .launched) : own.number = n + 1 := by
  have next := of_decide_eq_true polled launched
  obtain ⟨above, begun⟩ := (h.waits own.number).mp launched
  have used := (consecutive.ledger own.task).begun_iff
  by_contra other
  have gap : n + 1 < own.number := Nat.lt_of_le_of_ne above (Ne.symm other)
  -- the run in between has begun too, and waits
  have below := ((used own.number).mp begun).2
  have waits := (h.waits (n + 1)).mpr
    ⟨Nat.lt_succ_self n, (used (n + 1)).mpr ⟨Nat.succ_pos n, Nat.le_trans (Nat.le_of_lt gap) below⟩⟩
  obtain ⟨run, found, progress⟩ := Option.map_eq_some_iff.mp waits
  obtain ⟨mem, is⟩ := mem_of_run? found
  have first := number_le_of_nextInLine? consecutive.ranked next mem (by rw [is]) progress
  rw [is] at first
  exact Nat.not_le_of_lt gap first

/-- The runs of every task begin one after the other, stand on their courses and are polled in order. -/
structure Sequenced (w : World) : Prop where
  recorded : w.Recorded
  consecutive : w.engine.Consecutive
  inOrder : ∀ t, ∃ n, w.InOrder t n

theorem sequenced_create (config : Config) (subscribers : List Subscriber) (hook : Option Hook)
    (handler : Handler) : (create config subscribers hook handler).Sequenced :=
  ⟨recorded_create .., consecutive_create ..,
    fun t => ⟨0, inOrder_create config subscribers hook handler t⟩⟩

theorem Sequenced.turnRun (h : w.Sequenced) (own : RunId)
    (polled : w.isPolledInTurn (.turn (.run own)) = true)
    (consecutive : (w.turnRun own).engine.Consecutive) (t : TaskId) :
    ∃ n, (w.turnRun own).InOrder t n := by
  obtain ⟨n, order⟩ := h.inOrder t
  cases found : w.engine.run? own with
  | none =>
      rw [turnRun_of_absent found]
      exact ⟨n, order⟩
  | some run =>
      obtain ⟨begun, task, known, more, becomes, adds, gone, stands⟩ :=
        h.recorded.takes_turnRun (Option.isSome_of_eq_some found)
      by_cases other : own.task = t
      · subst other
        obtain ⟨task', known', was⟩ := h.recorded.stands own begun
        obtain rfl : task = task' := Option.some.inj (known.symm.trans known')
        have numbered := h.recorded.numbered
        have passed := countP_of_standing was stands
        rw [← adds.engine.progress numbered begun] at gone passed
        by_cases launched : w.engine.progress? own = some .launched
        · exact ⟨n + 1, order.turn_first known adds passed numbered consecutive begun gone launched
            (order.next h.consecutive polled launched)⟩
        · exact ⟨n, order.turn_later known adds passed numbered consecutive begun gone launched⟩
      · exact ⟨n, order.elsewhere h.recorded.numbered consecutive adds other⟩

/-! ### New decisions about panics -/

theorem hears_redraw (w : World) (mood : Mood) (t : TaskId) (s : Station) :
    (w.redraw mood).hears t s = w.hears t s := by
  have same (spec : ResolvedSpec) : s.isHeard (w.redraw mood).hook
      (spec.panicking mood.taskBefore mood.taskAfter) = s.isHeard w.hook spec := by
    cases s <;> simp [Station.isHeard, ResolvedSpec.panicking, World.redraw]
  have tasks : (w.redraw mood).engine.tasks[t]? = (w.engine.tasks[t]?).map fun task =>
      { task with spec := task.spec.panicking mood.taskBefore mood.taskAfter } := List.getElem?_map
  rw [hears, tasks, Option.any_map]
  simp only [same]
  rfl

theorem InOrder.redraw (h : w.InOrder t n) (mood : Mood) : (w.redraw mood).InOrder t n where
  begun := h.begun
  waits := h.waits
  opened s opens := by
    rw [hears_redraw]
    exact h.opened s opens
  closed s closes := by
    rw [hears_redraw]
    exact h.closed s closes
  named := h.named

theorem Sequenced.redraw (h : w.Sequenced) (mood : Mood) : (w.redraw mood).Sequenced := by
  have recorded := h.recorded.redraw mood
  refine ⟨recorded, ⟨?_, recorded.numbered, ?_, ?_, h.consecutive.ranked⟩, fun t => ?_⟩
  · intro still
    obtain ⟨noRuns, nobody⟩ := h.consecutive.quiet still
    refine ⟨noRuns, fun task mem => ?_⟩
    obtain ⟨old, memOld, rfl⟩ := List.mem_map.mp mem
    exact nobody old memOld
  · intro t shows
    have same : (w.redraw mood).engine.shows (.run t) = w.engine.shows (.run t) :=
      shows_congr _ (List.map_map ..)
    exact h.consecutive.owes t (same ▸ shows)
  · intro t
    have same (task : TaskRecord) : task.SameTally
        { task with spec := task.spec.panicking mood.taskBefore mood.taskAfter } := rfl
    have tally : (w.redraw mood).engine.tallyOf t = w.engine.tallyOf t :=
      tallyOf_of_forall₂ (forall₂_map same _) t
    exact (h.consecutive.ledger t).of_same tally (notes_nothing rfl)
  · obtain ⟨n, order⟩ := h.inOrder t
    exact ⟨n, order.redraw mood⟩

theorem Sequenced.perform {a : Act} (h : w.Sequenced) (allowed : w.allows a = true)
    (polled : w.isPolledInTurn a = true) : (w.perform a).Sequenced := by
  cases redrawn : a.isRedraw with
  | true =>
      cases a with
      | redraw mood => exact h.redraw mood
      | _ => cases redrawn
  | false =>
      have step := step_iff.mpr ⟨a, redrawn, allowed, rfl⟩
      have consecutive := h.consecutive.leads (step.leads h.recorded.orderly)
      refine ⟨h.recorded.perform allowed, consecutive, fun t => ?_⟩
      by_cases own : ∃ id, a = .turn (.run id)
      · obtain ⟨id, rfl⟩ := own
        exact h.turnRun id polled consecutive t
      · obtain ⟨n, order⟩ := h.inOrder t
        have launches := launches_perform_act h.recorded.orderly allowed redrawn
          fun id is => own ⟨id, is⟩
        exact ⟨n, launches.inOrder order h.recorded.numbered consecutive⟩

theorem Sequenced.after {acts : List Act} (h : w.Sequenced) (admitted : w.admits acts = true)
    (spawned : w.inSpawnOrder acts = true) : (w.after acts).Sequenced := by
  induction acts generalizing w with
  | nil => exact h
  | cons a acts ih =>
      obtain ⟨allowed, rest⟩ := (admits_cons ..).mp admitted
      obtain ⟨polled, others⟩ := Bool.and_eq_true_iff.mp spawned
      exact ih (h.perform allowed polled) rest others

/-! ## 5. All histories -/

section Reached

variable (h : w.Sequenced) (known : w.engine.tasks[t]? = some task)

include h known

/-- How often a number has been shown depends on how far its run has come. -/
theorem Sequenced.count_numbers (k : Nat) (s : Station) :
    (w.engine.numbers t s).count (some k) = if 1 ≤ k ∧ k ≤ task.runCount then
      (s.isHeard w.hook task.spec && s.isPassed task.spec k (w.engine.progress? ⟨t, k⟩)).toNat else 0 := by
  rw [Engine.count_numbers]
  by_cases begun : w.engine.hasBegun ⟨t, k⟩
  · obtain ⟨task', known', stands⟩ := h.recorded.stands _ begun
    obtain rfl : task = task' := Option.some.inj (known.symm.trans known')
    rw [if_pos ((h.consecutive.hasBegun_iff known k).mp begun)]
    exact stands.countP s
  · rw [if_neg (mt (h.consecutive.hasBegun_iff known k).mpr begun), h.recorded.unmarked _ begun]
    rfl

theorem Sequenced.nodup_ended : (w.engine.numbers t .ended).Nodup := by
  obtain ⟨n, order⟩ := h.inOrder t
  refine List.nodup_iff_count.mpr fun number => ?_
  cases number with
  | none =>
      rw [List.count_eq_zero.mpr order.named]
      exact Nat.zero_le 1
  | some k =>
      rw [h.count_numbers known]
      split
      · exact Bool.toNat_le _
      · exact Nat.zero_le 1

omit known in
theorem Sequenced.started_of_ended {newer older : List Entry} {time : Instant} {event : Event}
    (journal : w.engine.journal = newer ++ ⟨time, .published event (some t)⟩ :: older)
    (ends : event.kind.isRunFinished = true) :
    ∃ entry ∈ older, ∃ start, entry.note = .published start (some t) ∧ start.kind = .runStarted ∧
      start.run = event.run := by
  obtain ⟨n, order⟩ := h.inOrder t
  have station : event.kind.station? = some .ended := by
    cases kind : event.kind <;> rw [kind] at ends <;> first | rfl | cases ends
  have here : (Note.published event (some t)).number? t .ended = some event.run := if_pos ⟨rfl, station⟩
  have shown : event.run ∈ w.engine.numbers t .ended := by
    rw [numbers, journal]
    simp [here]
  cases number : event.run with
  | none => exact absurd (number ▸ shown) order.named
  | some k =>
      have mark : (Note.published event (some t)).mark? ⟨t, k⟩ = some (.published event) :=
        if_pos ⟨EventKind.isAboutRun_of_station? station, rfl, number⟩
      have split : w.engine.marks ⟨t, k⟩ = (older.filterMap (·.note.mark? ⟨t, k⟩)).reverse ++
          .published event :: (newer.filterMap (·.note.mark? ⟨t, k⟩)).reverse := by
        rw [marks, journal]
        simp [mark]
      have begun : w.engine.hasBegun ⟨t, k⟩ := by
        by_contra fresh
        rw [h.recorded.unmarked _ fresh] at split
        simp at split
      obtain ⟨task, known, stands⟩ := h.recorded.stands _ begun
      obtain ⟨entry, mem, starts⟩ := List.mem_filterMap.mp
        (List.mem_reverse.mp (stands.started_of_ended split station))
      exact ⟨entry, mem, _, Note.eq_of_mark? starts, rfl, rfl⟩

omit known in
theorem Sequenced.progress?_of_stopped (stopped : w.engine.phase = .stopped) (id : RunId) :
    w.engine.progress? id = none := by
  rw [progress?, run?, (h.consecutive.quiet (.inr stopped)).1]
  rfl

/-- Of the runs that have begun, those wait for their first turns that have not been polled. -/
theorem Sequenced.exists_inOrder : ∃ n ≤ task.runCount, w.InOrder t n ∧
    (∀ k, n < k ∧ k ≤ task.runCount ↔ w.engine.progress? ⟨t, k⟩ = some .launched) ∧
    (w.engine.phase = .stopped → n = task.runCount) := by
  obtain ⟨n, order⟩ := h.inOrder t
  have begun := h.consecutive.hasBegun_iff known
  have waits (k : Nat) : n < k ∧ k ≤ task.runCount ↔ w.engine.progress? ⟨t, k⟩ = some .launched := by
    rw [order.waits k, begun k]
    exact and_congr_right fun above => (and_iff_right (Nat.lt_of_le_of_lt (Nat.zero_le n) above)).symm
  have within : n ≤ task.runCount := by
    cases n with
    | zero => exact Nat.zero_le _
    | succ n => exact ((begun _).mp (order.begun _ (Nat.succ_pos n) (Nat.le_refl _))).2
  refine ⟨n, within, order, waits, fun stopped => Nat.le_antisymm within ?_⟩
  by_contra fewer
  have last := (waits task.runCount).mp ⟨Nat.lt_of_not_le fewer, Nat.le_refl _⟩
  rw [h.progress?_of_stopped stopped] at last
  cases last

theorem Sequenced.ended_of_stopped (stopped : w.engine.phase = .stopped) :
    (w.engine.numbers t .ended).Perm
      (((List.range' 1 task.runCount).filter fun k => !task.spec.work.refuses k).map some) := by
  obtain ⟨n, order⟩ := h.inOrder t
  refine List.perm_iff_count.mpr fun number => ?_
  cases number with
  | none =>
      rw [List.count_eq_zero.mpr order.named, eq_comm, List.count_eq_zero]
      simp
  | some k =>
      have once : (((List.range' 1 task.runCount).filter fun k => !task.spec.work.refuses k).map
          some).count (some k) =
            if (1 ≤ k ∧ k ≤ task.runCount) ∧ task.spec.work.refuses k = false then 1 else 0 := by
        rw [List.count_map_of_injective _ _ (fun _ _ => Option.some.inj),
          List.Nodup.count ((List.nodup_range' 1).filter _)]
        simp only [List.mem_filter, List.mem_range'_1, Nat.lt_one_add_iff, Bool.not_eq_true']
      rw [h.count_numbers known, h.progress?_of_stopped stopped, once]
      cases refuses : task.spec.work.refuses k with
      | true => simp [Station.isPassed, Station.isOpening, refuses]
      | false => simp [Station.isPassed, Station.isOpening, Station.isHeard, refuses]

end Reached

/-- **Runs are numbered without gaps.**  Whatever happens in a world, if its runs are polled for the
first time in the order in which they were launched: the numbers in the `RunStarted` events of a task
are 1, 2, 3 and so on, in the order in which they were published, up to the last run that has been
polled; the hooks were called before these runs in the same order.  Each number is in at most one
event that announces an end, which was published after the `RunStarted` event of that number, and the
hooks were called after the same runs.  Once the engine has stopped every run has begun, and those
are announced to have ended, each once, whose calls the work did not refuse.  The runs that are
flagged as merged are those that no request was answered by, and before each of them a request was
merged since the merged run before it. -/
theorem runs_are_numbered_without_gaps (config : Config) (subscribers : List Subscriber)
    (hook : Option Hook) (handler : Handler) (acts : List Act)
    (admitted : (create config subscribers hook handler).admits acts = true)
    (spawned : (create config subscribers hook handler).inSpawnOrder acts = true)
    (t : TaskId) (task : TaskRecord)
    (known : ((create config subscribers hook handler).after acts).engine.tasks[t]? = some task) :
    let w := (create config subscribers hook handler).after acts
    let e := w.engine
    let upTo (n : Nat) : List (Option Nat) := (List.range' 1 n).map some
    (∃ n ≤ task.runCount,
      e.numbers t .started = upTo n ∧
      (w.hook.isSome = true → e.numbers t .engineBefore = upTo n) ∧
      (task.spec.hook.isSome = true → e.numbers t .taskBefore = upTo n) ∧
      (∀ k, n < k ∧ k ≤ task.runCount ↔ e.progress? ⟨t, k⟩ = some .launched) ∧
      (e.phase = .stopped → n = task.runCount)) ∧
    ((e.numbers t .ended).Nodup ∧
      (w.hook.isSome = true → e.numbers t .engineAfter = e.numbers t .ended) ∧
      (task.spec.hook.isSome = true → e.numbers t .taskAfter = e.numbers t .ended) ∧
      (∀ newer time event older,
        e.journal = newer ++ ⟨time, .published event (some t)⟩ :: older →
        event.kind.isRunFinished = true →
        ∃ entry ∈ older, ∃ start, entry.note = .published start (some t) ∧
          start.kind = .runStarted ∧ start.run = event.run) ∧
      (e.phase = .stopped → (e.numbers t .ended).Perm
        (((List.range' 1 task.runCount).filter fun k => !task.spec.work.refuses k).map some))) ∧
    (e.launched t + e.journal.countP (·.note.starts t) = task.runCount ∧
      ∀ newer entry older, e.journal = newer ++ entry :: older → entry.note.launches t = true →
        ∃ recent folded earlier, older = recent ++ folded :: earlier ∧
          folded.note.folds t = true ∧ ∀ other ∈ recent, other.note.launches t = false) := by
  intro w e upTo
  have h : w.Sequenced := (sequenced_create config subscribers hook handler).after admitted spawned
  obtain ⟨n, within, order, waits, last⟩ := h.exists_inOrder known
  have heard (s : Station) (there : s.isHeard w.hook task.spec = true) : w.hears t s = true :=
    (hears_of_known known s).trans there
  have opened (s : Station) (opens : s.isOpening = true) (there : s.isHeard w.hook task.spec = true) :
      e.numbers t s = upTo n := (order.opened s opens).trans (if_pos (heard s there))
  have closed (s : Station) (closes : s.isOpening = false)
      (there : s.isHeard w.hook task.spec = true) : e.numbers t s = e.numbers t .ended :=
    (order.closed s closes).trans (if_pos (heard s there))
  have ledger := h.consecutive.ledger t
  rw [KeepsLedger, tallyOf_of_known known] at ledger
  refine ⟨⟨n, within, ?_, ?_, ?_, waits, last⟩, ⟨?_, ?_, ?_, ?_, ?_⟩, ?_, ?_⟩
  · exact opened .started rfl rfl
  · exact opened .engineBefore rfl
  · exact opened .taskBefore rfl
  · exact h.nodup_ended known
  · exact closed .engineAfter rfl
  · exact closed .taskAfter rfl
  · exact fun newer time event older journal ends => h.started_of_ended journal ends
  · exact h.ended_of_stopped known
  · exact ledger.countP
  · intro newer entry older journal launches
    obtain ⟨recent, folded, earlier, split, folds, others⟩ :=
      since_iff.mp (ledger.folded_of_launches journal launches)
    exact ⟨recent, folded, earlier, split, folds, others⟩

/-- A task with room for two runs, whose hook asks for another one before every run; the first call of
its work waits for a permit. -/
def busy : Spec :=
  { work := .plays [[.gate], [.succeed]], schedule := .onDemand, name := "job", maxConcurrent := 2
    overlap := .merge, hook := some (.noting "of the task" [] [] (some "job") none) }

/-- Runs are asked for until the engine is shut down, and the first one ends last. -/
def busyActs : List Act :=
  [.add busy, .start (.named "t"), .request 0, .turn (.run ⟨0, 1⟩), .turn (.run ⟨0, 2⟩),
    .turn (.run ⟨0, 3⟩), .callShutdown none false, .turn .watcher, .turn (.run ⟨0, 4⟩), .release 0 1,
    .turn (.run ⟨0, 1⟩), .turn (.call 0)]

def busyWorld : World := (create {} [] (some .silent) .logging).after busyActs

theorem runs_are_numbered_without_gaps_busy :
    busyWorld.engine.phase = .stopped ∧ busyWorld.engine.launched 0 = 2 ∧
    busyWorld.engine.numbers 0 .started = [some 1, some 2, some 3, some 4] ∧
    busyWorld.engine.numbers 0 .ended = [some 2, some 3, some 4, some 1] ∧
    busyWorld.engine.numbers 0 .taskAfter = busyWorld.engine.numbers 0 .ended := by
  have admitted : (create {} [] (some .silent) .logging).admits busyActs = true := by decide +kernel
  have spawned : (create {} [] (some .silent) .logging).inSpawnOrder busyActs = true := by
    decide +kernel
  have stopped : busyWorld.engine.phase = .stopped := by decide +kernel
  have record : (busyWorld.engine.tasks[0]?).map (fun task => (task.runCount, task.spec.hook.isSome)) =
      some (4, true) := by decide +kernel
  obtain ⟨task, known, is⟩ := Option.map_eq_some_iff.mp record
  obtain ⟨runs, hooked⟩ := Prod.mk.inj is
  obtain ⟨⟨n, -, started, -, -, -, last⟩, ⟨-, -, after, -, -⟩, -, -⟩ :=
    runs_are_numbered_without_gaps {} [] (some .silent) .logging busyActs admitted spawned 0 task known
  obtain rfl : n = 4 := (last stopped).trans runs
  exact ⟨stopped, by decide +kernel, started, by decide +kernel, after hooked⟩

/-- A task whose work refuses every call but that for the second run is asked for three runs. -/
def refusedActs : List Act :=
  [.add { busy with work := .refusesCall "no" [2], hook := none, maxConcurrent := 3 },
    .start (.named "t"), .request 0, .turn (.run ⟨0, 1⟩), .request 0, .turn (.run ⟨0, 2⟩), .request 0,
    .turn (.run ⟨0, 3⟩), .callShutdown none false, .turn .watcher, .turn (.call 0)]

def refusedWorld : World := (create {} [] (some .silent) .logging).after refusedActs

/-- The engine has stopped, and of the runs that were announced to begin one is announced to end. -/
theorem refused_runs_never_announced_to_end :
    (create {} [] (some .silent) .logging).admits refusedActs = true ∧
    (create {} [] (some .silent) .logging).inSpawnOrder refusedActs = true ∧
    refusedWorld.engine.phase = .stopped ∧
    refusedWorld.engine.numbers 0 .started = [some 1, some 2, some 3] ∧
    refusedWorld.engine.numbers 0 .ended = [some 2] := by
  decide +kernel

end World

end TaskEngine
