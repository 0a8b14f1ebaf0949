/-
  TaskEngine/Proofs/Changes.lean
  ==============================
  **What a move does to the books of an engine.**

  The books are the phase with the gate, the registered tasks, the runs in flight, the answers given
  to waiting callers, and the notes about requests and runs.  A move is a composition of engine
  functions that call each other; taken apart, it comes down to a few kinds of changes to the books
  (`Engine.Change`), between which only things happen that leave the books alone (`Engine.Aside`):
  `changes_perform` says so for every move.  An invariant of the books therefore only has to be
  checked against the changes, and no proof about the books opens a schedule or a shutdown again.

  What a change may do to waiting callers is stated beside it, as a licence: who leaves, who is told
  what, and who boards which run.  `changes_perform` holds for every licence that covers the move.
-/
import Mathlib.Algebra.Ring.Nat
import Mathlib.Data.List.Forall2
import Mathlib.Logic.Relation
import TaskEngine.Proofs.Moves

namespace TaskEngine

/-- Whether a note leaves the books alone: it neither answers a request nor begins or ends a run. -/
def Note.isRemark : Note → Bool
  | .requested .. | .began .. | .finished .. => false
  | .published .. | .armed .. | .ticked _ | .forwarded _ | .called .. | .logged _ | .traced .. => true

/-- Whether events of this kind are neither reports about subscribers nor the end marker. -/
def EventKind.isOrdinary : EventKind → Bool
  | .subscriberPanicked | .subscriberOverflow | .allStoppedWithin => false
  | _ => true

/-- Whether events of this kind are only published by what the gate lets through: a registration,
or a request to a full task. -/
def EventKind.passesGate : EventKind → Bool
  | .taskAdded | .runSkipped | .runMerged => true
  | _ => false

theorem Note.isRemark_of_isOfCallers {n : Note} (h : n.isOfCallers = true) : n.isRemark = true := by
  cases n <;> first | rfl | cases h

theorem Note.forwarded?_of_isOfCallers {n : Note} (h : n.isOfCallers = true) :
    n.forwarded? = none := by
  cases n <;> first | rfl | cases h

theorem Note.published?_of_isOfCallers {n : Note} (h : n.isOfCallers = true) :
    n.published? = none := by
  cases n <;> first | rfl | cases h

/-- What of a run does not change while it is in flight: its number and the callers that wait. -/
def Run.berth (r : Run) : RunId × List WaiterId := (r.id, r.waiters)

/-! ## 0. Records that differ in nothing that requests depend on -/

/-- What a record says about the runs of its task so far. -/
structure Tally where
  runs : Nat := 0
  successes : Nat := 0
  failures : Nat := 0
  panics : Nat := 0
  cancellations : Nat := 0
  lastStarted : Option Instant := none
  lastFinished : Option Instant := none
  lastSuccess : Option Instant := none
  lastError : Option String := none

def TaskRecord.tally (t : TaskRecord) : Tally where
  runs := t.runCount
  successes := t.successCount
  failures := t.failCount
  panics := t.panicCount
  cancellations := t.canceledCount
  lastStarted := t.lastStarted
  lastFinished := t.lastFinished
  lastSuccess := t.lastSuccess
  lastError := t.lastError

/-- The two records agree on the spec, the runs, their tally, what is owed and who waits for it;
serial numbers may have been given out in between. -/
structure TaskRecord.Alike (old new : TaskRecord) : Prop where
  spec : new.spec = old.spec
  running : new.running = old.running
  pending : new.pending = old.pending
  parked : new.parked = old.parked
  tally : new.tally = old.tally
  serial : old.nextSerial ≤ new.nextSerial

namespace TaskRecord

theorem Alike.refl (t : TaskRecord) : Alike t t := ⟨rfl, rfl, rfl, rfl, rfl, Nat.le_refl _⟩

theorem Alike.trans {a b c : TaskRecord} (first : Alike a b) (second : Alike b c) : Alike a c :=
  ⟨second.spec.trans first.spec, second.running.trans first.running,
    second.pending.trans first.pending, second.parked.trans first.parked,
    second.tally.trans first.tally, Nat.le_trans first.serial second.serial⟩

theorem Alike.runCount {old new : TaskRecord} (h : Alike old new) : new.runCount = old.runCount :=
  congrArg Tally.runs h.tally

theorem alike_activate (t : TaskRecord) : Alike t t.activate := by
  unfold activate
  split <;> exact ⟨rfl, rfl, rfl, rfl, rfl, Nat.le_refl _⟩

theorem alike_ensureLoop (t : TaskRecord) : Alike t t.ensureLoop := by
  unfold ensureLoop
  split <;> exact ⟨rfl, rfl, rfl, rfl, rfl, Nat.le_refl _⟩

theorem alike_markStopping (t : TaskRecord) : Alike t t.markStopping := by
  unfold markStopping
  split <;> exact ⟨rfl, rfl, rfl, rfl, rfl, Nat.le_refl _⟩

end TaskRecord

theorem forall₂_map {α : Type} {R : α → α → Prop} {f : α → α} (h : ∀ a, R a (f a)) (l : List α) :
    List.Forall₂ R l (l.map f) :=
  List.forall₂_map_right_iff.mpr (List.forall₂_same.mpr fun a _ => h a)

theorem forall₂_modify {α : Type} {R : α → α → Prop} {f : α → α} (same : ∀ a, R a a)
    (h : ∀ a, R a (f a)) (l : List α) (i : Nat) : List.Forall₂ R l (l.modify i f) := by
  induction l generalizing i with
  | nil => cases i <;> exact .nil
  | cons a l ih =>
      cases i with
      | zero => exact .cons (h a) (List.forall₂_same.mpr fun b _ => same b)
      | succ i => exact .cons (same a) (ih i)

theorem map_eq_of_forall₂ {α β : Type} {R : α → α → Prop} {f : α → β} {l l' : List α}
    (h : List.Forall₂ R l l') (same : ∀ a b, R a b → f b = f a) : l'.map f = l.map f := by
  induction h with
  | nil => rfl
  | cons hab _ ih => rw [List.map_cons, List.map_cons, same _ _ hab, ih]

theorem modify_eq_set_of_getElem? {α : Type} {l : List α} {i : Nat} {a : α} (h : l[i]? = some a)
    (f : α → α) : l.modify i f = l.set i (f a) := by
  induction l generalizing i with
  | nil => simp at h
  | cons b l ih =>
      cases i with
      | zero =>
          obtain rfl : b = a := Option.some.inj h
          rfl
      | succ i => exact congrArg (b :: ·) (ih h)

theorem getElem?_set_some {α : Type} {l : List α} {i j : Nat} {a b : α}
    (h : (l.set i a)[j]? = some b) : j = i ∧ b = a ∨ j ≠ i ∧ l[j]? = some b := by
  by_cases same : j = i
  · subst same
    have inside : j < (l.set j a).length := (List.getElem?_eq_some_iff.mp h).1
    rw [List.length_set] at inside
    rw [List.getElem?_set_self inside] at h
    exact .inl ⟨rfl, (Option.some.inj h).symm⟩
  · rw [List.getElem?_set_ne (Ne.symm same)] at h
    exact .inr ⟨same, h⟩

theorem map_set_eq_map {α β : Type} {f : α → β} {l : List α} {i : Nat} {a b : α}
    (found : l[i]? = some a) (same : f b = f a) : (l.set i b).map f = l.map f := by
  induction l generalizing i with
  | nil => rfl
  | cons c l ih =>
      cases i with
      | zero =>
          obtain rfl : c = a := Option.some.inj found
          simp [same]
      | succ i => simpa using ih (i := i) found

theorem sum_map_set {α : Type} {l : List α} {i : Nat} {a : α} (found : l[i]? = some a) (b : α)
    (f : α → Nat) :
    ((l.set i b).map f).sum + f a = (l.map f).sum + f b := by
  induction l generalizing i with
  | nil => simp at found
  | cons c l ih =>
      cases i with
      | zero =>
          obtain rfl : c = a := Option.some.inj found
          simp only [List.set_cons_zero, List.map_cons, List.sum_cons]
          omega
      | succ i =>
          have rest := ih (i := i) found
          simp only [List.set_cons_succ, List.map_cons, List.sum_cons]
          omega

theorem forall₂_getElem? {α : Type} {R : α → α → Prop} {l l' : List α} (h : List.Forall₂ R l l')
    {i : Nat} {b : α} (hb : l'[i]? = some b) : ∃ a, l[i]? = some a ∧ R a b := by
  induction h generalizing i with
  | nil => simp at hb
  | @cons a b' l l' hab _ ih =>
      cases i with
      | zero => exact ⟨a, rfl, (Option.some.inj hb) ▸ hab⟩
      | succ i => exact ih hb

namespace Engine

variable {e e' : Engine}

/-! ## 1. Steps that leave notes of some kinds -/

section Notes

variable {p q : Note → Prop}

/-- Such notes were left in between, if any. -/
def Notes (p : Note → Prop) (e e' : Engine) : Prop :=
  ∃ entries, e'.journal = entries ++ e.journal ∧ ∀ entry ∈ entries, p entry.note

theorem notes_nothing (same : e'.journal = e.journal) : Notes p e e' :=
  ⟨[], same, fun _ mem => absurd mem List.not_mem_nil⟩

theorem Notes.refl (e : Engine) : Notes p e e := notes_nothing rfl

theorem Notes.trans {e'' : Engine} (first : Notes p e e') (second : Notes p e' e'') :
    Notes p e e'' := by
  obtain ⟨older, journal, noted⟩ := first
  obtain ⟨newer, journal', noted'⟩ := second
  refine ⟨newer ++ older, by rw [journal', journal, List.append_assoc], ?_⟩
  intro entry mem
  rcases List.mem_append.mp mem with mem | mem
  · exact noted' entry mem
  · exact noted entry mem

theorem Notes.mono (h : Notes p e e') (wider : ∀ n, p n → q n) : Notes q e e' := by
  obtain ⟨entries, journal, noted⟩ := h
  exact ⟨entries, journal, fun entry mem => wider _ (noted entry mem)⟩

theorem notes_cons {n : Note} {time : Instant} (journal : e'.journal = ⟨time, n⟩ :: e.journal)
    (noted : p n) : Notes p e e' :=
  ⟨[⟨time, n⟩], journal, fun _ mem => List.mem_singleton.mp mem ▸ noted⟩

/-- Notes that are not counted leave the count alone. -/
theorem countP_of_notes {c : Note → Bool} (h : Notes (c · = false) e e') :
    e'.journal.countP (c ·.note) = e.journal.countP (c ·.note) := by
  obtain ⟨entries, journal, silent⟩ := h
  have none : entries.countP (c ·.note) = 0 :=
    List.countP_eq_zero.mpr fun entry mem => Bool.eq_false_iff.mp (silent entry mem)
  rw [journal, List.countP_append, none, Nat.zero_add]

/-- Notes that are not read leave what is read alone. -/
theorem filterMap_of_notes {α : Type} {read : Note → Option α} (h : Notes (read · = none) e e') :
    e'.journal.filterMap (read ·.note) = e.journal.filterMap (read ·.note) := by
  obtain ⟨entries, journal, silent⟩ := h
  have none : entries.filterMap (read ·.note) = [] := List.filterMap_eq_nil_iff.mpr silent
  rw [journal, List.filterMap_append, none, List.nil_append]

end Notes

/-! ## 2. What leaves the books alone -/

/-- The two states differ in their clock, their ring, their lanes and remarks at most. -/
structure Aside (e e' : Engine) : Prop where
  config : e'.config = e.config
  phase : e'.phase = e.phase
  runToken : e'.runToken = e.runToken
  cancellation : e'.cancellation = e.cancellation
  tasks : e'.tasks = e.tasks
  index : e'.index = e.index
  runs : e'.runs = e.runs
  watching : e'.watching = e.watching
  mail : e'.mail = e.mail
  journal : ∃ entries, e'.journal = entries ++ e.journal ∧
    ∀ entry ∈ entries, entry.note.isRemark = true

/-- The books, with the whole journal. -/
def books (e : Engine) : Config × Phase × Token × Cancellation × List TaskRecord ×
    List (String × TaskId) × List Run × Bool × List (WaiterId × Delivery) × List Entry :=
  (e.config, e.phase, e.runToken, e.cancellation, e.tasks, e.index, e.runs, e.watching, e.mail,
    e.journal)

theorem aside_of_books (same : e'.books = e.books) : Aside e e' := by
  simp only [books, Prod.mk.injEq] at same
  obtain ⟨config, phase, runToken, cancellation, tasks, index, runs, watching, mail, journal⟩ := same
  exact ⟨config, phase, runToken, cancellation, tasks, index, runs, watching, mail, [], journal,
    fun _ h => absurd h List.not_mem_nil⟩

theorem Aside.refl (e : Engine) : Aside e e := aside_of_books rfl

theorem Aside.notes (h : Aside e e') : Notes (·.isRemark = true) e e' := h.journal

theorem Aside.trans {e'' : Engine} (first : Aside e e') (second : Aside e' e'') : Aside e e'' :=
  ⟨second.config.trans first.config, second.phase.trans first.phase,
    second.runToken.trans first.runToken, second.cancellation.trans first.cancellation,
    second.tasks.trans first.tasks, second.index.trans first.index, second.runs.trans first.runs,
    second.watching.trans first.watching, second.mail.trans first.mail,
    first.notes.trans second.notes⟩

theorem aside_note (e : Engine) {n : Note} (remark : n.isRemark = true) : Aside e (e.note n) :=
  ⟨rfl, rfl, rfl, rfl, rfl, rfl, rfl, rfl, rfl, [⟨e.now, n⟩], rfl, by simpa using remark⟩

theorem aside_announce (e : Engine) (event : Event) (task : Option TaskId) :
    Aside e (e.announce event task) :=
  ⟨rfl, rfl, rfl, rfl, rfl, rfl, rfl, rfl, rfl, [⟨e.now, .published event task⟩], rfl, by
    simp [Note.isRemark]⟩

theorem aside_emit (e : Engine) (event : Event) : Aside e (e.emit event) := by
  rw [emit_eq]
  refine ⟨rfl, rfl, rfl, rfl, rfl, rfl, rfl, rfl, rfl,
    ((emitTo e.lanes event).2.map fun report => ⟨e.now, .published report none⟩).reverse ++
      [⟨e.now, .forwarded event⟩], by simp, ?_⟩
  intro entry mem
  simp only [List.mem_append, List.mem_reverse, List.mem_map, List.mem_singleton] at mem
  rcases mem with ⟨report, -, rfl⟩ | rfl <;> rfl

theorem aside_workLane (e : Engine) (i : Nat) : Aside e (e.workLane i) := by
  rw [workLane_eq]
  refine ⟨rfl, rfl, rfl, rfl, rfl, rfl, rfl, rfl, rfl, _, rfl, ?_⟩
  intro entry mem
  simp only [List.mem_reverse, List.mem_map] at mem
  obtain ⟨report, -, rfl⟩ := mem
  rfl

theorem aside_cursor (e : Engine) (cursor : Nat) : Aside e { e with cursor } :=
  aside_of_books rfl

theorem aside_closeLanes (e : Engine) : Aside e e.closeLanes :=
  aside_of_books rfl

theorem aside_awaitWorkers (e : Engine) : Aside e e.awaitWorkers := by
  unfold awaitWorkers
  split <;> exact aside_of_books rfl

theorem aside_receive (e : Engine) : Aside e e.receive := by
  unfold receive
  split
  · split
    · exact .refl e
    · have passed := (aside_cursor e ‹Nat›).trans (aside_emit _ ‹Event›)
      dsimp only
      split
      · exact (passed.trans (aside_closeLanes _)).trans (aside_awaitWorkers _)
      · exact passed
  · exact aside_awaitWorkers e
  · exact .refl e
  · exact .refl e

theorem aside_forward (untilEnd : Bool) (fuel : Nat) (e : Engine) :
    Aside e (e.forward untilEnd fuel).1 := by
  induction fuel generalizing e with
  | zero => exact .refl e
  | succ fuel ih =>
      unfold forward
      split
      · exact .refl e
      · have passed := (aside_cursor e ‹Nat›).trans (aside_emit _ ‹Event›)
        dsimp only
        split
        · exact passed
        · exact passed.trans (ih _)

theorem aside_startPump (e : Engine) : Aside e e.startPump := by
  unfold startPump
  split <;> exact aside_of_books rfl

theorem journal_startPump (e : Engine) : e.startPump.journal = e.journal := by
  unfold startPump
  split <;> rfl

theorem aside_beginFlush (e : Engine) (s : Shutdown) : Aside e (e.beginFlush s).1 := by
  have taken : Aside e { e with dispatch := .idle } :=
    aside_of_books rfl
  unfold beginFlush
  split
  · exact .refl e
  · exact taken
  · exact (taken.trans (aside_forward false _ _)).trans (aside_closeLanes _)

/-! ## 3. Changes to the books -/

/-- What a move may do to waiting callers. -/
structure Licence where
  leaves : WaiterId → Prop
  told : WaiterId → Delivery → Prop
  boards : WaiterId → RunId → Prop

/-- Whoever is told something new, or boards a run, does so under the licence. -/
structure Covers (l : Licence) (e e' : Engine) : Prop where
  told : ∀ w d, (w, d) ∈ e'.mail → (w, d) ∈ e.mail ∨ l.told w d
  boards : ∀ run ∈ e'.runs, ∀ w ∈ run.waiters,
    (∃ old ∈ e.runs, old.id = run.id ∧ w ∈ old.waiters) ∨ l.boards w run.id

def isClosing (e : Engine) : Bool := e.phase == .stopping || e.phase == .stopped

/-- The running engine, before its start is announced. -/
def entered (e : Engine) (token : Token) : Engine :=
  ({ e with
    phase := .running
    runToken := (e.cancellation.child token).1
    cancellation := (e.cancellation.child token).2
    watching := true }.startPump).updateTasks fun t => t.activate.ensureLoop

/-- The kinds of events that an engine publishes on their own: not the end marker, nor reports about
subscribers, nor what passes the gate, and a request to stop only once it is stopping. -/
def announces (e : Engine) : EventKind → Bool
  | .subscriberPanicked | .subscriberOverflow | .allStoppedWithin => false
  | .taskAdded | .runSkipped | .runMerged => false
  | .shutdownRequested => e.phase == .stopping
  | .managerStarted | .graceExceeded | .runStarted | .runSucceeded | .runFailed | .runPanicked
  | .runCanceled | .tickScheduled => true

theorem isOrdinary_of_announces {k : EventKind} (due : e.announces k = true) :
    k.isOrdinary = true := by
  cases k <;> first | rfl | cases due

theorem not_passesGate_of_announces {k : EventKind} (due : e.announces k = true) :
    k.passesGate = false := by
  cases k <;> first | rfl | cases due

theorem announces_of_isAboutRun {k : EventKind} (about : k.isAboutRun = true) (e : Engine) :
    e.announces k = true := by
  cases k <;> first | rfl | cases about

/-- A change that admits no request, ends no run and tells nobody anything. -/
inductive Calm : Engine → Engine → Prop where
  | clock (e : Engine) (now : Instant) (later : e.now.ns ≤ now.ns) : Calm e { e with now }
  | note (e : Engine) (n : Note) (remark : n.isRemark = true) (own : n.forwarded? = none)
      (silent : n.published? = none) : Calm e (e.note n)
  | announce (e : Engine) (event : Event) (task : Option TaskId)
      (due : e.announces event.kind = true) : Calm e (e.announce event task)
  | announceEnd (e : Engine) (stopped : e.phase = .stopped) :
      Calm e (e.publish { kind := .allStoppedWithin })
  | beginFlush (e : Engine) (s : Shutdown) (stopped : e.phase = .stopped) :
      Calm e (e.beginFlush s).1
  | receive (e : Engine) : Calm e e.receive
  | work (e : Engine) (i : Nat) : Calm e (e.workLane i)
  | cancel (e : Engine) (t : Token) : Calm e (e.cancel t)
  | start (e : Engine) (token : Token) (fresh : e.phase = .notStarted) : Calm e (e.entered token)
  | unwatch (e : Engine) (due : e.canWatch = true) : Calm e { e with watching := false }
  | beginStopping (e : Engine) (running : e.phase = .running) : Calm e e.beginStopping
  | setLoop (e : Engine) (t : TaskId) (f : TaskRecord → TaskRecord)
      (keeps : ∀ r, f r = { r with loop := (f r).loop, nextRun := (f r).nextRun }) :
      Calm e (e.updateTask t f)
  | endLoop (e : Engine) (t : TaskId) (cancelled : e.isCancelled e.runToken = true) :
      Calm e (e.endLoop t)
  | setProgress (e : Engine) (id : RunId) (progress : Progress) : Calm e (e.setProgress id progress)

inductive Change (l : Licence) : Engine → Engine → Prop where
  | calm {e e' : Engine} (h : Calm e e') : Change l e e'
  | register (e : Engine) (spec : ResolvedSpec) (status : TaskStatus)
      (accepted : e.initialStatus? = some status) (room : 0 < spec.maxConcurrent)
      (fresh : e.lookup? spec.name = none) : Change l e (e.register spec status)
  /-- A shutdown finds nothing left to wait for. -/
  | stop (e : Engine) (idle : e.phase = .notStarted ∨ e.isClosing = true ∧ e.isIdle = true)
      (covers : Covers l e ({ e with phase := .stopped }.finalize)) :
      Change l e ({ e with phase := .stopped }.finalize)
  | drain (e : Engine) (closing : e.isClosing = true)
      (covers : Covers l e e.drainPending) : Change l e e.drainPending
  | request (e : Engine) (t : TaskId) : Change l e (e.request t none).1
  | requestWaiting (e : Engine) (t : TaskId) (covers : Covers l e (e.requestWaiting t).1) :
      Change l e (e.requestWaiting t).1
  | detach (e : Engine) (w : WaiterId) (leaves : l.leaves w) : Change l e (e.detach w)
  | finish (e : Engine) (id : RunId) (outcome : Outcome) (covers : Covers l e (e.finish id outcome)) :
      Change l e (e.finish id outcome)
  | abandon (e : Engine) (id : RunId)
      (refuses : ∃ task, e.tasks[id.task]? = some task ∧ task.spec.work.refuses id.number = true)
      (covers : Covers l e (e.abandon id)) : Change l e (e.abandon id)

abbrev Changes (l : Licence) : Engine → Engine → Prop := Relation.ReflTransGen (Change l)

/-- What a schedule does in its turn: it looks after its timer, notes and announces what the timer
does, and asks for a run. -/
inductive Stir : Engine → Engine → Prop where
  | setLoop (e : Engine) (t : TaskId) (f : TaskRecord → TaskRecord)
      (keeps : ∀ r, f r = { r with loop := (f r).loop, nextRun := (f r).nextRun }) :
      Stir e (e.updateTask t f)
  | endLoop (e : Engine) (t : TaskId) (cancelled : e.isCancelled e.runToken = true) :
      Stir e (e.endLoop t)
  | armed (e : Engine) (t : TaskId) (due : Instant) : Stir e (e.note (.armed t due))
  | ticked (e : Engine) (t : TaskId) : Stir e (e.note (.ticked t))
  | announce (e : Engine) (event : Event) (t : TaskId) (scheduled : event.kind = .tickScheduled) :
      Stir e (e.publishAbout t event)
  | request (e : Engine) (t : TaskId) : Stir e (e.request t none).1

abbrev Stirs : Engine → Engine → Prop := Relation.ReflTransGen Stir

theorem Stir.change {l : Licence} (stir : Stir e e') : Change l e e' := by
  cases stir with
  | setLoop t f keeps => exact .calm (.setLoop e t f keeps)
  | endLoop t cancelled => exact .calm (.endLoop e t cancelled)
  | armed t due => exact .calm (.note e _ rfl rfl rfl)
  | ticked t => exact .calm (.note e _ rfl rfl rfl)
  | announce event t scheduled => exact .calm (.announce e event _ (by rw [scheduled]; rfl))
  | request t => exact .request e t

theorem Covers.refl (l : Licence) (e : Engine) : Covers l e e :=
  ⟨fun _ _ h => Or.inl h, fun run hRun _ hw => Or.inl ⟨run, hRun, rfl, hw⟩⟩

theorem Covers.of_eq {l : Licence} (mail : e'.mail = e.mail) (runs : e'.runs = e.runs) :
    Covers l e e' :=
  ⟨fun _ _ h => Or.inl (mail ▸ h), fun run hRun _ hw => Or.inl ⟨run, runs ▸ hRun, rfl, hw⟩⟩

theorem Covers.trans {l : Licence} {e'' : Engine} (first : Covers l e e')
    (second : Covers l e' e'') : Covers l e e'' := by
  constructor
  · intro w d h
    rcases second.told w d h with h | h
    · exact first.told w d h
    · exact Or.inr h
  · intro run hRun w hw
    rcases second.boards run hRun w hw with ⟨old, hOld, sameId, hw⟩ | h
    · rw [← sameId]
      exact first.boards old hOld w hw
    · exact Or.inr h

/-- A licence may be used for part of what it covers. -/
theorem Covers.within {l : Licence} {a b : Engine} (h : Covers l e e') (mail : a.mail = e.mail)
    (runs : a.runs = e.runs) (mail' : b.mail = e'.mail) (runs' : b.runs = e'.runs) :
    Covers l a b := by
  constructor
  · intro w d mem
    rw [mail]
    exact h.told w d (mail' ▸ mem)
  · intro run hRun w hw
    rw [runs]
    exact h.boards run (runs' ▸ hRun) w hw

/-! ### What becomes of the tasks -/

/-- A new record is blank but for its schedule. -/
theorem alike_newRecord (e : Engine) (spec : ResolvedSpec) (status : TaskStatus) :
    TaskRecord.Alike { spec, status } (e.newRecord spec status) := by
  unfold newRecord
  split
  · exact TaskRecord.alike_ensureLoop _
  · exact .refl _
  · exact .refl _
  · exact .refl _

/-- A task that is registered is one that was unknown, and the others are as they were. -/
theorem getElem?_register (e : Engine) (spec : ResolvedSpec) (status : TaskStatus) (t : TaskId) :
    (e.register spec status).tasks[t]? = e.tasks[t]? ∨
    e.tasks[t]? = none ∧ (e.register spec status).tasks[t]? = some (e.newRecord spec status) := by
  have tasks : (e.register spec status).tasks = e.tasks ++ [e.newRecord spec status] := rfl
  rw [tasks, List.getElem?_append]
  split
  · exact .inl rfl
  · rename_i outside
    rw [List.getElem?_eq_none (Nat.le_of_not_lt outside)]
    cases last : [e.newRecord spec status][t - e.tasks.length]? with
    | none => exact .inl rfl
    | some task => exact .inr ⟨rfl, by rw [List.mem_singleton.mp (List.mem_of_getElem? last)]⟩

theorem forall₂_drainPending (e : Engine) :
    List.Forall₂ (fun old new => old.forget = new) e.tasks e.drainPending.tasks :=
  forall₂_map (fun _ => rfl) _

theorem forall₂_stop (e : Engine) : List.Forall₂ (fun old new => old.forget.finalize = new) e.tasks
    ({ e with phase := .stopped }.finalize).tasks := by
  show List.Forall₂ _ e.tasks ((e.tasks.map _).map _)
  rw [List.map_map]
  exact forall₂_map (fun _ => rfl) _

theorem forall₂_detach (e : Engine) (leaver : WaiterId) :
    List.Forall₂ (fun old new => new = old ∨ new = old.detach leaver) e.tasks
      (e.detach leaver).tasks :=
  forall₂_modify (fun _ => .inl rfl) (fun _ => .inr rfl) _ _

/-! ### Reading one record -/

/-- What is read off the record of task `t`, which is `blank` as long as there is no such task. -/
def readOf {α : Type} (e : Engine) (read : TaskRecord → α) (blank : α) (t : TaskId) : α :=
  ((e.tasks[t]?).map read).getD blank

section Reading

variable {α : Type} {read : TaskRecord → α} {blank : α} {t : TaskId} {task : TaskRecord}

theorem readOf_of_known (known : e.tasks[t]? = some task) : e.readOf read blank t = read task := by
  rw [readOf, known]
  rfl

theorem readOf_of_forall₂ {R : TaskRecord → TaskRecord → Prop}
    (tasks : List.Forall₂ R e.tasks e'.tasks) (same : ∀ old new, R old new → read new = read old)
    (t : TaskId) : e'.readOf read blank t = e.readOf read blank t := by
  have all := map_eq_of_forall₂ (f := read) tasks same
  rw [readOf, readOf, ← List.getElem?_map, ← List.getElem?_map, all]

theorem readOf_updateTask (e : Engine) (s : TaskId) {f : TaskRecord → TaskRecord}
    (same : ∀ task, read (f task) = read task) (t : TaskId) :
    (e.updateTask s f).readOf read blank t = e.readOf read blank t :=
  readOf_of_forall₂ (forall₂_modify (R := fun old new => read new = read old) (fun _ => rfl) same _ s)
    (fun _ _ same => same) t

theorem readOf_set {new : TaskRecord} (known : e.tasks[t]? = some task)
    (tasks : e'.tasks = e.tasks.set t new) (s : TaskId) :
    e'.readOf read blank s = if s = t then read new else e.readOf read blank s := by
  have inside : t < e.tasks.length := (List.getElem?_eq_some_iff.mp known).1
  by_cases same : s = t
  · subst same
    rw [if_pos rfl, readOf, tasks, List.getElem?_set_self inside]
    rfl
  · rw [if_neg same, readOf, tasks, List.getElem?_set_ne (Ne.symm same)]
    rfl

theorem readOf_register {spec : ResolvedSpec} {status : TaskStatus}
    (new : read (e.newRecord spec status) = blank) (t : TaskId) :
    (e.register spec status).readOf read blank t = e.readOf read blank t := by
  rcases getElem?_register e spec status t with same | ⟨unknown, known⟩
  · rw [readOf, same]
    rfl
  · rw [readOf_of_known known, new, readOf, unknown]
    rfl

end Reading

/-! ## 4. What calm changes keep -/

/-- The two states have the same runs, the same callers and the same accounts of both. -/
structure Alike (e e' : Engine) : Prop where
  tasks : List.Forall₂ TaskRecord.Alike e.tasks e'.tasks
  runs : e'.runs.map (·.berth) = e.runs.map (·.berth)
  mail : e'.mail = e.mail
  journal : ∃ entries, e'.journal = entries ++ e.journal ∧
    ∀ entry ∈ entries, entry.note.isRemark = true

theorem Alike.notes (h : Alike e e') : Notes (·.isRemark = true) e e' := h.journal

theorem Aside.alike (h : Aside e e') : Alike e e' where
  tasks := by
    rw [h.tasks]
    exact List.forall₂_same.mpr fun t _ => .refl t
  runs := by rw [h.runs]
  mail := h.mail
  journal := h.journal

theorem alike_of_tasks (tasks : List.Forall₂ TaskRecord.Alike e.tasks e'.tasks)
    (runs : e'.runs = e.runs) (mail : e'.mail = e.mail) (journal : e'.journal = e.journal) :
    Alike e e' :=
  ⟨tasks, by rw [runs], mail, [], journal, fun _ h => absurd h List.not_mem_nil⟩

theorem alike_drawSerial (e : Engine) (t : TaskId) : Alike e (e.drawSerial t) :=
  alike_of_tasks (forall₂_modify .refl (fun _ => ⟨rfl, rfl, rfl, rfl, rfl, Nat.le_succ _⟩) _ t)
    rfl rfl rfl

theorem Calm.alike (h : Calm e e') : Alike e e' := by
  have same : List.Forall₂ TaskRecord.Alike e.tasks e.tasks :=
    List.forall₂_same.mpr fun t _ => .refl t
  cases h with
  | clock now later => exact alike_of_tasks same rfl rfl rfl
  | note n remark own silent => exact (aside_note e remark).alike
  | announce event task due => exact (aside_announce e event task).alike
  | announceEnd stopped => exact (aside_announce e _ none).alike
  | beginFlush s stopped => exact (aside_beginFlush e s).alike
  | receive => exact (aside_receive e).alike
  | work i => exact (aside_workLane e i).alike
  | cancel t => exact alike_of_tasks same rfl rfl rfl
  | start token fresh =>
      have pumped := aside_startPump { e with
        phase := .running
        runToken := (e.cancellation.child token).1
        cancellation := (e.cancellation.child token).2
        watching := true }
      refine alike_of_tasks ?_ pumped.runs pumped.mail ?_
      · show List.Forall₂ _ e.tasks (List.map _ _)
        rw [pumped.tasks]
        exact forall₂_map (fun t => t.alike_activate.trans (TaskRecord.alike_ensureLoop _)) _
      · exact journal_startPump _
  | unwatch due => exact alike_of_tasks same rfl rfl rfl
  | beginStopping running =>
      exact alike_of_tasks (forall₂_map TaskRecord.alike_markStopping _) rfl rfl rfl
  | setLoop t f keeps =>
      refine alike_of_tasks (forall₂_modify .refl ?_ _ t) rfl rfl rfl
      intro r
      rw [keeps r]
      exact ⟨rfl, rfl, rfl, rfl, rfl, Nat.le_refl _⟩
  | endLoop t cancelled =>
      refine alike_of_tasks (forall₂_modify .refl ?_ _ t) rfl rfl rfl
      intro r
      have cleared : r.Alike { r with nextRun := none, loop := .ended } :=
        ⟨rfl, rfl, rfl, rfl, rfl, Nat.le_refl _⟩
      exact cleared.trans (TaskRecord.alike_markStopping _)
  | setProgress id progress =>
      refine ⟨same, ?_, rfl, [], rfl, fun _ h => absurd h List.not_mem_nil⟩
      show (e.runs.map _).map _ = _
      rw [List.map_map]
      apply List.map_congr_left
      intro r _
      simp only [Function.comp_apply]
      split <;> rfl

/-! ## 5. Every move is a number of changes -/

/-! ### Schedules -/

theorem stirs_breakLoop (e : Engine) (t : TaskId) : Stirs e (e.breakLoop t) :=
  .single (.setLoop e t _ fun _ => rfl)

theorem stirs_armLoop (e : Engine) (t : TaskId) (task : TaskRecord) (base : Instant)
    (due? : Option Instant) : Stirs e (e.armLoop t task base due?) := by
  unfold armLoop
  cases due? with
  | none => exact stirs_breakLoop e t
  | some due =>
      let arm (task : TaskRecord) : TaskRecord :=
        { task with nextRun := e.now.after? (due.since e.now), loop := .sleeping base due }
      have armed : Stirs e (e.updateTask t arm) := .single (.setLoop e t arm fun _ => rfl)
      exact (armed.tail (.armed _ t due)).tail (.announce _ _ t rfl)

theorem stirs_tick (e : Engine) (t : TaskId) (task : TaskRecord) (every : Every)
    (base : Instant) : Stirs e (e.tick t task every base) := by
  have asked : Stirs e ((e.note (.ticked t)).request t none).1 :=
    .trans (.single (.ticked e t)) (.single (.request _ t))
  unfold tick
  split
  · exact asked.trans (stirs_armLoop ..)
  · generalize (e.note (.ticked t)).request t none = answer at asked
    obtain ⟨e', result⟩ := answer
    let listen (t : TaskRecord) : TaskRecord := { t with loop := .listening base task.completions }
    have listens : Stirs e (e'.updateTask t listen) :=
      asked.tail (.setLoop e' t listen fun _ => rfl)
    cases result with
    | ok => exact listens
    | error err =>
        cases err with
        | skipped => exact listens
        | _ => exact asked.trans (stirs_armLoop ..)

theorem stirs_passTick (e : Engine) (t : TaskId) (every : Every) :
    Stirs e (e.passTick t every) := by
  unfold passTick
  split
  · exact .refl
  · split
    · split
      · rename_i cancelled
        exact .single (.endLoop e t cancelled)
      · split
        · exact stirs_tick ..
        · exact .refl
    · exact .refl

theorem stirs_turnLoop (e : Engine) (t : TaskId) : Stirs e (e.turnLoop t) := by
  unfold turnLoop
  split
  · exact .refl
  · split
    · exact (stirs_armLoop ..).trans (stirs_passTick ..)
    · exact stirs_passTick ..
    · split
      · rename_i cancelled
        exact .single (.endLoop e t cancelled)
      · split
        · exact .refl
        · exact (stirs_armLoop ..).trans (stirs_passTick ..)
    · exact .refl

/-- What everything does that a schedule does, a turn of it does. -/
theorem Stirs.relates {R : Engine → Engine → Prop} (refl : ∀ e, R e e)
    (trans : ∀ {a b c}, R a b → R b c → R a c) (stir : ∀ {e e'}, Stir e e' → R e e')
    (h : Stirs e e') : R e e' := by
  induction h with
  | refl => exact refl e
  | tail _ last ih => exact trans ih (stir last)

/-! ### All moves -/

section Moves

variable {l : Licence}

theorem changes_calm (h : Calm e e') : Changes l e e' := .single (.calm h)

theorem Changes.announced {e'' : Engine} (h : Changes l e e') {event : Event}
    {task : Option TaskId} (is : e'' = e'.announce event task)
    (due : e'.announces event.kind = true) : Changes l e e'' :=
  is ▸ h.tail (.calm (.announce e' event task due))

theorem changes_turnLoop (e : Engine) (t : TaskId) : Changes l e (e.turnLoop t) :=
  (stirs_turnLoop e t).relates (fun _ => .refl) .trans fun stir => .single stir.change

theorem changes_turnWatcher (due : e.canWatch = true) : Changes l e e.turnWatcher := by
  have ended : Changes l e { e with watching := false } := changes_calm (.unwatch e due)
  unfold turnWatcher
  dsimp only
  split
  · rename_i running
    exact Changes.announced (ended.tail (.calm (.beginStopping _ running))) rfl rfl
  · exact ended
  · exact ended
  · exact ended

theorem changes_add (e : Engine) (spec : Spec) : Changes l e (e.add spec).1 := by
  unfold add
  split
  · exact .refl
  · rename_i resolved resolves
    split
    · exact .refl
    · rename_i status accepted
      split
      · exact .refl
      · rename_i known
        refine .single (.register e resolved status accepted ?_ (Option.not_isSome_iff_eq_none.mp known))
        unfold Spec.resolve at resolves
        split at resolves
        · cases resolves
        · split at resolves
          · cases resolves
          · cases resolves
            exact Nat.pos_of_ne_zero ‹_›

theorem changes_start (e : Engine) (token : Token) : Changes l e (e.start token).1 := by
  unfold start
  split
  · exact .refl
  · exact .refl
  · exact .refl
  · rename_i fresh
    exact Changes.announced (changes_calm (.start e token fresh)) rfl rfl

theorem changes_complete (s : Shutdown) (closing : e.isClosing = true) (idle : e.isIdle = true)
    (covers : Covers l e (e.complete s).1) : Changes l e (e.complete s).1 := by
  have rest : Aside ({ e with phase := .stopped }.finalize) (e.complete s).1 :=
    (aside_announce _ _ _).trans (aside_beginFlush _ s)
  have stops := covers.within rfl rfl rest.mail.symm rest.runs.symm
  have stopped : Changes l e ({ e with phase := .stopped }.finalize) :=
    .single (.stop e (.inr ⟨closing, idle⟩) stops)
  exact (stopped.tail (.calm (.announceEnd _ rfl))).tail (.calm (.beginFlush _ s rfl))

theorem changes_expire (s : Shutdown) (closing : e.isClosing = true)
    (covers : Covers l e (e.expire s).1) : Changes l e (e.expire s).1 := by
  have rest : Aside e.drainPending (e.expire s).1 := aside_announce _ _ _
  have drains := covers.within rfl rfl rest.mail.symm rest.runs.symm
  exact Changes.announced (.single (.drain e closing drains)) rfl rfl

theorem changes_turnShutdown (s : Shutdown) (closing : e.isClosing = true)
    (covers : Covers l e (e.turnShutdown s).1) : Changes l e (e.turnShutdown s).1 := by
  cases stage : s.stage with
  | awaitingPump =>
      simp only [turnShutdown, stage]
      exact .refl
  | awaitingWorkers =>
      simp only [turnShutdown, stage]
      exact .refl
  | draining =>
      simp only [turnShutdown, stage] at covers ⊢
      by_cases idle : e.isIdle = true
      · rw [if_pos idle] at covers ⊢
        exact changes_complete s closing idle covers
      · rw [if_neg idle] at covers ⊢
        by_cases reached : e.boundReached s.bound = true
        · rw [if_pos reached] at covers ⊢
          exact changes_expire s closing covers
        · rw [if_neg reached]

theorem changes_shutdown (bound : Bound) (grace : Duration)
    (covers : Covers l e (e.shutdown bound grace).1) : Changes l e (e.shutdown bound grace).1 := by
  cases phase : e.phase with
  | stopped =>
      simp only [shutdown, phase]
      exact .refl
  | notStarted =>
      simp only [shutdown, phase] at covers ⊢
      have rest := aside_beginFlush ({ e with phase := .stopped }.finalize) { bound, grace }
      have stops := covers.within rfl rfl rest.mail.symm rest.runs.symm
      exact .trans (.single (.stop e (.inl phase) stops)) (changes_calm (.beginFlush _ _ rfl))
  | running =>
      simp only [shutdown, phase] at covers ⊢
      have begun : Changes l e (e.beginStopping.publish { kind := .shutdownRequested }) :=
        Changes.announced (changes_calm (.beginStopping e phase)) rfl rfl
      exact begun.trans (changes_turnShutdown _ rfl (covers.within rfl rfl rfl rfl))
  | stopping =>
      simp only [shutdown, phase] at covers ⊢
      exact changes_turnShutdown _ (by simp [isClosing, phase]) covers

end Moves

/-- What a licence has to allow for a move: the moves that have to do with waiting callers are
covered by it. -/
def Licence.Suits (l : Licence) (e : Engine) (m : Move) : Prop :=
  match m with
  | .detach waiter => l.leaves waiter
  | .requestWaiting _ | .finish .. | .abandon _ | .shutdown .. | .awaitShutdown _ =>
      Covers l e (e.perform m)
  | .clock _ | .add _ | .start _ | .cancel _ | .request _ | .announce .. | .progress ..
  | .schedule _ | .watch | .receive | .work _ | .remark _ => True

/-- **A move is a number of changes to the books.** -/
theorem changes_perform {l : Licence} {m : Move} (allowed : e.allows m = true) (suits : l.Suits e m) :
    Changes l e (e.perform m) := by
  cases m with
  | clock now => exact changes_calm (.clock e now (of_decide_eq_true allowed))
  | add spec => exact changes_add e spec
  | start token => exact changes_start e token
  | cancel token => exact changes_calm (.cancel e token)
  | request t => exact .single (.request e t)
  | requestWaiting t => exact .single (.requestWaiting e t suits)
  | detach waiter => exact .single (.detach e waiter suits)
  | announce id event =>
      obtain ⟨-, about⟩ := Bool.and_eq_true_iff.mp allowed
      exact changes_calm (.announce e event _ (announces_of_isAboutRun about e))
  | progress id progress => exact changes_calm (.setProgress e id progress)
  | finish id outcome => exact .single (.finish e id outcome suits)
  | abandon id =>
      exact .single (.abandon e id ((Option.any_eq_true ..).mp allowed) suits)
  | schedule t => exact changes_turnLoop e t
  | watch => exact changes_turnWatcher allowed
  | shutdown bound grace => exact changes_shutdown bound grace suits
  | awaitShutdown s => exact changes_turnShutdown s allowed suits
  | receive => exact changes_calm (.receive e)
  | work i => exact changes_calm (.work e i)
  | remark note =>
      exact changes_calm (.note e note (Note.isRemark_of_isOfCallers allowed)
        (Note.forwarded?_of_isOfCallers allowed) (Note.published?_of_isOfCallers allowed))

def Licence.free : Licence := ⟨fun _ => True, fun _ _ => True, fun _ _ => True⟩

theorem Licence.suits_free (e : Engine) (m : Move) : Licence.free.Suits e m := by
  have covers (e' : Engine) : Covers .free e e' := ⟨fun _ _ _ => .inr trivial, fun _ _ _ _ => .inr trivial⟩
  cases m <;> first | exact trivial | exact covers _

/-- What every change keeps, every number of changes keeps. -/
theorem Changes.keeps {P : Engine → Prop} {l : Licence}
    (step : ∀ e e', Change l e e' → P e → P e') (h : Changes l e e') (he : P e) : P e' := by
  induction h with
  | refl => exact he
  | tail _ last ih => exact step _ _ last ih

theorem keeps_after {P : Engine → Prop} (change : ∀ l e e', Change l e e' → P e → P e')
    {moves : List Move} (admitted : e.admits moves = true) (he : P e) : P (e.after moves) :=
  invariant_after (fun e m allowed h =>
    (changes_perform allowed (Licence.suits_free e m)).keeps (change _) h) admitted he

theorem Leads.keeps {P : Engine → Prop} (leads : Leads e e')
    (change : ∀ l e e', Change l e e' → P e → P e') (he : P e) : P e' := by
  obtain ⟨moves, admitted, rfl⟩ := leads
  exact keeps_after change admitted he

end Engine

end TaskEngine
