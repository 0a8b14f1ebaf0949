/-
  TaskEngine/Proofs/Messages.lean
  ===============================
  **A message says which error it is.**

  Every message begins with words that belong to one kind of error alone (`opening`), and none of
  these openings begins another one (`opening_unique`).  What is behind it, the `detail`, shows
  where its parts end (`Proofs/Delimited`).  So no two errors share a message, not even if the free
  text of one imitates the other, and the last error of a task tells its latest failure.
-/
import TaskEngine.Proofs.Delimited
import TaskEngine.Proofs.Tallies

namespace TaskEngine

open Text

/-! ## 1. Openings -/

/-- If no opening begins another one, a text has one opening at most. -/
theorem opening_unique {openings : List String}
    (apart : ∀ a ∈ openings, ∀ b ∈ openings, a.toList <+: b.toList → a = b) {a b x y : String}
    (ha : a ∈ openings) (hb : b ∈ openings) (same : a ++ x = b ++ y) : a = b ∧ x = y := by
  have chars : a.toList ++ x.toList = b.toList ++ y.toList := by
    rw [← String.toList_append, ← String.toList_append, same]
  have opening : a = b := by
    rcases List.prefix_or_prefix_of_prefix (List.prefix_append a.toList x.toList)
      (chars ▸ List.prefix_append b.toList y.toList) with shorter | longer
    · exact apart a ha b hb shorter
    · exact (apart b hb a ha longer).symm
  subst opening
  exact ⟨rfl, String.toList_inj.mp (List.append_cancel_left chars)⟩

/-- The messages of one type of errors: each begins with the words for its kind, and the words for
one kind do not begin those for another. -/
structure Parted {ε : Type} (message opening detail : ε → String) (openings : List String) : Prop where
  splits : ∀ e, message e = opening e ++ detail e
  listed : ∀ e, opening e ∈ openings
  apart : ∀ a ∈ openings, ∀ b ∈ openings, a.toList <+: b.toList → a = b

theorem Parted.parts {ε : Type} {message opening detail : ε → String} {openings : List String}
    (h : Parted message opening detail openings) {a b : ε} (same : message a = message b) :
    opening a = opening b ∧ detail a = detail b :=
  opening_unique h.apart (h.listed a) (h.listed b) (by rw [← h.splits, ← h.splits, same])

theorem Duration.text_injective : Function.Injective text :=
  fun _ _ same => Duration.delimited_text.injective (congrArg String.toList same)

/-- A quoted name can be told from what is behind it. -/
theorem quote_followed_inj {name name' words words' : String}
    (same : quote name ++ words = quote name' ++ words') : name = name' := by
  have chars := congrArg String.toList same
  rw [String.toList_append, String.toList_append] at chars
  exact (delimited_quote chars).1

/-! ## 2. The work itself -/

namespace WorkError

/-- The words that all messages of the kind begin with. -/
def opening : WorkError → String
  | timeout _ => "timed out after "
  | failed _ => "execution failed: "
  | canceled => "context cancelled"

def detail : WorkError → String
  | timeout limit => limit.text
  | failed reason => reason
  | canceled => ""

def openings : List String := ["timed out after ", "execution failed: ", "context cancelled"]

theorem parted : Parted message opening detail openings where
  splits
    | timeout _ | failed _ => rfl
    | canceled => String.append_empty.symm
  listed e := by cases e <;> simp [opening, openings]
  apart := by decide +kernel

theorem message_injective : Function.Injective message := by
  intro a b same
  obtain ⟨opening, detail⟩ := parted.parts same
  cases a <;> cases b <;> simp only [WorkError.opening, String.reduceEq] at opening
  case timeout.timeout => exact congrArg timeout (Duration.text_injective detail)
  case failed.failed => exact congrArg failed detail
  case canceled.canceled => rfl

end WorkError

/-! ## 3. Requests -/

namespace RequestError

/-- The words that all messages of the kind begin with; an answer of the work keeps its own. -/
def opening : RequestError → String
  | notRunning => "manager is not running"
  | closed => "manager is closed"
  | skipped => "run skipped: task at capacity"
  | notFound _ => "task "
  | panicked _ => "run panicked: "
  | work e => e.opening
  | waitTimeout _ => "gave up waiting after "
  | waitCanceled => "wait cancelled by caller"

def detail : RequestError → String
  | notFound name => quote name ++ " not found"
  | panicked info => info
  | work e => e.detail
  | waitTimeout limit => limit.text
  | notRunning | closed | skipped | waitCanceled => ""

def openings : List String :=
  ["manager is not running", "manager is closed", "run skipped: task at capacity", "task ",
   "run panicked: ", "gave up waiting after ", "wait cancelled by caller"] ++ WorkError.openings

theorem parted : Parted message opening detail openings where
  splits
    | notFound _ => String.append_assoc
    | panicked _ | waitTimeout _ => rfl
    | work e => WorkError.parted.splits e
    | notRunning | closed | skipped | waitCanceled => String.append_empty.symm
  listed
    | work e => List.mem_append_right _ (WorkError.parted.listed e)
    | notRunning | closed | skipped | notFound _ | panicked _ | waitTimeout _ | waitCanceled => by
        simp [opening, openings]
  apart := by decide +kernel

theorem message_injective : Function.Injective message := by
  intro a b same
  obtain ⟨opening, detail⟩ := parted.parts same
  rcases a with _ | _ | _ | name | info | (limit | reason | _) | limit | _ <;>
  rcases b with _ | _ | _ | name' | info' | (limit' | reason' | _) | limit' | _ <;>
  simp only [RequestError.opening, WorkError.opening, String.reduceEq] at opening
  case notFound.notFound => exact congrArg notFound (quote_followed_inj detail)
  case panicked.panicked => exact congrArg panicked detail
  case work.timeout.work.timeout =>
    exact congrArg (work ∘ .timeout) (Duration.text_injective detail)
  case work.failed.work.failed => exact congrArg (work ∘ .failed) detail
  case waitTimeout.waitTimeout => exact congrArg waitTimeout (Duration.text_injective detail)
  all_goals rfl

end RequestError

/-! ## 4. Registration, start and stop -/

namespace RegistrationError

def opening : RegistrationError → String
  | invalidCapacity => "max_concurrent must be greater than zero"
  | invalidInterval => "interval must be greater than zero"
  | duplicateName _ => "task "
  | closed => "manager is closed"

def detail : RegistrationError → String
  | duplicateName name => quote name ++ " already registered"
  | invalidCapacity | invalidInterval | closed => ""

def openings : List String :=
  ["max_concurrent must be greater than zero", "interval must be greater than zero", "task ",
   "manager is closed"]

theorem parted : Parted message opening detail openings where
  splits
    | duplicateName _ => String.append_assoc
    | invalidCapacity | invalidInterval | closed => String.append_empty.symm
  listed e := by cases e <;> simp [opening, openings]
  apart := by decide +kernel

theorem message_injective : Function.Injective message := by
  intro a b same
  obtain ⟨opening, detail⟩ := parted.parts same
  cases a <;> cases b <;> simp only [RegistrationError.opening, String.reduceEq] at opening
  case duplicateName.duplicateName => exact congrArg duplicateName (quote_followed_inj detail)
  all_goals rfl

end RegistrationError

namespace LifecycleError

def opening : LifecycleError → String
  | graceExceeded .. => "shutdown timeout "
  | closed => "manager is closed"

def detail : LifecycleError → String
  | graceExceeded grace stuck => grace.text ++ " exceeded; stuck: " ++ quoteList stuck
  | closed => ""

def openings : List String := ["shutdown timeout ", "manager is closed"]

theorem parted : Parted message opening detail openings where
  splits
    | graceExceeded _ stuck =>
        (congrArg (· ++ quoteList stuck) String.append_assoc).trans String.append_assoc
    | closed => String.append_empty.symm
  listed e := by cases e <;> simp [opening, openings]
  apart := by decide +kernel

/-- The bound and the names of the stuck tasks can be told apart. -/
theorem stuck_inj {grace grace' : Duration} {stuck stuck' : List String}
    (same : (graceExceeded grace stuck).detail = (graceExceeded grace' stuck').detail) :
    grace = grace' ∧ stuck = stuck' := by
  have chars := congrArg String.toList same
  simp only [detail, String.toList_append, List.append_assoc] at chars
  obtain ⟨bound, behind⟩ := Duration.delimited_text chars
  exact ⟨bound, delimited_quoteList.injective (List.append_cancel_left behind)⟩

theorem message_injective : Function.Injective message := by
  intro a b same
  obtain ⟨opening, detail⟩ := parted.parts same
  cases a <;> cases b <;> simp only [LifecycleError.opening, String.reduceEq] at opening
  case graceExceeded.graceExceeded =>
    obtain ⟨rfl, rfl⟩ := stuck_inj detail
    rfl
  case closed.closed => rfl

end LifecycleError

/-! ## 5. The last error of a task -/

/-- How a run may have failed. -/
inductive Failure where
  | error (e : WorkError)
  | panic (info : String)
deriving DecidableEq, Repr

namespace Failure

/-- The text that a task keeps of a failure. -/
def text : Failure → String
  | error e => e.message
  | panic info => "panic: " ++ info

def opening : Failure → String
  | error e => e.opening
  | panic _ => "panic: "

def detail : Failure → String
  | error e => e.detail
  | panic info => info

def openings : List String := "panic: " :: WorkError.openings

theorem parted : Parted text opening detail openings where
  splits
    | error e => WorkError.parted.splits e
    | panic _ => rfl
  listed
    | error e => List.mem_cons_of_mem _ (WorkError.parted.listed e)
    | panic _ => List.mem_cons_self
  apart := by decide +kernel

theorem text_injective : Function.Injective text := by
  intro a b same
  obtain ⟨opening, detail⟩ := parted.parts same
  rcases a with (limit | reason | _) | info <;> rcases b with (limit' | reason' | _) | info' <;>
  simp only [Failure.opening, WorkError.opening, String.reduceEq] at opening
  case error.timeout.error.timeout =>
    exact congrArg (error ∘ .timeout) (Duration.text_injective detail)
  case error.failed.error.failed => exact congrArg (error ∘ .failed) detail
  case error.canceled.error.canceled => rfl
  case panic.panic => exact congrArg panic detail

end Failure

/-- The failure that a run ended with, if it did. -/
def Outcome.failure? : Outcome → Option Failure
  | failed e => some (.error e)
  | panicked info => some (.panic info)
  | succeeded | canceled _ => none

theorem Outcome.errorText?_eq (o : Outcome) : o.errorText? = o.failure?.map Failure.text := by
  cases o <;> rfl

namespace Engine

/-- The failure that the latest failed run of task `t` ended with. -/
def latestFailure (e : Engine) (t : TaskId) : Option Failure :=
  (e.outcomes t).findSome? Outcome.failure?

theorem Tallied.lastError {e : Engine} (h : e.Tallied) {t : TaskId} {task : TaskRecord}
    (known : e.tasks[t]? = some task) : task.lastError = (e.latestFailure t).map Failure.text := by
  calc task.lastError
    _ = (e.tallyOf t).lastError := by rw [tallyOf_of_known known]; rfl
    _ = (e.outcomes t).findSome? fun o => o.failure?.map Failure.text := by
        rw [(h t).lastError, funext Outcome.errorText?_eq]
    _ = (e.latestFailure t).map Failure.text := List.map_findSome?.symm

/-- **Error texts are unambiguous.**  Two errors of the work, of a request, of a registration or of
the life of the engine that have the same message are the same error, whatever names, reasons,
durations and lists of names they carry.  And what a task keeps as its last error is the text of its
latest failure, from which that failure can be told: whenever two tasks, in any two histories, keep
the same text, then their latest failures are the same error or the same panic. -/
theorem error_texts_unambiguous :
    Function.Injective WorkError.message ∧
    Function.Injective RequestError.message ∧
    Function.Injective RegistrationError.message ∧
    Function.Injective LifecycleError.message ∧
    ∀ (config config' : Config) (subscribers subscribers' : List Subscriber)
      (moves moves' : List Move) (t t' : TaskId) (task task' : TaskRecord),
      (create config subscribers).admits moves = true →
      (create config' subscribers').admits moves' = true →
      ((create config subscribers).after moves).tasks[t]? = some task →
      ((create config' subscribers').after moves').tasks[t']? = some task' →
      let failure := ((create config subscribers).after moves).latestFailure t
      let failure' := ((create config' subscribers').after moves').latestFailure t'
      task.lastError = failure.map Failure.text ∧
      (task.lastError = task'.lastError → failure = failure') := by
  refine ⟨WorkError.message_injective, RequestError.message_injective,
    RegistrationError.message_injective, LifecycleError.message_injective, ?_⟩
  intro config config' subscribers subscribers' moves moves' t t' task task' admitted admitted'
    known known' failure failure'
  have tallied : ((create config subscribers).after moves).Tallied :=
    keeps_after (fun _ _ _ => Tallied.change) admitted (tallied_create config subscribers)
  have tallied' : ((create config' subscribers').after moves').Tallied :=
    keeps_after (fun _ _ _ => Tallied.change) admitted' (tallied_create config' subscribers')
  refine ⟨tallied.lastError known, fun same => ?_⟩
  rw [tallied.lastError known, tallied'.lastError known'] at same
  exact Option.map_injective Failure.text_injective same

/-- A run of the only task fails, then another one succeeds. -/
def recoveredHistory : List Move :=
  [.add (Spec.onDemand .trivial), .start (.named "t"), .request 0,
    .finish ⟨0, 1⟩ (.failed (.failed "no")), .request 0, .finish ⟨0, 2⟩ .succeeded]

/-- A run of the only task panics with words that imitate an error, then another one fails. -/
def imitatedHistory : List Move :=
  [.add (Spec.onDemand .trivial), .start (.named "t"), .request 0,
    .finish ⟨0, 1⟩ (.panicked "execution failed: no"), .request 0,
    .finish ⟨0, 2⟩ (.failed (.failed "no"))]

theorem error_texts_unambiguous_imitated :
    ((create {} []).after recoveredHistory).latestFailure 0 =
      ((create {} []).after imitatedHistory).latestFailure 0 ∧
    ((create {} []).after (imitatedHistory.take 4)).latestFailure 0 =
      some (.panic "execution failed: no") := by
  have admitted : (create {} []).admits recoveredHistory = true := by decide
  have admitted' : (create {} []).admits imitatedHistory = true := by decide
  obtain ⟨task, known, kept⟩ : ∃ task,
      ((create {} []).after recoveredHistory).tasks[0]? = some task ∧
      task.lastError = some "execution failed: no" := ⟨_, rfl, rfl⟩
  obtain ⟨task', known', kept'⟩ : ∃ task,
      ((create {} []).after imitatedHistory).tasks[0]? = some task ∧
      task.lastError = some "execution failed: no" := ⟨_, rfl, rfl⟩
  have told := error_texts_unambiguous.2.2.2.2 {} {} [] [] recoveredHistory imitatedHistory 0 0
    task task' admitted admitted' known known'
  exact ⟨told.2 (kept.trans kept'.symm), by decide⟩

end Engine

end TaskEngine
