/-
  TaskEngine/Proofs/Handouts.lean
  ===============================
  **Every run is handed a token of its own.**

  The tokens of runs are children of the run token, and children are numbered.  Whatever happens to
  an engine that was started, runs keep the tokens they were handed and new runs are handed the
  children that come next (`Engine.Allots`), so the tokens of the runs in flight are distinct
  children of the run token (`Issued`), and the token of a run that is gone is handed to no other
  run (`Spent`).
-/
import Mathlib.Data.List.Nodup
import TaskEngine.Proofs.Announcements

namespace TaskEngine

namespace Token

theorem child_injective (t : Token) : Function.Injective t.child := by
  intro m n same
  exact (List.cons.inj (congrArg Token.path same)).1

theorem child_ne (t : Token) (n : Nat) : t.child n ≠ t := by
  intro same
  have within := t.isWithin_child_eq_false n
  rw [same, isWithin_refl] at within
  cases within

/-- A child hangs on itself and on what its parent hangs on. -/
theorem isWithin_child_iff {t s : Token} {n : Nat} :
    (t.child n).isWithin s = true ↔ s = t.child n ∨ t.isWithin s = true := by
  constructor
  · intro within
    obtain ⟨root, path⟩ := isWithin_iff.mp within
    rcases List.suffix_cons_iff.mp path with same | above
    · left
      obtain ⟨root', path'⟩ := s
      obtain rfl : t.root = root' := root
      obtain rfl : path' = n :: t.path := same
      rfl
    · exact .inr (isWithin_iff.mpr ⟨root, above⟩)
  · rintro (rfl | above)
    · exact isWithin_refl _
    · exact isWithin_trans (t.isWithin_child n) above

/-- One child does not hang on another. -/
theorem isWithin_child_child {t : Token} {m n : Nat} (other : m ≠ n) :
    (t.child m).isWithin (t.child n) = false := by
  rw [Bool.eq_false_iff]
  intro within
  rcases isWithin_child_iff.mp within with same | above
  · exact other (t.child_injective same).symm
  · rw [t.isWithin_child_eq_false n] at above
    cases above

/-- The children with the numbers from `n` on, as many as `k`. -/
def offspring (t : Token) (n k : Nat) : List Token := (List.range' n k).map t.child

theorem mem_offspring {t s : Token} {n k : Nat} :
    s ∈ t.offspring n k ↔ ∃ m, n ≤ m ∧ m < n + k ∧ t.child m = s := by
  simp only [offspring, List.mem_map, List.mem_range'_1, and_assoc]

theorem offspring_append (t : Token) (n k l : Nat) :
    t.offspring n k ++ t.offspring (n + k) l = t.offspring n (k + l) := by
  rw [offspring, offspring, ← List.map_append, List.range'_append_1, offspring]

theorem nodup_offspring (t : Token) (n k : Nat) : (t.offspring n k).Nodup :=
  List.Nodup.map t.child_injective List.nodup_range'

end Token

namespace Engine

variable {e e' e'' : Engine} {s : Token}

/-! ## 1. What is handed to runs -/

/-- The runs in flight with the tokens that they were handed. -/
def handed (e : Engine) : List (RunId × Token) := e.runs.map fun run => (run.id, run.token)

theorem mem_handed {run : Run} (mem : run ∈ e.runs) : (run.id, run.token) ∈ e.handed :=
  List.mem_map_of_mem mem

/-- Runs keep their tokens, and those that are new have the next children of the run token. -/
structure Allots (e e' : Engine) : Prop where
  runToken : e'.runToken = e.runToken
  handed : ∃ more, e'.handed.Sublist (e.handed ++ more) ∧
    more.map (·.2) = e.runToken.offspring e.cancellation.nextChild more.length ∧
    e'.cancellation.nextChild = e.cancellation.nextChild + more.length

theorem allots_of_sublist (runToken : e'.runToken = e.runToken)
    (nextChild : e'.cancellation.nextChild = e.cancellation.nextChild)
    (handed : e'.handed.Sublist e.handed) : Allots e e' :=
  ⟨runToken, [], by rwa [List.append_nil], rfl, nextChild⟩

theorem allots_of_runs (runToken : e'.runToken = e.runToken)
    (nextChild : e'.cancellation.nextChild = e.cancellation.nextChild)
    (runs : e'.runs.Sublist e.runs) : Allots e e' :=
  allots_of_sublist runToken nextChild (runs.map _)

theorem Allots.refl (e : Engine) : Allots e e := allots_of_runs rfl rfl (.refl _)

theorem Allots.trans (first : Allots e e') (second : Allots e' e'') : Allots e e'' := by
  obtain ⟨token, more, handed, fresh, next⟩ := first
  obtain ⟨token', more', handed', fresh', next'⟩ := second
  refine ⟨token'.trans token, more ++ more', ?_, ?_, ?_⟩
  · rw [← List.append_assoc]
    exact handed'.trans (handed.append (.refl _))
  · rw [List.map_append, List.length_append, fresh, fresh', token, next, Token.offspring_append]
  · rw [next', next, List.length_append, Nat.add_assoc]

theorem Aside.allots (h : Aside e e') : Allots e e' :=
  allots_of_runs h.runToken (by rw [h.cancellation]) (h.runs ▸ .refl _)

theorem allots_beginRun (e : Engine) (t : TaskId) (merged : Bool) (waiters : List WaiterId) :
    Allots e (e.beginRun t merged waiters) := by
  cases known : e.tasks[t]? with
  | none =>
      rw [beginRun, known]
      exact .refl e
  | some task =>
      rw [beginRun_eq known]
      refine ⟨rfl, [(⟨t, task.runCount + 1⟩, e.runToken.child e.cancellation.nextChild)], ?_, rfl, rfl⟩
      simp [Engine.handed, Cancellation.child]

theorem allots_request (e : Engine) (t : TaskId) (waiter : Option WaiterId) :
    Allots e (e.request t waiter).1 := by
  have step := e.request_step t waiter
  generalize e.request t waiter = answer at step ⊢
  cases step with
  | refused err => exact allots_of_runs rfl rfl (.refl _)
  | skipped task known full => exact allots_of_runs rfl rfl (.refl _)
  | merged task known admits willing full overlap => exact allots_of_runs rfl rfl (.refl _)
  | started task known admits willing room =>
      exact (allots_beginRun e t false _).trans (allots_of_runs rfl rfl (.refl _))

theorem allots_conclude (e : Engine) (run : Run) (task : TaskRecord) (outcome : Outcome) :
    Allots e (e.conclude run task outcome) :=
  allots_of_runs rfl rfl List.filter_sublist

theorem allots_finish (e : Engine) (id : RunId) (outcome : Outcome) :
    Allots e (e.finish id outcome) := by
  have step := e.finish_step id outcome
  generalize e.finish id outcome = after at step ⊢
  cases step with
  | unknown => exact .refl e
  | last run task found known settled => exact allots_conclude ..
  | closed run task found known owed closing =>
      exact (allots_conclude e run task outcome).trans (allots_of_runs rfl rfl (.refl _))
  | again run task found known owed admits =>
      exact (allots_conclude e run task outcome).trans (allots_beginRun ..)

theorem allots_abandon (e : Engine) (id : RunId) : Allots e (e.abandon id) := by
  unfold abandon
  split
  · exact allots_of_runs rfl rfl List.filter_sublist
  · exact .refl e

theorem allots_setProgress (e : Engine) (id : RunId) (progress : Progress) :
    Allots e (e.setProgress id progress) := by
  refine allots_of_sublist rfl rfl ?_
  have same : (e.setProgress id progress).handed = e.handed := by
    simp only [Engine.handed, setProgress, List.map_map]
    refine List.map_congr_left fun run _ => ?_
    simp only [Function.comp_apply]
    split <;> rfl
  rw [same]

/-! ## 2. All histories -/

/-- The engine has been started and has a new run token, with no run changed. -/
def Enters (e e' : Engine) : Prop := e.phase = .notStarted ∧ e'.runs = e.runs

theorem Calm.allots (calm : Calm e e') : Allots e e' ∨ Enters e e' := by
  cases calm with
  | note n remark own silent => exact .inl (aside_note e remark).allots
  | beginFlush s stopped => exact .inl (aside_beginFlush e s).allots
  | receive => exact .inl (aside_receive e).allots
  | work i => exact .inl (aside_workLane e i).allots
  | start token fresh => exact .inr ⟨fresh, (aside_startPump _).runs⟩
  | setProgress id progress => exact .inl (allots_setProgress e id progress)
  | _ => exact .inl (allots_of_runs rfl rfl (.refl _))

theorem Change.allots {l : Licence} (change : Change l e e') : Allots e e' ∨ Enters e e' := by
  cases change with
  | calm calm => exact calm.allots
  | request t => exact .inl (allots_request e t none)
  | requestWaiting t covers =>
      have drawn : Allots e (e.drawSerial t) := allots_of_runs rfl rfl (.refl _)
      exact .inl (drawn.trans (allots_request ..))
  | finish id outcome covers => exact .inl (allots_finish e id outcome)
  | abandon id refuses covers => exact .inl (allots_abandon e id)
  | _ => exact .inl (allots_of_runs rfl rfl (.refl _))

theorem Leads.allots (started : e.phase ≠ .notStarted) (leads : e.Leads e') :
    e'.phase ≠ .notStarted ∧ Allots e e' := by
  refine leads.keeps (P := fun later => later.phase ≠ .notStarted ∧ Allots e later) ?_
    ⟨started, .refl e⟩
  rintro l mid next change ⟨started, allots⟩
  refine ⟨fun back => started (change.feeds.phase.1 back), ?_⟩
  rcases change.allots with more | ⟨fresh, -⟩
  · exact allots.trans more
  · exact absurd fresh started

/-- The tokens of the runs in flight are distinct children of the run token. -/
def Issued (e : Engine) : Prop :=
  (e.handed.map (·.2)).Sublist (e.runToken.offspring 0 e.cancellation.nextChild)

theorem issued_of_runs (none : e.runs = []) : e.Issued := by
  rw [Issued, handed, none]
  exact List.nil_sublist _

theorem Allots.issued (h : Allots e e') (issued : e.Issued) : e'.Issued := by
  obtain ⟨token, more, handed, fresh, next⟩ := h
  have tokens := handed.map (·.2)
  rw [List.map_append, fresh] at tokens
  have all := e.runToken.offspring_append 0 e.cancellation.nextChild more.length
  rw [Nat.zero_add] at all
  rw [Issued, token, next, ← all]
  exact tokens.trans (issued.append (.refl _))

theorem Leads.issued {config : Config} {subscribers : List Subscriber}
    (leads : (create config subscribers).Leads e) : e.Issued := by
  have both : e.Quiet ∧ e.Issued := by
    refine leads.keeps (P := fun e => e.Quiet ∧ e.Issued) ?_
      ⟨quiet_create config subscribers, issued_of_runs rfl⟩
    rintro l e e' change ⟨quiet, issued⟩
    refine ⟨quiet.change change, ?_⟩
    rcases change.allots with allots | ⟨fresh, runs⟩
    · exact allots.issued issued
    · -- the new run token leaves no run behind
      exact issued_of_runs (runs.trans (quiet (.inl fresh)).1)
  exact both.2

theorem Issued.hangs (h : e.Issued) {run : Run} (mem : run ∈ e.runs) :
    ∃ n, n < e.cancellation.nextChild ∧ e.runToken.child n = run.token := by
  have token := h.subset (List.mem_map_of_mem (mem_handed mem))
  obtain ⟨n, -, below, hangs⟩ := Token.mem_offspring.mp token
  exact ⟨n, by rwa [Nat.zero_add] at below, hangs⟩

/-- No two runs in flight have the same token. -/
theorem Issued.id_eq (h : e.Issued) {run other : Run} (mem : run ∈ e.runs) (mem' : other ∈ e.runs)
    (same : run.token = other.token) : run.id = other.id := by
  have distinct : (e.handed.map (·.2)).Nodup := h.nodup (Token.nodup_offspring ..)
  have both := List.inj_on_of_nodup_map distinct (mem_handed mem) (mem_handed mem') same
  exact congrArg Prod.fst both

/-! ## 3. Tokens that are gone -/

/-- The token was handed to a run that is gone. -/
structure Spent (e : Engine) (s : Token) : Prop where
  started : e.phase ≠ .notStarted
  hung : s ∈ e.runToken.offspring 0 e.cancellation.nextChild
  gone : s ∉ e.handed.map (·.2)

/-- A token that is gone stays gone. -/
theorem Spent.leads (h : e.Spent s) (leads : e.Leads e') : e'.Spent s := by
  obtain ⟨started, token, more, handed, fresh, next⟩ := leads.allots h.started
  obtain ⟨n, -, below, rfl⟩ := Token.mem_offspring.mp h.hung
  rw [Nat.zero_add] at below
  refine ⟨started, ?_, fun back => ?_⟩
  · rw [token, next]
    exact Token.mem_offspring.mpr ⟨n, Nat.zero_le n, by omega, rfl⟩
  · have held := (handed.map (·.2)).subset back
    rw [List.map_append, fresh] at held
    rcases List.mem_append.mp held with old | new
    · exact h.gone old
    · obtain ⟨m, above, -, same⟩ := Token.mem_offspring.mp new
      obtain rfl := e.runToken.child_injective same
      omega

/-- No run in flight hangs on a token that is gone. -/
theorem Spent.apart (h : e.Spent s) (issued : e.Issued) {run : Run} (mem : run ∈ e.runs) :
    run.token.isWithin s = false := by
  obtain ⟨n, -, -, rfl⟩ := Token.mem_offspring.mp h.hung
  obtain ⟨m, -, hangs⟩ := issued.hangs mem
  rw [← hangs]
  apply Token.isWithin_child_child
  rintro rfl
  exact h.gone (List.mem_map.mpr ⟨_, mem_handed mem, hangs.symm⟩)

/-- A run that has left leaves its token behind. -/
theorem Allots.spent (h : Allots e e') (started : e'.phase ≠ .notStarted) (issued : e.Issued)
    {run : Run} (mem : run ∈ e.runs) (gone : e'.run? run.id = none) : e'.Spent run.token := by
  obtain ⟨n, below, hangs⟩ := issued.hangs mem
  obtain ⟨token, more, handed, fresh, next⟩ := h
  refine ⟨started, ?_, fun back => ?_⟩
  · rw [token, next]
    exact Token.mem_offspring.mpr ⟨n, Nat.zero_le n, by omega, hangs⟩
  · obtain ⟨pair, held, same⟩ := List.mem_map.mp back
    obtain ⟨other, mem', rfl⟩ := List.mem_map.mp held
    dsimp only at same
    rcases List.mem_append.mp (handed.subset held) with old | new
    · obtain ⟨was, mem'', berth⟩ := List.mem_map.mp old
      obtain ⟨id, token'⟩ := Prod.mk.inj berth
      -- the run with the token is the one that left
      have left := issued.id_eq mem'' mem (token'.trans same)
      have absent := List.find?_eq_none.mp gone other mem'
      exact absent (beq_iff_eq.mpr (id.symm.trans left))
    · have child : run.token ∈ e.runToken.offspring e.cancellation.nextChild more.length := by
        rw [← fresh, ← same]
        exact List.mem_map_of_mem new
      obtain ⟨m, above, -, same'⟩ := Token.mem_offspring.mp child
      obtain rfl := e.runToken.child_injective (same'.trans hangs.symm)
      omega

end Engine

end TaskEngine
