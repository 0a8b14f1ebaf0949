/-
  TaskEngine/Proofs/Drafts.lean
  =============================
  **A draft and a chain of calls describe the same spec.**

  A draft collects its options and is turned into a spec at the end; a chain sets each field of a
  spec at once.  Both come to the same form: every field holds the last value given for it
  (`Draft.apply_all`, `Spec.apply_all`), only tags are collected by a draft and replaced by a chain.
  So a draft can be written as a chain with one call for each field (`Draft.chain`), and neither the
  order of these calls nor that of the draft's calls on different fields matters.
-/
import TaskEngine.Spec
import Mathlib.Data.List.Induction

namespace TaskEngine

/-! ## 1. The last value given -/

section LastGiven

variable {γ α : Type}

/-- The value that the last call of a kind carries. -/
def lastGiven (pick : γ → Option α) (calls : List γ) : Option α := (calls.filterMap pick).getLast?

@[simp] theorem lastGiven_nil (pick : γ → Option α) : lastGiven pick [] = none := rfl

@[simp] theorem lastGiven_concat (pick : γ → Option α) (calls : List γ) (call : γ) :
    lastGiven pick (calls ++ [call]) = (pick call).or (lastGiven pick calls) := by
  rw [lastGiven, List.filterMap_append]
  cases given : pick call <;> simp [given, lastGiven]

/-- If only one call is of the kind, it may stand anywhere. -/
theorem lastGiven_of_perm {pick : γ → Option α} {calls calls' : List γ} (perm : calls.Perm calls')
    (once : (calls'.filterMap pick).length ≤ 1) : lastGiven pick calls = lastGiven pick calls' := by
  have same := perm.filterMap pick
  rw [lastGiven, lastGiven]
  generalize calls'.filterMap pick = given at same once
  match given with
  | [] => rw [same.eq_nil]
  | [value] => rw [List.perm_singleton.mp same]

end LastGiven

/-! ## 2. What a chain comes to -/

namespace Spec

/-- The fields that a call may set. -/
inductive Field where
  | name
  | tags
  | maxConcurrent
  | overlap
  | tick
  | interval
  | startImmediately
  | timeout
  | reportCancellations
  | hook
deriving DecidableEq, Repr

def Field.Value : Field → Type
  | name => String
  | tags => List String
  | maxConcurrent => Nat
  | overlap => Overlap
  | tick => TickPolicy
  | interval => Duration
  | startImmediately => Bool
  | timeout => Option Duration
  | reportCancellations => Bool
  | hook => Hook

namespace Call

def field : Call → Field
  | name _ => .name
  | tags _ => .tags
  | maxConcurrent _ => .maxConcurrent
  | overlap _ => .overlap
  | tick _ => .tick
  | interval _ => .interval
  | startImmediately _ => .startImmediately
  | timeout _ => .timeout
  | reportCancellations _ => .reportCancellations
  | hook _ => .hook

/-- The value that a call gives to a field, if it sets that one. -/
def value? : (field : Field) → Call → Option field.Value
  | .name, name text => some text
  | .tags, tags names => some names
  | .maxConcurrent, maxConcurrent n => some n
  | .overlap, overlap policy => some policy
  | .tick, tick policy => some policy
  | .interval, interval length => some length
  | .startImmediately, startImmediately yes => some yes
  | .timeout, timeout limit => some limit
  | .reportCancellations, reportCancellations yes => some yes
  | .hook, hook h => some h
  | _, _ => none

theorem value?_isSome (f : Field) (call : Call) : (call.value? f).isSome = (call.field == f) := by
  cases f <;> cases call <;> rfl

theorem value?_eq_none {f : Field} {call : Call} (h : call.field ≠ f) : call.value? f = none := by
  rw [← Option.isNone_iff_eq_none, ← Option.not_isSome, value?_isSome, beq_eq_false_iff_ne.mpr h,
    Bool.not_false]

end Call

/-- The last value that a chain carries for a field. -/
abbrev given (calls : List Call) (f : Field) : Option f.Value := lastGiven (Call.value? f) calls

/-- A chain leaves in each field the last value that it carries for it. -/
theorem apply_all (s : Spec) (calls : List Call) :
    calls.foldl apply s = {
      work := s.work
      schedule := s.schedule.mapEvery fun e => {
        interval := (given calls .interval).getD e.interval
        tick := (given calls .tick).getD e.tick
        startImmediately := (given calls .startImmediately).getD e.startImmediately }
      name := (given calls .name).getD s.name
      tags := (given calls .tags).getD s.tags
      maxConcurrent := (given calls .maxConcurrent).getD s.maxConcurrent
      overlap := (given calls .overlap).getD s.overlap
      timeout := (given calls .timeout).getD s.timeout
      reportCancellations := (given calls .reportCancellations).or s.reportCancellations
      hook := (given calls .hook).or s.hook } := by
  induction calls using List.reverseRecOn with
  | nil =>
      rcases s with ⟨work, schedule⟩
      cases schedule <;> rfl
  | append_singleton calls call ih =>
      rw [List.foldl_append, ih]
      rcases s with ⟨work, schedule⟩
      simp only [given, lastGiven_concat]
      cases schedule <;> cases call <;> rfl

end Spec

/-! ## 3. What a draft comes to -/

namespace Draft

open Spec (given)

/-- A call of a draft as the call of a chain that carries the same. -/
def Call.direct : Call → Spec.Call
  | every interval => .interval interval
  | tick policy => .tick policy
  | startImmediately => .startImmediately true
  | tag name => .tags [name]
  | maxConcurrent n => .maxConcurrent n
  | overlap policy => .overlap policy
  | timeout limit => .timeout (some limit)
  | reportCancellations yes => .reportCancellations yes
  | hook h => .hook h

def Call.field (call : Call) : Spec.Field := call.direct.field

def Call.tag? : Call → Option String
  | tag name => some name
  | _ => none

/-- A draft keeps the last value given for each field, and all tags in the order given. -/
theorem apply_all (name : String) (calls : List Call) :
    calls.foldl apply { name } = {
      name
      tags := calls.filterMap Call.tag?
      interval := given (calls.map Call.direct) .interval
      tick := (given (calls.map Call.direct) .tick).getD .fixedDelay
      startImmediately := (given (calls.map Call.direct) .startImmediately).getD false
      maxConcurrent := (given (calls.map Call.direct) .maxConcurrent).getD (1 : Nat)
      overlap := (given (calls.map Call.direct) .overlap).getD .skip
      timeout := (given (calls.map Call.direct) .timeout).getD none
      reportCancellations := given (calls.map Call.direct) .reportCancellations
      hook := given (calls.map Call.direct) .hook } := by
  induction calls using List.reverseRecOn with
  | nil => rfl
  | append_singleton calls call ih =>
      have tags : (calls ++ [call]).filterMap Call.tag? =
          calls.filterMap Call.tag? ++ call.tag?.toList := by
        cases call <;> simp [Call.tag?]
      rw [List.foldl_append, ih, List.map_append, tags]
      simp only [given, lastGiven_concat, List.map_singleton]
      cases call <;> simp only [Call.tag?, Option.toList_none, List.append_nil] <;> rfl

/-! ## 4. The chain that says the same -/

/-- The last call of a chain that sets a field. -/
def lastCall (f : Spec.Field) (calls : List Spec.Call) : Option Spec.Call :=
  lastGiven (Option.guard (·.field == f)) calls

theorem lastCall_concat (f : Spec.Field) (calls : List Spec.Call) (call : Spec.Call) :
    lastCall f (calls ++ [call]) = if call.field = f then some call else lastCall f calls := by
  rw [lastCall, lastGiven_concat]
  by_cases sets : call.field = f <;> simp [Option.guard, sets, lastCall]

theorem lastCall_bind_value? (f g : Spec.Field) (calls : List Spec.Call) :
    (lastCall g calls).bind (Spec.Call.value? f) = if g = f then given calls f else none := by
  induction calls using List.reverseRecOn with
  | nil => split <;> rfl
  | append_singleton calls call ih =>
      rw [lastCall_concat, given, lastGiven_concat]
      have value := call.value?_isSome f
      by_cases same : g = f
      · subst same
        rw [if_pos rfl] at ih
        by_cases sets : call.field = g
        · rw [beq_iff_eq.mpr sets] at value
          rw [if_pos sets, if_pos rfl, Option.bind_some, Option.or_of_isSome value]
        · rw [if_neg sets, if_pos rfl, ih, Spec.Call.value?_eq_none sets, Option.none_or]
      · rw [if_neg same] at ih ⊢
        split
        · rename_i elsewhere
          exact Spec.Call.value?_eq_none fun sets => same (elsewhere.symm.trans sets)
        · exact ih

/-- The options that a chain sets for a draft, besides the name, the tags and the interval. -/
def options : List Spec.Field :=
  [.maxConcurrent, .overlap, .tick, .startImmediately, .timeout, .reportCancellations, .hook]

/-- The chain for a draft with these calls: the name, all tags, and for each option that was given
one call with the last value. -/
def chain (name : String) (calls : List Call) : List Spec.Call :=
  .name name :: .tags (calls.filterMap Call.tag?) ::
    options.filterMap fun f => lastCall f (calls.map Call.direct)

/-- What the chain begins with. -/
def base (calls : List Call) (work : Work) : Spec :=
  match given (calls.map Call.direct) .interval with
  | some interval => .every work interval
  | none => .onDemand work

/-- What the chain says about a field. -/
def said (name : String) (calls : List Call) : (f : Spec.Field) → Option f.Value
  | .name => some name
  | .tags => some (calls.filterMap Call.tag?)
  | .interval => none
  | f => given (calls.map Call.direct) f

theorem filterMap_only {α : Type} {fields : List Spec.Field} (nodup : fields.Nodup) (f : Spec.Field)
    (value : Option α) : fields.filterMap (fun g => if g = f then value else none) =
      if f ∈ fields then value.toList else [] := by
  induction fields with
  | nil => rfl
  | cons g fields ih =>
      obtain ⟨fresh, nodup⟩ := List.nodup_cons.mp nodup
      rw [List.filterMap_cons, ih nodup]
      by_cases same : g = f
      · subst same
        cases value <;> simp [fresh]
      · simp [same, Ne.symm same]

/-- The chain sets each field at most once. -/
theorem filterMap_chain (name : String) (calls : List Call) (f : Spec.Field) :
    (chain name calls).filterMap (Spec.Call.value? f) = (said name calls f).toList := by
  have chosen : (options.filterMap fun g => lastCall g (calls.map Call.direct)).filterMap
      (Spec.Call.value? f) = if f ∈ options then (given (calls.map Call.direct) f).toList else [] := by
    rw [List.filterMap_filterMap, ← filterMap_only (by decide)]
    simp only [lastCall_bind_value?]
  rw [chain, List.filterMap_cons, List.filterMap_cons, chosen]
  cases f <;> rfl

theorem given_of_perm {name : String} {calls : List Call} {chain' : List Spec.Call}
    (perm : chain'.Perm (chain name calls)) (f : Spec.Field) : given chain' f = said name calls f := by
  have once : ((chain name calls).filterMap (Spec.Call.value? f)).length ≤ 1 := by
    rw [filterMap_chain]
    cases said name calls f <;> simp
  rw [given, lastGiven_of_perm perm once, lastGiven, filterMap_chain]
  cases said name calls f <;> rfl

/-- **A draft and any order of its chain describe the same spec.** -/
theorem build_eq_chain {name : String} {calls : List Call} {chain' : List Spec.Call} (work : Work)
    (perm : chain'.Perm (chain name calls)) :
    (calls.foldl apply { name }).build work = chain'.foldl Spec.apply (base calls work) := by
  rw [apply_all, Spec.apply_all]
  simp only [given_of_perm perm, said]
  rw [base]
  cases given (calls.map Call.direct) .interval <;>
  cases given (calls.map Call.direct) .reportCancellations <;>
  cases given (calls.map Call.direct) .hook <;> rfl

/-! ## 5. The order of the calls -/

theorem filterMap_value? (calls : List Call) (f : Spec.Field) :
    (calls.map Call.direct).filterMap (Spec.Call.value? f) =
      ((calls.filter (·.field == f)).map Call.direct).filterMap (Spec.Call.value? f) := by
  rw [List.filterMap_map, List.filterMap_map, List.filterMap_filter]
  congr 1
  funext call
  split
  · rfl
  · rename_i other
    exact Spec.Call.value?_eq_none fun sets => other (beq_iff_eq.mpr sets)

theorem filterMap_tag? (calls : List Call) :
    calls.filterMap Call.tag? = (calls.filter (·.field == .tags)).filterMap Call.tag? := by
  rw [List.filterMap_filter]
  congr 1
  funext call
  cases call <;> rfl

/-- Only the order of the calls on one field matters. -/
theorem apply_all_congr (name : String) {calls calls' : List Call}
    (same : ∀ f, calls.filter (·.field == f) = calls'.filter (·.field == f)) :
    calls.foldl apply { name } = calls'.foldl apply { name } := by
  have values (f : Spec.Field) : given (calls.map Call.direct) f = given (calls'.map Call.direct) f := by
    rw [given, lastGiven, filterMap_value?, same, ← filterMap_value?]
    rfl
  have tags : calls.filterMap Call.tag? = calls'.filterMap Call.tag? := by
    rw [filterMap_tag?, same, ← filterMap_tag?]
  rw [apply_all, apply_all, tags]
  simp only [values]

/-- A task starts at once if that was asked for anywhere. -/
theorem startsAtOnce_eq (calls : List Call) :
    (given (calls.map Call.direct) .startImmediately).getD false =
      calls.contains .startImmediately := by
  induction calls using List.reverseRecOn with
  | nil => rfl
  | append_singleton calls call ih =>
      rw [List.contains_eq_mem] at ih ⊢
      rw [List.map_append, given, List.map_singleton, lastGiven_concat]
      cases call <;> simp [Call.direct, Spec.Call.value?] <;> first | exact ih | rfl

/-- The options of the schedule are kept whenever they were given, and dropped in the end if there is
no interval. -/
theorem build_schedule (name : String) (calls : List Call) (work : Work) :
    ((calls.foldl apply { name }).build work).schedule =
      match given (calls.map Call.direct) .interval with
      | some interval => .every {
          interval
          tick := (given (calls.map Call.direct) .tick).getD .fixedDelay
          startImmediately := calls.contains .startImmediately }
      | none => .onDemand := by
  rw [build_eq_chain work (.refl _), Spec.apply_all, base, ← startsAtOnce_eq]
  simp only [given_of_perm (.refl _), said]
  cases given (calls.map Call.direct) .interval <;> rfl

/-! ## 6. Resolution -/

/-- What passes the check can run, has an interval if it needs one, and never times out at once. -/
theorem sane_of_resolve {s : Spec} {config : Config} {resolved : ResolvedSpec}
    (accepted : s.resolve config = .ok resolved) :
    1 ≤ resolved.maxConcurrent ∧
    (∀ e, resolved.schedule = .every e → e.interval ≠ .zero) ∧
    resolved.timeout ≠ some .zero := by
  rw [Spec.resolve] at accepted
  split at accepted
  · cases accepted
  split at accepted
  · cases accepted
  rename_i room interval
  cases accepted
  refine ⟨Nat.one_le_iff_ne_zero.mpr room, ?_, ?_⟩
  · intro e periodic zero
    have periodic : s.schedule = .every e := periodic
    rw [periodic, Schedule.lacksInterval, zero] at interval
    exact interval rfl
  · -- a timeout of zero, given or inherited, counts as none
    intro zero
    rcases Option.or_eq_some_iff.mp zero with own | ⟨-, inherited⟩
    · exact absurd (Option.filter_eq_some_iff.mp own).2 (by decide)
    · rw [Config.defaultTimeout] at inherited
      split at inherited
      · cases inherited
      · rename_i nonzero
        rw [Option.some.inj inherited] at nonzero
        exact nonzero rfl

/-- **A draft and a chain describe the same task.**  For every list of calls, in any order and with
repetitions, a draft gives the spec that the chain gives which begins with the last interval, or with
none if there was none, and then, in any order, sets the name, all tags in the order of the calls and
each option that was given to its last value; so it does after every resolution.  Calls on different
fields may change places.  Options of the schedule are kept even if they come before the interval,
and dropped if there is none.  And every spec that resolves has room for a run, an interval that is
not zero if it is periodic, and a timeout that is not zero if it has one. -/
theorem draft_and_chain_agree :
    (∀ (name : String) (calls : List Call) (work : Work) (direct : List Spec.Call),
      direct.Perm (chain name calls) →
      let built := (calls.foldl apply { name }).build work
      built = direct.foldl Spec.apply (base calls work) ∧
      ∀ config, built.resolve config =
        (direct.foldl Spec.apply (base calls work)).resolve config) ∧
    (∀ (name : String) (calls calls' : List Call) (work : Work),
      (∀ f, calls.filter (·.field == f) = calls'.filter (·.field == f)) →
      (calls.foldl apply { name }).build work = (calls'.foldl apply { name }).build work) ∧
    (∀ (name : String) (calls : List Call) (work : Work),
      ((calls.foldl apply { name }).build work).schedule =
        match given (calls.map Call.direct) .interval with
        | some interval => .every {
            interval
            tick := (given (calls.map Call.direct) .tick).getD .fixedDelay
            startImmediately := calls.contains .startImmediately }
        | none => .onDemand) ∧
    ∀ (spec : Spec) (config : Config) (resolved : ResolvedSpec),
      spec.resolve config = .ok resolved →
      1 ≤ resolved.maxConcurrent ∧
      (∀ e, resolved.schedule = .every e → e.interval ≠ .zero) ∧
      resolved.timeout ≠ some .zero := by
  refine ⟨?_, ?_, build_schedule, fun _ _ _ => sane_of_resolve⟩
  · intro name calls work direct perm built
    have same : built = direct.foldl Spec.apply (base calls work) := build_eq_chain work perm
    exact ⟨same, fun config => by rw [same]⟩
  · intro name calls calls' work same
    rw [apply_all_congr name same]

/-- Options of the schedule before the interval, and one option given twice. -/
def scatteredCalls : List Call :=
  [.tick .fixedRate, .tag "a", .startImmediately, .maxConcurrent 2, .every ⟨5⟩, .tag "b",
    .maxConcurrent 3]

/-- The same, field by field. -/
def gatheredCalls : List Call :=
  [.every ⟨5⟩, .startImmediately, .tick .fixedRate, .maxConcurrent 2, .maxConcurrent 3, .tag "a",
    .tag "b"]

def scatteredChain : List Spec.Call :=
  [.startImmediately true, .maxConcurrent 3, .tags ["a", "b"], .tick .fixedRate, .name "t"]

theorem draft_and_chain_agree_scattered :
    scatteredChain.Perm (chain "t" scatteredCalls) ∧
    (gatheredCalls.foldl apply { name := "t" }).build .trivial =
      scatteredChain.foldl Spec.apply (.every .trivial ⟨5⟩) ∧
    (scatteredChain.foldl Spec.apply (.every .trivial ⟨5⟩)).schedule =
      .every { interval := ⟨5⟩, tick := .fixedRate, startImmediately := true } ∧
    ∃ resolved, (scatteredChain.foldl Spec.apply (.every .trivial ⟨5⟩)).resolve {} =
      .ok resolved ∧ 1 ≤ resolved.maxConcurrent ∧ resolved.timeout ≠ some .zero := by
  have perm : scatteredChain.Perm (chain "t" scatteredCalls) := by decide
  have same : ∀ f, scatteredCalls.filter (·.field == f) = gatheredCalls.filter (·.field == f) := by
    intro f
    cases f <;> rfl
  obtain ⟨direct, shuffled, schedule, sane⟩ := draft_and_chain_agree
  have built := (direct "t" scatteredCalls .trivial scatteredChain perm).1
  have kept := schedule "t" scatteredCalls .trivial
  have accepted := sane (scatteredChain.foldl Spec.apply (.every .trivial ⟨5⟩)) {} _ rfl
  exact ⟨perm, (shuffled "t" _ _ .trivial same).symm.trans built, (built ▸ kept), _, rfl,
    accepted.1, accepted.2.2⟩

end Draft

end TaskEngine
