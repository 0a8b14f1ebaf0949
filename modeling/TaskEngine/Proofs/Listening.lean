/-
  TaskEngine/Proofs/Listening.lean
  ================================
  **What a schedule of fixed delay listens for.**

  The strokes of a schedule are read as rounds: its timer is armed, it ticks, and then it listens until
  a run of its task has ended, whoever asked for it (`Round`).  What the rounds of a schedule of fixed
  delay look like, and how each leads to the next, is a small grammar (`InTurn`).  Where its loop
  stands is where the newest round stands (`Stands`), and a schedule that listens has heard of exactly
  the ends that belong to that round (`Attends`).

  While it listens and has heard of none, a run of its task is still to end: the tick found a run, or
  began one, and since then none has ended.  So it never waits in vain (`no_end_is_missed`).
-/
import Mathlib.Data.List.Chain
import TaskEngine.Proofs.Completions

namespace TaskEngine

/-! ## 1. Rounds -/

/-- One round of a schedule of fixed delay. -/
structure Round where
  /-- The moment at which the timer was armed. -/
  armed : Instant
  due : Instant
  /-- The moments at which the schedule ticked, so asked for a run, the newest first. -/
  ticks : List Instant := []
  /-- The moments at which runs of the task ended after that, the newest first. -/
  ends : List Instant := []

/-- One more stroke: a timer that is armed begins a round; ends of runs belong to the round if it has
ticked. -/
def Round.read : Instant × Stroke → List Round → List Round
  | (now, .armed due), rounds => { armed := now, due } :: rounds
  | (now, .ticked), round :: rounds => { round with ticks := now :: round.ticks } :: rounds
  | (now, .ended), round :: rounds =>
      (if round.ticks.isEmpty then round else { round with ends := now :: round.ends }) :: rounds
  | (_, .ticked), [] | (_, .ended), [] => []

/-- The rounds that strokes make up, both the newest first. -/
def rounds (strokes : List (Instant × Stroke)) : List Round := strokes.foldr Round.read []

@[simp] theorem rounds_cons (stroke : Instant × Stroke) (strokes : List (Instant × Stroke)) :
    rounds (stroke :: strokes) = Round.read stroke (rounds strokes) := rfl

/-- The rounds of a schedule of fixed delay, and the moment of the newest stroke in them: the first
timer is armed at `base`; a timer fires once, when it is due; and when runs have ended after that, the
next one is armed for an interval after the last of them.  If `prompt` holds, that happens in the
instant in which they end. -/
inductive InTurn (prompt : Prop) (every : Every) (base : Instant) : Instant → List Round → Prop where
  | first {due : Instant}
      (is : (if every.startImmediately then some base else base.after? every.interval) = some due) :
      InTurn prompt every base base [{ armed := base, due }]
  | tick {at' now armed due : Instant} {rest : List Round}
      (h : InTurn prompt every base at' ({ armed, due } :: rest)) (onward : at'.ns ≤ now.ns)
      (isDue : due.isDue now = true) :
      InTurn prompt every base now ({ armed, due, ticks := [now] } :: rest)
  | hear {at' now armed due tick : Instant} {ends : List Instant} {rest : List Round}
      (h : InTurn prompt every base at' ({ armed, due, ticks := [tick], ends } :: rest))
      (onward : at'.ns ≤ now.ns) :
      InTurn prompt every base now ({ armed, due, ticks := [tick], ends := now :: ends } :: rest)
  | again {at' now armed due tick latest due' : Instant} {ends : List Instant} {rest : List Round}
      (h : InTurn prompt every base at' ({ armed, due, ticks := [tick], ends := latest :: ends } :: rest))
      (onward : at'.ns ≤ now.ns) (next : latest.after? every.interval = some due')
      (atOnce : prompt → ∀ moment ∈ latest :: ends, moment = now) :
      InTurn prompt every base now
        ({ armed := now, due := due' } :: { armed, due, ticks := [tick], ends := latest :: ends } :: rest)

/-- A round is in order: the schedule ticks once at most, not before the timer is due; runs end after
that, one after the other, and all of it has happened by `now`. -/
structure Round.Orderly (round : Round) (now : Instant) : Prop where
  once : round.ticks.length ≤ 1
  notEarly : ∀ tick ∈ round.ticks, round.due.ns ≤ tick.ns
  past : ∀ moment ∈ round.ticks ++ round.ends, moment.ns ≤ now.ns
  afterwards : ∀ tick ∈ round.ticks, ∀ moment ∈ round.ends, tick.ns ≤ moment.ns
  sorted : round.ends.Pairwise fun later earlier => earlier.ns ≤ later.ns

/-- One round leads to the next: the schedule has ticked, then runs of its task have ended, and the
next timer is armed for an interval after the last of them. -/
structure Round.LeadsTo (prompt : Prop) (every : Every) (round next : Round) : Prop where
  ticked : ∃ tick, round.ticks = [tick]
  heard : ∃ latest, round.ends.head? = some latest ∧ latest.ns ≤ next.armed.ns ∧
    next.due.ns = latest.ns + every.interval.ns
  atOnce : prompt → ∀ moment ∈ round.ends, moment = next.armed

/-- How a round is anchored on the round before: that one ticked at `tick`, and of the runs that ended
after it the first did so at `first` and the last at `latest`. -/
structure Round.Anchors (every : Every) (round next : Round) (tick first latest : Instant) : Prop where
  ticked : round.ticks = [tick]
  isFirst : round.ends.getLast? = some first
  isLatest : round.ends.head? = some latest
  order : tick.ns ≤ first.ns ∧ first.ns ≤ latest.ns ∧ latest.ns ≤ next.armed.ns
  /-- The timer is armed for exactly one interval after the last of the ends. -/
  due : next.due.ns = latest.ns + every.interval.ns
  /-- The next tick is at least one interval later than the tick and than each of the ends. -/
  apart : ∀ tick' ∈ next.ticks, tick.ns + every.interval.ns ≤ tick'.ns ∧
    ∀ moment ∈ round.ends, moment.ns + every.interval.ns ≤ tick'.ns

/-- A round that leads to the next anchors it; if the schedule is prompt, the next timer is armed when
the first of the runs ends. -/
theorem Round.LeadsTo.anchors {prompt : Prop} {every : Every} {round next : Round} {now : Instant}
    (h : round.LeadsTo prompt every next) (ordered : round.Orderly now) (ordered' : next.Orderly now) :
    ∃ tick first latest, round.Anchors every next tick first latest ∧
      (prompt → next.armed = first ∧ latest = first) := by
  obtain ⟨⟨tick, ticked⟩, ⟨latest, heard, before, due⟩, atOnce⟩ := h
  have sorted := ordered.sorted
  have afterwards := ordered.afterwards tick (by simp [ticked])
  obtain ⟨earlier, ends⟩ : ∃ earlier, round.ends = latest :: earlier := List.head?_eq_some_iff.mp heard
  obtain ⟨first, last⟩ : ∃ first, round.ends.getLast? = some first :=
    Option.isSome_iff_exists.mp (by simp [ends])
  have isFirst : first ∈ round.ends := List.mem_of_getLast? last
  have isLatest : latest ∈ round.ends := by simp [ends]
  have below : ∀ moment ∈ round.ends, moment.ns ≤ latest.ns := by
    rw [ends] at sorted ⊢
    exact List.forall_mem_cons.mpr ⟨Nat.le_refl _, (List.pairwise_cons.mp sorted).1⟩
  refine ⟨tick, first, latest, ⟨ticked, last, heard, ?_, due, ?_⟩, ?_⟩
  · exact ⟨afterwards first isFirst, below first isFirst, before⟩
  · intro tick' mem
    have notEarly := ordered'.notEarly tick' mem
    have after := afterwards latest isLatest
    refine ⟨by omega, fun moment ended => ?_⟩
    have := below moment ended
    omega
  · intro p
    have armed := atOnce p first isFirst
    exact ⟨armed.symm, (atOnce p latest isLatest).trans armed.symm⟩

/-- The first timer is armed in the first turn, for that instant or for one interval later. -/
structure Round.Starts (every : Every) (base : Instant) (round : Round) : Prop where
  armed : round.armed = base
  due : round.due.ns = base.ns + if every.startImmediately then 0 else every.interval.ns

theorem Round.orderly_armed (armed due now : Instant) : ({ armed, due } : Round).Orderly now :=
  ⟨Nat.zero_le 1, nofun, nofun, nofun, .nil⟩

theorem Round.Orderly.later {round : Round} {now now' : Instant} (h : round.Orderly now)
    (onward : now.ns ≤ now'.ns) : round.Orderly now' :=
  { h with past := fun moment mem => Nat.le_trans (h.past moment mem) onward }

namespace InTurn

variable {prompt : Prop} {every : Every} {base at' : Instant} {ordered : List Round}

theorem orderly (h : InTurn prompt every base at' ordered) :
    ∀ round ∈ ordered, round.Orderly at' := by
  induction h with
  | first is => exact List.forall_mem_singleton.mpr (Round.orderly_armed ..)
  | @tick at' now armed due rest _ onward isDue ih =>
      obtain ⟨-, others⟩ := List.forall_mem_cons.mp ih
      refine List.forall_mem_cons.mpr ⟨?_, fun round mem => (others round mem).later onward⟩
      exact ⟨Nat.le_refl 1, by simpa using (Instant.isDue_iff due now).mp isDue, by simp, nofun, .nil⟩
  | @hear at' now armed due tick ends rest _ onward ih =>
      obtain ⟨head, others⟩ := List.forall_mem_cons.mp ih
      refine List.forall_mem_cons.mpr ⟨?_, fun round mem => (others round mem).later onward⟩
      have past : ∀ moment ∈ tick :: ends, moment.ns ≤ now.ns := fun moment mem =>
        Nat.le_trans (head.past moment mem) onward
      obtain ⟨ticked, ended⟩ := List.forall_mem_cons.mp past
      refine ⟨Nat.le_refl 1, head.notEarly, ?_, ?_, List.pairwise_cons.mpr ⟨ended, head.sorted⟩⟩
      · simpa using ⟨ticked, ended⟩
      · simpa [ticked] using head.afterwards
  | again _ onward next atOnce ih =>
      refine List.forall_mem_cons.mpr ⟨Round.orderly_armed .., fun round mem => ?_⟩
      exact (ih round mem).later onward

/-- The newest stroke is no older than what the newest round has heard. -/
theorem past {round : Round} {rest : List Round} (h : InTurn prompt every base at' (round :: rest)) :
    ∀ moment ∈ round.ends, moment.ns ≤ at'.ns := fun moment mem =>
  (h.orderly round List.mem_cons_self).past moment (List.mem_append_right _ mem)

/-- Every round but the newest has led to the next one. -/
theorem chain (h : InTurn prompt every base at' ordered) :
    ordered.IsChain fun next round => round.LeadsTo prompt every next := by
  induction h with
  | first is => exact .singleton _
  | tick _ onward isDue ih =>
      cases ih with
      | singleton => exact .singleton _
      | cons_cons leads rest => exact .cons_cons ⟨leads.ticked, leads.heard, leads.atOnce⟩ rest
  | hear _ onward ih =>
      cases ih with
      | singleton => exact .singleton _
      | cons_cons leads rest => exact .cons_cons ⟨leads.ticked, leads.heard, leads.atOnce⟩ rest
  | again h onward next atOnce ih =>
      have before := Nat.le_trans (h.past _ List.mem_cons_self) onward
      exact .cons_cons ⟨⟨_, rfl⟩, ⟨_, rfl, before, (Instant.after?_eq_some.mp next).2⟩, atOnce⟩ ih

theorem getLast (h : InTurn prompt every base at' ordered) :
    ∃ first, ordered.getLast? = some first ∧ first.Starts every base := by
  -- the newest round goes on with the timer that was armed for it
  have renewed {old new : Round} {rest : List Round} (armed : new.armed = old.armed)
      (due : new.due = old.due)
      (h : ∃ first, (old :: rest).getLast? = some first ∧ first.Starts every base) :
      ∃ first, (new :: rest).getLast? = some first ∧ first.Starts every base := by
    obtain ⟨first, last, starts⟩ := h
    cases rest with
    | nil =>
        obtain rfl := Option.some.inj last
        exact ⟨new, rfl, armed.trans starts.armed, due ▸ starts.due⟩
    | cons round rest => exact ⟨first, last, starts⟩
  induction h with
  | @first due is =>
      refine ⟨_, rfl, rfl, ?_⟩
      split at is
      · rename_i atOnce
        rw [if_pos atOnce, Option.some.inj is]
        rfl
      · rename_i later
        rw [if_neg later]
        exact (Instant.after?_eq_some.mp is).2
  | tick _ onward isDue ih => exact renewed (by rfl) (by rfl) ih
  | hear _ onward ih => exact renewed (by rfl) (by rfl) ih
  | again h onward next atOnce ih => exact ih

/-- The end of a run belongs to the newest round, or to none. -/
theorem read_ended {now : Instant} (h : InTurn prompt every base at' ordered)
    (onward : at'.ns ≤ now.ns) :
    ∃ at', InTurn prompt every base at' (Round.read (now, .ended) ordered) ∧ at'.ns ≤ now.ns := by
  cases h with
  | first is => exact ⟨_, .first is, onward⟩
  | tick h before isDue => exact ⟨now, .hear (.tick h before isDue) onward, Nat.le_refl _⟩
  | hear h before => exact ⟨now, .hear (.hear h before) onward, Nat.le_refl _⟩
  | again h before next atOnce => exact ⟨_, .again h before next atOnce, onward⟩

end InTurn

namespace Engine

variable {prompt : Prop} {every : Every} {e e' : Engine} {t : TaskId}

/-! ## 2. Where a loop stands -/

/-- The rounds of the schedule of task `t`, the newest first. -/
def roundsOf (e : Engine) (t : TaskId) : List Round := rounds (e.strokes t)

/-- A schedule that listens since it ticked: what it has counted since then are the ends that belong
to the newest round, and more runs had begun at the tick than had ended. -/
structure Attends (prompt : Prop) (every : Every) (base : Instant) (seen : Nat) (t : TaskId)
    (e : Engine) (task : TaskRecord) (tick : Instant) (ends : List Instant) : Prop where
  strokes : ∃ older, e.strokes t = ends.map (·, .ended) ++ (tick, .ticked) :: older
  rounds : ∃ armed due rest, e.roundsOf t = { armed, due, ticks := [tick], ends } :: rest
  inTurn : ∃ at', InTurn prompt every base at' (e.roundsOf t) ∧ at'.ns ≤ e.now.ns
  counted : task.completions = seen + ends.length
  latest : ∀ moment, ends.head? = some moment → task.completedAt = moment
  awaited : seen < e.begun t
  atOnce : prompt → ∀ moment ∈ ends, moment = e.now

/-- Where the loop of a schedule of fixed delay stands is where its newest round stands. -/
def Stands (prompt : Prop) (every : Every) (t : TaskId) (e : Engine) (task : TaskRecord) : Prop :=
  match task.loop with
  | .absent | .fresh => e.roundsOf t = []
  | .sleeping base due =>
      (∃ armed rest, e.roundsOf t = { armed, due } :: rest) ∧
      ∃ at', InTurn prompt every base at' (e.roundsOf t) ∧ at'.ns ≤ e.now.ns
  | .listening base seen => ∃ tick ends, Attends prompt every base seen t e task tick ends
  | .ended =>
      e.roundsOf t = [] ∨
      ∃ base at', InTurn prompt every base at' (e.roundsOf t) ∧ at'.ns ≤ e.now.ns

/-- Whether the schedule of task `t` can take its turn. -/
def isAble (e : Engine) (t : TaskId) : Bool := (e.tasks[t]?).any e.canTurnLoop

/-- No time passes while the schedule of task `t` can take its turn. -/
def Prompt (t : TaskId) : Engine → List Move → Prop
  | _, [] => True
  | e, m :: moves => (e.isAble t = true → (e.perform m).now = e.now) ∧ Prompt t (e.perform m) moves

/-- Every schedule of the task stands where its newest round does, if it is one of fixed delay. -/
def KeepsCount (prompt : Prop) (t : TaskId) (e : Engine) : Prop :=
  ∀ task every, e.tasks[t]? = some task → task.spec.schedule = .every every →
    every.tick = .fixedDelay → Stands prompt every t e task

/-! ### Left alone -/

theorem Hears.heard {task : TaskRecord} (h : e.Hears) (known : e.tasks[t]? = some task) :
    task.heard = ((e.endings t).length, (e.endings t).head?.getD .zero) := by
  rw [← h t, heardOf, readOf_of_known known]

/-- Nothing is heard of runs whose ends are not heard. -/
theorem Hears.same {old new : TaskRecord} (h : e.Hears) (h' : e'.Hears) (was : e.tasks[t]? = some old)
    (known : e'.tasks[t]? = some new) (silent : e'.endings t = e.endings t) :
    new.completions = old.completions ∧ new.completedAt = old.completedAt := by
  have same : new.heard = old.heard := by rw [h'.heard known, h.heard was, silent]
  exact Prod.mk.inj same

theorem Hears.more {old new : TaskRecord} {now : Instant} (h : e.Hears) (h' : e'.Hears)
    (was : e.tasks[t]? = some old) (known : e'.tasks[t]? = some new)
    (ended : e'.endings t = now :: e.endings t) :
    new.completions = old.completions + 1 ∧ new.completedAt = now := by
  have before := h.heard was
  have after := h'.heard known
  rw [ended] at after
  exact ⟨(congrArg Prod.fst after).trans (congrArg (· + 1) (congrArg Prod.fst before).symm),
    congrArg Prod.snd after⟩

theorem isAble_of_known {task : TaskRecord} (known : e.tasks[t]? = some task) :
    e.isAble t = e.canTurnLoop task := by
  rw [isAble, known]
  rfl

/-- A schedule that has heard of an end can take its turn. -/
theorem Attends.isAble {task : TaskRecord} {base tick : Instant} {seen : Nat} {ends : List Instant}
    (h : Attends prompt every base seen t e task tick ends) (known : e.tasks[t]? = some task)
    (listens : task.loop = .listening base seen) (heard : ends ≠ []) : e.isAble t = true := by
  have more : 0 < ends.length := List.length_pos_iff.mpr heard
  have counted : task.completions ≠ seen := by
    have := h.counted
    omega
  rw [isAble_of_known known, canTurnLoop, listens]
  simp [counted]

section Spared

variable {old new : TaskRecord}

/-- No run has ended. -/
theorem Stands.silent (stands : Stands prompt every t e old) (was : e.tasks[t]? = some old)
    (loop : new.loop = old.loop) (silent : e'.strokes t = e.strokes t) (time : e.now.ns ≤ e'.now.ns)
    (heard : new.completions = old.completions ∧ new.completedAt = old.completedAt)
    (begun : e.begun t ≤ e'.begun t) (still : prompt → e.isAble t = true → e'.now = e.now) :
    Stands prompt every t e' new := by
  have same : e'.roundsOf t = e.roundsOf t := congrArg rounds silent
  unfold Stands at stands ⊢
  rw [loop, same]
  cases stage : old.loop with
  | absent => simpa only [stage] using stands
  | fresh => simpa only [stage] using stands
  | sleeping base due =>
      simp only [stage] at stands
      obtain ⟨rounds, at', inTurn, past⟩ := stands
      exact ⟨rounds, at', inTurn, Nat.le_trans past time⟩
  | listening base seen =>
      simp only [stage] at stands
      obtain ⟨tick, ends, attends⟩ := stands
      obtain ⟨at', inTurn, past⟩ := attends.inTurn
      refine ⟨tick, ends, silent ▸ attends.strokes, same ▸ attends.rounds,
        ⟨at', same ▸ inTurn, Nat.le_trans past time⟩, heard.1.trans attends.counted, ?_,
        Nat.lt_of_lt_of_le attends.awaited begun, ?_⟩
      · exact fun moment last => heard.2.trans (attends.latest moment last)
      · intro p moment mem
        rw [still p (attends.isAble was stage (List.ne_nil_of_mem mem))]
        exact attends.atOnce p moment mem
  | ended =>
      simp only [stage] at stands
      refine stands.imp_right ?_
      rintro ⟨base, at', inTurn, past⟩
      exact ⟨base, at', inTurn, Nat.le_trans past time⟩

/-- A run has ended in this instant. -/
theorem Stands.ended (stands : Stands prompt every t e old) (loop : new.loop = old.loop)
    (now : e'.now = e.now) (ended : e'.strokes t = (e.now, .ended) :: e.strokes t)
    (heard : new.completions = old.completions + 1 ∧ new.completedAt = e.now)
    (begun : e.begun t ≤ e'.begun t) : Stands prompt every t e' new := by
  have read : e'.roundsOf t = Round.read (e.now, .ended) (e.roundsOf t) := by
    rw [roundsOf, ended, rounds_cons, roundsOf]
  have goesOn {base at' : Instant} (h : InTurn prompt every base at' (e.roundsOf t))
      (past : at'.ns ≤ e.now.ns) :
      ∃ at', InTurn prompt every base at' (e'.roundsOf t) ∧ at'.ns ≤ e'.now.ns := by
    rw [read, now]
    exact h.read_ended past
  unfold Stands at stands ⊢
  rw [loop]
  cases stage : old.loop with
  | absent =>
      simp only [stage] at stands ⊢
      rw [read, stands, Round.read]
  | fresh =>
      simp only [stage] at stands ⊢
      rw [read, stands, Round.read]
  | sleeping base due =>
      simp only [stage] at stands ⊢
      obtain ⟨⟨armed, rest, newest⟩, at', inTurn, past⟩ := stands
      exact ⟨⟨armed, rest, by rw [read, newest]; rfl⟩, goesOn inTurn past⟩
  | listening base seen =>
      simp only [stage] at stands ⊢
      obtain ⟨tick, ends, attends⟩ := stands
      obtain ⟨older, strokes⟩ := attends.strokes
      obtain ⟨armed, due, rest, newest⟩ := attends.rounds
      obtain ⟨at', inTurn, past⟩ := attends.inTurn
      refine ⟨tick, e.now :: ends, ⟨older, by rw [ended, strokes]; rfl⟩,
        ⟨armed, due, rest, by rw [read, newest]; rfl⟩, goesOn inTurn past, ?_, ?_,
        Nat.lt_of_lt_of_le attends.awaited begun, ?_⟩
      · rw [heard.1, attends.counted, List.length_cons, Nat.add_assoc]
      · rintro moment last
        exact heard.2.trans (Option.some.inj last)
      · intro p
        rw [now]
        exact List.forall_mem_cons.mpr ⟨rfl, attends.atOnce p⟩
  | ended =>
      simp only [stage] at stands ⊢
      rcases stands with none | ⟨base, at', inTurn, past⟩
      · left
        rw [read, none, Round.read]
      · exact .inr ⟨base, goesOn inTurn past⟩

end Spared

theorem KeepsCount.spares (h : KeepsCount prompt t e) (hears : e.Hears) (hears' : e'.Hears)
    (spares : Spares t e e') (overhears : Overhears t e e') (begun : e.begun t ≤ e'.begun t)
    (still : prompt → e.isAble t = true → e'.now = e.now) : KeepsCount prompt t e' := by
  intro new every known periodic delay
  obtain ⟨old, was, same⟩ := spares.old known
  have stands := h old every was (same.spec ▸ periodic) delay
  rcases overhears with silent | ⟨now, ended⟩
  · have kept : e'.endings t = e.endings t := by rw [endings, silent, endings]
    exact stands.silent was same.loop silent spares.time (hears.same hears' was known kept) begun still
  · have more : e'.endings t = e.now :: e.endings t := by rw [endings, ended]; rfl
    exact stands.ended same.loop now ended (hears.more hears' was known more) begun

/-! ### Set up -/

/-- As long as no timer was armed there is no round. -/
theorem roundsOf_of_quiet (quiet : ∀ b ∈ e.beats t, b.2.isAnswer = true) : e.roundsOf t = [] := by
  have unarmed : ∀ stroke ∈ e.strokes t, ∀ due, stroke.2 ≠ .armed due := by
    rintro ⟨time, _⟩ mem due rfl
    obtain ⟨entry, noted, is⟩ := List.mem_filterMap.mp mem
    obtain ⟨time, note⟩ := entry
    cases note with
    | armed s due' =>
        by_cases own : s = t
        · have beat : (time, Beat.armed due') ∈ e.beats t :=
            List.mem_filterMap.mpr ⟨_, noted, by simp [Entry.beat?, Note.beat?, own]⟩
          cases quiet _ beat
        · simp [Entry.stroke?, Note.stroke?, own] at is
    | ticked s => simp [Entry.stroke?, Note.stroke?] at is
    | finished id outcome => simp [Entry.stroke?, Note.stroke?] at is
    | _ => simp [Entry.stroke?, Note.stroke?] at is
  rw [roundsOf]
  generalize e.strokes t = strokes at unarmed
  induction strokes with
  | nil => rfl
  | cons stroke strokes ih =>
      obtain ⟨here, others⟩ := List.forall_mem_cons.mp unarmed
      obtain ⟨time, stroke⟩ := stroke
      rw [rounds_cons, ih others]
      cases stroke with
      | armed due => exact absurd rfl (here due)
      | ticked => rfl
      | ended => rfl

theorem KeepsCount.setsUp (regular : Regular t e) (sets : SetsUp t e e') : KeepsCount prompt t e' := by
  intro new every known _ _
  have told := regular.tells
  rw [sets.absent regular.young, ← sets.beats] at told
  have resting := sets.loopOf regular.young
  rw [loopOf_of_known known] at resting
  unfold Stands
  rcases resting with absent | fresh
  · rw [absent]
    exact roundsOf_of_quiet told
  · rw [fresh]
    exact roundsOf_of_quiet told

/-! ### Taking a step -/

theorem strokes_armLoop_some (e : Engine) (t : TaskId) (task : TaskRecord) (base due : Instant) :
    (e.armLoop t task base (some due)).strokes t = (e.now, .armed due) :: e.strokes t := by
  simp [strokes, armLoop, publishAbout, announce, note, updateTask, Entry.stroke?, Note.stroke?]

theorem strokes_afterTick (e : Engine) (t : TaskId) :
    (e.afterTick t).strokes t = (e.now, .ticked) :: e.strokes t := by
  rw [afterTick, (spares_request _ t none).strokes (routine_request ..), strokes_note]
  simp [Note.stroke?]

theorem Hears.afterTick (h : e.Hears) (t : TaskId) : (e.afterTick t).Hears := by
  have noted : (e.note (.ticked t)).Hears :=
    h.of_same (fun _ => rfl) fun _ => notes_cons rfl rfl
  exact noted.request t none

theorem Sound.afterTick (h : e.Sound) (t : TaskId) : (e.afterTick t).Sound :=
  Sound.request (h.note (fun _ => rfl) fun _ => rfl) t none

/-- A schedule that ticks finds a run of its task in flight, or begins one. -/
theorem busy_afterTick {task : TaskRecord} (sound : e.Sound) (known : e.tasks[t]? = some task)
    (admits : e.refusal? = none) (willing : task.refusal? = none) :
    ∃ asked, (e.afterTick t).tasks[t]? = some asked ∧ 0 < asked.running := by
  have room := (sound.known t task known).room
  have inside : t < e.tasks.length := (List.getElem?_eq_some_iff.mp known).1
  have known' : (e.note (.ticked t)).tasks[t]? = some task := known
  have admits' : (e.note (.ticked t)).refusal? = none := admits
  simp only [Engine.afterTick, request, consider, admits', known', willing, place]
  split
  · rename_i full
    have busy : 0 < task.running := Nat.lt_of_lt_of_le room (of_decide_eq_true full)
    split
    · exact ⟨task, known, busy⟩
    · exact ⟨task.fold none, known_updateTask known _, busy⟩
  · rw [beginRun_eq known']
    exact ⟨task.begin e.now, List.getElem?_set_self inside, Nat.succ_pos _⟩

/-- Whatever a loop is broken off for, its rounds stay as they are. -/
theorem Stands.kept {task : TaskRecord} (h : Stands prompt every t e task) :
    e.roundsOf t = [] ∨
    ∃ base at', InTurn prompt every base at' (e.roundsOf t) ∧ at'.ns ≤ e.now.ns := by
  unfold Stands at h
  split at h
  · exact .inl h
  · exact .inl h
  · exact .inr ⟨_, h.2⟩
  · obtain ⟨tick, ends, attends⟩ := h
    exact .inr ⟨_, attends.inTurn⟩
  · exact h

/-- A schedule that waits for nothing arms its timer, or breaks off. -/
theorem stands_armLoop {base : Instant} {due? : Option Instant} (task named : TaskRecord)
    (kept : e.roundsOf t = [] ∨
      ∃ base at', InTurn prompt every base at' (e.roundsOf t) ∧ at'.ns ≤ e.now.ns)
    (arms : ∀ due, due? = some due →
      InTurn prompt every base e.now ({ armed := e.now, due } :: e.roundsOf t)) :
    Stands prompt every t (e.armLoop t named base due?) (task.arm e.now base due?) := by
  cases due? with
  | none => exact kept
  | some due =>
      have read : (e.armLoop t named base (some due)).roundsOf t =
          { armed := e.now, due } :: e.roundsOf t := by
        rw [roundsOf, strokes_armLoop_some, rounds_cons, Round.read, roundsOf]
      refine ⟨⟨e.now, _, read⟩, e.now, ?_, Nat.le_of_eq (congrArg Instant.ns (now_armLoop ..).symm)⟩
      rw [read]
      exact arms due rfl

/-- A schedule that has ticked listens, and there is an end to listen for. -/
theorem attends_afterTick {task asked : TaskRecord} {base at' armed due : Instant} {rest : List Round}
    (sound : e.Sound) (hears : e.Hears) (known : e.tasks[t]? = some task)
    (newest : e.roundsOf t = { armed, due } :: rest)
    (inTurn : InTurn prompt every base at' (e.roundsOf t)) (past : at'.ns ≤ e.now.ns)
    (isDue : due.isDue e.now = true) (known' : (e.afterTick t).tasks[t]? = some asked)
    (busy : 0 < asked.running) :
    Attends prompt every base task.completions t (e.afterTick t) asked e.now [] := by
  have strokes := strokes_afterTick e t
  have silent : (e.afterTick t).endings t = e.endings t := by rw [endings, strokes]; rfl
  have same := (hears.same (hears.afterTick t) known known' silent).1
  have read : (e.afterTick t).roundsOf t = { armed, due, ticks := [e.now] } :: rest := by
    rw [roundsOf, strokes, rounds_cons, ← roundsOf, newest, Round.read]
  have awaited : task.completions < (e.afterTick t).begun t := by
    have account := ((sound.afterTick t).known t asked known').counted
    have counted : asked.completions = ((e.afterTick t).endings t).length :=
      congrArg Prod.fst ((hears.afterTick t).heard known')
    rw [length_endings] at counted
    omega
  refine ⟨⟨_, strokes⟩, ⟨armed, due, rest, read⟩, ⟨e.now, ?_, ?_⟩, same, nofun, awaited,
    fun _ _ mem => absurd mem List.not_mem_nil⟩
  · rw [newest] at inTurn
    rw [read]
    exact .tick inTurn past isDue
  · exact Nat.le_of_eq (congrArg Instant.ns (now_afterTick e t).symm)

theorem KeepsCount.step (h : KeepsCount prompt t e) (sound : e.Sound) (hears : e.Hears)
    (step : LoopStep t e e') : KeepsCount prompt t e' := by
  intro new every known periodic delay
  obtain ⟨old, new', was, known', spec, -, -⟩ := step.known
  obtain rfl : new' = new := Option.some.inj (known'.symm.trans known)
  rw [spec] at periodic
  have stands := h old every was periodic delay
  -- the step was taken by this very task, with this very schedule
  have same {task : TaskRecord} {other : Every} (found : e.tasks[t]? = some task)
      (schedule : task.spec.schedule = .every other) : task = old ∧ other = every := by
    obtain rfl : task = old := Option.some.inj (found.symm.trans was)
    refine ⟨rfl, ?_⟩
    rw [schedule] at periodic
    cases periodic
    rfl
  have armed {base : Instant} {due? : Option Instant} {named : TaskRecord}
      (after : e' = e.armLoop t named base due?) : new' = old.arm e.now base due? := by
    subst after
    exact Option.some.inj (known.symm.trans (known_armLoop was named base due?))
  cases step with
  | begins task other found schedule fresh =>
      obtain ⟨rfl, rfl⟩ := same found schedule
      obtain rfl := armed rfl
      have none : e.roundsOf t = [] := by simpa only [Stands, fresh] using stands
      refine stands_armLoop _ _ stands.kept fun due is => ?_
      rw [none]
      exact .first is
  | goesOn task other base seen found schedule listens heard =>
      obtain ⟨rfl, rfl⟩ := same found schedule
      obtain rfl := armed rfl
      refine stands_armLoop _ _ stands.kept fun due is => ?_
      simp only [Stands, listens] at stands
      obtain ⟨tick, ends, attends⟩ := stands
      obtain ⟨armed, due', rest, newest⟩ := attends.rounds
      obtain ⟨at', inTurn, past⟩ := attends.inTurn
      cases ends with
      | nil => exact absurd attends.counted heard
      | cons latest ends =>
          rw [attends.latest latest rfl] at is
          rw [newest] at inTurn ⊢
          exact .again inTurn past is attends.atOnce
  | ticks task other base due found schedule sleeps isDue admits willing =>
      obtain ⟨rfl, rfl⟩ := same found schedule
      simp only [Stands, sleeps] at stands
      obtain ⟨⟨armed, rest, newest⟩, at', inTurn, past⟩ := stands
      obtain ⟨asked, found', busy⟩ := busy_afterTick sound found admits willing
      have attends := attends_afterTick sound hears found newest inTurn past isDue found' busy
      rw [tick_fixedDelay delay found admits willing] at known ⊢
      obtain rfl : new' = { asked with loop := .listening base task.completions } :=
        Option.some.inj (known.symm.trans (known_updateTask found' _))
      exact ⟨e.now, [], { attends with }⟩
  | ends task found waits cancelled =>
      obtain rfl : new' = { task with nextRun := none, loop := .ended }.markStopping :=
        Option.some.inj (known.symm.trans (known_endLoop found))
      obtain rfl : task = old := Option.some.inj (found.symm.trans was)
      have loop := (TaskRecord.sameLoop_markStopping e.now
        { task with nextRun := none, loop := .ended }).loop
      unfold Stands
      rw [loop]
      exact stands.kept

/-! ### All moves -/

theorem LoopStep.stirs (step : LoopStep t e e') : Stirs e e' := by
  cases step with
  | begins task every known periodic fresh => exact stirs_armLoop ..
  | goesOn task every base seen known periodic listens heard => exact stirs_armLoop ..
  | ticks task every base due known periodic sleeps isDue admits willing => exact stirs_tick ..
  | ends task known waits cancelled => exact .single (.endLoop e t cancelled)

/-- What every change keeps, a step of a schedule keeps. -/
theorem LoopStep.keeps {P : Engine → Prop}
    (change : ∀ e e', Change .free e e' → P e → P e') (step : LoopStep t e e') (h : P e) : P e' :=
  step.stirs.relates (R := fun e e' => P e → P e') (fun _ => id) (fun first last => last ∘ first)
    (fun stir => change _ _ stir.change) h

theorem begun_le_perform {m : Move} (allowed : e.allows m = true) (t : TaskId) :
    e.begun t ≤ (e.perform m).begun t := by
  obtain ⟨entries, journal, -⟩ := notes_perform allowed
  rw [begun, begun, journal, List.countP_append]
  exact Nat.le_add_left ..

/-- What the engine keeps account of, as far as a schedule of fixed delay rests on it. -/
structure Reckoned (prompt : Prop) (t : TaskId) (e : Engine) : Prop where
  orderly : e.Orderly
  regular : Regular t e
  sound : e.Sound
  hears : e.Hears
  count : KeepsCount prompt t e

theorem reckoned_create (prompt : Prop) (config : Config) (subscribers : List Subscriber)
    (t : TaskId) : Reckoned prompt t (create config subscribers) :=
  ⟨orderly_create .., regular_create .., sound_create .., hears_create config subscribers,
    fun _ _ known => nomatch known⟩

theorem Reckoned.perform {m : Move} (h : Reckoned prompt t e) (allowed : e.allows m = true)
    (still : prompt → e.isAble t = true → (e.perform m).now = e.now) :
    Reckoned prompt t (e.perform m) := by
  have changes := changes_perform allowed (Licence.suits_free e m)
  have hears := hears_perform h.hears allowed
  refine ⟨h.orderly.perform allowed, h.regular.perform h.orderly allowed,
    changes.keeps (fun _ _ => Sound.change) h.sound, hears, ?_⟩
  rcases unfolds_perform t h.orderly allowed with spares | sets | steps
  · exact h.count.spares h.hears hears spares (spares.overhears allowed) (begun_le_perform allowed t)
      still
  · exact .setsUp h.regular sets
  · have all : (e.perform m).Sound ∧ (e.perform m).Hears ∧ KeepsCount prompt t (e.perform m) := by
      refine steps.head_induction_on
        (motive := fun e _ => e.Sound ∧ e.Hears ∧ KeepsCount prompt t e → _) id ?_
        ⟨h.sound, h.hears, h.count⟩
      rintro a b step - ih ⟨sound, hears, count⟩
      exact ih ⟨step.keeps (fun _ _ => Sound.change) sound, step.keeps (fun _ _ => Hears.change) hears,
        count.step sound hears step⟩
    exact all.2.2

theorem Reckoned.after {moves : List Move} (h : Reckoned prompt t e)
    (admitted : e.admits moves = true) (still : prompt → Prompt t e moves) :
    Reckoned prompt t (e.after moves) := by
  induction moves generalizing e with
  | nil => exact h
  | cons m moves ih =>
      obtain ⟨allowed, rest⟩ := (admits_cons ..).mp admitted
      exact ih (h.perform allowed fun p => (still p).1) rest fun p => (still p).2

/-! ## 3. No end is missed -/

/-- The tick that a schedule listens since, in the journal. -/
theorem journal_of_strokes {tick : Instant} {ends : List Instant} {older : List (Instant × Stroke)}
    (is : e.strokes t = ends.map (·, .ended) ++ (tick, .ticked) :: older) :
    ∃ newer rest, e.journal = newer ++ ⟨tick, .ticked t⟩ :: rest ∧
      (∀ entry ∈ newer, entry.note ≠ .ticked t) ∧
      newer.countP (·.note.ends t) = ends.length := by
  obtain ⟨since, before, journal, heard, asked⟩ := List.filterMap_eq_append_iff.mp is
  obtain ⟨silent, ⟨time, note⟩, rest, split, quiet, ticked, -⟩ := List.filterMap_eq_cons_iff.mp asked
  have stroke : time = tick ∧ note = .ticked t := by
    cases note with
    | armed s due => simp [Entry.stroke?, Note.stroke?] at ticked
    | ticked s => simpa [Entry.stroke?, Note.stroke?, and_comm] using ticked
    | finished id outcome => simp [Entry.stroke?, Note.stroke?] at ticked
    | _ => simp [Entry.stroke?, Note.stroke?] at ticked
  obtain ⟨rfl, rfl⟩ := stroke
  have strokes : (since ++ silent).filterMap (·.stroke? t) = ends.map (·, .ended) := by
    rw [List.filterMap_append, heard, List.filterMap_eq_nil_iff.mpr quiet, List.append_nil]
  refine ⟨since ++ silent, rest, by rw [journal, split, List.append_assoc], ?_, ?_⟩
  · intro entry mem again
    have listed : (entry.time, Stroke.ticked) ∈ ends.map (·, Stroke.ended) := by
      rw [← strokes]
      exact List.mem_filterMap.mpr ⟨entry, mem, by simp [Entry.stroke?, again, Note.stroke?]⟩
    simp at listed
  · have moments := endMoments_entries t (since ++ silent)
    rw [strokes] at moments
    have count := congrArg List.length moments
    rw [List.length_map, ← List.countP_eq_length_filter] at count
    rw [← count]
    simp [endMoments]

/-- The end of a run in flight is heard by the schedule of its task. -/
theorem known_finish {run : Run} {task : TaskRecord} (mem : run ∈ e.runs)
    (known : e.tasks[run.id.task]? = some task) (outcome : Outcome) :
    ∃ new, (e.finish run.id outcome).tasks[run.id.task]? = some new ∧
      new.completions = task.completions + 1 ∧ new.loop = task.loop := by
  obtain ⟨found, is⟩ : ∃ found, e.run? run.id = some found :=
    Option.isSome_iff_exists.mp (List.find?_isSome.mpr ⟨run, mem, beq_self_eq_true _⟩)
  have same : found.id = run.id := (mem_of_run? is).2
  have loop := (TaskRecord.sameLoop_conclude e.phase e.now outcome task).loop
  have known' : (e.conclude found task outcome).tasks[run.id.task]? =
      some (task.conclude e.phase e.now outcome) := by
    rw [← same] at known ⊢
    exact known_conclude known outcome
  have counted : (task.conclude e.phase e.now outcome).completions = task.completions + 1 :=
    congrArg Prod.fst (task.heard_conclude e.phase e.now outcome)
  rw [finish, is, known]
  dsimp only
  split
  · unfold settleOwed
    split
    · exact ⟨_, known', counted, loop⟩
    · have inside := (List.getElem?_eq_some_iff.mp known').1
      rw [beginRun_eq known']
      exact ⟨_, List.getElem?_set_self inside, counted, loop⟩
  · exact ⟨_, known', counted, loop⟩

/-- **No end is missed.**  Whatever has happened, let a schedule of fixed delay listen.  Then it
listens since its last tick: what it has counted beyond what it had seen are the runs of its task that
have ended after that tick, so after it asked for a run, whoever asked for them and however they
ended.  As long as there is none, a run of its task is in flight, and as soon as one of them ends the
schedule can take its turn; if there is one, it can do so now.

No run of its task is in flight only if one was lost, whose call the work refused. -/
theorem no_end_is_missed (config : Config) (subscribers : List Subscriber) (moves : List Move)
    (admitted : (create config subscribers).admits moves = true) (t : TaskId) (task : TaskRecord)
    (every : Every) (base : Instant) (seen : Nat)
    (known : ((create config subscribers).after moves).tasks[t]? = some task)
    (periodic : task.spec.schedule = .every every) (delay : every.tick = .fixedDelay)
    (listens : task.loop = .listening base seen) :
    let e := (create config subscribers).after moves
    (∃ newer tick older, e.journal = newer ++ ⟨tick, .ticked t⟩ :: older ∧
      (∀ entry ∈ newer, entry.note ≠ .ticked t) ∧
      task.completions = seen + newer.countP (·.note.ends t)) ∧
    (task.completions = seen → 0 < task.running ∧
      ((∃ run ∈ e.runs, run.id.task = t) ∨
        ∃ id ∈ e.lost, id.task = t ∧ task.spec.work.refuses id.number = true) ∧
      ∀ run ∈ e.runs, run.id.task = t → ∀ outcome, (e.finish run.id outcome).isAble t = true) ∧
    (task.completions ≠ seen → e.isAble t = true) := by
  intro e
  have reckoned : Reckoned False t e :=
    (reckoned_create False config subscribers t).after admitted False.elim
  have stands := reckoned.count task every known periodic delay
  simp only [Stands, listens] at stands
  obtain ⟨tick, ends, attends⟩ := stands
  obtain ⟨older, strokes⟩ := attends.strokes
  obtain ⟨newer, rest, journal, last, count⟩ := journal_of_strokes strokes
  refine ⟨⟨newer, tick, rest, journal, last, by rw [count]; exact attends.counted⟩, ?_, ?_⟩
  · intro unheard
    have busy : 0 < task.running := by
      have account := (reckoned.sound.known t task known).counted
      have counted : task.completions = (e.endings t).length :=
        congrArg Prod.fst (reckoned.hears.heard known)
      have awaited := attends.awaited
      rw [length_endings] at counted
      omega
    refine ⟨busy, ?_, ?_⟩
    · have audited : e.Audited := audited_after config subscribers admitted
      rw [audited.running_eq known, inFlight, List.countP_map] at busy
      rcases Nat.add_pos_iff_pos_or_pos.mp busy with flying | gone
      · obtain ⟨run, mem, own⟩ := List.countP_pos_iff.mp flying
        exact .inl ⟨run, mem, beq_iff_eq.mp own⟩
      · obtain ⟨id, mem, own⟩ := List.countP_pos_iff.mp gone
        obtain rfl := beq_iff_eq.mp own
        obtain ⟨refuser, known', refuses⟩ := audited.charted.lost.2 id mem
        obtain rfl : task = refuser := Option.some.inj (known.symm.trans known')
        exact .inr ⟨id, mem, rfl, refuses⟩
    · rintro run mem rfl outcome
      obtain ⟨new, known', more, loop⟩ := known_finish mem known outcome
      rw [isAble_of_known known', canTurnLoop, loop, listens]
      simp [more, unheard]
  · intro heard
    rw [isAble_of_known known, canTurnLoop, listens]
    simp [heard]

/-- A schedule that has asked for a run and waits for its end. -/
def waitingHistory : List Move :=
  [.add { work := .trivial,
          schedule := .every { interval := ⟨2⟩, tick := .fixedDelay, startImmediately := true } },
    .start (.named "t"), .clock ⟨1⟩, .schedule 0]

theorem no_end_is_missed_waiting :
    ((create {} []).after waitingHistory).isAble 0 = false ∧
    ∃ run ∈ ((create {} []).after waitingHistory).runs,
      ∀ outcome, (((create {} []).after waitingHistory).finish run.id outcome).isAble 0 = true := by
  have admitted : (create {} []).admits waitingHistory = true := by decide
  obtain ⟨task, known, periodic, listens, unheard⟩ : ∃ task,
      ((create {} []).after waitingHistory).tasks[0]? = some task ∧ task.spec.schedule =
        .every { interval := ⟨2⟩, tick := .fixedDelay, startImmediately := true } ∧
      task.loop = .listening ⟨1⟩ 0 ∧ task.completions = 0 := ⟨_, rfl, rfl, rfl, rfl⟩
  obtain ⟨-, waits, -⟩ :=
    no_end_is_missed {} [] waitingHistory admitted 0 task _ ⟨1⟩ 0 known periodic rfl listens
  obtain ⟨-, inFlight, wakes⟩ := waits unheard
  have none : ((create {} []).after waitingHistory).lost = [] := by decide
  obtain ⟨run, mem, own⟩ := inFlight.resolve_right fun ⟨id, mem, _⟩ => by simp [none] at mem
  exact ⟨by decide, run, mem, wakes run mem own⟩

end Engine

end TaskEngine
