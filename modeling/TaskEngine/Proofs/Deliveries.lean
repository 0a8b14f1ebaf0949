/-
  TaskEngine/Proofs/Deliveries.lean
  =================================
  **What the subscribers are given of the events that are published.**

  A lane takes some of the events that are passed on, and gives them to its subscriber in the order in
  which they were published (`Engine.Threads`).  Nothing is passed on after the first end marker, so
  nothing is given to anybody after it.

  If the ring writes nothing over, no lane is full and no subscriber panics (`Engine.Undisturbed`), then
  nothing is lost on the way.  An engine that is shut down by a single call (`Engine.Sole`) has had every
  subscriber handle everything from the first event to the end marker when that call succeeds before its
  bound: nobody else can have taken over the way to the lanes.
-/
import TaskEngine.Proofs.Fates
import TaskEngine.Proofs.Passages

namespace TaskEngine

/-! ## 1. One lane -/

namespace Lane

/-- A worker that has ended leaves nothing behind, if its subscriber has never panicked. -/
theorem Fated.whole {l : Lane} (fate : l.Fated) (gone : l.isGone = true)
    (calm : ∀ p ∈ l.subscriber.receptions l.given, p.2 = .handled) :
    l.given = l.accepted.reverse := by
  rcases fate with exact | lost
  · rw [exact.queued, (exact.ended gone).2, List.append_nil]
  · obtain ⟨before, e, given, -, fatal⟩ := lost.fatal
    rw [given, Subscriber.receptions_concat] at calm
    have handled : l.subscriber.reception (before.length + 1) e = .handled :=
      calm _ (List.mem_append_right _ List.mem_cons_self)
    exact absurd handled (Reception.ne_of_not_isSurvived fatal).1

end Lane

namespace Engine

variable {e e' : Engine} {config : Config} {subs : List Subscriber} {moves : List Move} {p : Poll}

/-! ## 2. All lanes -/

/-- Every lane has accepted some of the events that were passed on, in that order, and gives them to
its subscriber in order. -/
def Threads (e : Engine) : Prop := ∀ l ∈ e.lanes, l.Fated ∧ l.accepted.Sublist e.forwarded

theorem threads_create (config : Config) (subs : List Subscriber) :
    (create config subs).Threads := by
  intro l mem
  obtain ⟨s, -, rfl⟩ := List.mem_map.mp mem
  exact ⟨.inl (Lane.exact_fresh s), List.nil_sublist _⟩

theorem Threads.congr (h : e.Threads) (lanes : e'.lanes = e.lanes)
    (forwarded : e'.forwarded = e.forwarded) : e'.Threads := by
  rw [Threads, lanes, forwarded]
  exact h

theorem Threads.pass (h : e.Threads) {event : Event} {cursor : Nat}
    (next : e.bus.next? e.cursor = some (event, cursor)) :
    ({ e with cursor }.emit event).Threads := by
  have passed := passed_emit next
  rw [Threads, passed.lanes, passed.forwarded]
  intro l mem
  obtain ⟨old, memOld, rfl⟩ := List.mem_map.mp mem
  obtain ⟨fate, accepted⟩ := h old memOld
  refine ⟨fate.offer event, ?_⟩
  cases room : old.refusal? with
  | some r =>
      rw [Lane.offer_of_refused room]
      exact accepted.cons event
  | none =>
      rw [Lane.offer_of_room room]
      exact accepted.cons_cons event

theorem Threads.closeLanes (h : e.Threads) : e.closeLanes.Threads := by
  intro l mem
  obtain ⟨old, memOld, rfl⟩ := List.mem_map.mp mem
  obtain ⟨fate, accepted⟩ := h old memOld
  exact ⟨fate.close, accepted⟩

theorem Threads.awaitWorkers (h : e.Threads) : e.awaitWorkers.Threads := by
  unfold Engine.awaitWorkers
  split <;> exact h

theorem Threads.receive (h : e.Threads) : e.receive.Threads := by
  have step := e.receive_step
  generalize e.receive = after at step ⊢
  cases step with
  | nothing idle => exact h
  | passes event cursor receiving next goesOn => exact h.pass next
  | ends event cursor receiving next last => exact (h.pass next).closeLanes.awaitWorkers
  | awaits closing => exact h.awaitWorkers

theorem Threads.work (h : e.Threads) (i : Nat) : (e.workLane i).Threads := by
  rcases e.workLane_cases i with ⟨-, same⟩ | ⟨l, there, lanes, -⟩
  · rw [same]
    exact h
  · rw [Threads, forwarded_workLane, lanes]
    intro l' mem
    rcases List.mem_or_eq_of_mem_set mem with mem | rfl
    · exact h l' mem
    · obtain ⟨fate, accepted⟩ := h l (List.mem_of_getElem? there)
      refine ⟨fate.work e.now, ?_⟩
      rw [(Lane.worked_work e.now l).accepted]
      exact accepted

theorem Threads.beginFlush (h : e.Threads) (s : Shutdown) : (e.beginFlush s).1.Threads := by
  unfold Engine.beginFlush
  split
  · exact h
  · exact h
  · have all : { e with dispatch := .idle }.forwardAll.Threads :=
      forward_keeps (P := Threads) (fun _ _ _ next h => h.pass next) false _ h
    exact all.closeLanes

theorem Threads.feeds (h : e.Threads) (feeds : Feeds e e') : e'.Threads := by
  cases feeds with
  | publishes published phase => exact h.congr published.lanes published.forwarded
  | start token fresh =>
      have same := appended_entered e token
      exact h.congr same.lanes same.forwarded
  | announceEnd stopped => exact h
  | beginFlush s stopped => exact h.beginFlush s
  | receive => exact h.receive
  | work i => exact h.work i

theorem threads_after (admitted : (create config subs).admits moves = true) :
    ((create config subs).after moves).Threads :=
  feeds_after (fun _ _ h => Threads.feeds h) admitted (threads_create config subs)

/-- Subscribers are given events in the order in which they were passed on. -/
theorem Threads.given (h : e.Threads) {l : Lane} (mem : l ∈ e.lanes) :
    l.given.Sublist e.forwarded.reverse := by
  obtain ⟨fate, accepted⟩ := h l mem
  exact fate.order.sublist.trans accepted.reverse

/-! ## 3. Undisturbed deliveries -/

/-- No event was written over before it was read, no lane refused one, and no subscriber panics over
one that it has been given. -/
structure Undisturbed (e : Engine) : Prop where
  read : e.passage.missed = []
  room : ∀ event ∈ e.published, event.kind ≠ .subscriberOverflow
  calm : ∀ l ∈ e.lanes, ∀ p ∈ l.subscriber.receptions l.given, p.2 = .handled

theorem Undisturbed.lossless (h : e.Undisturbed) (passage : e.InPassage) (paced : e.Paced)
    (threads : e.Threads) : e.Lossless := by
  have behind := passage.behind
  have passed := paced.passed
  rw [h.read, List.length_nil] at behind
  constructor
  · constructor
    · exact h.room
    · omega
    · intro l mem gone
      exact (threads l mem).1.whole gone (h.calm l mem)
  · intro _
    omega

/-! ## 4. Single shutdowns -/

/-- Whether the move belongs to a shutdown. -/
def Move.isOfShutdown : Move → Bool
  | .shutdown .. | .awaitShutdown _ => true
  | .clock _ | .add _ | .start _ | .cancel _ | .request _ | .requestWaiting _ | .detach _
  | .announce .. | .progress .. | .finish .. | .abandon _ | .schedule _ | .watch | .receive | .work _
  | .remark _ => false

/-- The poll is one of the only shutdown that is ever asked for: it asks for it, or it looks again at
what the last poll has left pending. -/
inductive Sole (e : Engine) : List Move → Poll → Prop where
  | asks {moves : List Move} (others : ∀ m ∈ moves, m.isOfShutdown = false) (bound : Bound)
      (grace : Duration) : Sole e moves (.asks bound grace)
  | waits {moves : List Move} {p : Poll} {s : Shutdown} (before : Sole e moves p)
      (pending : ((e.after moves).poll p).2 = .ok s) (later : List Move)
      (others : ∀ m ∈ later, m.isOfShutdown = false) : Sole e (moves ++ p.move :: later) (.waits s)

/-- Nothing but shutdowns makes an engine stop. -/
theorem going_perform {m : Move} (other : m.isOfShutdown = false) (going : e.phase ≠ .stopped) :
    (e.perform m).phase ≠ .stopped := by
  intro stopped
  cases m with
  | start token =>
      cases phase : e.phase with
      | notStarted =>
          have running : (e.perform (.start token)).phase = .running := by
            simp only [perform, start, phase]
            exact (aside_startPump _).phase
          cases running.symm.trans stopped
      | stopped => exact going phase
      | _ =>
          simp only [perform, start, phase] at stopped
          cases stopped
  | watch =>
      cases phase : e.phase with
      | stopped => exact going phase
      | _ =>
          simp only [perform, turnWatcher, phase] at stopped
          cases stopped
  | shutdown bound grace => cases other
  | awaitShutdown s => cases other
  | _ => exact going ((phase_perform rfl e).symm.trans stopped)

theorem going_after (others : ∀ m ∈ moves, m.isOfShutdown = false) (going : e.phase ≠ .stopped) :
    (e.after moves).phase ≠ .stopped := by
  induction moves generalizing e with
  | nil => exact going
  | cons m moves ih =>
      obtain ⟨first, rest⟩ := List.forall_mem_cons.mp others
      exact ih rest (going_perform first going)

/-- A last wait that has begun goes on as a last wait. -/
theorem flushing_of_beginFlush {s next : Shutdown} (waits : (e.beginFlush s).2 = .ok next) :
    next.stage ≠ .draining := by
  have step := e.beginFlush_step s
  generalize e.beginFlush s = begun at step waits
  cases step with
  | taken idle => cases waits
  | pump pumping =>
      dsimp only at waits
      rw [turnFlush_goesOn waits]
      exact (fun draining => nomatch draining)
  | lanes buffered =>
      dsimp only at waits
      rw [turnFlush_goesOn waits]
      exact (fun draining => nomatch draining)

/-- A shutdown that is still waiting for the runs has not stopped the engine. -/
theorem going_poll {s : Shutdown} (fits : p.fits e = true)
    (before : p.shutdown.stage = .draining → e.phase ≠ .stopped) (waits : (e.poll p).2 = .ok s)
    (draining : s.stage = .draining) : (e.poll p).1.phase ≠ .stopped := by
  by_cases started : e.phase = .running ∨ e.phase = .stopping
  · obtain ⟨is, stage⟩ := poll_of_started started fits
    rw [is] at waits ⊢
    simp only [turnShutdown, stage] at waits ⊢
    by_cases idle : e.asked.isIdle = true
    · rw [if_pos idle] at waits
      exact absurd draining (flushing_of_beginFlush waits)
    · rw [if_neg idle] at waits ⊢
      by_cases reached : e.asked.boundReached p.shutdown.bound = true
      · rw [if_pos reached] at waits
        cases waits
      · rw [if_neg reached, phase_asked started]
        decide
  · cases p with
    | asks bound grace =>
        cases phase : e.phase with
        | notStarted =>
            simp only [poll, shutdown, phase] at waits
            exact absurd draining (flushing_of_beginFlush waits)
        | running => exact absurd (.inl phase) started
        | stopping => exact absurd (.inr phase) started
        | stopped => exact absurd phase (before rfl)
    | waits last =>
        by_cases flushing : last.stage = .draining
        · have closing : e.isClosing = true := by simpa [Poll.fits, flushing] using fits
          have stopped : e.phase = .stopped := by
            cases phase : e.phase with
            | notStarted => simp [isClosing, phase] at closing
            | running => exact absurd (.inl phase) started
            | stopping => exact absurd (.inr phase) started
            | stopped => rfl
          exact absurd stopped (before flushing)
        · have same : last = s := by
            rw [poll, turnShutdown_of_flushing flushing] at waits
            exact (turnFlush_goesOn waits).symm
          rw [same] at flushing
          exact absurd draining flushing

/-- The polls of a single shutdown belong to it, and the engine does not stop before the shutdown has
found nothing left to wait for. -/
theorem Sole.belongs (sole : Sole (create config subs) moves p)
    (admitted : (create config subs).admits moves = true) :
    p.belongs ((create config subs).after moves) = true ∧
      (p.shutdown.stage = .draining → ((create config subs).after moves).phase ≠ .stopped) := by
  induction sole with
  | asks others bound grace =>
      constructor
      · rfl
      · intro _
        exact going_after others (fun stopped => nomatch stopped)
  | @waits moves p s _ pending later others ih =>
      obtain ⟨first, following⟩ := (admits_append ..).mp admitted
      obtain ⟨-, last⟩ := (admits_cons ..).mp following
      obtain ⟨belongs, before⟩ := ih first
      rw [perform_move] at last
      rw [after_append, after_cons, perform_move]
      constructor
      · exact belongs_next (ready_after first) belongs pending last
      · intro draining
        exact going_after others
          (going_poll (Bool.and_eq_true_iff.mp belongs).1 before pending draining)

/-- The poll is the last move of its history. -/
theorem after_poll (e : Engine) (moves : List Move) (p : Poll) :
    e.after (moves ++ [p.move]) = ((e.after moves).poll p).1 := by
  rw [after_append]
  exact perform_move _ p

theorem admits_poll (admitted : e.admits moves = true) (fits : p.fits (e.after moves) = true) :
    e.admits (moves ++ [p.move]) = true :=
  (admits_append ..).mpr ⟨admitted, (admits_cons ..).mpr ⟨allows_move fits, rfl⟩⟩

section Succeeding

variable (succeeds : Succeeds config subs moves p)

include succeeds

theorem Succeeds.admits : (create config subs).admits (moves ++ [p.move]) = true :=
  admits_poll succeeds.admitted (Bool.and_eq_true_iff.mp succeeds.belongs).1

theorem Succeeds.stopped : ((create config subs).after (moves ++ [p.move])).phase = .stopped := by
  rw [after_poll]
  exact (poll_succeeds (ready_after succeeds.admitted) (still_after succeeds.admitted)
    succeeds.belongs succeeds.returns).1

theorem Succeeds.traced : (((create config subs).after moves).poll p).1.Traced :=
  after_poll (create config subs) moves p ▸ traced_after succeeds.admits

/-- What was published until the engine had stopped is due. -/
theorem Succeeds.dues : Dues ((create config subs).publishedAtStop (moves ++ [p.move]))
    (((create config subs).after moves).poll p).1 := by
  have lossless := succeeds.lossless
  rw [← after_poll] at lossless ⊢
  exact dues_after (ready_create config subs) (fun stopped => nomatch stopped) succeeds.admits
    succeeds.stopped lossless

/-- It ends with the end marker if the engine has ever been running. -/
theorem Succeeds.endsMarked {before rest : List Move} (split : moves = before ++ rest)
    (running : ((create config subs).after before).phase = .running) :
    EndsMarked ((create config subs).publishedAtStop (moves ++ [p.move])) := by
  have admits := succeeds.admits
  have stopped := succeeds.stopped
  rw [split, List.append_assoc] at admits stopped ⊢
  obtain ⟨first, second⟩ := (admits_append ..).mp admits
  rw [after_append] at stopped
  rw [publishedAtStop_append first (by rw [running]; decide)]
  exact endsMarked_publishedAtStop (ready_after first) (.inl running) second stopped

end Succeeding

/-- Nobody else takes over the way to the lanes while a single shutdown waits for the runs. -/
theorem Sole.untaken (sole : Sole (create config subs) moves p) (some : subs ≠ [])
    (admitted : (create config subs).admits moves = true) :
    p.shutdown.stage ≠ .draining ∨ ((create config subs).after moves).dispatch ≠ .idle := by
  have attended := attended_after some admitted
  by_cases draining : p.shutdown.stage = .draining
  · refine .inr ?_
    rcases started_or_fresh ((sole.belongs admitted).2 draining) with fresh | started
    · rw [(attended.fresh fresh).2]
      decide
    · rw [(attended.busy started).2]
      decide
  · exact .inl draining

/-- A single shutdown that succeeds before its bound, with nothing lost, leaves the lanes drained of
all that was published until the engine had stopped. -/
theorem Sole.drained (sole : Sole (create config subs) moves p) (some : subs ≠ [])
    (succeeds : Succeeds config subs moves p) :
    Drained ((create config subs).publishedAtStop (moves ++ [p.move]))
      (((create config subs).after moves).poll p).1.lanes := by
  obtain ⟨-, gone⟩ := poll_succeeds (ready_after succeeds.admitted) (still_after succeeds.admitted)
    succeeds.belongs succeeds.returns
  have traced := succeeds.traced
  exact succeeds.dues.drained_of_gone traced.paced (traced.tracked succeeds.lossless)
    succeeds.lossless.toUnlost (gone (sole.untaken some succeeds.admitted) succeeds.early)

/-! ## 5. All histories -/

/-- **What the subscribers are given of the events that are published.**  At any moment, what was passed
on and what still waits in the ring is, in order, what was published and not written over.  The pump
passes it on up to and including the first end marker; a shutdown before the start passes on what it
finds, and nothing is passed on after that.  Every subscriber is given some of the events that were
passed on, in that order, and none after the first end marker.  If a started engine is shut down by a
single call, then with nothing written over, refused or panicked over, every subscriber has handled
everything from the first event to the end marker when the call succeeds before its bound. -/
theorem events_reach_subscribers_in_order (config : Config) (subs : List Subscriber)
    (moves : List Move) (some : subs ≠ []) (admitted : (create config subs).admits moves = true) :
    let e := (create config subs).after moves
    e.forwarded.reverse ++ e.bus.unread e.cursor = e.readable ∧
    e.forwarded.reverse <+: throughEnd e.readable ∧
    (e.pump = .closing ∨ e.pump = .ended → e.forwarded.reverse = throughEnd e.readable) ∧
    (∀ before bound grace rest, moves = before ++ .shutdown bound grace :: rest →
      ((create config subs).after before).phase = .notStarted →
      e.forwarded.reverse =
        ((create config subs).after (before ++ [.shutdown bound grace])).readable) ∧
    (∀ l ∈ e.lanes, l.given.Sublist e.forwarded.reverse ∧ throughEnd l.given = l.given) ∧
    ∀ p, Sole (create config subs) moves p →
      (∃ before rest, moves = before ++ rest ∧
        ((create config subs).after before).phase = .running) →
      (e.poll p).2 = .error (.ok ()) → (e.poll p).1.boundReached p.shutdown.bound = false →
      (e.poll p).1.Undisturbed →
      EndsMarked (throughEnd (e.poll p).1.published) ∧
      ∀ l ∈ (e.poll p).1.lanes, l.given = throughEnd (e.poll p).1.published ∧ l.inHand = [] := by
  intro e
  have threads : e.Threads := threads_after admitted
  obtain ⟨first, marked, all⟩ := forwarded_prefix_throughEnd some admitted
  refine ⟨(inPassage_after admitted).readable_eq, first, all, ?_, ?_, ?_⟩
  · rintro before bound grace rest rfl fresh
    exact (handedOver_after some admitted fresh).forwarded
  · intro l mem
    have given := threads.given mem
    exact ⟨given, throughEnd_of_sublist given marked⟩
  · rintro p sole ⟨before, rest, split, running⟩ returns early undisturbed
    have belongs := (sole.belongs admitted).1
    have admitted' := admits_poll admitted (Bool.and_eq_true_iff.mp belongs).1
    have is : (create config subs).after (moves ++ [p.move]) = (e.poll p).1 := after_poll _ moves p
    have lossless : (e.poll p).1.Lossless :=
      undisturbed.lossless (is ▸ inPassage_after admitted') (is ▸ (traced_after admitted').paced)
        (is ▸ threads_after admitted')
    have succeeds : Succeeds config subs moves p := ⟨admitted, belongs, returns, early, lossless⟩
    have due := succeeds.endsMarked split running
    rw [due.throughEnd_eq succeeds.dues.before]
    exact ⟨due, sole.drained some succeeds⟩

/-- The shutdown of a started engine is polled once the pump and the worker have done the rest. -/
theorem events_reach_subscribers_in_order_flushed :
    let e := (create {} [quietSubscriber]).after flushedHistory
    let p := Poll.waits { bound := .token (.named "never"), grace := .zero, stage := .awaitingPump }
    Sole (create {} [quietSubscriber]) flushedHistory p ∧
      e.forwarded.reverse = throughEnd e.readable ∧
      EndsMarked (throughEnd (e.poll p).1.published) ∧
      ∀ l ∈ (e.poll p).1.lanes, l.given = throughEnd (e.poll p).1.published ∧ l.inHand = [] := by
  intro e p
  have sole : Sole (create {} [quietSubscriber]) flushedHistory p := by
    have asks : Sole (create {} [quietSubscriber]) [.start (.named "t")]
        (.asks (.token (.named "never")) .zero) := .asks (by decide) _ _
    have waits : Sole (create {} [quietSubscriber])
        [.start (.named "t"), .shutdown (.token (.named "never")) .zero, .watch]
        (.waits { bound := .token (.named "never"), grace := .zero }) :=
      .waits asks rfl [.watch] (by decide)
    exact .waits waits rfl [.receive, .receive, .receive, .work 0, .receive] (by decide)
  obtain ⟨-, -, all, -, -, whole⟩ := events_reach_subscribers_in_order {} [quietSubscriber]
    flushedHistory (by decide) (by decide)
  have undisturbed : (e.poll p).1.Undisturbed := by
    constructor
    · decide
    · decide
    · decide
  exact ⟨sole, all (.inr rfl),
    whole p sole ⟨[.start (.named "t")], _, rfl, rfl⟩ rfl (by decide) undisturbed⟩

/-- A subscriber that panics over the addition of tasks. -/
def touchySubscriber : Subscriber := { name := "s", panicsOn := [.taskAdded] }

/-- A task is added, a shutdown comes before the start, and the subscriber handles what it hands over. -/
def unstartedHistory : List Move :=
  [.add (.onDemand .trivial), .shutdown (.token (.named "never")) .zero, .work 0]

/-- The panic of the subscriber is reported, and is not written over; it is never passed on. -/
theorem report_after_flush_not_passed_on :
    let e := (create {} [touchySubscriber]).after unstartedHistory
    (create {} [touchySubscriber]).admits unstartedHistory = true ∧
      (throughEnd e.readable).map (·.kind) = [.taskAdded, .subscriberPanicked] ∧
      ∀ rest, (create {} [touchySubscriber]).admits (unstartedHistory ++ rest) = true →
        ((create {} [touchySubscriber]).after (unstartedHistory ++ rest)).forwarded.map (·.kind) =
          [.taskAdded] := by
  intro e
  refine ⟨by decide, by decide, ?_⟩
  intro rest admitted
  have admitted' : (create {} [touchySubscriber]).admits ([.add (.onDemand .trivial)] ++
      .shutdown (.token (.named "never")) .zero :: .work 0 :: rest) = true := admitted
  have handed := handedOver_after (by decide) admitted' (by decide)
  have found : ((create {} [touchySubscriber]).after ([.add (.onDemand .trivial)] ++
      [.shutdown (.token (.named "never")) .zero])).readable.map (·.kind) = [.taskAdded] := by decide
  have passed := congrArg (List.map (·.kind)) handed.forwarded
  rw [found, List.map_reverse] at passed
  exact List.reverse_eq_iff.mp passed

end Engine

end TaskEngine
