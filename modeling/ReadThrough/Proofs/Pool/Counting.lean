import ReadThrough.Proofs.Pool.Settling

/-! # What a pool counts

A worker counts a computation by its outcome before it writes the result back, and the queue counts
a result once the store has accepted it.

* **Samples** (`TaskOutcome.finished`, `TaskOutcome.accepted`).  The two counts of one outcome.
* **Lost results** (`Moment.lost?`).  A result that was counted does not come back to the store if
  the call fails, if it breaks off, or if the stop signal ends the worker before.
* **Turns** (`TurnStep.counts`).  A turn that counts a computation leaves a result to be written,
  and a result that is not to be written any more was accepted or is lost.
* **Main statement** (`counts_agree_iff`).  How far the two counts are apart in every run, and when
  they agree. -/

namespace ReadThrough

namespace TaskOutcome

/-- The sample of a computation with this outcome. -/
def finished (o : TaskOutcome) (queue : String) : Sample :=
  ⟨.tasksCompleted, [("outcome", o.label), ("queue", queue)]⟩

/-- The sample of a result with this outcome that the store has accepted. -/
def accepted (o : TaskOutcome) (queue : String) : Sample :=
  match o with
  | ok => Event.operation queue "complete"
  | error => Event.operation queue "complete_error"

end TaskOutcome

namespace Sample

variable (sample : Sample)

@[simp] theorem count_nil : sample.count [] = 0 := rfl

@[simp] theorem count_append (es es' : List Event) :
    sample.count (es ++ es') = sample.count es + sample.count es' := by
  simp [count]

theorem count_cons (e : Event) (es : List Event) :
    sample.count (e :: es) = e.samples.count sample + sample.count es := by
  simp [count]

end Sample

theorem count_finished (o o' : TaskOutcome) (q : String) :
    (Event.taskFinished q o').samples.count (o.finished q) = if o' = o then 1 else 0 := by
  cases o <;> cases o' <;> simp [Event.samples, TaskOutcome.finished, TaskOutcome.label]

theorem count_accepted (o o' : TaskOutcome) (q : String) :
    (Event.completed q o').samples.count (o.accepted q) = if o' = o then 1 else 0 := by
  cases o <;> cases o' <;> simp [Event.samples, TaskOutcome.accepted, Event.operation]

theorem count_finished_completed (o o' : TaskOutcome) (q : String) :
    (Event.completed q o').samples.count (o.finished q) = 0 ∧
      (Event.taskFinished q o').samples.count (o.accepted q) = 0 := by
  cases o <;> cases o' <;>
    simp [Event.samples, TaskOutcome.finished, TaskOutcome.accepted, Event.operation]

namespace Pool

/-- The result that is counted and does not come to the store: the worker that was to write it is
ended by the stop signal, the call fails, or it breaks off. -/
def Moment.lost? (m : Moment) : Option (Claim × Completion) :=
  match m.turn.move with
  | .worker k .stop => m.before.workers[k]?.bind WorkerPhase.result?
  | .worker k .advance =>
    (m.before.workers[k]?.bind WorkerPhase.result?).filter fun x =>
      m.turn.context.fault.isSome || !x.2.nameable m.turn.context.now
  | _ => none

/-- What is reported in a turn. -/
def Moment.reported (m : Moment) : List Event :=
  match m.before.turn? m.turn with
  | some (_, _, events) => events
  | none => []

/-- All that is reported, in order. -/
def reported (ms : List Moment) : List Event := ms.flatMap Moment.reported

/-- All results that are lost, in order. -/
def lost (ms : List Moment) : List (Claim × Completion) := ms.filterMap Moment.lost?

/-- How many results have the outcome. -/
def tally (o : TaskOutcome) (results : List (Claim × Completion)) : Nat :=
  results.countP fun x => x.2.outcome = o

variable {n : Nat} {p p' : Pool} {t : Turn} {s' : Store} {events : List Event} {o : TaskOutcome}

/-! ### One turn -/

@[simp] theorem tally_nil : tally o [] = 0 := rfl

theorem tally_append (o : TaskOutcome) (l l' : List (Claim × Completion)) :
    tally o (l ++ l') = tally o l + tally o l' := List.countP_append

/-- A result for which `complete` is called is accepted or lost. -/
theorem Moment.settled_or_lost (m : Moment) {k : Nat} (hm : m.turn.move = .worker k .advance) :
    m.settled?.toList ++ m.lost?.toList = m.written?.toList := by
  simp only [lost?, settled?, written?, hm]
  cases m.before.workers[k]?.bind WorkerPhase.result? with
  | none => rfl
  | some x =>
      rw [Option.filter_some, Option.filter_some]
      cases m.turn.context.fault <;> cases x.2.nameable m.turn.context.now <;> rfl

/-- What is to be written after a turn, with what was accepted or lost, is what was to be written
before, with what was computed. -/
theorem TurnStep.results_lost (h : TurnStep p t p' s' events) :
    (p'.results ++ ((Moment.settled? ⟨p, t⟩).toList ++ (Moment.lost? ⟨p, t⟩).toList)).Perm
      (p.results ++ (Moment.computed? ⟨p, t⟩).toList.map
        fun x => (x.1, x.2.completion t.context.settings.errorTtl)) := by
  cases h with
  | loop hmove h =>
      rw [Pool.results, h.workers_eq]
      simp [Moment.settled?, Moment.lost?, Moment.written?, Moment.computed?, hmove, Pool.results]
  | @worker k m _ _ _ hmove h =>
      have advance (hm : m = .advance) :
          (Moment.settled? ⟨p, t⟩).toList ++ (Moment.lost? ⟨p, t⟩).toList =
            (Moment.written? ⟨p, t⟩).toList :=
        Moment.settled_or_lost _ (hm ▸ hmove)
      cases h with
      | leave hk =>
          refine perm_filterMap_set WorkerPhase.result? hk ?_
          simp [Moment.settled?, Moment.lost?, Moment.written?, Moment.computed?,
            WorkerPhase.result?, hmove, hk]
      | abandon hk =>
          refine perm_filterMap_set WorkerPhase.result? hk ?_
          simp [Moment.settled?, Moment.lost?, Moment.written?, Moment.computed?,
            WorkerPhase.result?, hmove, hk]
      | conclude hk =>
          refine perm_filterMap_set WorkerPhase.result? hk ?_
          simp [Moment.settled?, Moment.lost?, Moment.written?, Moment.computed?,
            WorkerPhase.result?, hmove, hk]
      | collapse hk =>
          refine perm_filterMap_set WorkerPhase.result? hk ?_
          simp [Moment.settled?, Moment.lost?, Moment.written?, Moment.computed?,
            WorkerPhase.result?, hmove]
      | _ =>
          rw [advance rfl]
          refine perm_filterMap_set WorkerPhase.result? ‹p.workers[_]? = some _› ?_
          simp [Moment.written?, Moment.computed?, WorkerPhase.result?, *]

/-- What is counted in a turn of the loop is no result. -/
theorem LoopStep.counts {m : LoopMove} {c : Context} {s : Store} (h : LoopStep c p s m p' s' events)
    (o : TaskOutcome) (q : String) :
    (o.finished q).count events = 0 ∧ (o.accepted q).count events = 0 := by
  cases o <;> cases h <;>
    simp [Sample.count, Event.samples, TaskOutcome.finished, TaskOutcome.accepted,
      Event.operation]

theorem count_failureEvents (sample : Sample) (c : Context) (id : Id) (r : Computed) :
    sample.count (failureEvents c id r) = 0 := by
  unfold failureEvents
  split <;> rfl

theorem count_collapseEvents (sample : Sample) (c : Context) (id : Id) (r? : Option Computed) :
    sample.count (collapseEvents c id r?) = 0 := by
  cases r? with
  | none => rfl
  | some r => exact count_failureEvents sample c id r

/-- A turn counts the computation that ends in it, and the result that the store accepts in it. -/
theorem TurnStep.counts (h : TurnStep p t p' s' events) (o : TaskOutcome) :
    (o.finished t.context.queue).count events =
        tally o ((Moment.computed? ⟨p, t⟩).toList.map
          fun x => (x.1, x.2.completion t.context.settings.errorTtl)) ∧
      (o.accepted t.context.queue).count events = tally o (Moment.settled? ⟨p, t⟩).toList := by
  -- a turn in which nothing is computed and nothing accepted
  have silent (hc : Moment.computed? ⟨p, t⟩ = none) (hs : Moment.settled? ⟨p, t⟩ = none)
      (he : (o.finished t.context.queue).count events = 0 ∧
        (o.accepted t.context.queue).count events = 0) :
      (o.finished t.context.queue).count events =
          tally o ((Moment.computed? ⟨p, t⟩).toList.map
            fun x => (x.1, x.2.completion t.context.settings.errorTtl)) ∧
        (o.accepted t.context.queue).count events = tally o (Moment.settled? ⟨p, t⟩).toList := by
    rw [hc, hs]
    exact he
  cases h with
  | loop hmove h =>
      exact silent (by simp [Moment.computed?, hmove])
        (by simp [Moment.settled?, Moment.written?, hmove]) (h.counts o _)
  | worker hmove h =>
      cases h with
      | @conclude x r hk =>
          have hs : Moment.settled? ⟨p, t⟩ = none := by
            simp [Moment.settled?, Moment.written?, hmove]
          have hc : Moment.computed? ⟨p, t⟩ = some (x, r) := by
            simp [Moment.computed?, hmove, hk]
          rw [hs, hc, Sample.count_append, Sample.count_append, Sample.count_cons,
            Sample.count_cons, count_failureEvents, count_failureEvents, count_finished,
            (count_finished_completed o _ _).2]
          simp [tally]
      | collapse hk =>
          exact silent (by simp [Moment.computed?, hmove])
            (by simp [Moment.settled?, Moment.written?, hmove])
            ⟨count_collapseEvents _ _ _ _, count_collapseEvents _ _ _ _⟩
      | @write x r _ hk hf hw =>
          have hn : r.nameable t.context.now = true := by
            rw [← t.store.complete_accepted t.context.settings.keys x.id, hw]
          have hs : Moment.settled? ⟨p, t⟩ = some (x, r) := by
            simp [Moment.settled?, Moment.written?, hmove, hk, hf, hn, WorkerPhase.result?]
          have hc : Moment.computed? ⟨p, t⟩ = none := by simp [Moment.computed?, hmove]
          rw [hs, hc, Sample.count_cons, Sample.count_cons, count_accepted,
            (count_finished_completed o _ _).1]
          simp [tally]
      | @crash x r _ hk hf hw =>
          have hn : r.nameable t.context.now = false := by
            rw [← t.store.complete_accepted t.context.settings.keys x.id, hw]
          exact silent (by simp [Moment.computed?, hmove])
            (by simp [Moment.settled?, Moment.written?, hmove, hk, hn, WorkerPhase.result?])
            ⟨rfl, rfl⟩
      | _ =>
          refine silent ?_ ?_ ?_
          · simp [Moment.computed?, hmove]
          · simp [Moment.settled?, Moment.written?, WorkerPhase.result?, *]
          · cases o <;> simp [Sample.count, Event.samples]

/-! ### All turns -/

theorem results_start (n : Nat) : (start n).results = [] := by
  simp [results, start, WorkerPhase.result?]

/-- The two counts of an outcome, with what is lost and what is still to be written. -/
def Counted (o : TaskOutcome) (q : String) (ms : List Moment) (p : Pool) : Prop :=
  (o.finished q).count (reported ms) =
    (o.accepted q).count (reported ms) + tally o (lost ms) + tally o p.results

theorem TurnStep.counted {q : String} {ms : List Moment} (h : TurnStep p t p' s' events)
    (hq : t.context.queue = q) (hc : Counted o q ms p) : Counted o q (ms ++ [⟨p, t⟩]) p' := by
  obtain ⟨hf, ha⟩ := h.counts o
  rw [hq] at hf ha
  have hp := h.results_lost.countP_eq fun x => x.2.outcome = o
  simp only [List.countP_append] at hp
  have hr : reported (ms ++ [⟨p, t⟩]) = reported ms ++ events := by
    simp [reported, Moment.reported, h.turn?]
  have hl : lost (ms ++ [⟨p, t⟩]) = lost ms ++ (Moment.lost? ⟨p, t⟩).toList := List.filterMap_append
  unfold Counted at hc ⊢
  rw [hr, hl, Sample.count_append, Sample.count_append, hf, ha, hc, tally_append]
  unfold tally at *
  omega

/-- **What the two counts say.**  In every run of a pool, whatever the store answers, and for each
outcome:

* the computations that were counted are the results that the store accepted, those that were lost,
  and those that are still to be written;
* once no result is to be written, the two counts agree if and only if no counted result with this
  outcome was lost. -/
theorem counts_agree_iff {ts : List Turn} {q : String} (hr : (start n).turns? ts = some p)
    (hq : ∀ m ∈ (start n).moments ts, m.turn.context.queue = q) (o : TaskOutcome) :
    (o.finished q).count (reported ((start n).moments ts)) =
        (o.accepted q).count (reported ((start n).moments ts)) +
          tally o (lost ((start n).moments ts)) + tally o p.results ∧
      (p.results = [] →
        ((o.finished q).count (reported ((start n).moments ts)) =
            (o.accepted q).count (reported ((start n).moments ts)) ↔
          ∀ m ∈ (start n).moments ts, ∀ x ∈ m.lost?, x.2.outcome ≠ o)) := by
  have hstart : Counted o q [] (start n) := by
    simp [Counted, reported, lost, results_start]
  have hc : Counted o q ((start n).moments ts) p :=
    turns_induction (P := Counted o q) hstart (fun _ _ _ _ _ _ hc ha h => h.counted ha hc) hq hr
  refine ⟨hc, fun he => ?_⟩
  have hzero : tally o (lost ((start n).moments ts)) = 0 ↔
      ∀ m ∈ (start n).moments ts, ∀ x ∈ m.lost?, x.2.outcome ≠ o := by
    unfold tally lost
    rw [List.countP_eq_zero]
    simp only [List.mem_filterMap, decide_eq_true_eq]
    exact ⟨fun h m hm x hx => h x ⟨m, hm, hx⟩, fun h x ⟨m, hm, hx⟩ => h m hm x hx⟩
  rw [← hzero]
  unfold Counted at hc
  rw [he, tally_nil] at hc
  omega

/-- A computation is counted whose result the store does not get. -/
theorem miscounted :
    ∃ p, (start 1).turns? unwritten = some p ∧ p.results = [] ∧
      (TaskOutcome.error.finished "q").count (reported ((start 1).moments unwritten)) = 1 ∧
      (TaskOutcome.error.accepted "q").count (reported ((start 1).moments unwritten)) = 0 := by
  obtain ⟨p, hr, he⟩ : ∃ p, (start 1).turns? unwritten = some p ∧ p.results = [] := by
    decide +kernel
  have hq : ∀ m ∈ (start 1).moments unwritten, m.turn.context.queue = "q" := by decide +kernel
  obtain ⟨hsum, -⟩ := counts_agree_iff hr hq .error
  have hone : (TaskOutcome.error.finished "q").count
      (reported ((start 1).moments unwritten)) = 1 := by decide +kernel
  have hlost : tally .error (lost ((start 1).moments unwritten)) = 1 := by decide +kernel
  rw [hone, hlost, he, tally_nil] at hsum
  exact ⟨p, hr, he, hone, by omega⟩

end Pool

end ReadThrough
