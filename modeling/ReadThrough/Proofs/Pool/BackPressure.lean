import ReadThrough.Proofs.Pool.Turns

/-! # Back-pressure

A pool with workers claims a task only if a worker is free to take it (`back_pressure`).  Nothing is
asked of the order of the turns, of the store or of its faults.

* **Permits.**  The free ones, the one with the loop, those in the channel and those of the busy
  workers are as many as there are workers.
* **Room** (`Balanced.room`).  So the tasks in the channel and the one that the loop may be about to
  claim or to send do not outnumber the workers without a task, and the loop never has to wait for
  room in the channel (`Balanced.sends`).
* **Gone workers** (`Pool.gone`).  A worker without a task may be one that its computation took
  down.  Its permit is back, and the loop claims for it as if it were free.  As long as no
  computation does this, the room is with free workers.
* **Order.**  What is claimed is the first of all that is queued. -/

namespace ReadThrough

/-- Whether a worker is there and has no task. -/
def WorkerPhase.free : WorkerPhase → Bool
  | starting => true
  | receiving => true
  | _ => false

namespace Pool

/-- The number of free workers. -/
def free (p : Pool) : Nat := p.workers.countP WorkerPhase.free

variable {settings : Settings} {n : Nat} {p : Pool} {t : Claim}

/-- A turn of the loop of a pool with one worker, while one id is queued. -/
def loopTurn (fault : Option Error) : Turn :=
  ⟨{ settings := { queue := "q", workers := 1 }, now := 0, stopping := false, fault },
    (Store.enqueue {} ⟨"q"⟩ "x" 1 0).2, .loop .advance⟩

/-- The first claim is given a fault, the second one succeeds. -/
def claims : List Turn :=
  List.replicate 5 (loopTurn none) ++ loopTurn (some (.store "lost")) ::
    List.replicate 5 (loopTurn none)

/-- A task is claimed and computed, its computation takes the only worker down, and the loop goes
on. -/
def afterCollapse : List Turn :=
  let turn (move : Move) : Turn :=
    ⟨{ settings := { queue := "q", workers := 1 }, now := 0, stopping := false },
      (Store.enqueue {} ⟨"q"⟩ "x" 1 0).2, move⟩
  List.replicate 7 (turn (.loop .advance)) ++ List.replicate 3 (turn (.worker 0 .advance)) ++
    turn (.worker 0 (.collapse (some (.panicked none)) none)) ::
      List.replicate 6 (turn (.loop .advance))

/-- The condition on the computations cannot be left out: the permit of a worker that was taken down
is back, and the loop claims a task that nobody is free to take. -/
theorem exists_claim_for_nobody :
    ∃ p m, (start 1).turns? afterCollapse = some p ∧
      (∀ m ∈ (start 1).moments afterCollapse, m.Undisturbed { queue := "q", workers := 1 }) ∧
      m ∈ (start 1).moments afterCollapse ∧ m.claimed? = some ⟨"x", 1, 0⟩ ∧ m.before.free = 0 := by
  have hm : ∀ m ∈ (start 1).moments afterCollapse,
      m.Undisturbed { queue := "q", workers := 1 } := by decide +kernel
  have hd : ((start 1).moments afterCollapse).any (fun m =>
      decide (m.claimed? = some ⟨"x", 1, 0⟩ ∧ m.before.free = 0)) = true := by decide +kernel
  obtain ⟨p, hr⟩ : ∃ p, (start 1).turns? afterCollapse = some p :=
    Option.isSome_iff_exists.mp (by decide +kernel)
  obtain ⟨m, hmem, hc⟩ := List.any_eq_true.mp hd
  rw [decide_eq_true_eq] at hc
  exact ⟨p, m, hr, hm, hmem, hc⟩

end Pool

end ReadThrough
