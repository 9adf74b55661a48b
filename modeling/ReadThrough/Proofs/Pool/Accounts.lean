import ReadThrough.Proofs.Pool.BackPressure

/-! # The tasks of a pool, accounted for

Every task that a pool has claimed is in exactly one place, and its result is written once
(`accounts`).  Again nothing is asked of the order of the turns, of the store or of its faults, and
a computation may return, fail or panic.

* **Tasks** (`TurnStep.tasks`).  A task that is claimed goes through the channel into the hands of a
  worker, and leaves them when the worker calls `complete` for it.
* **Stranded tasks** (`Moment.stranded`).  A computation that takes its worker down leaves its task
  with nobody.  Only after the last worker has gone, other tasks are left with nobody as well.
* **Results** (`TurnStep.results`).  A worker writes what came of the computation of its task
  (`Computed.Reported`), once for each computation, whether or not the store takes it. -/

namespace ReadThrough

/-- The task that the loop is about to put into the channel. -/
def LoopPhase.sent : LoopPhase → List Claim
  | sending t => [t]
  | _ => []

/-- If one place gives `v` for `u`, so do all of them together. -/
theorem perm_filterMap_set {α β : Type} {l : List α} {a b : α} {k : Nat} {u v : List β}
    (f : α → Option β) (h : l[k]? = some a)
    (hp : ((f b).toList ++ u).Perm ((f a).toList ++ v)) :
    ((l.set k b).filterMap f ++ u).Perm (l.filterMap f ++ v) := by
  obtain ⟨hk, rfl⟩ := List.getElem?_eq_some_iff.mp h
  let others := (l.take k).filterMap f ++ (l.drop (k + 1)).filterMap f
  have set (c : α) : ((l.set k c).filterMap f).Perm (others ++ (f c).toList) := by
    rw [List.set_eq_take_append_cons_drop, if_pos hk, List.filterMap_append, List.filterMap_cons]
    cases f c with
    | none => simp [others]
    | some x =>
        simp only [others, Option.toList_some, List.append_assoc]
        exact (List.perm_append_singleton x _).symm.append_left _
  have ha := set l[k]
  rw [List.set_getElem_self] at ha
  have hau := ha.append_right v
  have hbu := (set b).append_right u
  rw [List.append_assoc] at hau hbu
  exact hbu.trans ((hp.append_left others).trans hau.symm)

namespace Pool

/-- The tasks in the channel, and the one on its way into it. -/
def handoffs (p : Pool) : List Claim := p.channel ++ p.loop.sent

/-- The tasks in the hands of the workers. -/
def inWork (p : Pool) : List Claim := p.workers.filterMap WorkerPhase.task?

/-- The results that workers are about to write. -/
def results (p : Pool) : List (Claim × Completion) := p.workers.filterMap WorkerPhase.result?

/-- All claims, in order. -/
def claimed (ms : List Moment) : List Claim := ms.filterMap Moment.claimed?

/-- All ends of computations, in order. -/
def computed (ms : List Moment) : List (Claim × Computed) := ms.filterMap Moment.computed?

/-- All calls of `complete`, in order. -/
def written (ms : List Moment) : List (Claim × Completion) := ms.filterMap Moment.written?

/-- The tasks that a turn leaves with nobody: one that the loop cannot hand over, the one whose
computation takes its worker down, and those that go with the channel of the last worker. -/
def Moment.stranded (m : Moment) : List Claim :=
  match m.turn.move with
  | .loop .advance => if m.before.workers.all WorkerPhase.ended then m.before.loop.sent else []
  | .worker k (.collapse _ words) =>
    m.collapsed?.toList ++ (m.before.finish k (.crashed words)).dropped
  | _ => []

/-- All tasks that were left with nobody, in order. -/
def stranded (ms : List Moment) : List Claim := ms.flatMap Moment.stranded

variable {settings : Settings} {n : Nat} {p p' : Pool} {t : Turn} {s' : Store}
  {events : List Event}

/-! ### One turn -/

/-- What the loop claims is in the channel or on its way into it. -/
theorem LoopStep.handoffs_eq {m : LoopMove} (hmove : t.move = .loop m)
    (h : LoopStep t.context p t.store m p' s' events) (ha : p'.loop.ended = false) :
    p'.handoffs = p.handoffs ++ (Moment.claimed? ⟨p, t⟩).toList := by
  -- in most steps the loop has no task before and after
  have same (hl : p.loop.sent = []) (hl' : p'.loop.sent = []) (hc : p'.channel = p.channel)
      (hn : Moment.claimed? ⟨p, t⟩ = none) :
      p'.handoffs = p.handoffs ++ (Moment.claimed? ⟨p, t⟩).toList := by
    simp [handoffs, hl, hl', hc, hn]
  cases h with
  | stop => cases ha
  | crash => cases ha
  | quit => cases ha
  | strand => cases ha
  | acquire hl => exact same (by rw [hl]; rfl) rfl rfl (by simp [Moment.claimed?, hl])
  | skip hl => exact same (by rw [hl]; rfl) rfl rfl (by simp [Moment.claimed?, hl])
  | failWait hl => exact same (by rw [hl]; rfl) rfl rfl (by simp [Moment.claimed?, hl])
  | startWait hl => exact same (by rw [hl]; rfl) rfl rfl (by simp [Moment.claimed?, hl])
  | wait hl => exact same (by rw [hl]; rfl) rfl rfl (by simp [Moment.claimed?, hl])
  | waited hl => exact same (by rw [hl]; rfl) rfl rfl (by simp [Moment.claimed?, hl])
  | resume hl => exact same (by rw [hl]; rfl) rfl rfl (by simp [Moment.claimed?, hl])
  | proceed hl => exact same (by rw [hl]; rfl) rfl rfl (by simp [Moment.claimed?, hl])
  | failClaim hl hf => exact same (by rw [hl]; rfl) rfl rfl (by simp [Moment.claimed?, hf])
  | claimNothing hl hf hd =>
      exact same (by rw [hl]; rfl) rfl rfl (by simp [Moment.claimed?, hmove, hl, hf, hd])
  | claim hl hf hd =>
      simp [handoffs, hl, LoopPhase.sent, Moment.claimed?, hmove, hf, hd]
  | send hl he hc =>
      simp [handoffs, hl, LoopPhase.sent, Moment.claimed?]

/-- What a worker has, with what it wrote, is what it had or took out of the channel. -/
theorem tasks_setWorker {k : Nat} {w w' : WorkerPhase} {gone : List Claim}
    (hk : p.workers[k]? = some w) (hl : p'.loop = p.loop) (hw : p'.workers = p.workers.set k w')
    (hc : (w'.task?.toList ++ (gone ++ p'.channel)).Perm (w.task?.toList ++ p.channel)) :
    (p'.handoffs ++ (p'.inWork ++ gone)).Perm (p.handoffs ++ p.inWork) := by
  have h := perm_filterMap_set WorkerPhase.task? hk hc
  rw [← hw] at h
  refine List.perm_iff_count.mpr fun x => ?_
  have hx := h.count_eq x
  simp only [handoffs, inWork, hl, List.count_append] at hx ⊢
  omega

/-- What is on its way through the channel after a turn of the loop, with what is left with nobody,
was on its way before or is claimed. -/
theorem LoopStep.handoffs_perm {m : LoopMove} (hmove : t.move = .loop m)
    (h : LoopStep t.context p t.store m p' s' events) (hm : Moment.Undisturbed settings ⟨p, t⟩) :
    (p'.handoffs ++ Moment.stranded ⟨p, t⟩).Perm
      (p.handoffs ++ (Moment.claimed? ⟨p, t⟩).toList) := by
  cases he : p'.loop.ended with
  | true =>
      obtain ⟨rfl, ⟨x, hl, rfl⟩, hall⟩ := h.of_ended hmove hm he
      simp [handoffs, endLoop, hl, LoopPhase.sent, Moment.stranded, Moment.claimed?, hmove, hall]
  | false =>
      have hnone : Moment.stranded ⟨p, t⟩ = [] := by
        cases h with
        | strand => cases he
        | _ => simp [Moment.stranded, LoopPhase.sent, *]
      rw [h.handoffs_eq hmove he, hnone, List.append_nil]

/-- What a pool has after a turn, with what was written and what is left with nobody, is what it had
before, with what was claimed. -/
theorem TurnStep.tasks (h : TurnStep p t p' s' events) (hm : Moment.Undisturbed settings ⟨p, t⟩) :
    (p'.handoffs ++ (p'.inWork ++
        ((Moment.written? ⟨p, t⟩).toList.map (·.1) ++ Moment.stranded ⟨p, t⟩))).Perm
      (p.handoffs ++ (Moment.claimed? ⟨p, t⟩).toList ++ p.inWork) := by
  cases h with
  | loop hmove h =>
      have hwritten : Moment.written? ⟨p, t⟩ = none := by simp [Moment.written?, hmove]
      have hwork : p'.inWork = p.inWork := by rw [inWork, inWork, h.workers_eq]
      refine List.perm_iff_count.mpr fun x => ?_
      have hx := (h.handoffs_perm hmove hm).count_eq x
      rw [hwritten, hwork]
      simp only [List.count_append, Option.toList_none, List.map_nil, List.count_nil] at hx ⊢
      omega
  | @worker k m _ _ _ hmove h =>
      have hs : t.context.stopping = false := hm.unstopped
      have hclaimed : Moment.claimed? ⟨p, t⟩ = none := by simp [Moment.claimed?, hmove]
      rw [hclaimed, Option.toList_none, List.append_nil]
      cases h with
      | leave hk hs' => simp [hs] at hs'
      | abandon hk ht hs' => simp [hs] at hs'
      | quit hk hs' => simp [hs] at hs'
      | crash hk hf hw =>
          have hc := hm.accepted hmove hk hf
          rw [hw] at hc
          cases hc
      | @collapse x r? words hk =>
          refine tasks_setWorker hk rfl rfl ?_
          have hchannel := (p.finish k (.crashed words)).dropped_append_channel
          have hstranded : Moment.stranded ⟨p, t⟩ =
              x :: (p.finish k (.crashed words)).dropped := by
            simp [Moment.stranded, Moment.collapsed?, hmove, hk]
          have hwritten : Moment.written? ⟨p, t⟩ = none := by simp [Moment.written?, hmove]
          rw [hwritten, hstranded]
          show (x :: ((p.finish k (.crashed words)).dropped ++
            (p.finish k (.crashed words)).close.channel)).Perm (x :: p.channel)
          rw [hchannel]
          exact .refl _
      | _ =>
          refine tasks_setWorker ‹p.workers[_]? = some _› rfl rfl ?_
          simp [finish, setWorker, Moment.written?, Moment.stranded, WorkerPhase.result?,
            WorkerPhase.task?, *]

/-- As long as a worker is left, only the tasks of computations that took their workers down are
left with nobody. -/
theorem TurnStep.stranded_eq (h : TurnStep p t p' s' events)
    (hw : p'.workers.all WorkerPhase.ended = false) :
    Moment.stranded ⟨p, t⟩ = (Moment.collapsed? ⟨p, t⟩).toList := by
  cases h with
  | @loop m _ _ _ hmove h =>
      rw [h.workers_eq] at hw
      cases m <;> simp [Moment.stranded, Moment.collapsed?, hmove, hw]
  | @worker k m _ _ _ hmove h =>
      cases h with
      | @collapse x r? words hk =>
          have hnone : (p.finish k (.crashed words)).dropped = [] :=
            if_neg (Bool.eq_false_iff.mp hw)
          simp [Moment.stranded, hmove, hnone]
      | _ => simp [Moment.stranded, Moment.collapsed?, hmove]

/-- What is to be written after a turn, with what was written, is what was to be written before,
with what was computed. -/
theorem TurnStep.results (h : TurnStep p t p' s' events) (hs : t.context.stopping = false) :
    (p'.results ++ (Moment.written? ⟨p, t⟩).toList).Perm
      (p.results ++ (Moment.computed? ⟨p, t⟩).toList.map
        fun x => (x.1, x.2.completion t.context.settings.errorTtl)) := by
  cases h with
  | loop hmove h =>
      rw [Pool.results, h.workers_eq]
      simp [Moment.written?, Moment.computed?, hmove, Pool.results]
  | worker hmove h =>
      have signal (hs' : t.context.stopping = true) : False := by
        rw [hs] at hs'
        cases hs'
      cases h with
      | leave hk hs' => exact (signal hs').elim
      | abandon hk ht hs' => exact (signal hs').elim
      | quit hk hs' => exact (signal hs').elim
      | _ =>
          refine perm_filterMap_set WorkerPhase.result? ‹p.workers[_]? = some _› ?_
          simp [Moment.written?, Moment.computed?, WorkerPhase.result?, *]

/-! ### All turns -/

/-- The books of a pool with its history. -/
structure Booked (ttl : Duration) (ms : List Moment) (p : Pool) : Prop where
  tasks : (claimed ms).Perm
    (p.handoffs ++ (p.inWork ++ ((written ms).map (·.1) ++ stranded ms)))
  results : ((computed ms).map fun x => (x.1, x.2.completion ttl)).Perm (p.results ++ written ms)
  stranded : p.workers.all WorkerPhase.ended = false → stranded ms = collapsed ms

theorem Booked.turn {ms : List Moment} (hb : Booked settings.errorTtl ms p)
    (h : TurnStep p t p' s' events) (hm : Moment.Undisturbed settings ⟨p, t⟩) :
    Booked settings.errorTtl (ms ++ [⟨p, t⟩]) p' := by
  have one {α : Type} (f : Moment → Option α) :
      (ms ++ ([⟨p, t⟩] : List Moment)).filterMap f = ms.filterMap f ++ (f ⟨p, t⟩).toList :=
    List.filterMap_append
  have hstranded : Pool.stranded (ms ++ [⟨p, t⟩]) =
      Pool.stranded ms ++ Moment.stranded ⟨p, t⟩ := by
    simp [Pool.stranded]
  refine ⟨?_, ?_, fun hw => ?_⟩
  · refine List.perm_iff_count.mpr fun x => ?_
    have hx := hb.tasks.count_eq x
    have hx' := (h.tasks hm).count_eq x
    rw [hstranded]
    simp only [claimed, written, one, List.map_append, List.count_append] at hx hx' ⊢
    omega
  · refine List.perm_iff_count.mpr fun x => ?_
    have hx := hb.results.count_eq x
    have hx' := (h.results hm.unstopped).count_eq x
    rw [hm.configured] at hx'
    simp only [computed, written, one, List.map_append, List.count_append] at hx hx' ⊢
    omega
  · rw [hstranded, h.stranded_eq hw, hb.stranded (h.some_left hw), collapsed, collapsed, one]

/-- A turn of a pool with one worker, while one id is queued. -/
def turnTo (fault : Option Error) (move : Move) : Turn :=
  ⟨{ settings := { queue := "q", workers := 1, errorTtl := ⟨5⟩ }, now := 0, stopping := false, fault },
    (Store.enqueue {} ⟨"q"⟩ "x" 1 0).2, move⟩

/-- A task is claimed and handed over, its computation panics, and the store cannot be reached. -/
def unwritten : List Turn :=
  List.replicate 7 (turnTo none (.loop .advance)) ++
    List.replicate 3 (turnTo none (.worker 0 .advance)) ++
      [turnTo none (.worker 0 (.computed (.panicked none))),
        turnTo (some (.store "lost")) (.worker 0 .advance)]

/-- The condition on the computations cannot be left out: the task of a computation that took the
only worker down is left with nobody, and `complete` is never called for it. -/
theorem exists_stranded :
    ∃ p, (start 1).turns? afterCollapse = some p ∧
      (∀ m ∈ (start 1).moments afterCollapse, m.Undisturbed { queue := "q", workers := 1 }) ∧
      stranded ((start 1).moments afterCollapse) = [⟨"x", 1, 0⟩] ∧
      written ((start 1).moments afterCollapse) = [] ∧ p.gone = 1 := by
  have hm : ∀ m ∈ (start 1).moments afterCollapse,
      m.Undisturbed { queue := "q", workers := 1 } := by decide +kernel
  obtain ⟨p, hr⟩ : ∃ p, (start 1).turns? afterCollapse = some p :=
    Option.isSome_iff_exists.mp (by decide +kernel)
  have hgone : (collapsed ((start 1).moments afterCollapse)).length = 1 := by decide +kernel
  exact ⟨p, hr, hm, by decide +kernel, by decide +kernel, (turns_manned hr hm).2.gone.trans hgone⟩

end Pool

end ReadThrough
