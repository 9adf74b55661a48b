import ReadThrough.Proofs.Pool.Accounts
import ReadThrough.Proofs.Store.Ledger
import ReadThrough.Proofs.Store.Tenure

/-! # What a turn does to the tasks of a pool

This holds of every turn: the stop signal may be raised, the store may give a fault or refuse a
result, and tasks may be lost.

* **Tasks** (`Pool.tasks`).  A pool has the tasks on their way through the channel and those in the
  hands of its workers.
* **Turns** (`Pool.Handled`, `TurnStep.handled`).  A turn claims a task, or has a result accepted
  for one that the pool then no longer has, or claims and settles nothing.  The pool may lose tasks
  in the last case, but they stay claimed. -/

namespace ReadThrough

namespace Pool

/-- The tasks of a pool. -/
def tasks (p : Pool) : List Claim := p.handoffs ++ p.inWork

/-- The task for which the store accepts a result, and the result. -/
def Moment.settled? (m : Moment) : Option (Claim × Completion) :=
  m.written?.filter fun x => m.turn.context.fault.isNone && x.2.nameable m.turn.context.now

/-- What a turn of the pool `p` does to its tasks, and to the store that it finds. -/
inductive Handled (p : Pool) (t : Turn) (p' : Pool) (s' : Store) : Prop
  /-- Tasks may be lost, but every id is kept. -/
  | keeps (lost : List Claim) (hc : Moment.claimed? ⟨p, t⟩ = none)
      (hs : Moment.settled? ⟨p, t⟩ = none) (hp : p.tasks.Perm (lost ++ p'.tasks))
      (he : ∀ k id, (t.store.entry k id).Kept (s'.entry k id))
  | claims {x : Claim} (hc : Moment.claimed? ⟨p, t⟩ = some x)
      (hd : t.store.dequeue t.context.settings.keys = (some x, s'))
      (hp : p'.tasks.Perm (x :: p.tasks))
  | settles {x : Claim} {r : Completion} (hc : Moment.claimed? ⟨p, t⟩ = none)
      (hs : Moment.settled? ⟨p, t⟩ = some (x, r)) (hn : r.nameable t.context.now = true)
      (hw : s' = (t.store.complete t.context.settings.keys x.id r t.context.now).2)
      (hp : p.tasks.Perm (x :: p'.tasks))

variable {p p' : Pool} {t : Turn} {s' : Store} {events : List Event}

/-- A pool that starts has no tasks. -/
theorem tasks_start (n : Nat) : (start n).tasks = [] := by
  simp [tasks, handoffs, inWork, start, LoopPhase.sent, WorkerPhase.task?]

/-- A pool whose loop ends loses the task that the loop was about to send. -/
theorem tasks_endLoop (p : Pool) {phase : LoopPhase} (h : phase.sent = []) :
    p.tasks.Perm (p.loop.sent ++ (p.endLoop phase).tasks) := by
  refine List.perm_iff_count.mpr fun x => ?_
  simp only [tasks, handoffs, inWork, endLoop, h, List.count_append, List.count_nil]
  omega

theorem LoopStep.handled {m : LoopMove} (hmove : t.move = .loop m)
    (h : LoopStep t.context p t.store m p' s' events) : Handled p t p' s' := by
  have hsettled : Moment.settled? ⟨p, t⟩ = none := by
    simp [Moment.settled?, Moment.written?, hmove]
  have still (k : Keys) (id : Id) : (t.store.entry k id).Kept (t.store.entry k id) :=
    .of_eq rfl rfl
  -- most steps claim nothing and leave the tasks where they are
  have same (hc : Moment.claimed? ⟨p, t⟩ = none) (ha : p'.loop.ended = false)
      (he : ∀ k id, (t.store.entry k id).Kept (s'.entry k id)) : Handled p t p' s' := by
    have hp : p.tasks.Perm ([] ++ p'.tasks) := by
      rw [tasks, tasks, h.handoffs_eq hmove ha, hc, inWork, inWork, h.workers_eq]
      simp
    exact .keeps [] hc hsettled hp he
  cases h with
  | stop hs hl =>
      exact .keeps _ (by simp [Moment.claimed?, hmove]) hsettled (p.tasks_endLoop rfl) still
  | crash hl hm hf hw =>
      exact .keeps _ (by simp [Moment.claimed?, hl]) hsettled (p.tasks_endLoop rfl) still
  | quit hl hs =>
      exact .keeps _ (by simp [Moment.claimed?, hl]) hsettled (p.tasks_endLoop rfl) still
  | strand hl he =>
      exact .keeps _ (by simp [Moment.claimed?, hl]) hsettled (p.tasks_endLoop rfl) still
  | @claim x _ hl hf hd =>
      have hc : Moment.claimed? ⟨p, t⟩ = some x := by
        simp [Moment.claimed?, hmove, hl, hf, hd]
      refine .claims hc hd ?_
      refine List.perm_iff_count.mpr fun y => ?_
      simp only [tasks, handoffs, inWork, hl, LoopPhase.sent, List.count_append, List.count_cons,
        List.count_nil]
      omega
  | claimNothing hl hf hd =>
      obtain ⟨rfl, -⟩ := Store.dequeue_none hd
      exact same (by simp [Moment.claimed?, hmove, hl, hf, hd]) rfl still
  | wait hl hw =>
      exact same (by simp [Moment.claimed?, hl]) rfl fun k id => (Wait.quiet_of_step hw k id).keeps
  | waited hl hw =>
      exact same (by simp [Moment.claimed?, hl]) rfl fun k id => (Wait.quiet_of_step hw k id).keeps
  | failClaim hl hf => exact same (by simp [Moment.claimed?, hf]) rfl still
  | acquire hl => exact same (by simp [Moment.claimed?, hl]) rfl still
  | skip hl => exact same (by simp [Moment.claimed?, hl]) rfl still
  | failWait hl => exact same (by simp [Moment.claimed?, hl]) rfl still
  | startWait hl => exact same (by simp [Moment.claimed?, hl]) rfl still
  | resume hl => exact same (by simp [Moment.claimed?, hl]) rfl still
  | proceed hl => exact same (by simp [Moment.claimed?, hl]) rfl still
  | send hl => exact same (by simp [Moment.claimed?, hl]) rfl still

/-- What a worker no longer has, the pool no longer has. -/
theorem tasks_of_worker (gone : List Claim) {k : Nat} {w w' : WorkerPhase}
    (hk : p.workers[k]? = some w) (hl : p'.loop = p.loop) (hw : p'.workers = p.workers.set k w')
    (hc : (w'.task?.toList ++ (gone ++ p'.channel)).Perm (w.task?.toList ++ p.channel)) :
    p.tasks.Perm (gone ++ p'.tasks) := by
  have h := tasks_setWorker hk hl hw hc
  refine List.perm_iff_count.mpr fun x => ?_
  have hx := h.count_eq x
  simp only [tasks, List.count_append] at hx ⊢
  omega

/-- A worker that ends loses its task, and the pool the tasks that go with the channel. -/
theorem tasks_close {k : Nat} {w w' : WorkerPhase} {q : Pool} (hk : p.workers[k]? = some w)
    (hl : q.loop = p.loop) (hw : q.workers = p.workers.set k w') (hc : q.channel = p.channel)
    (hn : w'.task? = none) :
    p.tasks.Perm (w.task?.toList ++ q.dropped ++ q.close.tasks) := by
  refine tasks_of_worker _ hk hl hw ?_
  rw [hn, Option.toList_none, List.nil_append, List.append_assoc, q.dropped_append_channel, hc]

theorem WorkerStep.handled {k : Nat} {m : WorkerMove} (hmove : t.move = .worker k m)
    (h : WorkerStep t.context p t.store k m p' s' events) : Handled p t p' s' := by
  have hclaimed : Moment.claimed? ⟨p, t⟩ = none := by simp [Moment.claimed?, hmove]
  have unsettled (hm : m ≠ .advance) : Moment.settled? ⟨p, t⟩ = none := by
    cases m <;> simp [Moment.settled?, Moment.written?, hmove] at hm ⊢
  have resultless {w : WorkerPhase} (hk : p.workers[k]? = some w) (hr : w.result? = none) :
      Moment.settled? ⟨p, t⟩ = none := by
    cases m <;> simp [Moment.settled?, Moment.written?, hmove, hk, hr]
  -- most steps settle nothing and leave the store alone
  have lose {lost : List Claim} (hs : Moment.settled? ⟨p, t⟩ = none)
      (hp : p.tasks.Perm (lost ++ p'.tasks)) (he : s' = t.store) : Handled p t p' s' := by
    subst he
    exact .keeps lost hclaimed hs hp fun _ _ => .of_eq rfl rfl
  have same (gone : List Claim) {w w' : WorkerPhase} (hs : Moment.settled? ⟨p, t⟩ = none)
      (hk : p.workers[k]? = some w) (hl : p'.loop = p.loop)
      (hw : p'.workers = p.workers.set k w')
      (hc : (w'.task?.toList ++ (gone ++ p'.channel)).Perm (w.task?.toList ++ p.channel))
      (he : s' = t.store) : Handled p t p' s' :=
    lose hs (tasks_of_worker gone hk hl hw hc) he
  cases h with
  | leave hk =>
      exact lose (unsettled (by simp))
        (tasks_close (q := p.setWorker k .stopped) hk rfl rfl rfl rfl) rfl
  | abandon hk hx hs =>
      exact lose (unsettled (by simp))
        (tasks_close (q := p.finish k .stopped) hk rfl rfl rfl rfl) rfl
  | conclude hk => exact same [] (unsettled (by simp)) hk rfl rfl (.refl _) rfl
  | @collapse x r? words hk =>
      exact lose (unsettled (by simp))
        (tasks_close (q := p.finish k (.crashed words)) hk rfl rfl rfl rfl) rfl
  | quit hk =>
      exact lose (resultless hk rfl)
        (tasks_close (q := p.setWorker k .stopped) hk rfl rfl rfl rfl) rfl
  | ready hk => exact same [] (resultless hk rfl) hk rfl rfl (.refl _) rfl
  | receive hk hc =>
      refine same [] (resultless hk rfl) hk rfl rfl ?_ rfl
      rw [hc]
      exact .refl _
  | hangUp hk => exact same [] (resultless hk rfl) hk rfl rfl (.refl _) rfl
  | begin hk => exact same [] (resultless hk rfl) hk rfl rfl (.refl _) rfl
  | @failWrite x r e hk hf =>
      exact same [x] (by simp [Moment.settled?, hf]) hk rfl rfl (.refl _) rfl
  | @write x r _ hk hf hw =>
      have hn : r.nameable t.context.now = true := by
        rw [← t.store.complete_accepted t.context.settings.keys x.id, hw]
      refine .settles hclaimed ?_ hn (congrArg Prod.snd hw).symm
        (tasks_of_worker [x] hk rfl rfl (.refl _))
      simp [Moment.settled?, Moment.written?, hmove, hk, hf, hn, WorkerPhase.result?]
  | @crash x r _ hk hf hw =>
      have hn : r.nameable t.context.now = false := by
        rw [← t.store.complete_accepted t.context.settings.keys x.id, hw]
      obtain rfl := (congrArg Prod.snd hw).symm
      refine .keeps _ hclaimed ?_ (tasks_close
        (q := p.finish k (.crashed Instant.overflowText)) hk rfl rfl rfl rfl) fun l id => ?_
      · simp [Moment.settled?, Moment.written?, hmove, hk, hn, WorkerPhase.result?]
      · refine (t.store.tenure (.complete t.context.settings.keys x.id r) l id
          t.context.now).kept (by simp) fun c hc => ?_
        injection hc with _ _ hc
        exact hc ▸ hn

/-- Every turn claims a task, settles one, or keeps all ids as they are. -/
theorem TurnStep.handled (h : TurnStep p t p' s' events) : Handled p t p' s' := by
  cases h with
  | loop hm h => exact h.handled hm
  | worker hm h => exact h.handled hm

/-- A turn of a pool that works on another queue keeps all ids of the queue `k`. -/
theorem Handled.kept {k : Keys} (h : Handled p t p' s') (hk : t.context.settings.keys ≠ k)
    (id : Id) : (t.store.entry k id).Kept (s'.entry k id) := by
  cases h with
  | keeps _ _ _ _ he => exact he k id
  | claims _ hd _ =>
      obtain rfl := congrArg Prod.snd hd
      refine (t.store.tenure (.dequeue t.context.settings.keys) k id
        t.context.now).kept ?_ (by simp)
      intro he
      injection he with he
      exact hk he
  | @settles x r _ _ hn hw _ =>
      subst hw
      refine (t.store.tenure (.complete t.context.settings.keys x.id r) k id
        t.context.now).kept (by simp) fun c he => ?_
      injection he with he
      exact absurd he hk

end Pool

end ReadThrough
