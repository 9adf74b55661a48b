import ReadThrough.Proofs.Pool.Steps
import ReadThrough.Proofs.Store.Markers

/-! # A pool that runs

While no stop signal is raised, no fault occurs and nothing crashes, a pool keeps going.

* **Permits** (`Pool.Balanced`).  Every worker's permit is free, with the loop, in the channel, or
  with a task in hand.  Every step keeps this.
* **Running** (`Pool.Running`).  Nobody has ended, the loop does not pause, and its wait is fresh.
  A step keeps a pool running or crashes it (`LoopStep.running`, `WorkerStep.running`), and a crash
  stays (`LoopStep.crashed`, `WorkerStep.crashed`).
* **Near** (`Pool.nears`, `LoopStep.covered`).  The markers, together with the loops that are about
  to claim, cover the queue.
* **Stuck** (`Running.stuck`).  If neither the loop nor a worker can go on, all workers compute, or
  no marker is left. -/

namespace ReadThrough

/-- What is counted at one place adds to what is counted elsewhere. -/
theorem exists_countP_set {α : Type} {l : List α} {a : α} {k : Nat} (f : α → Bool)
    (h : l[k]? = some a) :
    ∃ r, l.countP f = r + (if f a then 1 else 0) ∧
      ∀ b, (l.set k b).countP f = r + if f b then 1 else 0 := by
  obtain ⟨hl, rfl⟩ := List.getElem?_eq_some_iff.mp h
  have hle : (if f l[k] then 1 else 0) ≤ l.countP f := by
    split
    · rename_i hf
      exact List.countP_pos_iff.mpr ⟨_, List.getElem_mem hl, hf⟩
    · exact Nat.zero_le _
  refine ⟨l.countP f - if f l[k] then 1 else 0, by omega, fun b => ?_⟩
  rw [List.countP_set hl]

/-- A worker that broke off has ended. -/
theorem WorkerPhase.ended_of_isCrashed {w : WorkerPhase} (h : w.isCrashed = true) :
    w.ended = true := by
  cases w <;> first | rfl | cases h

/-- A failure lasts for some time. -/
def Completion.Lasts : Completion → Prop
  | .value _ => True
  | .failure _ ttl => 0 < ttl.nanos

namespace Pool

/-- The number of workers with a task in hand. -/
def busy (p : Pool) : Nat := p.workers.countP fun w => w.task?.isSome

/-- Every permit is free, with the loop, in the channel, or with a worker. -/
def Balanced (p : Pool) : Prop :=
  p.permits + (if p.loop.holds then 1 else 0) + p.channel.length + p.busy = p.workers.length

/-- The loop or a worker has crashed. -/
def Crashed (p : Pool) : Prop := p.loop = .crashed ∨ ∃ w ∈ p.workers, w.isCrashed = true

instance (p : Pool) : Decidable p.Crashed := inferInstanceAs (Decidable (_ ∨ _))

/-- Nobody has ended and everybody can rely on the store of the queue `k`. -/
structure Running (k : Keys) (p : Pool) (s : Store) : Prop where
  staffed : p.workers ≠ []
  balanced : p.Balanced
  loop : p.loop.ended = false
  unpaused : ∀ until?, p.loop ≠ .pausing until?
  workers : ∀ w ∈ p.workers, w.ended = false
  wait : ∀ w, p.loop = .waiting w → w.keys = k ∧ w.Fresh s
  lasting : ∀ t r, .writing t r ∈ p.workers → r.Lasts

variable {c : Context} {p p' : Pool} {s s' : Store} {events : List Event} {k : Nat} {q : Keys}

/-! ### Permits -/

/-- A worker that changes its phase changes the number of busy workers by itself. -/
theorem busy_set {w : WorkerPhase} (hk : p.workers[k]? = some w) (w' : WorkerPhase) :
    (p.workers.set k w').countP (fun w => w.task?.isSome) + (if w.task?.isSome then 1 else 0) =
      p.busy + if w'.task?.isSome then 1 else 0 := by
  obtain ⟨r, hb, hs⟩ := exists_countP_set (fun w : WorkerPhase => w.task?.isSome) hk
  unfold busy
  rw [hb, hs]
  omega

theorem start_balanced (n : Nat) : (start n).Balanced := by
  have hb : (start n).busy = 0 := by
    unfold busy start
    rw [List.countP_replicate]
    simp [WorkerPhase.task?]
  unfold Balanced
  rw [hb]
  simp [start, LoopPhase.holds]

theorem LoopStep.balanced {m : LoopMove} (h : LoopStep c p s m p' s' events) (hb : p.Balanced) :
    p'.Balanced := by
  unfold Balanced at *
  have holds {phase : LoopPhase} (hl : p.loop = phase) : p.loop.holds = phase.holds := by rw [hl]
  cases h with
  | stop hs hl => simpa [endLoop, LoopPhase.holds, busy] using hb
  | acquire hl hp =>
      rw [holds hl] at hb
      simp only [LoopPhase.holds, Bool.false_eq_true, if_false, if_true, busy] at hb ⊢
      omega
  | skip hl hm => rwa [holds hl] at hb
  | failWait hl hm hf => rwa [holds hl] at hb
  | startWait hl hm hf hw => rwa [holds hl] at hb
  | crash hl hm hf hw => simpa [endLoop, LoopPhase.holds, busy] using hb
  | wait hl hw => rwa [holds hl] at hb
  | waited hl hw => rwa [holds hl] at hb
  | resume hl ht => rwa [holds hl] at hb
  | quit hl hs => simpa [endLoop, LoopPhase.holds, busy] using hb
  | proceed hl hs => rwa [holds hl] at hb
  | failClaim hl hf => rwa [holds hl] at hb
  | claimNothing hl hf hd => rwa [holds hl] at hb
  | claim hl hf hd => rwa [holds hl] at hb
  | strand hl he => simpa [endLoop, LoopPhase.holds, busy] using hb
  | send hl he hc =>
      rw [holds hl] at hb
      simp only [LoopPhase.holds, Bool.false_eq_true, if_false, if_true, busy,
        List.length_append, List.length_singleton] at hb ⊢
      omega

/-- A worker that takes up or puts down no task, and the permits, keep the balance. -/
theorem Balanced.set {w w' : WorkerPhase} (hb : p.Balanced) (hk : p.workers[k]? = some w)
    (hl : p'.loop = p.loop) (hw : p'.workers = p.workers.set k w')
    (hp : p'.permits + p'.channel.length + (if w'.task?.isSome then 1 else 0) =
      p.permits + p.channel.length + if w.task?.isSome then 1 else 0) : p'.Balanced := by
  have hbusy := busy_set hk w'
  unfold Balanced at *
  rw [hl, hw, List.length_set]
  have hb' : p'.busy = (p.workers.set k w').countP fun w => w.task?.isSome := by
    unfold busy
    rw [hw]
  rw [hb']
  omega

/-- A worker that is done with its task gives its permit back. -/
theorem Balanced.finish {w w' : WorkerPhase} {t : Claim} (hb : p.Balanced)
    (hk : p.workers[k]? = some w) (ht : w.task? = some t) (hn : w'.task? = none) :
    (p.finish k w').Balanced := by
  refine hb.set hk rfl rfl ?_
  rw [ht, hn]
  show p.permits + 1 + p.channel.length + 0 = p.permits + p.channel.length + 1
  omega

/-- The permits of the tasks that go with the channel are free. -/
theorem Balanced.close (hb : p.Balanced) : p.close.Balanced := by
  have hc := congrArg List.length p.dropped_append_channel
  rw [List.length_append] at hc
  unfold Balanced at *
  show p.permits + p.dropped.length + (if p.loop.holds then 1 else 0) + p.close.channel.length +
    p.busy = p.workers.length
  omega

theorem WorkerStep.balanced {m : WorkerMove} (h : WorkerStep c p s k m p' s' events)
    (hb : p.Balanced) : p'.Balanced := by
  cases h with
  | leave hk hs => exact .close (p := p.setWorker k .stopped) (hb.set hk rfl rfl rfl)
  | abandon hk ht hs => exact (hb.finish hk ht rfl).close
  | quit hk hs => exact .close (p := p.setWorker k .stopped) (hb.set hk rfl rfl rfl)
  | ready hk hs => exact hb.set hk rfl rfl rfl
  | receive hk hc =>
      refine hb.set hk rfl rfl ?_
      simp only [setWorker, hc, WorkerPhase.task?, Option.isSome_some, Option.isSome_none,
        Bool.false_eq_true, if_false, if_true, List.length_cons]
      omega
  | hangUp hk hc hl => exact hb.set hk rfl rfl rfl
  | begin hk => exact hb.set hk rfl rfl rfl
  | conclude hk => exact hb.set hk rfl rfl rfl
  | collapse hk => exact (hb.finish hk rfl rfl).close
  | failWrite hk hf => exact hb.finish hk rfl rfl
  | write hk hf hw => exact hb.finish hk rfl rfl
  | crash hk hf hw => exact (hb.finish hk rfl rfl).close

/-! ### Crashes -/

theorem WorkerStep.loop_eq {m : WorkerMove} (h : WorkerStep c p s k m p' s' events) :
    p'.loop = p.loop := by
  cases h <;> rfl

/-- Whoever takes a step has not crashed, and nobody else recovers. -/
theorem LoopStep.crashed {m : LoopMove} (h : LoopStep c p s m p' s' events) (hc : p.Crashed) :
    p'.Crashed := by
  rcases hc with hc | hc
  · cases h with
    | stop hs hl => simp [loopListens, hc] at hl
    | acquire hl => simp [hc] at hl
    | skip hl => simp [hc] at hl
    | failWait hl => simp [hc] at hl
    | startWait hl => simp [hc] at hl
    | crash hl => simp [hc] at hl
    | wait hl => simp [hc] at hl
    | waited hl => simp [hc] at hl
    | resume hl => simp [hc] at hl
    | quit hl => simp [hc] at hl
    | proceed hl => simp [hc] at hl
    | failClaim hl => simp [hc] at hl
    | claimNothing hl => simp [hc] at hl
    | claim hl => simp [hc] at hl
    | strand hl => simp [hc] at hl
    | send hl => simp [hc] at hl
  · right
    cases h <;> exact hc

theorem WorkerStep.crashed {m : WorkerMove} (h : WorkerStep c p s k m p' s' events)
    (hc : p.Crashed) : p'.Crashed := by
  rcases hc with hc | ⟨v, hv, hc⟩
  · exact Or.inl (h.loop_eq.trans hc)
  · right
    obtain ⟨w, w', hk, he, hw⟩ := h.going
    obtain ⟨i, hi⟩ := List.mem_iff_getElem?.mp hv
    have hne : k ≠ i := by
      rintro rfl
      obtain rfl := Option.some.inj (hi.symm.trans hk)
      rw [WorkerPhase.ended_of_isCrashed hc] at he
      cases he
    refine ⟨v, List.mem_iff_getElem?.mpr ⟨i, ?_⟩, hc⟩
    rw [hw, List.getElem?_set_ne hne]
    exact hi

/-! ### Running -/

/-- A running pool can rely on what others do to the store. -/
theorem Running.apply (h : p.Running q s) (op : Store.Op) (now : Instant) :
    p.Running q (op.apply s now) where
  staffed := h.staffed
  balanced := h.balanced
  loop := h.loop
  unpaused := h.unpaused
  workers := h.workers
  wait w hw := by
    obtain ⟨hq, hf⟩ := h.wait w hw
    exact ⟨hq, hf.apply now⟩
  lasting := h.lasting

theorem start_running {n : Nat} (hn : n ≠ 0) (q : Keys) (s : Store) : (start n).Running q s where
  staffed := by simpa [start] using hn
  balanced := start_balanced n
  loop := rfl
  unpaused := nofun
  workers w hw := by
    obtain rfl := List.eq_of_mem_replicate hw
    rfl
  wait := nofun
  lasting t r hw := nomatch List.eq_of_mem_replicate hw

/-- The loop goes on, and nothing else changes. -/
theorem Running.setLoop (h : p.Running q s) (hb : p'.Balanced) (hw : p'.workers = p.workers)
    (hl : p'.loop.ended = false) (hu : ∀ until?, p'.loop ≠ .pausing until?)
    (hwait : ∀ w, p'.loop = .waiting w → w.keys = q ∧ w.Fresh s') : p'.Running q s' where
  staffed := hw ▸ h.staffed
  balanced := hb
  loop := hl
  unpaused := hu
  workers := hw ▸ h.workers
  wait := hwait
  lasting := hw ▸ h.lasting

/-- Without a stop signal and a fault, a step of the loop keeps the pool running or crashes it. -/
theorem LoopStep.running {m : LoopMove} (h : LoopStep c p s m p' s' events)
    (hs : c.stopping = false) (hf : c.fault = none) (hq : c.settings.keys = q)
    (hr : p.Running q s) : p'.Crashed ∨ p'.Running q s' := by
  have hb := h.balanced hr.balanced
  -- most phases are neither an end nor a pause nor a wait
  have on (hw : p'.workers = p.workers) (hl : p'.loop.ended = false)
      (hu : ∀ until?, p'.loop ≠ .pausing until?) (hn : ∀ w, p'.loop ≠ .waiting w) :
      p'.Crashed ∨ p'.Running q s' :=
    Or.inr (hr.setLoop hb hw hl hu fun w he => absurd he (hn w))
  cases h with
  | stop hs' hl =>
      rw [hs] at hs'
      cases hs'
  | acquire hl hp => exact on rfl rfl nofun nofun
  | skip hl hm => exact on rfl rfl nofun nofun
  | failWait hl hm hf' =>
      rw [hf] at hf'
      cases hf'
  | startWait hl hm hf' hw =>
      refine Or.inr (hr.setLoop hb rfl rfl nofun fun w he => ?_)
      injection he with he
      obtain ⟨d, -, hd⟩ := Option.map_eq_some_iff.mp hw
      subst he hd
      exact ⟨hq, trivial⟩
  | crash hl hm hf' hw => exact Or.inl (Or.inl rfl)
  | @wait w w' s' hl hw =>
      refine Or.inr (hr.setLoop hb rfl rfl nofun fun v he => ?_)
      injection he with he
      subst he
      obtain ⟨hk, hfresh⟩ := hr.wait w hl
      obtain ⟨rfl, hk', hfresh'⟩ := hfresh.step hw
      exact ⟨hk'.trans hk, hfresh'⟩
  | waited hl hw => exact on rfl rfl nofun nofun
  | resume hl ht => exact absurd hl (hr.unpaused _)
  | quit hl hs' =>
      rw [hs] at hs'
      cases hs'
  | proceed hl hs' => exact on rfl rfl nofun nofun
  | failClaim hl hf' =>
      rw [hf] at hf'
      cases hf'
  | claimNothing hl hf' hd => exact on rfl rfl nofun nofun
  | claim hl hf' hd => exact on rfl rfl nofun nofun
  | strand hl he =>
      -- somebody has not ended
      obtain ⟨w, hw⟩ := List.exists_mem_of_ne_nil _ hr.staffed
      have hw' := List.all_eq_true.mp he w hw
      rw [hr.workers w hw] at hw'
      cases hw'
  | send hl he hc => exact on rfl rfl nofun nofun

/-- A worker goes on, and nothing else changes. -/
theorem Running.setWorker {w' : WorkerPhase} (h : p.Running q s) (hb : p'.Balanced)
    (hl : p'.loop = p.loop) (hw : p'.workers = p.workers.set k w') (he : w'.ended = false)
    (hlast : ∀ t r, w' = .writing t r → r.Lasts) : p'.Running q s := by
  constructor
  · rw [hw]
    intro hn
    have hlen := congrArg List.length hn
    rw [List.length_set] at hlen
    exact h.staffed (List.length_eq_zero_iff.mp hlen)
  · exact hb
  · rw [hl]
    exact h.loop
  · rw [hl]
    exact h.unpaused
  · intro w hm
    rw [hw] at hm
    rcases List.mem_or_eq_of_mem_set hm with hm | rfl
    · exact h.workers w hm
    · exact he
  · rw [hl]
    exact h.wait
  · intro t r hm
    rw [hw] at hm
    rcases List.mem_or_eq_of_mem_set hm with hm | hm
    · exact h.lasting t r hm
    · exact hlast t r hm.symm

theorem lasts_completion (r : Computed) {ttl : Duration} (h : 0 < ttl.nanos) :
    (r.completion ttl).Lasts := by
  unfold Computed.completion
  split
  · trivial
  · exact h

/-- Without a stop signal and a fault, a step of a worker keeps the pool running or crashes it. -/
theorem WorkerStep.running {m : WorkerMove} (h : WorkerStep c p s k m p' s' events)
    (hs : c.stopping = false) (hf : c.fault = none) (hlast : 0 < c.settings.errorTtl.nanos)
    (hr : p.Running q s) : p'.Crashed ∨ p'.Running q s' := by
  have hb := h.balanced hr.balanced
  have signal (hs' : c.stopping = true) : p'.Crashed ∨ p'.Running q s' := by
    rw [hs] at hs'
    cases hs'
  cases h with
  | leave hk hs' => exact signal hs'
  | abandon hk ht hs' => exact signal hs'
  | quit hk hs' => exact signal hs'
  | ready hk hs' => exact Or.inr (hr.setWorker hb rfl rfl rfl nofun)
  | receive hk hc => exact Or.inr (hr.setWorker hb rfl rfl rfl nofun)
  | hangUp hk hc hl =>
      rw [hr.loop] at hl
      cases hl
  | begin hk => exact Or.inr (hr.setWorker hb rfl rfl rfl nofun)
  | @conclude t r hk =>
      refine Or.inr (hr.setWorker hb rfl rfl rfl fun t' r' he => ?_)
      injection he with _ he
      exact he ▸ lasts_completion r hlast
  | failWrite hk hf' =>
      rw [hf] at hf'
      cases hf'
  | @write t r s' hk hf' hw =>
      right
      obtain rfl : s' = (Store.Op.complete c.settings.keys t.id r).apply s c.now :=
        (congrArg Prod.snd hw).symm
      exact (hr.apply _ c.now).setWorker hb rfl rfl rfl nofun
  | collapse hk =>
      exact Or.inl (Or.inr ⟨_, List.mem_set (List.getElem?_eq_some_iff.mp hk).1 _, rfl⟩)
  | crash hk hf' hw =>
      exact Or.inl (Or.inr ⟨_, List.mem_set (List.getElem?_eq_some_iff.mp hk).1 _, rfl⟩)

/-! ### Loops that are about to claim -/

/-- Whether a loop is about to claim. -/
def nears (p : Pool) : Bool := p.loop = .checking || p.loop = .claiming

/-- Without a stop signal, a loop that is about to claim stays so until it does. -/
theorem LoopStep.stays_near {m : LoopMove} (h : LoopStep c p s m p' s' events)
    (hs : c.stopping = false) (hn : p.nears = true) (hm : m = .advance → p.loop ≠ .claiming) :
    p'.nears = true := by
  cases h with
  | proceed => rfl
  | _ => simp_all [Pool.nears]

/-- Markers and loops that are about to claim cover the queue after a step of a loop. -/
theorem LoopStep.covered {m : LoopMove} (h : LoopStep c p s m p' s' events)
    (hs : c.stopping = false) (hf : c.fault = none) (hq : c.settings.keys = q)
    (hr : p.Running q s) {r : Nat} (hc : s.Covered q (r + if p.nears then 1 else 0)) :
    s'.Covered q (r + if p'.nears then 1 else 0) := by
  unfold Store.Covered nears at *
  -- a loop that stays away from claiming, or comes near, keeps the cover
  have keep (hn : (p.loop = .checking || p.loop = .claiming) = false)
      (hl : s'.ledger q = s.ledger q) : (s'.ledger q).1 ≤ (s'.ledger q).2.1 +
        (r + if p'.loop = .checking || p'.loop = .claiming then 1 else 0) := by
    rw [hn] at hc
    rw [hl]
    simp only [Bool.false_eq_true, if_false] at hc
    omega
  cases h with
  | stop hs' hl =>
      rw [hs] at hs'
      cases hs'
  | acquire hl hp => exact keep (by simp [hl]) rfl
  | skip hl hm => exact keep (by simp [hl]) rfl
  | failWait hl hm hf' => exact keep (by simp [hl]) rfl
  | startWait hl hm hf' hw => exact keep (by simp [hl]) rfl
  | crash hl hm hf' hw => exact keep (by simp [hl]) rfl
  | wait hl hw =>
      obtain ⟨rfl, -, -⟩ := (hr.wait _ hl).2.step hw
      exact keep (by simp [hl]) rfl
  | waited hl hw =>
      rcases Wait.step_cases hw with ⟨v, he, -⟩ | ⟨-, ht⟩ | ⟨-, rfl, -⟩
      · cases he
      · -- the marker that was taken is the loop that comes near
        rw [(hr.wait _ hl).1] at ht
        have he := Store.ledger_takeMarker ht
        rw [he, hl] at hc
        simp at hc ⊢
        omega
      · exact keep (by simp [hl]) rfl
  | resume hl ht => exact keep (by simp [hl]) rfl
  | quit hl hs' =>
      rw [hs] at hs'
      cases hs'
  | proceed hl hs' => simpa [hl] using hc
  | failClaim hl hf' =>
      rw [hf] at hf'
      cases hf'
  | claimNothing hl hf' hd =>
      rw [hq] at hd
      obtain ⟨rfl, hz⟩ := Store.dequeue_none hd
      have hempty : (s'.ledger q).1 = 0 := hz
      rw [hempty]
      exact Nat.zero_le _
  | claim hl hf' hd =>
      rw [hq] at hd
      rw [Store.ledger_dequeue hd, hl] at hc
      simp at hc ⊢
      omega
  | strand hl he => exact keep (by simp [hl]) rfl
  | send hl he hc' => exact keep (by simp [hl]) rfl

/-! ### Stuck pools -/

/-- A running loop is stuck only if it has no permit, its wait is stuck, or the channel is full. -/
theorem Running.loop_of_stuck (hr : p.Running q s) (hf : c.fault = none)
    (h : p.advanceLoop? c s = none) :
    p.loop = .acquiring ∧ p.permits = 0 ∨
      (∃ w, p.loop = .waiting w ∧ w.step? s c.now = none) ∨
      ∃ t, p.loop = .sending t ∧ p.capacity ≤ p.channel.length := by
  unfold advanceLoop? at h
  cases hl : p.loop with
  | acquiring =>
      rw [hl] at h
      by_cases hp : p.permits = 0
      · exact Or.inl ⟨rfl, hp⟩
      · simp [hp] at h
  | holding =>
      rw [hl, hf] at h
      dsimp only at h
      split at h
      · cases h
      · split at h <;> cases h
  | waiting w =>
      rw [hl] at h
      exact Or.inr (Or.inl ⟨w, rfl, Option.map_eq_none_iff.mp h⟩)
  | pausing until? => exact absurd hl (hr.unpaused until?)
  | checking =>
      rw [hl] at h
      dsimp only at h
      split at h <;> cases h
  | claiming =>
      rw [hl] at h
      cases h
  | sending t =>
      rw [hl] at h
      dsimp only at h
      split at h
      · cases h
      · split at h
        · cases h
        · rename_i hc
          exact Or.inr (Or.inr ⟨t, rfl, Nat.le_of_not_lt hc⟩)
  | stopped =>
      have he := hr.loop
      rw [hl] at he
      cases he
  | crashed =>
      have he := hr.loop
      rw [hl] at he
      cases he

/-- A running worker is stuck only if it computes or finds no task. -/
theorem Running.worker_of_stuck (hr : p.Running q s) (hs : c.stopping = false)
    (hf : c.fault = none) {w : WorkerPhase} (hk : p.workers[k]? = some w)
    (h : p.stepWorker? c s k .advance = none) :
    w = .receiving ∧ p.channel = [] ∨ ∃ t, w = .computing t := by
  have he := hr.workers w (List.mem_of_getElem? hk)
  unfold stepWorker? at h
  rw [hk] at h
  simp only [Option.bind_eq_bind, Option.bind_some] at h
  cases w with
  | starting => simp [hs] at h
  | receiving =>
      left
      refine ⟨rfl, ?_⟩
      cases hc : p.channel with
      | nil => rfl
      | cons t rest => simp [hc] at h
  | handed t => cases h
  | computing t => exact Or.inr ⟨t, rfl⟩
  | writing t r =>
      simp only [hf] at h
      split at h <;> cases h
  | stopped => cases he
  | crashed words => cases he

/-- **A stuck pool.**  If neither the loop nor a worker of a running pool can go on, nothing is on
its way, and either all workers compute or there is no marker left. -/
theorem Running.stuck (hr : p.Running q s) (hs : c.stopping = false) (hf : c.fault = none)
    (hloop : p.advanceLoop? c s = none)
    (hworkers : ∀ k, p.stepWorker? c s k .advance = none) :
    (∀ t, p.loop ≠ .sending t) ∧ p.channel = [] ∧
      (∀ w ∈ p.workers, w = .receiving ∨ ∃ t, w = .computing t) ∧
      ((∀ w ∈ p.workers, ∃ t, w = .computing t) ∨ (s.queue q).markers = 0) := by
  have hw : ∀ w ∈ p.workers, w = .receiving ∧ p.channel = [] ∨ ∃ t, w = .computing t := by
    intro w hm
    obtain ⟨k, hk⟩ := List.mem_iff_getElem?.mp hm
    exact hr.worker_of_stuck hs hf hk (hworkers k)
  have hbal := hr.balanced
  unfold Balanced at hbal
  -- a task in the channel would find all workers computing, and they hold all permits
  have hchannel : p.channel = [] := by
    by_cases hc : p.channel = []
    · exact hc
    · have hall : p.busy = p.workers.length := by
        refine List.countP_eq_length.mpr fun w hm => ?_
        rcases hw w hm with ⟨-, hn⟩ | ⟨t, rfl⟩
        · exact absurd hn hc
        · rfl
      rw [hall] at hbal
      exact List.length_eq_zero_iff.mp (by omega)
  have hnone : p.channel.length = 0 := by rw [hchannel]; rfl
  have hphases : ∀ w ∈ p.workers, w = .receiving ∨ ∃ t, w = .computing t :=
    fun w hm => (hw w hm).imp_left And.left
  rcases hr.loop_of_stuck hf hloop with ⟨hl, hp⟩ | ⟨w, hl, hstuck⟩ | ⟨t, hl, hcap⟩
  · refine ⟨fun t ht => (nomatch hl.symm.trans ht), hchannel, hphases, Or.inl fun w hm => ?_⟩
    -- all permits are with the workers
    have hall : p.busy = p.workers.length := by
      rw [hl, hp, hnone] at hbal
      simpa [LoopPhase.holds] using hbal
    have hbusy := List.countP_eq_length.mp hall w hm
    rcases hphases w hm with rfl | ht
    · cases hbusy
    · exact ht
  · refine ⟨fun t ht => (nomatch hl.symm.trans ht), hchannel, hphases, Or.inr ?_⟩
    obtain ⟨hk, hfresh⟩ := hr.wait w hl
    exact hk ▸ (hfresh.blocked hstuck).1
  · have hcapacity : 1 ≤ p.capacity := Nat.le_max_right _ _
    omega

end Pool

end ReadThrough
