import ReadThrough.Pool

/-! # The steps of a pool, one by one

Everything that the dequeue loop and a worker can do, as the rules of two relations.

* **The loop** (`Pool.LoopStep`, `loopStep_of`).  One rule for each way in which a phase of the loop
  can go on.
* **Workers** (`Pool.WorkerStep`, `workerStep_of`).  Likewise for the worker at one place.  A worker
  that has a task begins it (`WorkerStep.of_handed`), and one that has a result writes it
  (`WorkerStep.of_writing`).
* **The channel** (`dropped_append_channel`).  What it loses when a worker ends is what the pool
  drops.

What a pool keeps in every run is proved by a case for each rule; the functions behind them are
opened here only. -/

namespace ReadThrough

namespace Pool

/-- `LoopStep c p s m p' s' events`: the move `m` of the loop leads from the pool `p` and the store
`s` to `p'` and `s'` and reports `events`. -/
inductive LoopStep (c : Context) (p : Pool) (s : Store) :
    LoopMove → Pool → Store → List Event → Prop
  | stop (hs : c.stopping = true) (hl : p.loopListens = true) :
      LoopStep c p s .stop (p.endLoop .stopped) s [.loopStopped c.queue]
  | acquire (hl : p.loop = .acquiring) (hp : 0 < p.permits) :
      LoopStep c p s .advance { p with permits := p.permits - 1, loop := .holding } s []
  | skip (hl : p.loop = .holding) (hm : p.hasMore = true) :
      LoopStep c p s .advance { p with loop := .checking } s []
  | failWait {e : Error} (hl : p.loop = .holding) (hm : p.hasMore = false)
      (hf : c.fault = some e) :
      LoopStep c p s .advance
        { p with loop := .pausing (c.now.deadline c.settings.pollTimeout) } s
        [.waitFailed c.queue e]
  | startWait {w : Wait} (hl : p.loop = .holding) (hm : p.hasMore = false) (hf : c.fault = none)
      (hw : Wait.start? c.settings.keys c.settings.pollTimeout c.now = some w) :
      LoopStep c p s .advance { p with loop := .waiting w } s []
  | crash (hl : p.loop = .holding) (hm : p.hasMore = false) (hf : c.fault = none)
      (hw : Wait.start? c.settings.keys c.settings.pollTimeout c.now = none) :
      LoopStep c p s .advance (p.endLoop .crashed) s []
  | wait {w w' : Wait} {s' : Store} (hl : p.loop = .waiting w)
      (hw : w.step? s c.now = some (.waiting w', s')) :
      LoopStep c p s .advance { p with loop := .waiting w' } s' []
  | waited {w : Wait} {work : Bool} {s' : Store} (hl : p.loop = .waiting w)
      (hw : w.step? s c.now = some (.finished work, s')) :
      LoopStep c p s .advance { p with loop := .checking } s' []
  | resume {t : Instant} (hl : p.loop = .pausing (some t)) (ht : t ≤ c.now) :
      LoopStep c p s .advance { p with loop := .holding } s []
  | quit (hl : p.loop = .checking) (hs : c.stopping = true) :
      LoopStep c p s .advance (p.endLoop .stopped) s [.loopStopped c.queue]
  | proceed (hl : p.loop = .checking) (hs : c.stopping = false) :
      LoopStep c p s .advance { p with loop := .claiming } s []
  | failClaim {e : Error} (hl : p.loop = .claiming) (hf : c.fault = some e) :
      LoopStep c p s .advance { p with loop := .holding, hasMore := false } s
        [.dequeueFailed c.queue e]
  | claimNothing {s' : Store} (hl : p.loop = .claiming) (hf : c.fault = none)
      (hd : s.dequeue c.settings.keys = (none, s')) :
      LoopStep c p s .advance { p with loop := .holding, hasMore := false } s'
        [.dequeuedNothing c.queue]
  | claim {t : Claim} {s' : Store} (hl : p.loop = .claiming) (hf : c.fault = none)
      (hd : s.dequeue c.settings.keys = (some t, s')) :
      LoopStep c p s .advance { p with loop := .sending t, hasMore := 0 < t.remaining } s'
        [.dequeued c.queue t]
  | strand {t : Claim} (hl : p.loop = .sending t) (he : p.workers.all WorkerPhase.ended = true) :
      LoopStep c p s .advance (p.endLoop .stopped) s
        [.workersGone c.queue t.id, .loopStopped c.queue]
  | send {t : Claim} (hl : p.loop = .sending t) (he : p.workers.all WorkerPhase.ended = false)
      (hc : p.channel.length < p.capacity) :
      LoopStep c p s .advance { p with loop := .acquiring, channel := p.channel ++ [t] } s []

theorem loopStep_of {c : Context} {p p' : Pool} {s s' : Store} {m : LoopMove}
    {events : List Event} (h : p.stepLoop? c s m = some (p', s', events)) :
    LoopStep c p s m p' s' events := by
  cases m with
  | stop =>
      simp only [stepLoop?, Option.ite_none_right_eq_some, Option.some.injEq, Prod.mk.injEq] at h
      obtain ⟨⟨hs, hl⟩, rfl, rfl, rfl⟩ := h
      exact .stop hs hl
  | advance =>
      simp only [stepLoop?, advanceLoop?] at h
      split at h
      case h_1 hl =>
        simp only [Option.ite_none_left_eq_some, Option.some.injEq, Prod.mk.injEq] at h
        obtain ⟨hp, rfl, rfl, rfl⟩ := h
        exact .acquire hl (Nat.pos_of_ne_zero hp)
      case h_2 hl =>
        split at h
        · rename_i hm
          obtain ⟨rfl, rfl, rfl⟩ := by simpa using h
          exact .skip hl hm
        · rename_i hm
          have hm' : p.hasMore = false := Bool.eq_false_iff.mpr hm
          split at h
          · rename_i e hf
            obtain ⟨rfl, rfl, rfl⟩ := by simpa [afterFailedWait] using h
            exact .failWait hl hm' hf
          · rename_i hf
            split at h
            · rename_i w hw
              obtain ⟨rfl, rfl, rfl⟩ := by simpa using h
              exact .startWait hl hm' hf hw
            · rename_i hw
              obtain ⟨rfl, rfl, rfl⟩ := by simpa using h
              exact .crash hl hm' hf hw
      case h_3 w hl =>
        obtain ⟨⟨progress, t⟩, hw, he⟩ := Option.map_eq_some_iff.mp h
        cases progress with
        | waiting w' =>
            obtain ⟨rfl, rfl, rfl⟩ := by simpa using he
            exact .wait hl hw
        | finished work =>
            obtain ⟨rfl, rfl, rfl⟩ := by simpa using he
            exact .waited hl hw
      case h_4 until? hl =>
        split at h
        · simp only [Option.ite_none_right_eq_some, Option.some.injEq, Prod.mk.injEq] at h
          obtain ⟨ht, rfl, rfl, rfl⟩ := h
          exact .resume hl ht
        · cases h
      case h_5 hl =>
        split at h
        · rename_i hs
          obtain ⟨rfl, rfl, rfl⟩ := by simpa using h
          exact .quit hl hs
        · rename_i hs
          obtain ⟨rfl, rfl, rfl⟩ := by simpa using h
          exact .proceed hl (Bool.eq_false_iff.mpr hs)
      case h_6 hl =>
        unfold Store.attempt at h
        cases hf : c.fault with
        | some e =>
            obtain ⟨rfl, rfl, rfl⟩ := by simpa [hf, afterClaim] using h
            exact .failClaim hl hf
        | none =>
            cases hd : s.dequeue c.settings.keys with
            | mk answer t =>
                cases answer with
                | none =>
                    obtain ⟨rfl, rfl, rfl⟩ := by simpa [hf, hd, afterClaim] using h
                    exact .claimNothing hl hf hd
                | some task =>
                    obtain ⟨rfl, rfl, rfl⟩ := by simpa [hf, hd, afterClaim] using h
                    exact .claim hl hf hd
      case h_7 task hl =>
        split at h
        · rename_i he
          obtain ⟨rfl, rfl, rfl⟩ := by simpa using h
          exact .strand hl he
        · rename_i he
          simp only [Option.ite_none_right_eq_some, Option.some.injEq, Prod.mk.injEq] at h
          obtain ⟨hc, rfl, rfl, rfl⟩ := h
          exact .send hl (Bool.eq_false_iff.mpr he) hc
      case h_8 => cases h
      case h_9 => cases h

/-- Every rule of the loop is a step of it. -/
theorem LoopStep.stepLoop? {c : Context} {p p' : Pool} {s s' : Store} {m : LoopMove}
    {events : List Event} (h : LoopStep c p s m p' s' events) :
    p.stepLoop? c s m = some (p', s', events) := by
  cases h <;>
    simp [Pool.stepLoop?, advanceLoop?, afterFailedWait, Store.attempt, afterClaim, *]
  all_goals omega

/-- A wait of the loop goes on, or it is over and the loop is about to claim. -/
theorem LoopStep.of_waiting {c : Context} {p p' : Pool} {s s' : Store} {events : List Event}
    {w : Wait} (h : LoopStep c p s .advance p' s' events) (hl : p.loop = .waiting w) :
    ∃ progress, w.step? s c.now = some (progress, s') ∧
      p'.loop = match progress with
        | .waiting w' => .waiting w'
        | .finished _ => .checking := by
  cases h with
  | wait hl' hw =>
      obtain rfl := LoopPhase.waiting.inj (hl.symm.trans hl')
      exact ⟨_, hw, rfl⟩
  | waited hl' hw =>
      obtain rfl := LoopPhase.waiting.inj (hl.symm.trans hl')
      exact ⟨_, hw, rfl⟩
  | _ => simp_all

/-- A claim that does not fail is answered by the store. -/
theorem LoopStep.of_claiming {c : Context} {p p' : Pool} {s s' : Store} {events : List Event}
    (h : LoopStep c p s .advance p' s' events) (hl : p.loop = .claiming) (hf : c.fault = none) :
    ∃ answer, s.dequeue c.settings.keys = (answer, s') := by
  cases h with
  | claimNothing _ _ hd => exact ⟨_, hd⟩
  | claim _ _ hd => exact ⟨_, hd⟩
  | _ => simp_all

/-- Whether the computation takes the worker down. -/
def WorkerMove.collapses : WorkerMove → Bool
  | collapse _ _ => true
  | _ => false

/-- The channel of a pool, as what it drops when a worker has ended and what stays. -/
theorem dropped_append_channel (p : Pool) : p.dropped ++ p.close.channel = p.channel := by
  unfold close dropped
  split <;> simp

/-- `WorkerStep c p s k m p' s' events`: the move `m` of worker `k` leads from the pool `p` and the
store `s` to `p'` and `s'` and reports `events`. -/
inductive WorkerStep (c : Context) (p : Pool) (s : Store) (k : Nat) :
    WorkerMove → Pool → Store → List Event → Prop
  | leave (hk : p.workers[k]? = some .receiving) (hs : c.stopping = true) :
      WorkerStep c p s k .stop (p.setWorker k .stopped).close s [.workerStopped c.queue k]
  | abandon {phase : WorkerPhase} {t : Claim} (hk : p.workers[k]? = some phase)
      (ht : phase.task? = some t) (hs : c.stopping = true) :
      WorkerStep c p s k .stop (p.finish k .stopped).close s
        [.abandoned k t.id, .workerStopped c.queue k]
  | quit (hk : p.workers[k]? = some .starting) (hs : c.stopping = true) :
      WorkerStep c p s k .advance (p.setWorker k .stopped).close s [.workerStopped c.queue k]
  | ready (hk : p.workers[k]? = some .starting) (hs : c.stopping = false) :
      WorkerStep c p s k .advance (p.setWorker k .receiving) s []
  | receive {t : Claim} {rest : List Claim} (hk : p.workers[k]? = some .receiving)
      (hc : p.channel = t :: rest) :
      WorkerStep c p s k .advance { (p.setWorker k (.handed t)) with channel := rest } s []
  | hangUp (hk : p.workers[k]? = some .receiving) (hc : p.channel = [])
      (hl : p.loop.ended = true) :
      WorkerStep c p s k .advance (p.setWorker k .stopped) s [.workerStopped c.queue k]
  | begin {t : Claim} (hk : p.workers[k]? = some (.handed t)) :
      WorkerStep c p s k .advance (p.setWorker k (.computing t)) s
        [.taskStarted c.queue t.id t.priority]
  | conclude {t : Claim} {r : Computed} (hk : p.workers[k]? = some (.computing t)) :
      WorkerStep c p s k (.computed r)
        (p.setWorker k (.writing t (r.completion c.settings.errorTtl))) s
        (failureEvents c t.id r ++
          [.taskFinished c.queue (r.completion c.settings.errorTtl).outcome])
  | collapse {t : Claim} {r? : Option Computed} {words : Option String}
      (hk : p.workers[k]? = some (.computing t)) :
      WorkerStep c p s k (.collapse r? words) (p.finish k (.crashed words)).close s
        (collapseEvents c t.id r?)
  | failWrite {t : Claim} {completion : Completion} {e : Error}
      (hk : p.workers[k]? = some (.writing t completion)) (hf : c.fault = some e) :
      WorkerStep c p s k .advance (p.finish k .starting) s [.writeFailed c.queue t.id e]
  | write {t : Claim} {completion : Completion} {s' : Store}
      (hk : p.workers[k]? = some (.writing t completion)) (hf : c.fault = none)
      (hw : s.complete c.settings.keys t.id completion c.now = (true, s')) :
      WorkerStep c p s k .advance (p.finish k .starting) s'
        [.completed c.queue completion.outcome]
  | crash {t : Claim} {completion : Completion} {s' : Store}
      (hk : p.workers[k]? = some (.writing t completion)) (hf : c.fault = none)
      (hw : s.complete c.settings.keys t.id completion c.now = (false, s')) :
      WorkerStep c p s k .advance (p.finish k (.crashed Instant.overflowText)).close s' []

theorem workerStep_of {c : Context} {p p' : Pool} {s s' : Store} {k : Nat} {m : WorkerMove}
    {events : List Event} (h : p.stepWorker? c s k m = some (p', s', events)) :
    WorkerStep c p s k m p' s' events := by
  unfold stepWorker? at h
  obtain ⟨phase, hk, h⟩ := Option.bind_eq_some_iff.mp h
  cases m with
  | stop =>
      simp only [Option.ite_none_right_eq_some] at h
      obtain ⟨hs, h⟩ := h
      cases phase with
      | receiving =>
          obtain ⟨rfl, rfl, rfl⟩ := by simpa using h
          exact .leave hk hs
      | handed t =>
          obtain ⟨rfl, rfl, rfl⟩ := by simpa [WorkerPhase.task?] using h
          exact .abandon hk rfl hs
      | computing t =>
          obtain ⟨rfl, rfl, rfl⟩ := by simpa [WorkerPhase.task?] using h
          exact .abandon hk rfl hs
      | writing t completion =>
          obtain ⟨rfl, rfl, rfl⟩ := by simpa [WorkerPhase.task?] using h
          exact .abandon hk rfl hs
      | starting => simp [WorkerPhase.task?] at h
      | stopped => simp [WorkerPhase.task?] at h
      | crashed words => simp [WorkerPhase.task?] at h
  | advance =>
      cases phase with
      | starting =>
          dsimp only at h
          split at h
          · rename_i hs
            obtain ⟨rfl, rfl, rfl⟩ := by simpa using h
            exact .quit hk hs
          · rename_i hs
            obtain ⟨rfl, rfl, rfl⟩ := by simpa using h
            exact .ready hk (Bool.eq_false_iff.mpr hs)
      | receiving =>
          dsimp only at h
          split at h
          · rename_i t rest hc
            obtain ⟨rfl, rfl, rfl⟩ := by simpa using h
            exact .receive hk hc
          · rename_i hc
            simp only [Option.ite_none_right_eq_some, Option.some.injEq, Prod.mk.injEq] at h
            obtain ⟨hl, rfl, rfl, rfl⟩ := h
            exact .hangUp hk hc hl
      | handed t =>
          obtain ⟨rfl, rfl, rfl⟩ := by simpa using h
          exact .begin hk
      | writing t completion =>
          dsimp only at h
          split at h
          · rename_i e hf
            obtain ⟨rfl, rfl, rfl⟩ := by simpa using h
            exact .failWrite hk hf
          · rename_i hf
            split at h
            · rename_i s₁ hw
              obtain ⟨rfl, rfl, rfl⟩ := by simpa using h
              exact .write hk hf hw
            · rename_i s₁ hw
              obtain ⟨rfl, rfl, rfl⟩ := by simpa using h
              exact .crash hk hf hw
      | computing t => cases h
      | stopped => cases h
      | crashed words => cases h
  | computed r =>
      cases phase with
      | computing t =>
          obtain ⟨rfl, rfl, rfl⟩ := by simpa using h
          exact .conclude hk
      | starting => cases h
      | receiving => cases h
      | handed t => cases h
      | writing t completion => cases h
      | stopped => cases h
      | crashed words => cases h
  | collapse r? words =>
      cases phase with
      | computing t =>
          obtain ⟨rfl, rfl, rfl⟩ := by simpa using h
          exact .collapse hk
      | starting => cases h
      | receiving => cases h
      | handed t => cases h
      | writing t completion => cases h
      | stopped => cases h
      | crashed words => cases h

/-- Every rule of the workers is a step of the worker at that place. -/
theorem WorkerStep.stepWorker? {c : Context} {p p' : Pool} {s s' : Store} {k : Nat}
    {m : WorkerMove} {events : List Event} (h : WorkerStep c p s k m p' s' events) :
    p.stepWorker? c s k m = some (p', s', events) := by
  cases h with
  | @abandon phase t hk ht hs =>
      cases phase <;> cases ht <;> simp [Pool.stepWorker?, hk, hs, WorkerPhase.task?]
  | _ => simp [Pool.stepWorker?, *]

section

variable {c : Context} {p p' : Pool} {s s' : Store} {k : Nat} {t : Claim} {events : List Event}

/-- A worker that was handed a task begins to compute it. -/
theorem WorkerStep.of_handed (h : WorkerStep c p s k .advance p' s' events)
    (hk : p.workers[k]? = some (.handed t)) : p' = p.setWorker k (.computing t) := by
  cases h with
  | begin hk' =>
      obtain rfl : t = _ := by simpa using hk.symm.trans hk'
      rfl
  | quit hk' => simp [hk] at hk'
  | ready hk' => simp [hk] at hk'
  | receive hk' => simp [hk] at hk'
  | hangUp hk' => simp [hk] at hk'
  | failWrite hk' => simp [hk] at hk'
  | write hk' => simp [hk] at hk'
  | crash hk' => simp [hk] at hk'

/-- A worker that writes a result goes on, or crashes if the store does not accept it. -/
theorem WorkerStep.of_writing {r : Completion} (h : WorkerStep c p s k .advance p' s' events)
    (hk : p.workers[k]? = some (.writing t r)) (hf : c.fault = none) :
    ∃ accepted, s.complete c.settings.keys t.id r c.now = (accepted, s') ∧
      p' = if accepted then p.finish k .starting
        else (p.finish k (.crashed Instant.overflowText)).close := by
  cases h with
  | write hk' hf' hw =>
      obtain ⟨rfl, rfl⟩ := by simpa using hk.symm.trans hk'
      exact ⟨true, hw, rfl⟩
  | crash hk' hf' hw =>
      obtain ⟨rfl, rfl⟩ := by simpa using hk.symm.trans hk'
      exact ⟨false, hw, rfl⟩
  | failWrite hk' hf' => simp [hf] at hf'
  | quit hk' => simp [hk] at hk'
  | ready hk' => simp [hk] at hk'
  | receive hk' => simp [hk] at hk'
  | hangUp hk' => simp [hk] at hk'
  | begin hk' => simp [hk] at hk'

/-- A loop that takes a step has not ended. -/
theorem LoopStep.going {m : LoopMove} (h : LoopStep c p s m p' s' events) :
    p.loop.ended = false := by
  cases h with
  | stop hs hl =>
      unfold loopListens at hl
      cases hp : p.loop <;> simp_all [LoopPhase.ended]
  | _ => rw [‹p.loop = _›]; rfl

/-- A worker that takes a step has not ended, and no other one is affected. -/
theorem WorkerStep.going {m : WorkerMove} (h : WorkerStep c p s k m p' s' events) :
    ∃ w w', p.workers[k]? = some w ∧ w.ended = false ∧ p'.workers = p.workers.set k w' := by
  cases h with
  | @abandon w t hk ht hs =>
      refine ⟨w, .stopped, hk, ?_, rfl⟩
      cases w <;> first | rfl | cases ht
  | _ => exact ⟨_, _, ‹p.workers[k]? = some _›, rfl, rfl⟩

end

end Pool

end ReadThrough
