import ReadThrough.Proofs.Pool.Running
import ReadThrough.Proofs.Store.Ordering

/-! # A pool turn by turn

What a pool does by itself, whatever store it works on.  A turn (`Pool.Turn`) is one step of the
loop or of a worker, with all that the step may look at and the store that it finds.  The stores of
a list of turns have nothing to do with each other: others may do to the store what they like
between two turns, and whatever task a claim may be answered with, some store has it
(`exists_claim`).  Any turn may be given a fault instead.

* **Steps** (`Pool.TurnStep`).  The rules of the loop and of the workers, for any turn.
* **Moments** (`Pool.moments`).  The history of a pool, and what happens in it: tasks are claimed
  (`Moment.claimed?`), computations end (`Moment.computed?`) or take their workers down
  (`Moment.collapsed?`), and results are written (`Moment.written?`), whether or not the store
  accepts them.
* **Life** (`Pool.Manned`, `TurnStep.manned`).  As long as no stop signal is raised and no call of
  the store breaks off (`Moment.Undisturbed`), the permits stay balanced, a worker ends only if its
  computation takes it down, and the loop ends only when no worker is left. -/

namespace ReadThrough

/-- The task and the result that a worker is about to write. -/
def WorkerPhase.result? : WorkerPhase → Option (Claim × Completion)
  | writing t c => some (t, c)
  | _ => none

namespace Pool

/-- A step of the loop, or of the worker at a place. -/
inductive Move where
  | loop (move : LoopMove)
  | worker (place : Nat) (move : WorkerMove)
deriving DecidableEq

/-- A step, and all that it can depend on. -/
structure Turn where
  context : Context
  store : Store
  move : Move

/-- Take a turn. -/
def turn? (p : Pool) (t : Turn) : Option (Pool × Store × List Event) :=
  match t.move with
  | .loop m => p.stepLoop? t.context t.store m
  | .worker k m => p.stepWorker? t.context t.store k m

/-- Take turns; each of them has to apply. -/
def turns? (p : Pool) : List Turn → Option Pool
  | [] => some p
  | t :: rest => (p.turn? t).bind fun (p, _) => p.turns? rest

/-- `TurnStep p t p' s' events`: the turn `t` leads from `p` to `p'`, leaves `s'` behind and reports
`events`. -/
inductive TurnStep (p : Pool) (t : Turn) : Pool → Store → List Event → Prop
  | loop {m : LoopMove} {p' : Pool} {s' : Store} {events : List Event} (hm : t.move = .loop m)
      (h : LoopStep t.context p t.store m p' s' events) : TurnStep p t p' s' events
  | worker {k : Nat} {m : WorkerMove} {p' : Pool} {s' : Store} {events : List Event}
      (hm : t.move = .worker k m) (h : WorkerStep t.context p t.store k m p' s' events) :
      TurnStep p t p' s' events

theorem turnStep_of {p p' : Pool} {t : Turn} {s' : Store} {events : List Event}
    (h : p.turn? t = some (p', s', events)) : TurnStep p t p' s' events := by
  unfold turn? at h
  split at h
  · rename_i m hm
    exact .loop hm (loopStep_of h)
  · rename_i k m hm
    exact .worker hm (workerStep_of h)

theorem TurnStep.turn? {p p' : Pool} {t : Turn} {s' : Store} {events : List Event}
    (h : TurnStep p t p' s' events) : p.turn? t = some (p', s', events) := by
  cases h with
  | loop hm h =>
      simp only [Pool.turn?, hm]
      exact h.stepLoop?
  | worker hm h =>
      simp only [Pool.turn?, hm]
      exact h.stepWorker?

theorem turns?_append {p : Pool} (ts us : List Turn) :
    p.turns? (ts ++ us) = (p.turns? ts).bind fun p => p.turns? us := by
  induction ts generalizing p with
  | nil => rfl
  | cons t rest ih =>
      simp only [List.cons_append, turns?]
      cases p.turn? t with
      | none => rfl
      | some x => exact ih

/-- Whatever task a claim may be answered with, there is a store that has it for the loop. -/
theorem exists_claim {p : Pool} {c : Context} (hl : p.loop = .claiming) (hf : c.fault = none)
    (x : Claim) :
    ∃ s s', p.stepLoop? c s .advance =
      some ({ p with loop := .sending x, hasMore := 0 < x.remaining }, s',
        [.dequeued c.queue x]) := by
  obtain ⟨s, s', hd⟩ := Store.exists_dequeue c.settings.keys x
  refine ⟨s, s', ?_⟩
  simp [stepLoop?, advanceLoop?, hl, Store.attempt, hf, hd, afterClaim]

/-! ### Moments -/

/-- A pool and the turn that it takes. -/
structure Moment where
  before : Pool
  turn : Turn

/-- The moments of a list of turns, the first one first. -/
def moments (p : Pool) : List Turn → List Moment
  | [] => []
  | t :: rest =>
    ⟨p, t⟩ ::
      match p.turn? t with
      | some (p', _) => p'.moments rest
      | none => []

namespace Moment

/-- The task that the loop claims, if the store has one for it. -/
def claimed? (m : Moment) : Option Claim :=
  match m.turn.move, m.before.loop, m.turn.context.fault with
  | .loop .advance, .claiming, none => (m.turn.store.dequeue m.turn.context.settings.keys).1
  | _, _, _ => none

/-- The task whose computation ends, and what came of it. -/
def computed? (m : Moment) : Option (Claim × Computed) :=
  match m.turn.move with
  | .worker k (.computed r) =>
    match m.before.workers[k]? with
    | some (.computing t) => some (t, r)
    | _ => none
  | _ => none

/-- The task whose computation takes its worker down. -/
def collapsed? (m : Moment) : Option Claim :=
  match m.turn.move with
  | .worker k (.collapse _ _) =>
    match m.before.workers[k]? with
    | some (.computing t) => some t
    | _ => none
  | _ => none

/-- The task for which a worker calls `complete`, and with what. -/
def written? (m : Moment) : Option (Claim × Completion) :=
  match m.turn.move with
  | .worker k .advance => m.before.workers[k]?.bind WorkerPhase.result?
  | _ => none

/-- Whether the loop asks the store to wait for work. -/
def awaits (m : Moment) : Bool :=
  match m.turn.move, m.before.loop, m.before.hasMore, m.turn.context.fault with
  | .loop .advance, .holding, false, none => true
  | _, _, _, _ => false

/-- No stop signal is raised, and no call of the store breaks off because the clock cannot name a
deadline or an expiry. -/
structure Undisturbed (settings : Settings) (m : Moment) : Prop where
  configured : m.turn.context.settings = settings
  unstopped : m.turn.context.stopping = false
  waits : m.awaits = true →
    (Wait.start? settings.keys settings.pollTimeout m.turn.context.now).isSome = true
  writes : ∀ x ∈ m.written?, m.turn.context.fault = none →
    (m.turn.store.complete settings.keys x.1.id x.2 m.turn.context.now).1 = true

instance (settings : Settings) (m : Moment) : Decidable (m.Undisturbed settings) :=
  decidable_of_iff (m.turn.context.settings = settings ∧ m.turn.context.stopping = false ∧
      (m.awaits = true →
        (Wait.start? settings.keys settings.pollTimeout m.turn.context.now).isSome = true) ∧
      ∀ x ∈ m.written?, m.turn.context.fault = none →
        (m.turn.store.complete settings.keys x.1.id x.2 m.turn.context.now).1 = true)
    ⟨fun ⟨hs, hu, hw, hc⟩ => ⟨hs, hu, hw, hc⟩, fun h => ⟨h.configured, h.unstopped, h.waits, h.writes⟩⟩

end Moment

/-- What holds at the start and is kept by every allowed turn holds at the end. -/
theorem turns_induction {P : List Moment → Pool → Prop} {A : Moment → Prop} {p p' : Pool}
    (start : P [] p)
    (keep : ∀ past u t u' s' events, P past u → A ⟨u, t⟩ → TurnStep u t u' s' events →
      P (past ++ [⟨u, t⟩]) u')
    {ts : List Turn} (hok : ∀ m ∈ p.moments ts, A m) (hr : p.turns? ts = some p') :
    P (p.moments ts) p' := by
  -- by induction on turns that go on from the end of earlier ones
  suffices h : ∀ (ts : List Turn) (past : List Moment) (u : Pool), P past u →
      (∀ m ∈ u.moments ts, A m) → u.turns? ts = some p' → P (past ++ u.moments ts) p' by
    simpa using h ts [] p start hok hr
  intro ts
  induction ts with
  | nil =>
      intro past u hp _ hu
      obtain rfl := Option.some.inj hu
      simpa [moments] using hp
  | cons t rest ih =>
      intro past u hp hok hu
      obtain ⟨⟨v, s', events⟩, hv, hr⟩ := Option.bind_eq_some_iff.mp hu
      simp only [moments, hv] at hok ⊢
      have hk := keep past u t v s' events hp (hok _ List.mem_cons_self) (turnStep_of hv)
      have h := ih _ v hk (fun m hm => hok m (List.mem_cons_of_mem _ hm)) hr
      rwa [List.append_assoc] at h

/-! ### Life -/

/-- The number of workers that have ended. -/
def gone (p : Pool) : Nat := p.workers.countP WorkerPhase.ended

/-- All tasks whose computations took their workers down, in order. -/
def collapsed (ms : List Moment) : List Claim := ms.filterMap Moment.collapsed?

/-- A pool of `n` workers with its history: those that have ended were taken down by computations,
and the loop ends when all of them have. -/
structure Manned (n : Nat) (ms : List Moment) (p : Pool) : Prop where
  staffed : p.workers.length = n
  balanced : p.Balanced
  gone : p.gone = (collapsed ms).length
  loop : p.loop.ended = true → p.workers.all WorkerPhase.ended = true

theorem start_manned (n : Nat) : (start n).Manned n [] where
  staffed := by simp [start]
  balanced := start_balanced n
  gone := by simp [Pool.gone, start, List.countP_replicate, WorkerPhase.ended, collapsed]
  loop := nofun

variable {settings : Settings} {n : Nat} {p p' : Pool} {t : Turn} {s' : Store}
  {events : List Event} {ms : List Moment}

theorem LoopStep.workers_eq {m : LoopMove} {c : Context} {s : Store}
    (h : LoopStep c p s m p' s' events) : p'.workers = p.workers := by
  cases h <;> rfl

/-- An undisturbed loop ends only if it has a task and all workers are gone. -/
theorem LoopStep.of_ended {m : LoopMove} (hmove : t.move = .loop m)
    (h : LoopStep t.context p t.store m p' s' events) (hm : Moment.Undisturbed settings ⟨p, t⟩)
    (he : p'.loop.ended = true) :
    m = .advance ∧ (∃ x, p.loop = .sending x ∧ p' = p.endLoop .stopped) ∧
      p.workers.all WorkerPhase.ended = true := by
  have hs : t.context.stopping = false := hm.unstopped
  cases h with
  | stop hs' => simp [hs] at hs'
  | quit hl hs' => simp [hs] at hs'
  | crash hl hm' hf hw =>
      have hstart := hm.waits (by simp [Moment.awaits, hmove, hl, hm', hf])
      rw [← hm.configured, show Wait.start? t.context.settings.keys
        t.context.settings.pollTimeout t.context.now = none from hw] at hstart
      cases hstart
  | strand hl hall => exact ⟨rfl, ⟨_, hl, rfl⟩, hall⟩
  | _ => cases he

/-- An undisturbed worker that writes a result without a fault has it accepted. -/
theorem Moment.Undisturbed.accepted (hm : Moment.Undisturbed settings ⟨p, t⟩) {k : Nat} {x : Claim}
    {r : Completion} (hmove : t.move = .worker k .advance)
    (hk : p.workers[k]? = some (.writing x r)) (hf : t.context.fault = none) :
    (t.store.complete t.context.settings.keys x.id r t.context.now).1 = true := by
  have hc := hm.writes (x, r) (by simp [Moment.written?, hmove, hk, WorkerPhase.result?]) hf
  rwa [← hm.configured] at hc

/-- An undisturbed worker ends exactly if its computation takes it down, while the loop is there. -/
theorem WorkerStep.of_undisturbed {k : Nat} {m : WorkerMove} (hmove : t.move = .worker k m)
    (h : WorkerStep t.context p t.store k m p' s' events)
    (hm : Moment.Undisturbed settings ⟨p, t⟩) (hl : p.loop.ended = false) :
    ∃ w', p'.workers = p.workers.set k w' ∧ w'.ended = (Moment.collapsed? ⟨p, t⟩).isSome := by
  have hs : t.context.stopping = false := hm.unstopped
  have on {w' : WorkerPhase} (he : w'.ended = false) (hw : p'.workers = p.workers.set k w')
      (hc : m.collapses = false) :
      ∃ w', p'.workers = p.workers.set k w' ∧ w'.ended = (Moment.collapsed? ⟨p, t⟩).isSome := by
    refine ⟨w', hw, he.trans ?_⟩
    cases m with
    | collapse r? words => cases hc
    | _ => simp [Moment.collapsed?, hmove]
  cases h with
  | leave hk hs' => simp [hs] at hs'
  | abandon hk ht hs' => simp [hs] at hs'
  | quit hk hs' => simp [hs] at hs'
  | hangUp hk hc hl' => simp [hl] at hl'
  | collapse hk => exact ⟨_, rfl, by simp [Moment.collapsed?, hmove, hk, WorkerPhase.ended]⟩
  | crash hk hf hw =>
      have hc := hm.accepted hmove hk hf
      rw [hw] at hc
      cases hc
  | ready => exact on rfl rfl rfl
  | receive => exact on rfl rfl rfl
  | begin => exact on rfl rfl rfl
  | conclude => exact on rfl rfl rfl
  | failWrite => exact on rfl rfl rfl
  | write => exact on rfl rfl rfl

theorem TurnStep.manned (h : TurnStep p t p' s' events)
    (hm : Moment.Undisturbed settings ⟨p, t⟩) (ha : p.Manned n ms) :
    p'.Manned n (ms ++ [⟨p, t⟩]) := by
  have hlast : (collapsed (ms ++ [⟨p, t⟩])).length =
      p.gone + if (Moment.collapsed? ⟨p, t⟩).isSome then 1 else 0 := by
    rw [ha.gone, collapsed, List.filterMap_append, List.length_append]
    cases hc : Moment.collapsed? ⟨p, t⟩ <;> simp [collapsed, hc]
  cases h with
  | loop hmove h =>
      have hw := h.workers_eq
      have hn : Moment.collapsed? ⟨p, t⟩ = none := by simp [Moment.collapsed?, hmove]
      refine ⟨hw ▸ ha.staffed, h.balanced ha.balanced, ?_, fun he => ?_⟩
      · rw [hlast, hn, Pool.gone, Pool.gone, hw]
        rfl
      · exact hw ▸ (h.of_ended hmove hm he).2.2
  | @worker k m _ _ _ hmove h =>
      obtain ⟨w, -, hk, hgoing, -⟩ := h.going
      -- while this worker is there, the loop has not ended
      have hloop : p.loop.ended = false := by
        refine Bool.eq_false_iff.mpr fun he => ?_
        have hall := List.all_eq_true.mp (ha.loop he) w (List.mem_of_getElem? hk)
        rw [hgoing] at hall
        cases hall
      obtain ⟨w', hw, he'⟩ := h.of_undisturbed hmove hm hloop
      obtain ⟨r, hgone, hset⟩ := exists_countP_set WorkerPhase.ended hk
      rw [hgoing] at hgone
      refine ⟨by rw [hw, List.length_set, ha.staffed], h.balanced ha.balanced, ?_, fun he => ?_⟩
      · rw [hlast, Pool.gone, Pool.gone, hw, hset, he', hgone]
        rfl
      · rw [h.loop_eq, hloop] at he
        cases he

/-- If a worker is left after a turn, one was left before. -/
theorem TurnStep.some_left (h : TurnStep p t p' s' events)
    (hw : p'.workers.all WorkerPhase.ended = false) :
    p.workers.all WorkerPhase.ended = false := by
  cases h with
  | loop _ h => rwa [h.workers_eq] at hw
  | worker _ h =>
      -- the worker that takes the turn is there
      obtain ⟨w, -, hk, hgoing, -⟩ := h.going
      exact List.all_eq_false.mpr ⟨w, List.mem_of_getElem? hk, by simp [hgoing]⟩

/-- The history of a pool up to each of its moments, and up to its end. -/
theorem turns_manned {ts : List Turn} (hr : (start n).turns? ts = some p)
    (hm : ∀ m ∈ (start n).moments ts, m.Undisturbed settings) :
    (∀ m ∈ (start n).moments ts, ∃ past, (∀ m' ∈ past, m' ∈ (start n).moments ts) ∧
      m.before.Manned n past) ∧ p.Manned n ((start n).moments ts) := by
  refine turns_induction (P := fun ms u => (∀ m ∈ ms, ∃ past, (∀ m' ∈ past, m' ∈ ms) ∧
    m.before.Manned n past) ∧ u.Manned n ms)
    ⟨fun _ h => (List.not_mem_nil h).elim, start_manned n⟩ ?_ hm hr
  intro ms u t u' s' events hu ha h
  refine ⟨fun m hmem => ?_, h.manned ha hu.2⟩
  rcases List.mem_append.mp hmem with hmem | hmem
  · obtain ⟨past, hpast, hman⟩ := hu.1 m hmem
    exact ⟨past, fun m' h' => List.mem_append_left _ (hpast m' h'), hman⟩
  · obtain rfl := List.mem_singleton.mp hmem
    exact ⟨ms, fun m' h' => List.mem_append_left _ h', hu.2⟩

end Pool

end ReadThrough
