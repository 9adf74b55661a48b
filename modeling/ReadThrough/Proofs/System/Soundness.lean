import ReadThrough.Proofs.Pool.Endurance
import ReadThrough.Proofs.System.Runs

/-! # Settings that a cache can run with

`Settings.problem?` accepts settings that a cache cannot run with.  This is when it can:

* **Starting.**  The permits and the list of tasks have a limit (`Pool.startCrash?_eq_none_iff`).
* **Running** (`Cache.Endures`, `Step.endures`, `run_serves`).  The clock has to be able to name the
  deadline of a wait and the expiry of a failure.  As long as it is, no background task crashes,
  whatever else happens, unless a computation takes its worker down.  Against that no settings help.
* **Exactly** (`System.sound_iff`).  Otherwise a run gets to a crash: a cache is started, an id is
  asked for, and its computation fails. -/

namespace ReadThrough

/-- The settings work out up to the time `T`. -/
structure Settings.WorkOut (settings : Settings) (T : Instant) : Prop where
  workers : settings.workers < Pool.maxTasks
  deadline : T + settings.pollTimeout.nanos ≤ Instant.last
  expiry : T + settings.errorTtl.nanos ≤ Instant.last

instance (settings : Settings) (T : Instant) : Decidable (settings.WorkOut T) :=
  decidable_of_iff (settings.workers < Pool.maxTasks ∧
      T + settings.pollTimeout.nanos ≤ Instant.last ∧ T + settings.errorTtl.nanos ≤ Instant.last)
    ⟨fun ⟨hw, hd, he⟩ => ⟨hw, hd, he⟩, fun h => ⟨h.workers, h.deadline, h.expiry⟩⟩

theorem Settings.WorkOut.mono {settings : Settings} {t T : Instant} (h : settings.WorkOut T)
    (ht : t ≤ T) : settings.WorkOut t :=
  ⟨h.workers, Nat.le_trans (Nat.add_le_add_right ht _) h.deadline,
    Nat.le_trans (Nat.add_le_add_right ht _) h.expiry⟩

/-- A pool starts unless it is too large. -/
theorem Pool.startCrash?_eq_none_iff (n : Nat) : startCrash? n = none ↔ n < maxTasks := by
  have hle : maxTasks ≤ maxPermits := by decide
  unfold startCrash?
  split
  · rename_i h
    simp only [reduceCtorEq, false_iff]
    omega
  · split
    · rename_i h
      simp only [reduceCtorEq, false_iff]
      omega
    · rename_i h
      simp only [true_iff]
      omega

/-- No background task of a cache has crashed, and those of its pool go on unless they are told to
stop. -/
structure Cache.Serves (c : Cache) : Prop where
  uncrashed : ∀ t, c.taskCrashed t = false
  serving : c.stopping = false → ∀ p, c.pool = some p →
    p.loop.ended = false ∧ ∀ w ∈ p.workers, w.ended = false

/-- An id that is queued under the cover of a marker can be claimed. -/
theorem Store.exists_claim {s : Store} {k : Keys} {id : Id} (hc : s.Covered k 0)
    (hq : (s.entry k id).priority ≠ none) :
    ∃ s₁ t s₂, s.takeMarker k = some s₁ ∧ s₁.dequeue k = (some t, s₂) := by
  have hsize : (s.queue k).backlog.size ≠ 0 := fun h => hq (priority?_of_size_eq_zero h id)
  have hmarkers : (s.queue k).markers ≠ 0 := by
    have hle : (s.queue k).backlog.size ≤ (s.queue k).markers + 0 := hc
    omega
  obtain ⟨s₁, hs₁⟩ : ∃ s₁, s.takeMarker k = some s₁ := ⟨_, if_neg hmarkers⟩
  cases hd : s₁.dequeue k with
  | mk answer s₂ =>
      cases answer with
      | some t => exact ⟨s₁, t, s₂, hs₁, hd⟩
      | none =>
          have hnone := priority?_of_size_eq_zero (dequeue_none hd).2 id
          have he := congrArg Entry.priority (entry_takeMarker hs₁ k id)
          exact absurd (he.symm.trans hnone) hq

/-- The first id that is asked for can be claimed. -/
theorem Store.exists_first_claim (k : Keys) (channel : String) (id : Id) (p : Priority)
    (now : Instant) : ∃ s₁ t s₂,
      ((({} : Store).subscribe channel).2.enqueue k id p now).2.takeMarker k = some s₁ ∧
        s₁.dequeue k = (some t, s₂) := by
  let first := (({} : Store).subscribe channel).2
  let ask : Op := .enqueue k id p
  have hc : first.Covered k 0 := covered_empty k 0
  have hc' := hc.apply (fun l (hl : l ∈ ask.keys?) => (Option.some.inj hl).symm) nofun now
  have he : first.entry k id = ⟨none, false, none, none⟩ := entry_empty k id
  have hq : ((first.enqueue k id p now).2.entry k id).priority ≠ none := by
    rw [entry_enqueue, if_pos rfl, he]
    nofun
  exact exists_claim hc' hq

/-- The pool of a cache endures, if the cache has some settings. -/
def Cache.Endures (settings : Settings) (c : Cache) : Prop :=
  c.settings = settings → ∀ p, c.pool = some p → p.Enduring settings.errorTtl c.stopping

namespace System

variable {s s' : System} {settings : Settings} {T : Instant} {a : Action}

/-- Up to the time `T`, a cache with these settings can be started at any time, and all such caches
serve, as long as no computation takes its worker down. -/
def Sound (settings : Settings) (T : Instant) : Prop :=
  ∀ as s, run? {} as = some s → (∀ a ∈ as, a.collapses = false) → s.now ≤ T →
    (s.openCache settings true none).1 = .ok (.running s.caches.length) ∧
    ∀ c ∈ s.caches, c.settings = settings → c.Serves

/-! ### Nothing crashes -/

theorem Step.endures (h : Step s a s') (ha : a.collapses = false)
    (hs : ∀ c ∈ s.caches, c.Endures settings) (hn : settings.workers ≠ 0) (ht : settings.WorkOut s.now) :
    ∀ c ∈ s'.caches, c.Endures settings := by
  have set {i : Nat} {d : Cache} (hd : d.Endures settings) :
      ∀ c ∈ s.caches.set i d, c.Endures settings := by
    intro c hc
    rcases List.mem_or_eq_of_mem_set hc with hc | rfl
    · exact hs c hc
    · exact hd
  -- most steps leave the settings and the pool of a cache alone, and raise its signal at most
  have keep {i : Nat} {c d : Cache} (hc : s.caches[i]? = some c) (he : d.settings = c.settings)
      (hp : d.pool = c.pool) (hst : d.stopping = c.stopping ∨ d.stopping = true) :
      ∀ c ∈ s.caches.set i d, c.Endures settings := by
    refine set fun hset p hp' => ?_
    have hold := hs c (List.mem_of_getElem? hc) (he.symm.trans hset) p (hp.symm.trans hp')
    rcases hst with hst | hst
    · exact hst ▸ hold
    · exact hst ▸ hold.stop
  have append {d : Cache} (hd : ∀ p, d.pool = some p → p = Pool.start d.settings.workers) :
      ∀ c ∈ s.caches ++ [d], c.Endures settings := by
    intro c hc
    rcases List.mem_append.mp hc with hc | hc
    · exact hs c hc
    · obtain rfl := List.mem_singleton.mp hc
      intro he p hp
      obtain rfl := hd p hp
      exact Pool.start_enduring (he ▸ hn) _ _
  cases h with
  | notifier hc _ => exact keep hc rfl rfl (Or.inl rfl)
  | call _ hc _ => exact keep hc rfl rfl (Or.inl rfl)
  | cancel _ hc => exact keep hc rfl rfl (Or.inl rfl)
  | watch hc _ => exact keep hc rfl rfl (Or.inl rfl)
  | leave hc => exact keep hc rfl rfl (Or.inl rfl)
  | release hc => exact keep hc rfl rfl (Or.inl rfl)
  | drop hc => exact keep hc rfl rfl (Or.inr rfl)
  | closing hx hc hx' =>
      obtain ⟨he, -, hp⟩ := Closing.step_keeps hx'
      exact keep hc he hp (Closing.stopping_of_step hx')
  | @loop i m fault c p p' store events hc hp hl =>
      refine set fun he q hq => ?_
      obtain rfl := Option.some.inj hq
      obtain rfl : c.settings = settings := he
      exact hl.enduring (hs c (List.mem_of_getElem? hc) rfl p hp) ht.deadline
  | @worker i k m fault c p p' store events hc hp hw =>
      refine set fun he q hq => ?_
      obtain rfl := Option.some.inj hq
      obtain rfl : c.settings = settings := he
      exact hw.enduring ha (hs c (List.mem_of_getElem? hc) rfl p hp) ht.expiry
  | openCache => exact append fun _ => Cache.pool_fresh
  | openNotifier => exact append fun _ => Cache.pool_fresh
  | _ => exact hs

/-- As long as the settings work out, every cache that has them serves. -/
theorem run_serves {as : List Action} (hr : run? {} as = some s)
    (ha : ∀ a ∈ as, a.collapses = false) (hn : settings.workers ≠ 0)
    (ht : settings.WorkOut s.now) : ∀ c ∈ s.caches, c.settings = settings → c.Serves := by
  have hend : settings.WorkOut s.now → ∀ c ∈ s.caches, c.Endures settings := by
    refine run_invariant (P := fun u => settings.WorkOut u.now → ∀ c ∈ u.caches,
      c.Endures settings) (A := fun a => a.collapses = false)
      (fun _ _ h => (List.not_mem_nil h).elim) ?_ ha hr
    intro u a u' hu ha h ht
    have hearly := ht.mono h.now_le
    exact h.endures ha (hu hearly) hn hearly
  intro c hc he
  refine ⟨fun t => ?_, fun hst p hp => (hend ht c hc he p hp).serving hst⟩
  cases t with
  | notifier => rfl
  | loop =>
      unfold Cache.taskCrashed
      cases hp : c.pool with
      | none => rfl
      | some p => exact decide_eq_false (hend ht c hc he p hp).loop
  | worker k =>
      unfold Cache.taskCrashed
      cases hp : c.pool with
      | none => rfl
      | some p =>
          dsimp only [Option.bind_some]
          cases hk : p.workers[k]? with
          | none => rfl
          | some w =>
              have hw := (hend ht c hc he p hp).workers w (List.mem_of_getElem? hk)
              cases w <;> first | rfl | cases hw

/-! ### Ways to a crash -/

/-- What the pool of a cache and the store can do together, the system can do. -/
theorem exists_step_of_moves {i : Nat} {c : Cache} {p p' : Pool} {store : Store}
    (hc : s.caches[i]? = some c) (hp : c.pool = some p)
    (h : Pool.Moves (s.context c none) (p, s.store) (p', store)) :
    ∃ a s', s.step? a = some s' ∧ a.collapses = false ∧ s'.now = s.now ∧ s'.store = store ∧
      s'.caches[i]? = some { c with pool := some p' } := by
  have hset : (s.caches.set i { c with pool := some p' })[i]? = some { c with pool := some p' } :=
    List.getElem?_set_self (List.getElem?_eq_some_iff.mp hc).1
  cases h with
  | @loop _ _ _ _ m events hl =>
      have hstep : s.step? (.loop i m none) =
          some ({ (s.setCache i { c with pool := some p' }) with store }.note events) := by
        simp only [step?, hc, hp, Option.bind_eq_bind, Option.bind_some, hl.stepLoop?]
      exact ⟨_, _, hstep, rfl, rfl, rfl, hset⟩
  | @worker _ _ _ _ k m events hw hm =>
      have hstep : s.step? (.worker i k m none) =
          some ({ (s.setCache i { c with pool := some p' }) with store }.note events) := by
        simp only [step?, hc, hp, Option.bind_eq_bind, Option.bind_some, hw.stepWorker?]
      exact ⟨_, _, hstep, hm, rfl, rfl, hset⟩

theorem exists_run_of_moves {i : Nat} {c : Cache} {p p' : Pool} {store : Store}
    (hc : s.caches[i]? = some c) (hp : c.pool = some p)
    (h : Relation.ReflTransGen (Pool.Moves (s.context c none)) (p, s.store) (p', store)) :
    ∃ as s', s.run? as = some s' ∧ (∀ a ∈ as, a.collapses = false) ∧ s'.now = s.now ∧
      s'.caches[i]? = some { c with pool := some p' } := by
  -- by induction on the moves, for every pool and store on the way
  suffices hall : ∀ x, Relation.ReflTransGen (Pool.Moves (s.context c none)) (p, s.store) x →
      ∃ as s', s.run? as = some s' ∧ (∀ a ∈ as, a.collapses = false) ∧ s'.now = s.now ∧
        s'.store = x.2 ∧ s'.caches[i]? = some { c with pool := some x.1 } by
    obtain ⟨as, s', hr, ha, hnow, -, hc'⟩ := hall _ h
    exact ⟨as, s', hr, ha, hnow, hc'⟩
  intro x hx
  induction hx with
  | refl => exact ⟨[], s, rfl, nofun, rfl, rfl, by rw [hc, ← hp]⟩
  | @tail x y _ hm ih =>
      obtain ⟨as, u, hr, has, hnow, hstore, hu⟩ := ih
      have hctx : u.context { c with pool := some x.1 } none = s.context c none := by
        simp only [context, hnow]
      have hm : Pool.Moves (u.context { c with pool := some x.1 } none) (x.1, u.store) y := by
        rw [hctx, hstore]
        exact hm
      obtain ⟨a, u', ha, hn, hnow', hstore', hu'⟩ := exists_step_of_moves hu rfl hm
      refine ⟨as ++ [a], u', ?_, fun b hb => ?_, hnow'.trans hnow, hstore', hu'⟩
      · rw [run?_append, hr]
        simp [run?, ha]
      · rcases List.mem_append.mp hb with hb | hb
        · exact has b hb
        · exact List.mem_singleton.mp hb ▸ hn

/-- A cache is started, an id is asked for, and it is `T` o'clock. -/
theorem exists_asked (hr : refusal? settings true = none) (hw : startCrash? settings true = none)
    (T : Instant) :
    ∃ as s, run? {} as = some s ∧ (∀ a ∈ as, a.collapses = false) ∧ s.now = T ∧
      s.caches[0]? = some (Cache.fresh settings true 0) ∧
      ∃ s₁ t s₂, s.store.takeMarker settings.keys = some s₁ ∧
        s₁.dequeue settings.keys = (some t, s₂) := by
  let opened : System := (({} : System).openCache settings true none).2
  have hopened : opened.caches = [Cache.fresh settings true 0] ∧
      opened.store = (({} : Store).subscribe settings.keys.channel).2 ∧ opened.now = 0 := by
    simp only [opened, openCache, hr, hw, subscribe]
    exact ⟨rfl, rfl, rfl⟩
  obtain ⟨hcaches, hstore, hnow⟩ := hopened
  let asked : System := (opened.enqueue settings.keys "x" 0 none).2
  have hasked : asked.store = (opened.store.enqueue settings.keys "x" 0 opened.now).2 := rfl
  refine ⟨[.openCache settings true none, .enqueue settings.keys "x" 0 none, .tick ⟨T⟩],
    { asked with now := asked.now + T }, rfl, by simp [Action.collapses], ?_, ?_, ?_⟩
  · show opened.now + T = T
    rw [hnow, Nat.zero_add]
  · show opened.caches[0]? = _
    rw [hcaches]
    rfl
  · show ∃ s₁ t s₂, asked.store.takeMarker settings.keys = some s₁ ∧
      s₁.dequeue settings.keys = (some t, s₂)
    rw [hasked, hstore, hnow]
    exact Store.exists_first_claim settings.keys _ "x" 0 0

/-- Whether a cache with acceptable settings gets started depends on the size of its pool only. -/
theorem openCache_running_iff (hr : refusal? settings true = none) (s : System) :
    (s.openCache settings true none).1 = .ok (.running s.caches.length) ↔
      settings.workers < Pool.maxTasks := by
  rw [← Pool.startCrash?_eq_none_iff]
  have hw : startCrash? settings true = Pool.startCrash? settings.workers := rfl
  rw [← hw]
  simp only [openCache, hr]
  cases startCrash? settings true with
  | none => exact iff_of_true rfl rfl
  | some message => exact iff_of_false nofun nofun

/-- **Settings work out exactly if a cache can run with them,** as long as no computation takes its
worker down. -/
theorem sound_iff (hr : refusal? settings true = none) (T : Instant) :
    Sound settings T ↔ settings.WorkOut T := by
  have hn : settings.workers ≠ 0 := (refusal?_none hr).2 rfl
  constructor
  · intro hs
    have hw := (openCache_running_iff hr {}).mp (hs [] {} rfl nofun (Nat.zero_le T)).1
    obtain ⟨as, s, hrun, has, rfl, hc, s₁, t, s₂, hm, hq⟩ :=
      exists_asked hr ((Pool.startCrash?_eq_none_iff _).mpr hw) T
    have hp : (Cache.fresh settings true 0).pool = some (Pool.start settings.workers) := rfl
    -- no pool gets to a crash
    have safe {p store} (h : Relation.ReflTransGen
        (Pool.Moves (s.context (Cache.fresh settings true 0) none))
        (Pool.start settings.workers, s.store) (p, store)) (r : TaskRef) :
        Cache.taskCrashed { Cache.fresh settings true 0 with pool := some p } r = false := by
      obtain ⟨bs, s', hb, hbs, hnow, hc'⟩ := exists_run_of_moves hc hp h
      have hrun' : run? {} (as ++ bs) = some s' := by
        rw [run?_append, hrun]
        exact hb
      have hall : ∀ a ∈ as ++ bs, a.collapses = false := fun a ha =>
        (List.mem_append.mp ha).elim (has a) (hbs a)
      exact ((hs _ _ hrun' hall (Nat.le_of_eq hnow)).2 _
        (List.mem_of_getElem? hc') rfl).uncrashed r
    have hd : s.now + settings.pollTimeout.nanos ≤ Instant.last := by
      refine Nat.le_of_not_lt fun hd => ?_
      obtain ⟨p, store, h, hl⟩ := Pool.exists_moves_loop_crash
        (c := s.context (Cache.fresh settings true 0) none) hn rfl hd s.store
      have hf := safe h .loop
      simp [Cache.taskCrashed, hl] at hf
    refine ⟨hw, hd, Nat.le_of_not_lt fun he => ?_⟩
    obtain ⟨p, store, h, hl⟩ := Pool.exists_moves_worker_crash
      (c := s.context (Cache.fresh settings true 0) none) hn rfl rfl hd he hm hq
    have hf := safe h (.worker 0)
    simp [Cache.taskCrashed, hl, WorkerPhase.isCrashed] at hf
  · intro ht as s hrun has hnow
    exact ⟨(openCache_running_iff hr s).mpr ht.workers, run_serves hrun has hn (ht.mono hnow)⟩

/-- The default settings are sound for half of the time that the clock can tell.  Failures that are
kept for as long as a duration can say are acceptable, and not sound from the start. -/
theorem sound_default_and_not_sound_endless :
    Sound {} (Instant.last / 2) ∧
      refusal? { errorTtl := .ofSecs (UInt64.size - 1) } true = none ∧
      ¬ Sound { errorTtl := .ofSecs (UInt64.size - 1) } 0 :=
  ⟨(sound_iff (by decide) _).mpr (by decide), by decide,
    mt (sound_iff (by decide) 0).mp (by decide)⟩

end System

end ReadThrough
