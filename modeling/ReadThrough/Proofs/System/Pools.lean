import ReadThrough.Proofs.Pool.Turns
import ReadThrough.Proofs.System.Runs

/-! # The pools of the system

Whatever happens in a run of the system, the pool of a cache has only taken turns (`run_pool`): it
began with as many workers as its cache was set to have, and each of its steps was a turn under the
settings of the cache.  So what holds of a pool turn by turn holds of every pool of the system.

Seen from the loop of a pool, a step is one of its own or changes nothing for it
(`Step.loop_cases`). -/

namespace ReadThrough

theorem Pool.WorkerStep.hasMore_eq {c : Context} {p p' : Pool} {s s' : Store} {k : Nat}
    {m : WorkerMove} {events : List Event} (h : WorkerStep c p s k m p' s' events) :
    p'.hasMore = p.hasMore := by
  cases h <;> rfl

namespace System

variable {s s' : System} {a : Action} {i : Nat} {c' : Cache} {p' : Pool}

/-- The pool of a cache stems from the one that stood at its place, or it is new. -/
def Stems (s : System) (i : Nat) (c' : Cache) (p' : Pool) : Prop :=
  (∃ c p, s.caches[i]? = some c ∧ c.pool = some p ∧ c'.settings = c.settings ∧
    (p' = p ∨ ∃ t store events, t.context.settings = c.settings ∧
      p.turn? t = some (p', store, events))) ∨
  p' = Pool.start c'.settings.workers

theorem Stems.old (hc : s.caches[i]? = some c') (hp : c'.pool = some p') : s.Stems i c' p' :=
  Or.inl ⟨c', p', hc, hp, rfl, Or.inl rfl⟩

/-- A cache that keeps its settings and its pool keeps where the pool stems from. -/
theorem Stems.set {j : Nat} {c d : Cache} (hc : s.caches[j]? = some c)
    (hc' : (s.caches.set j d)[i]? = some c') (hp' : c'.pool = some p')
    (hs : d.settings = c.settings) (hp : d.pool = c.pool) : s.Stems i c' p' := by
  rcases getElem?_set_cases hc' with ⟨rfl, rfl⟩ | ⟨-, hc'⟩
  · exact Or.inl ⟨c, p', hc, hp.symm.trans hp', hs, Or.inl rfl⟩
  · exact .old hc' hp'

/-- The pool of one cache takes a turn. -/
theorem Stems.turn {j : Nat} {c : Cache} {p p₁ : Pool} {t : Pool.Turn} {store : Store}
    {events : List Event} (hc : s.caches[j]? = some c) (hp : c.pool = some p)
    (hs : t.context.settings = c.settings) (h : p.turn? t = some (p₁, store, events))
    (hc' : (s.caches.set j { c with pool := some p₁ })[i]? = some c') (hp' : c'.pool = some p') :
    s.Stems i c' p' := by
  rcases getElem?_set_cases hc' with ⟨rfl, rfl⟩ | ⟨-, hc'⟩
  · obtain rfl := Option.some.inj hp'
    exact Or.inl ⟨c, p, hc, hp, rfl, Or.inr ⟨t, store, events, hs, h⟩⟩
  · exact .old hc' hp'

/-- The pool of a new cache does not stem from another one. -/
theorem Stems.fresh {settings : Settings} {computes : Bool} {feed : Nat}
    (hc' : (s.caches ++ [Cache.fresh settings computes feed])[i]? = some c')
    (hp' : c'.pool = some p') : s.Stems i c' p' := by
  rcases Nat.lt_or_ge i s.caches.length with hi | hi
  · rw [List.getElem?_append_left hi] at hc'
    exact .old hc' hp'
  · rw [List.getElem?_append_right hi] at hc'
    obtain rfl := List.mem_singleton.mp (List.mem_of_getElem? hc')
    exact Or.inr (Cache.pool_fresh hp')

/-- After every step, every pool stems from one before it. -/
theorem Step.stems (h : Step s a s') (hc' : s'.caches[i]? = some c') (hp' : c'.pool = some p') :
    s.Stems i c' p' := by
  cases h with
  | @loop _ m fault c _ _ _ _ hc hp hl =>
      have ht : Pool.TurnStep _ ⟨s.context c fault, s.store, .loop m⟩ _ _ _ := .loop rfl hl
      exact .turn hc hp rfl ht.turn? hc' hp'
  | @worker _ k m fault c _ _ _ _ hc hp hw =>
      have ht : Pool.TurnStep _ ⟨s.context c fault, s.store, .worker k m⟩ _ _ _ := .worker rfl hw
      exact .turn hc hp rfl ht.turn? hc' hp'
  | closing hx hc hx' =>
      obtain ⟨hs, -, hp⟩ := Closing.step_keeps hx'
      exact .set hc hc' hp' hs hp
  | notifier hc => exact .set hc hc' hp' rfl rfl
  | call hx hc => exact .set hc hc' hp' rfl rfl
  | cancel hx hc => exact .set hc hc' hp' rfl rfl
  | drop hc => exact .set hc hc' hp' rfl rfl
  | watch hc => exact .set hc hc' hp' rfl rfl
  | leave hc => exact .set hc hc' hp' rfl rfl
  | release hc => exact .set hc hc' hp' rfl rfl
  | openCache => exact .fresh hc' hp'
  | openNotifier => exact .fresh hc' hp'
  | _ => exact .old hc' hp'

/-- **A pool of the system has only taken turns.** -/
theorem run_pool {as : List Action} (hr : run? {} as = some s) {i : Nat} {c : Cache} {p : Pool}
    (hc : s.caches[i]? = some c) (hp : c.pool = some p) :
    ∃ ts, (Pool.start c.settings.workers).turns? ts = some p ∧
      ∀ t ∈ ts, t.context.settings = c.settings := by
  have start : ∀ (i : Nat) (c : Cache) (p : Pool), ({} : System).caches[i]? = some c →
      c.pool = some p → ∃ ts, (Pool.start c.settings.workers).turns? ts = some p ∧
        ∀ t ∈ ts, t.context.settings = c.settings := by
    intro i c p hc
    cases hc
  refine run_invariant (P := fun u => ∀ i c p, u.caches[i]? = some c → c.pool = some p →
    ∃ ts, (Pool.start c.settings.workers).turns? ts = some p ∧
      ∀ t ∈ ts, t.context.settings = c.settings) (A := fun _ => True) start ?_
    (fun _ _ => trivial) hr i c p hc hp
  intro u a u' hu _ h i c' p' hc' hp'
  rcases h.stems hc' hp' with ⟨c, p, hc, hp, hs, he⟩ | rfl
  · obtain ⟨ts, hts, hset⟩ := hu i c p hc hp
    rw [hs]
    rcases he with rfl | ⟨t, store, events, ht, hturn⟩
    · exact ⟨ts, hts, hset⟩
    · refine ⟨ts ++ [t], ?_, ?_⟩
      · rw [Pool.turns?_append, hts]
        simp [Pool.turns?, hturn]
      · exact List.forall_mem_append.mpr ⟨hset, List.forall_mem_singleton.mpr ht⟩
  · exact ⟨[], rfl, fun _ h => (List.not_mem_nil h).elim⟩

/-- With the action `a` from `s` to `s'`, the loop of cache `i`, which is `c` with the pool `p`,
takes a step of its own, or nothing changes for it. -/
def LoopFares (s : System) (a : Action) (s' : System) (i : Nat) (c : Cache) (p : Pool) : Prop :=
  ∃ c' p', s'.caches[i]? = some c' ∧ c'.pool = some p' ∧ c'.settings = c.settings ∧
    (c.stopping = true → c'.stopping = true) ∧
    (p'.loop = p.loop ∧ p'.hasMore = p.hasMore ∨
      ∃ m fault events, a = .loop i m fault ∧
        Pool.LoopStep (s.context c fault) p s.store m p' s'.store events)

theorem Step.loop_cases (h : Step s a s') {c : Cache} {p : Pool} (hc : s.caches[i]? = some c)
    (hp : c.pool = some p) : LoopFares s a s' i c p := by
  have stays (hs : s'.caches[i]? = some c) : LoopFares s a s' i c p :=
    ⟨c, p, hs, hp, rfl, id, Or.inl ⟨rfl, rfl⟩⟩
  -- a cache that keeps its settings and its pool is put into its place
  have set {j : Nat} {d d' : Cache} (hd : s.caches[j]? = some d)
      (hs : s'.caches = s.caches.set j d') (hset : d'.settings = d.settings)
      (hpool : d'.pool = d.pool) (hstop : d.stopping = true → d'.stopping = true) :
      LoopFares s a s' i c p := by
    by_cases hj : j = i
    · subst hj
      obtain rfl := Option.some.inj (hc.symm.trans hd)
      refine ⟨d', p, ?_, hpool.trans hp, hset, hstop, Or.inl ⟨rfl, rfl⟩⟩
      rw [hs, List.getElem?_set_self (List.getElem?_eq_some_iff.mp hd).1]
    · exact stays (by rw [hs, List.getElem?_set_ne hj, hc])
  have append {d : Cache} (hs : s'.caches = s.caches ++ [d]) :
      s'.caches[i]? = some c := by
    rw [hs, List.getElem?_append_left (List.getElem?_eq_some_iff.mp hc).1, hc]
  cases h with
  | @loop j m fault d q p' store events hd hq hl =>
      by_cases hj : j = i
      · subst hj
        obtain rfl := Option.some.inj (hc.symm.trans hd)
        obtain rfl := Option.some.inj (hp.symm.trans hq)
        refine ⟨{ c with pool := some p' }, p', ?_, rfl, rfl, id,
          Or.inr ⟨m, fault, events, rfl, hl⟩⟩
        exact List.getElem?_set_self (List.getElem?_eq_some_iff.mp hd).1
      · exact stays ((List.getElem?_set_ne hj).trans hc)
  | @worker j k m fault d q p' store events hd hq hw =>
      by_cases hj : j = i
      · subst hj
        obtain rfl := Option.some.inj (hc.symm.trans hd)
        obtain rfl := Option.some.inj (hp.symm.trans hq)
        refine ⟨{ c with pool := some p' }, p', ?_, rfl, rfl, id,
          Or.inl ⟨hw.loop_eq, hw.hasMore_eq⟩⟩
        exact List.getElem?_set_self (List.getElem?_eq_some_iff.mp hd).1
      · exact stays ((List.getElem?_set_ne hj).trans hc)
  | closing hx hd hx' =>
      obtain ⟨hset, -, hpool⟩ := Closing.step_keeps hx'
      refine set hd rfl hset hpool fun hs => ?_
      rcases Closing.stopping_of_step hx' with he | he
      · exact he.trans hs
      · exact he
  | notifier hd => exact set hd rfl rfl rfl id
  | call hx hd => exact set hd rfl rfl rfl id
  | cancel hx hd => exact set hd rfl rfl rfl id
  | drop hd => exact set hd rfl rfl rfl fun _ => rfl
  | watch hd => exact set hd rfl rfl rfl id
  | leave hd => exact set hd rfl rfl rfl id
  | release hd => exact set hd rfl rfl rfl id
  | openCache => exact stays (append rfl)
  | openNotifier => exact stays (append rfl)
  | _ => exact stays hc

end System

end ReadThrough
