import ReadThrough.Proofs.Pool.Accounts
import ReadThrough.Proofs.System.Runs

/-! # Background tasks end for good

The notifier, the loop and the workers of a cache end each by itself, and none of them comes back.
The stop signal stays raised, and the cache has the same tasks all the time (`Cache.Winds`,
`Step.winds`, `run_winds`). -/

namespace ReadThrough

/-- What is over in a cache stays over. -/
structure Cache.Winds (c c' : Cache) : Prop where
  tasks : Cache.tasks c'.pool = Cache.tasks c.pool
  stopping : c.stopping = true → c'.stopping = true
  ended : ∀ r, c.taskEnded r = true → c'.taskEnded r = true

namespace Cache

variable {c c' d : Cache}

theorem Winds.refl (c : Cache) : c.Winds c := ⟨rfl, id, fun _ => id⟩

theorem Winds.trans (h : c.Winds c') (h' : c'.Winds d) : c.Winds d :=
  ⟨h'.tasks.trans h.tasks, fun hs => h'.stopping (h.stopping hs),
    fun r hr => h'.ended r (h.ended r hr)⟩

/-- Tasks of a cache that keeps its pool stay as they are, but for the notifier. -/
theorem Winds.of_pool (hp : c'.pool = c.pool) (hs : c.stopping = true → c'.stopping = true)
    (hn : c.notifier.ended = true → c'.notifier.ended = true) : c.Winds c' := by
  refine ⟨by rw [hp], hs, fun r hr => ?_⟩
  cases r with
  | notifier => exact hn hr
  | loop =>
      simp only [taskEnded, hp]
      exact hr
  | worker k =>
      simp only [taskEnded, hp]
      exact hr

theorem winds_loop {p p' : Pool} {ctx : Pool.Context} {s s' : Store} {m : Pool.LoopMove}
    {events : List Event} (hp : c.pool = some p) (h : Pool.LoopStep ctx p s m p' s' events) :
    c.Winds { c with pool := some p' } := by
  refine ⟨by simp only [tasks, hp, h.workers_eq], id, fun r hr => ?_⟩
  cases r with
  | notifier => exact hr
  | loop =>
      simp only [taskEnded, hp, h.going] at hr
      cases hr
  | worker k =>
      simp only [taskEnded, hp, Option.bind_some, h.workers_eq] at hr ⊢
      exact hr

theorem winds_worker {p p' : Pool} {ctx : Pool.Context} {s s' : Store} {k : Nat}
    {m : Pool.WorkerMove} {events : List Event} (hp : c.pool = some p)
    (h : Pool.WorkerStep ctx p s k m p' s' events) : c.Winds { c with pool := some p' } := by
  obtain ⟨w, w', hk, hw, hset⟩ := h.going
  refine ⟨by simp only [tasks, hp, hset, List.length_set], id, fun r hr => ?_⟩
  cases r with
  | notifier => exact hr
  | loop =>
      simp only [taskEnded, hp, h.loop_eq] at hr ⊢
      exact hr
  | worker j =>
      simp only [taskEnded, hp, Option.bind_some] at hr ⊢
      by_cases hj : k = j
      · subst hj
        simp only [hk, hw] at hr
        cases hr
      · rw [hset, List.getElem?_set_ne hj]
        exact hr

end Cache

namespace System

variable {s s' : System} {a : Action} {i : Nat} {c : Cache}

/-- What is over stays over in every step, and only a shutdown takes tasks over. -/
theorem Step.winds (h : Step s a s') (hc : s.caches[i]? = some c) :
    ∃ c', s'.caches[i]? = some c' ∧ c.Winds c' ∧
      ((∀ j, a ≠ .closing j) → c'.background = c.background) := by
  have set {j : Nat} {d d' : Cache} (hd : s.caches[j]? = some d) (hw : d.Winds d')
      (hb : (∀ j, a ≠ .closing j) → d'.background = d.background) :
      ∃ c', (s.caches.set j d')[i]? = some c' ∧ c.Winds c' ∧
        ((∀ j, a ≠ .closing j) → c'.background = c.background) := by
    by_cases hj : j = i
    · subst hj
      obtain rfl := Option.some.inj (hc.symm.trans hd)
      exact ⟨d', List.getElem?_set_self (List.getElem?_eq_some_iff.mp hc).1, hw, hb⟩
    · refine ⟨c, ?_, .refl c, fun _ => rfl⟩
      rw [List.getElem?_set_ne hj]
      exact hc
  have desk {j : Nat} {d d' : Cache} (hd : s.caches[j]? = some d) (hp : d'.pool = d.pool)
      (hs : d'.stopping = d.stopping) (hb : d'.background = d.background)
      (hn : d'.notifier.desk = d.notifier.desk) :
      ∃ c', (s.caches.set j d')[i]? = some c' ∧ c.Winds c' ∧
        ((∀ j, a ≠ .closing j) → c'.background = c.background) :=
    set hd (.of_pool hp (fun h => hs.trans h) fun h => (Notifier.ended_of_desk_eq hn).trans h)
      fun _ => hb
  have more (d : Cache) : ∃ c', (s.caches ++ [d])[i]? = some c' ∧ c.Winds c' ∧
      ((∀ j, a ≠ .closing j) → c'.background = c.background) := by
    refine ⟨c, ?_, .refl c, fun _ => rfl⟩
    rw [List.getElem?_append_left (List.getElem?_eq_some_iff.mp hc).1]
    exact hc
  cases h with
  | notifier hd hn =>
      refine set hd (.of_pool rfl id fun he => ?_) fun _ => rfl
      rw [hn.going] at he
      cases he
  | loop hd hp hl => exact set hd (Cache.winds_loop hp hl) fun _ => rfl
  | worker hd hp hw => exact set hd (Cache.winds_worker hp hw) fun _ => rfl
  | call hx hd hx' => exact desk hd rfl rfl rfl hx'.desk_eq
  | @cancel j x d hx hd => exact desk hd rfl rfl rfl (Call.desk_cancel x d.notifier)
  | @closing j x x' d d' events hx hd hx' =>
      obtain ⟨-, hn, hp⟩ := Closing.step_keeps hx'
      refine set hd (.of_pool hp (fun hs => ?_) fun he => by rw [hn, he])
        fun hj => absurd rfl (hj j)
      rcases Closing.stopping_of_step hx' with he | he
      · rw [he, hs]
      · exact he
  | openCache hr => exact more _
  | openNotifier => exact more _
  | drop hd => exact set hd (.of_pool rfl (fun _ => rfl) id) fun _ => rfl
  | watch hd hn => exact desk hd rfl rfl rfl (Notifier.desk_subscribe? hn)
  | leave hd => exact desk hd rfl rfl rfl rfl
  | release hd => exact desk hd rfl rfl rfl (Notifier.desk_release _ _)
  | _ => exact ⟨c, hc, .refl c, fun _ => rfl⟩

/-- What is over stays over in every run. -/
theorem run_winds {as : List Action} {t : System} (hr : s.run? as = some t)
    (hc : s.caches[i]? = some c) : ∃ c', t.caches[i]? = some c' ∧ c.Winds c' := by
  refine run_invariant (P := fun u => ∃ c', u.caches[i]? = some c' ∧ c.Winds c')
    (A := fun _ => True) ⟨c, hc, .refl c⟩ ?_ (fun _ _ => trivial) hr
  rintro u a u' ⟨d, hd, hw⟩ - h
  obtain ⟨d', hd', hw', -⟩ := h.winds hd
  exact ⟨d', hd', hw.trans hw'⟩

/-- A cache whose loop takes a step has a loop that goes on. -/
theorem Step.loop_going {m : Pool.LoopMove} {fault : Option Error}
    (h : Step s (.loop i m fault) s') :
    ∃ c, s.caches[i]? = some c ∧ c.taskEnded .loop = false := by
  cases h with
  | loop hc hp hl => exact ⟨_, hc, by simp only [Cache.taskEnded, hp, hl.going]⟩
  | outside ho => cases ho
  | denied ho => cases ho

end System

end ReadThrough
