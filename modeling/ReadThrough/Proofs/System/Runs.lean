import ReadThrough.Proofs.System.Steps

/-! # Runs and their moments

A run is a list of actions.  Its *moments* (`System.moments`) are the states it goes through, each
with the action taken there; they are the history on which statements about earlier and later
actions speak.

* **Splitting.**  The moments before a given one are those of a shorter run (`exists_prefix`).
* **Induction** (`run_induction`).  What holds at the start and is kept by every step, seen together
  with the history so far, holds at the end of every run.
* **Callers** (`Step.calls_cases`) come, go on or are dropped, one at a time.
* **One queue** (`OneQueue`, `Step.oneQueue`).  Actions that name one queue only keep all caches on
  it. -/

namespace ReadThrough

/-- A state of a run and the action taken in it. -/
structure Moment where
  before : System
  action : Action

namespace System

/-- The moments of a run, the first one first. -/
def moments (s : System) : List Action → List Moment
  | [] => []
  | a :: rest =>
    ⟨s, a⟩ ::
      match s.step? a with
      | some t => t.moments rest
      | none => []

variable {s t : System}

theorem run?_append (as bs : List Action) :
    s.run? (as ++ bs) = (s.run? as).bind fun t => t.run? bs := by
  induction as generalizing s with
  | nil => rfl
  | cons a rest ih =>
      simp only [List.cons_append, run?]
      cases s.step? a with
      | none => rfl
      | some u => exact ih

theorem moments_append {as : List Action} (h : s.run? as = some t) (bs : List Action) :
    s.moments (as ++ bs) = s.moments as ++ t.moments bs := by
  induction as generalizing s with
  | nil =>
      obtain rfl := Option.some.inj h
      rfl
  | cons a rest ih =>
      obtain ⟨u, hu, hr⟩ := Option.bind_eq_some_iff.mp h
      simp only [List.cons_append, moments, hu, ih hr]

/-- A run that takes an action has a moment for it. -/
theorem moments_cut {bs cs : List Action} {a : Action} (h : s.run? (bs ++ a :: cs) = some t) :
    ∃ u v : System, s.run? bs = some u ∧ s.run? (bs ++ [a]) = some v ∧ v.run? cs = some t ∧
      s.moments (bs ++ a :: cs) = s.moments bs ++ ⟨u, a⟩ :: v.moments cs := by
  rw [run?_append] at h
  obtain ⟨u, hb, h⟩ := Option.bind_eq_some_iff.mp h
  obtain ⟨v, hv, hc⟩ := Option.bind_eq_some_iff.mp h
  refine ⟨u, v, hb, ?_, hc, ?_⟩
  · rw [run?_append, hb]
    simp [run?, hv]
  · rw [moments_append hb]
    simp only [moments, hv]

theorem action_mem_of_mem_moments {as : List Action} {m : Moment} (h : m ∈ s.moments as) :
    m.action ∈ as := by
  induction as generalizing s with
  | nil => cases h
  | cons a rest ih =>
      simp only [moments] at h
      cases hu : s.step? a with
      | none =>
          rw [hu] at h
          obtain rfl := List.mem_singleton.mp h
          exact List.mem_cons_self
      | some u =>
          rw [hu] at h
          rcases List.mem_cons.mp h with rfl | h
          · exact List.mem_cons_self
          · exact List.mem_cons_of_mem _ (ih h)

/-- A run that ends can be cut at each of its moments. -/
theorem exists_prefix {as : List Action} {before after : List Moment} {m : Moment}
    (hr : s.run? as = some t) (hm : s.moments as = before ++ m :: after) :
    ∃ bs u, s.run? bs = some m.before ∧ s.moments bs = before ∧
      m.before.step? m.action = some u ∧ ∃ cs, as = bs ++ m.action :: cs ∧ u.run? cs = some t ∧
        u.moments cs = after := by
  induction as generalizing s before with
  | nil =>
      simp [moments] at hm
  | cons a rest ih =>
      obtain ⟨u, hu, hr⟩ := Option.bind_eq_some_iff.mp hr
      simp only [moments, hu] at hm
      cases before with
      | nil =>
          obtain ⟨rfl, rfl⟩ := List.cons.inj hm
          exact ⟨[], u, rfl, rfl, hu, rest, rfl, hr, rfl⟩
      | cons m₀ before =>
          rw [List.cons_append] at hm
          obtain ⟨rfl, hm'⟩ := List.cons.inj hm
          obtain ⟨bs, v, hb, hbm, hv, cs, rfl, hc, hcm⟩ := ih hr hm'
          refine ⟨a :: bs, v, ?_, ?_, hv, cs, rfl, hc, hcm⟩
          · simp only [run?, hu]
            exact hb
          · simp only [moments, hu, hbm]

/-- What holds at the start and is kept by every allowed step of the system holds at the end of
every run. -/
theorem run_induction_step? {P : List Moment → System → Prop} {A : Moment → Prop} (start : P [] s)
    (keep : ∀ past u a u', P past u → A ⟨u, a⟩ → u.step? a = some u' → P (past ++ [⟨u, a⟩]) u')
    {as : List Action} (hok : ∀ m ∈ s.moments as, A m) (hr : s.run? as = some t) :
    P (s.moments as) t := by
  -- by induction on a run that goes on from the end of another one
  suffices h : ∀ (bs : List Action) (past : List Moment) (u : System), P past u →
      (∀ m ∈ u.moments bs, A m) → u.run? bs = some t → P (past ++ u.moments bs) t by
    simpa using h as [] s start hok hr
  intro bs
  induction bs with
  | nil =>
      intro past u hp _ hu
      obtain rfl := Option.some.inj hu
      simpa [moments] using hp
  | cons a rest ih =>
      intro past u hp hok hu
      obtain ⟨v, hv, hr⟩ := Option.bind_eq_some_iff.mp hu
      simp only [moments, hv] at hok ⊢
      have hk := keep past u a v hp (hok _ List.mem_cons_self) hv
      have := ih _ v hk (fun m hm => hok m (List.mem_cons_of_mem _ hm)) hr
      simpa using this

/-- What holds at the start and is kept by the rules of allowed steps holds at the end of every
run. -/
theorem run_induction {P : List Moment → System → Prop} {A : Moment → Prop} (start : P [] s)
    (keep : ∀ past u a u', P past u → A ⟨u, a⟩ → Step u a u' → P (past ++ [⟨u, a⟩]) u')
    {as : List Action} (hok : ∀ m ∈ s.moments as, A m) (hr : s.run? as = some t) :
    P (s.moments as) t :=
  run_induction_step? start (fun past u a u' hp ha h => keep past u a u' hp ha (step_of h)) hok hr

/-- What holds at the start and is kept by every step holds at the end of every run of allowed
actions. -/
theorem run_invariant {P : System → Prop} {A : Action → Prop} (start : P s)
    (keep : ∀ u a u', P u → A a → Step u a u' → P u') {as : List Action}
    (hok : ∀ a ∈ as, A a) (hr : s.run? as = some t) : P t := by
  have hm : ∀ m ∈ s.moments as, A m.action := fun _ hm => hok _ (action_mem_of_mem_moments hm)
  exact run_induction (P := fun _ u => P u) start
    (fun _ u a u' hp ha hs => keep u a u' hp ha hs) hm hr

/-- Time does not run backwards. -/
theorem Step.now_le {a : Action} (h : Step s a t) : s.now ≤ t.now := by
  cases h with
  | tick => exact Nat.le_add_right _ _
  | _ => exact Nat.le_refl _

/-- Time stands still unless it passes. -/
theorem Step.now_eq {a : Action} (h : Step s a t) : t.now = s.now ∨ ∃ span, a = .tick span := by
  cases h with
  | tick => exact Or.inr ⟨_, rfl⟩
  | _ => exact Or.inl rfl

/-- What stands at a place after one place was written. -/
theorem getElem?_set_cases {α : Type} {l : List α} {i j : Nat} {x y : α}
    (h : (l.set j x)[i]? = some y) : i = j ∧ y = x ∨ i ≠ j ∧ l[i]? = some y := by
  by_cases hi : i = j
  · subst hi
    have hl : i < l.length := by simpa using (List.getElem?_eq_some_iff.mp h).1
    rw [List.getElem?_set_self hl] at h
    exact Or.inl ⟨rfl, (Option.some.inj h).symm⟩
  · rw [List.getElem?_set_ne (Ne.symm hi)] at h
    exact Or.inr ⟨hi, h⟩

/-- Whoever is in a list stays in it when another one is replaced. -/
theorem eq_or_mem_set {α : Type} {l : List α} {j : Nat} {x y z : α} (hx : l[j]? = some x)
    (hy : y ∈ l) : y = x ∨ y ∈ l.set j z := by
  obtain ⟨k, hk⟩ := List.mem_iff_getElem?.mp hy
  by_cases hj : j = k
  · subst hj
    exact Or.inl (Option.some.inj (hk.symm.trans hx))
  · exact Or.inr (List.mem_of_getElem? ((List.getElem?_set_ne hj).trans hk))

/-! ### Callers -/

/-- What a step does to the callers: one of them goes on, is dropped or comes, or they stay as they
are. -/
theorem Step.calls_cases {a : Action} (h : Step s a t) :
    t.calls = s.calls ∨
      (∃ i id p, a = .get i id p ∧ i < s.caches.length ∧
        t.calls = s.calls ++ [{ cache := i, id, priority := p }]) ∨
      (∃ j x n, a = .cancel j ∧ s.calls[j]? = some x ∧ t.calls = s.calls.set j (x.cancel n).1) ∨
      ∃ j fault x x' c n events, a = .call j fault ∧ s.calls[j]? = some x ∧
        s.caches[x.cache]? = some c ∧
        x.Step c.settings s.now fault c.notifier s.store x' n t.store events ∧
        t.calls = s.calls.set j x' := by
  cases h with
  | get hi => exact Or.inr (Or.inl ⟨_, _, _, rfl, hi, rfl⟩)
  | cancel hx hc => exact Or.inr (Or.inr (Or.inl ⟨_, _, _, rfl, hx, rfl⟩))
  | call hx hc hs => exact Or.inr (Or.inr (Or.inr ⟨_, _, _, _, _, _, _, rfl, hx, hc, hs, rfl⟩))
  | _ => exact Or.inl rfl

/-- Caches stay. -/
theorem Step.caches_length_le {a : Action} (h : Step s a t) :
    s.caches.length ≤ t.caches.length := by
  have set (i : Nat) (c : Cache) : s.caches.length ≤ (s.caches.set i c).length :=
    Nat.le_of_eq List.length_set.symm
  have append (c : Cache) : s.caches.length ≤ (s.caches ++ [c]).length := by
    rw [List.length_append]
    exact Nat.le_add_right _ _
  cases h with
  | openCache => exact append _
  | openNotifier => exact append _
  | notifier => exact set _ _
  | loop => exact set _ _
  | worker => exact set _ _
  | call => exact set _ _
  | cancel => exact set _ _
  | closing => exact set _ _
  | drop => exact set _ _
  | watch => exact set _ _
  | leave => exact set _ _
  | release => exact set _ _
  | _ => exact Nat.le_refl _

/-! ### One queue -/

/-- All caches work on the queue with the keys `k`. -/
def OneQueue (k : Keys) (s : System) : Prop :=
  ∀ c ∈ s.caches, c.settings.keys = k ∧ c.notifier.keys = k

variable {k : Keys} {c c' : Cache} {i : Nat}

theorem oneQueue_start (k : Keys) : OneQueue k {} := fun _ h => (List.not_mem_nil h).elim

theorem OneQueue.of_getElem? (h : s.OneQueue k) (hc : s.caches[i]? = some c) :
    c.settings.keys = k ∧ c.notifier.keys = k :=
  h c (List.mem_of_getElem? hc)

/-- A cache keeps its settings and the queue of its notifier. -/
theorem OneQueue.set (h : s.OneQueue k) (hc : s.caches[i]? = some c)
    (hs : c'.settings = c.settings) (hn : c'.notifier.wired = c.notifier.wired) :
    ∀ d ∈ s.caches.set i c', d.settings.keys = k ∧ d.notifier.keys = k := by
  intro d hd
  rcases List.mem_or_eq_of_mem_set hd with hd | rfl
  · exact h d hd
  · have hk : d.notifier.keys = c.notifier.keys := congrArg Prod.fst hn
    rw [hs, hk]
    exact h.of_getElem? hc

theorem OneQueue.append (h : s.OneQueue k) (hs : c.settings.keys = k) (hn : c.notifier.keys = k) :
    ∀ d ∈ s.caches ++ [c], d.settings.keys = k ∧ d.notifier.keys = k := by
  intro d hd
  rcases List.mem_append.mp hd with hd | hd
  · exact h d hd
  · obtain rfl := List.mem_singleton.mp hd
    exact ⟨hs, hn⟩

/-- Actions that name one queue only keep all caches on it. -/
theorem Step.oneQueue {q : String} {a : Action} (h : Step s a t) (ha : a.On q)
    (hs : s.OneQueue ⟨q⟩) : t.OneQueue ⟨q⟩ := by
  cases h with
  | notifier hc hn => exact hs.set hc rfl hn.wired_eq
  | loop hc hp hl => exact hs.set hc rfl rfl
  | worker hc hp hw => exact hs.set hc rfl rfl
  | call hx hc hx' => exact hs.set hc rfl (congrArg Prod.fst hx'.desk_eq)
  | @cancel j x c hx hc => exact hs.set hc rfl (congrArg Prod.fst (Call.desk_cancel x c.notifier))
  | closing hx hc hx' =>
      obtain ⟨he, hn, -⟩ := Closing.step_keeps hx'
      exact hs.set hc he (congrArg Notifier.wired hn)
  | @openCache settings computes events hr =>
      have hk : settings.keys = ⟨q⟩ := congrArg Keys.mk (ha _ rfl)
      exact hs.append hk hk
  | @openNotifier k =>
      have hk : k.name = q := ha _ rfl
      exact hs.append (congrArg Keys.mk hk) (congrArg Keys.mk hk)
  | drop hc => exact hs.set hc rfl rfl
  | watch hc hn => exact hs.set hc rfl (congrArg Prod.fst (Notifier.desk_subscribe? hn))
  | leave hc => exact hs.set hc rfl rfl
  | release hc => exact hs.set hc rfl (congrArg Prod.fst (Notifier.desk_release _ _))
  | _ => exact hs

/-- Then the store is asked about that queue only. -/
theorem Asks.keys_eq {q : String} {a : Action} {op : Store.Op} (h : Asks s a op)
    (hs : s.OneQueue ⟨q⟩) (ha : a.On q) : ∀ l ∈ op.keys?, l = ⟨q⟩ := by
  intro l hl
  cases h with
  | check hc =>
      obtain rfl := Option.some.inj hl
      exact (hs.of_getElem? hc).2
  | claim hc =>
      obtain rfl := Option.some.inj hl
      exact (hs.of_getElem? hc).1
  | write hc hp hk =>
      obtain rfl := Option.some.inj hl
      exact (hs.of_getElem? hc).1
  | look hx hc =>
      obtain rfl := Option.some.inj hl
      exact (hs.of_getElem? hc).1
  | ask hx hc =>
      obtain rfl := Option.some.inj hl
      exact (hs.of_getElem? hc).1
  | outside ho hf => exact Action.keys_of_op? ho ha l hl
  | _ => cases hl

end System

end ReadThrough
