import ReadThrough.Proofs.System.Exits

/-! # What a shutdown waits for

A shutdown waits for the background tasks that it has taken over, and the first one takes them all.

* **Charge** (`System.Charge`).  Nobody has taken over the tasks of a cache, or all of them have
  ended, or a shutdown still waits for those that have not, or it was dropped.
* **Main statement** (`shutdown_waits`).  When a shutdown returns, all tasks have ended, unless
  another one is still waiting for them or was dropped.  In these cases none of them need have
  ended (`returns_early`). -/

namespace ReadThrough

namespace System

variable {s s' : System} {a : Action} {i j : Nat} {c c' : Cache} {x x' : Closing}

/-- Who is in charge of the background tasks of cache `i`. -/
inductive Charge (s : System) (i : Nat) (c : Cache) : Prop
  /-- No shutdown has taken them over. -/
  | untaken (hb : c.background = Cache.tasks c.pool)
      (hx : ∀ x ∈ s.closings, x.cache = i → x.phase ≠ .done ∧ ∀ rest, x.phase ≠ .joining rest)
  /-- A shutdown waits for those that may go on. -/
  | awaited {x : Closing} {rest : List TaskRef} (hx : x ∈ s.closings) (hi : x.cache = i)
      (hp : x.phase = .joining rest)
      (hr : ∀ r ∈ Cache.tasks c.pool, r ∉ rest → c.taskEnded r = true)
  /-- The shutdown that took them over was dropped. -/
  | forsaken {x : Closing} (hx : x ∈ s.closings) (hi : x.cache = i) (hp : x.phase = .cancelled)
  /-- All of them have ended. -/
  | ended (he : ∀ r ∈ Cache.tasks c.pool, c.taskEnded r = true)

/-- Steps that take nothing over leave the same one in charge, or drop it. -/
theorem Charge.keep (h : s.Charge i c) (hw : c.Winds c') (hb : c'.background = c.background)
    (hnew : ∀ x ∈ s'.closings, x.cache = i →
      x ∈ s.closings ∨ x.phase ≠ .done ∧ ∀ rest, x.phase ≠ .joining rest)
    (hold : ∀ x ∈ s.closings, x.cache = i →
      x.phase = .cancelled ∨ (∃ rest, x.phase = .joining rest) →
      x ∈ s'.closings ∨ ∃ y ∈ s'.closings, y.cache = i ∧ y.phase = .cancelled) :
    s'.Charge i c' := by
  cases h with
  | untaken hu hx =>
      refine .untaken (by rw [hb, hu, hw.tasks]) fun x hx' hi => ?_
      rcases hnew x hx' hi with hm | hp
      · exact hx x hm hi
      · exact hp
  | awaited hx hi hp hr =>
      rcases hold _ hx hi (Or.inr ⟨_, hp⟩) with hx' | ⟨y, hy, hi', hp'⟩
      · refine .awaited hx' hi hp fun r ht hn => hw.ended r (hr r ?_ hn)
        rwa [← hw.tasks]
      · exact .forsaken hy hi' hp'
  | forsaken hx hi hp =>
      rcases hold _ hx hi (Or.inl hp) with hx' | ⟨y, hy, hi', hp'⟩
      · exact .forsaken hx' hi hp
      · exact .forsaken hy hi' hp'
  | ended he =>
      refine .ended fun r hr => hw.ended r (he r ?_)
      rwa [← hw.tasks]

/-- A step of a shutdown of the cache. -/
theorem Charge.step {events : List Event} (h : s.Charge i c) (hx : s.closings[j]? = some x)
    (hi : x.cache = i) (hs : x.step? c = some (x', c', events))
    (hcs : s'.closings = s.closings.set j x') : s'.Charge i c' := by
  obtain ⟨hi', hcases⟩ := Closing.step_cases hs
  have hj := (List.getElem?_eq_some_iff.mp hx).1
  have hmem : x' ∈ s'.closings := hcs ▸ List.mem_set hj x'
  have stays {y : Closing} (hy : y ∈ s.closings) (hp : y.phase ≠ x.phase) : y ∈ s'.closings := by
    rw [hcs]
    exact (eq_or_mem_set hx hy).resolve_left fun he => hp (by rw [he])
  rcases hcases with ⟨hp, hp', rfl⟩ | ⟨hp, hp', rfl⟩ | ⟨t, rest, hp, he, hp', rfl⟩ | ⟨hp, hp', rfl⟩
  · refine h.keep (.of_pool rfl (fun _ => rfl) id) rfl (fun y hy _ => ?_) fun y hy _ hq => ?_
    · rw [hcs] at hy
      rcases List.mem_or_eq_of_mem_set hy with hy | rfl
      · exact Or.inl hy
      · right
        rw [hp']
        exact ⟨nofun, nofun⟩
    · refine Or.inl (stays hy ?_)
      rw [hp]
      rcases hq with hq | ⟨rest, hq⟩ <;> rw [hq] <;> nofun
  · -- whoever takes the tasks over waits for them, and later ones get nothing
    cases h with
    | untaken hb _ =>
        exact .awaited hmem (hi'.trans hi) hp' fun r hr hn => absurd (hb ▸ hr) hn
    | awaited hy hiy hpy hr => exact .awaited (stays hy (by rw [hpy, hp]; nofun)) hiy hpy hr
    | forsaken hy hiy hpy => exact .forsaken (stays hy (by rw [hpy, hp]; nofun)) hiy hpy
    | ended he => exact .ended he
  · cases h with
    | untaken _ hn => exact absurd hp ((hn x (List.mem_of_getElem? hx) hi).2 _)
    | @awaited y _ hy hiy hpy hr =>
        rcases eq_or_mem_set hx hy with rfl | hy'
        · obtain rfl : _ = t :: rest := by simpa [hpy] using hp
          refine .awaited hmem (hi'.trans hi) hp' fun r hm hn => ?_
          by_cases hrt : r = t
          · rw [hrt, he]
          · exact hr r hm fun hin => (List.mem_cons.mp hin).elim hrt hn
        · exact .awaited (hcs ▸ hy') hiy hpy hr
    | forsaken hy hiy hpy => exact .forsaken (stays hy (by rw [hpy, hp]; nofun)) hiy hpy
    | ended he => exact .ended he
  · cases h with
    | untaken _ hn => exact absurd hp ((hn x (List.mem_of_getElem? hx) hi).2 _)
    | @awaited y _ hy hiy hpy hr =>
        rcases eq_or_mem_set hx hy with rfl | hy'
        · obtain rfl : _ = [] := by simpa [hpy] using hp
          exact .ended fun r hm => hr r hm List.not_mem_nil
        · exact .awaited (hcs ▸ hy') hiy hpy hr
    | forsaken hy hiy hpy => exact .forsaken (stays hy (by rw [hpy, hp]; nofun)) hiy hpy
    | ended he => exact .ended he

/-- What a step does to the shutdowns: one of them goes on, is dropped or comes, or they stay as
they are. -/
theorem Step.closings_cases (h : Step s a s') :
    (∀ j, a ≠ .closing j) ∧
      (s'.closings = s.closings ∨
        (∃ i, i < s.caches.length ∧ s'.closings = s.closings ++ [{ cache := i }]) ∨
        ∃ j x, s.closings[j]? = some x ∧ s'.closings = s.closings.set j
          (if x.phase = .done then x else { x with phase := .cancelled })) ∨
    ∃ j x x' c c' events, s.closings[j]? = some x ∧ s.caches[x.cache]? = some c ∧
      x.step? c = some (x', c', events) ∧ s'.closings = s.closings.set j x' ∧
      s'.caches = s.caches.set x.cache c' := by
  cases h with
  | closing hx hc hs => exact Or.inr ⟨_, _, _, _, _, _, hx, hc, hs, rfl, rfl⟩
  | shutdown hi => exact Or.inl ⟨nofun, Or.inr (Or.inl ⟨_, hi, rfl⟩)⟩
  | cancelClosing hx => exact Or.inl ⟨nofun, Or.inr (Or.inr ⟨_, _, hx, rfl⟩)⟩
  | outside ho => exact Or.inl ⟨fun j ha => (by rw [ha] at ho; cases ho), Or.inl rfl⟩
  | denied ho => exact Or.inl ⟨fun j ha => (by rw [ha] at ho; cases ho), Or.inl rfl⟩
  | _ => exact Or.inl ⟨nofun, Or.inl rfl⟩

/-- Nobody has taken over the tasks of a cache that was just started. -/
theorem Step.opened (h : Step s a s') (hi : s.caches.length ≤ i) (hc : s'.caches[i]? = some c') :
    c'.background = Cache.tasks c'.pool ∧ s'.closings = s.closings := by
  have old {l : List Cache} (hl : l.length = s.caches.length) (hc : l[i]? = some c') : False := by
    have hlt := (List.getElem?_eq_some_iff.mp hc).1
    omega
  have set {l : List Cache} {k : Nat} {d : Cache} (hl : l = s.caches.set k d)
      (hc : l[i]? = some c') : False := old (by rw [hl, List.length_set]) hc
  have new {settings : Settings} {computes : Bool} {feed : Nat}
      (hc : (s.caches ++ [Cache.fresh settings computes feed])[i]? = some c') :
      c'.background = Cache.tasks c'.pool := by
    rw [List.getElem?_append_right hi] at hc
    obtain rfl := List.mem_singleton.mp (List.mem_of_getElem? hc)
    rfl
  cases h with
  | openCache => exact ⟨new hc, rfl⟩
  | openNotifier => exact ⟨new hc, rfl⟩
  | notifier => exact (set rfl hc).elim
  | loop => exact (set rfl hc).elim
  | worker => exact (set rfl hc).elim
  | call => exact (set rfl hc).elim
  | cancel => exact (set rfl hc).elim
  | closing => exact (set rfl hc).elim
  | drop => exact (set rfl hc).elim
  | watch => exact (set rfl hc).elim
  | leave => exact (set rfl hc).elim
  | release => exact (set rfl hc).elim
  | _ => exact (old rfl hc).elim

/-- Somebody is in charge of the tasks of every cache, and whoever has taken them over has raised
the stop signal first. -/
structure Charged (s : System) : Prop where
  charge : ∀ i c, s.caches[i]? = some c → s.Charge i c
  placed : ∀ x ∈ s.closings, x.cache < s.caches.length
  signalled : ∀ x ∈ s.closings, x.phase ≠ .signalling → x.phase ≠ .cancelled →
    ∀ c, s.caches[x.cache]? = some c → c.stopping = true

theorem charged_start : Charged {} where
  charge _ _ h := nomatch h
  placed _ h := nomatch h
  signalled _ h := nomatch h

/-- The cache of a shutdown after a step, with the cache before it. -/
theorem Charged.exists_cache (hs : s.Charged) (h : Step s a s') (hx : x ∈ s.closings)
    (hc : s'.caches[x.cache]? = some c') :
    ∃ c, s.caches[x.cache]? = some c ∧ c.Winds c' := by
  have hi := hs.placed x hx
  obtain ⟨d, hd, hw, -⟩ := h.winds (List.getElem?_eq_getElem hi)
  obtain rfl := Option.some.inj (hc.symm.trans hd)
  exact ⟨_, List.getElem?_eq_getElem hi, hw⟩

theorem Step.charge (h : Step s a s') (hs : s.Charged) (hc' : s'.caches[i]? = some c') :
    s'.Charge i c' := by
  rcases Nat.lt_or_ge i s.caches.length with hi | hi
  · have hc := List.getElem?_eq_getElem hi
    obtain ⟨d, hd, hw, hb⟩ := h.winds hc
    obtain rfl := Option.some.inj (hc'.symm.trans hd)
    have hcharge := hs.charge i _ hc
    rcases h.closings_cases with ⟨ha, he | ⟨k, -, he⟩ | ⟨j, x, hx, he⟩⟩ |
      ⟨j, x, x', c, d', events, hx, hcx, hstep, he, hcs⟩
    · exact hcharge.keep hw (hb ha) (fun y hy _ => Or.inl (he ▸ hy))
        fun y hy _ _ => Or.inl (he ▸ hy)
    · refine hcharge.keep hw (hb ha) (fun y hy _ => ?_) fun y hy _ _ =>
        Or.inl (he ▸ List.mem_append_left _ hy)
      rw [he] at hy
      rcases List.mem_append.mp hy with hy | hy
      · exact Or.inl hy
      · obtain rfl := List.mem_singleton.mp hy
        exact Or.inr ⟨nofun, nofun⟩
    · refine hcharge.keep hw (hb ha) (fun y hy _ => ?_) fun y hy hi' hp => ?_
      · rw [he] at hy
        rcases List.mem_or_eq_of_mem_set hy with hy | rfl
        · exact Or.inl hy
        · split
          · exact Or.inl (List.mem_of_getElem? hx)
          · exact Or.inr ⟨nofun, nofun⟩
      · rw [he]
        refine (eq_or_mem_set hx hy).symm.imp_right ?_
        rintro rfl
        refine ⟨_, List.mem_set (List.getElem?_eq_some_iff.mp hx).1 _, ?_⟩
        rw [if_neg]
        · exact ⟨hi', rfl⟩
        · rcases hp with hp | ⟨rest, hp⟩ <;> rw [hp] <;> nofun
    · rw [hcs] at hc'
      rcases getElem?_set_cases hc' with ⟨rfl, rfl⟩ | ⟨hne, hold⟩
      · obtain rfl := Option.some.inj (hc.symm.trans hcx)
        exact hcharge.step hx rfl hstep he
      · -- a shutdown of another cache
        obtain rfl := Option.some.inj (hc.symm.trans hold)
        have hx' : x'.cache ≠ i := fun h => hne ((Closing.step_cases hstep).1.symm.trans h).symm
        refine hcharge.keep hw rfl (fun y hy hiy => ?_) fun y hy hiy _ => Or.inl ?_
        · rw [he] at hy
          rcases List.mem_or_eq_of_mem_set hy with hy | rfl
          · exact Or.inl hy
          · exact absurd hiy hx'
        · rw [he]
          exact (eq_or_mem_set hx hy).resolve_left fun hyx => hne (by rw [← hiy, hyx])
  · obtain ⟨hb, he⟩ := h.opened hi hc'
    refine .untaken hb fun x hx hix => ?_
    have hlt := hs.placed x (he ▸ hx)
    omega

/-- Where a shutdown comes from: it was there, it is new, it was dropped or it went on. -/
theorem Step.closing_cases {y : Closing} (h : Step s a s') (hy : y ∈ s'.closings) :
    y ∈ s.closings ∨ (y.cache < s.caches.length ∧ y.phase = .signalling) ∨
      (∃ x ∈ s.closings, y = { x with phase := .cancelled }) ∨
      ∃ x ∈ s.closings, ∃ c c' events, s.caches[x.cache]? = some c ∧
        x.step? c = some (y, c', events) ∧ s'.caches = s.caches.set x.cache c' := by
  rcases h.closings_cases with ⟨-, he | ⟨k, hk, he⟩ | ⟨j, x, hx, he⟩⟩ |
    ⟨j, x, x', c, c', events, hx, hc, hstep, he, hcs⟩
  · exact Or.inl (he ▸ hy)
  · rw [he] at hy
    rcases List.mem_append.mp hy with hy | hy
    · exact Or.inl hy
    · obtain rfl := List.mem_singleton.mp hy
      exact Or.inr (Or.inl ⟨hk, rfl⟩)
  · rw [he] at hy
    rcases List.mem_or_eq_of_mem_set hy with hy | rfl
    · exact Or.inl hy
    · have hx := List.mem_of_getElem? hx
      split
      · exact Or.inl hx
      · exact Or.inr (Or.inr (Or.inl ⟨x, hx, rfl⟩))
  · rw [he] at hy
    rcases List.mem_or_eq_of_mem_set hy with hy | rfl
    · exact Or.inl hy
    · exact Or.inr (Or.inr (Or.inr ⟨x, List.mem_of_getElem? hx, c, c', events, hc, hstep, hcs⟩))

theorem Step.charged (h : Step s a s') (hs : s.Charged) : s'.Charged := by
  have hlen := h.caches_length_le
  have still {x : Closing} (hx : x ∈ s.closings) (hp : x.phase ≠ .signalling)
      (hp' : x.phase ≠ .cancelled) {c' : Cache} (hc : s'.caches[x.cache]? = some c') :
      c'.stopping = true := by
    obtain ⟨c, hc, hw⟩ := hs.exists_cache h hx hc
    exact hw.stopping (hs.signalled x hx hp hp' c hc)
  refine ⟨fun i c hc => h.charge hs hc, fun y hy => ?_, fun y hy hp hp' c' hc' => ?_⟩
  · rcases h.closing_cases hy with hy | ⟨hi, -⟩ | ⟨x, hx, rfl⟩ | ⟨x, hx, c, d, events, -, hstep, -⟩
    · exact Nat.lt_of_lt_of_le (hs.placed y hy) hlen
    · exact Nat.lt_of_lt_of_le hi hlen
    · exact Nat.lt_of_lt_of_le (hs.placed x hx) hlen
    · rw [(Closing.step_cases hstep).1]
      exact Nat.lt_of_lt_of_le (hs.placed x hx) hlen
  · rcases h.closing_cases hy with hy | ⟨-, hn⟩ | ⟨x, hx, rfl⟩ |
      ⟨x, hx, c, d, events, hcx, hstep, hcs⟩
    · exact still hy hp hp' hc'
    · exact absurd hn hp
    · exact absurd rfl hp'
    · obtain ⟨hi, hcases⟩ := Closing.step_cases hstep
      rw [hi] at hc'
      rcases hcases with ⟨-, -, rfl⟩ | ⟨hq, -⟩ | ⟨t, rest, hq, -⟩ | ⟨hq, -⟩
      · rw [hcs, List.getElem?_set_self (List.getElem?_eq_some_iff.mp hcx).1] at hc'
        obtain rfl := Option.some.inj hc'
        rfl
      all_goals exact still hx (by rw [hq]; nofun) (by rw [hq]; nofun) hc'

/-- **Whom a shutdown waits for.**  When a shutdown of a cache has returned, the stop signal is
raised, and all background tasks of the cache have ended, unless another shutdown of the cache still
waits for one of them or was dropped. -/
theorem shutdown_waits {as : List Action} (hr : run? {} as = some s)
    (hx : s.closings[j]? = some x) (hd : x.phase = .done) (hc : s.caches[x.cache]? = some c) :
    c.stopping = true ∧ ((∀ r ∈ Cache.tasks c.pool, c.taskEnded r = true) ∨
      ∃ y ∈ s.closings, y.cache = x.cache ∧ (y.phase = .cancelled ∨
        ∃ rest, y.phase = .joining rest ∧ ∃ r ∈ rest, c.taskEnded r = false)) := by
  have hs : s.Charged := run_invariant (P := Charged) (A := fun _ => True) charged_start
    (fun _ _ _ hs _ h => h.charged hs) (fun _ _ => trivial) hr
  have hmem := List.mem_of_getElem? hx
  refine ⟨hs.signalled x hmem (by rw [hd]; nofun) (by rw [hd]; nofun) c hc, ?_⟩
  cases hs.charge x.cache c hc with
  | untaken _ hn => exact absurd hd (hn x hmem rfl).1
  | ended he => exact Or.inl he
  | forsaken hy hi hp => exact Or.inr ⟨_, hy, hi, Or.inl hp⟩
  | @awaited y rest hy hi hp hr =>
      by_cases he : ∀ r ∈ Cache.tasks c.pool, c.taskEnded r = true
      · exact Or.inl he
      · obtain ⟨r, hrt⟩ := Classical.not_forall.mp he
        obtain ⟨ht, hrun⟩ := Classical.not_imp.mp hrt
        have hin : r ∈ rest := Decidable.byContradiction fun hn => hrun (hr r ht hn)
        exact Or.inr ⟨y, hy, hi, Or.inr ⟨rest, hp, r, hin, Bool.eq_false_iff.mpr hrun⟩⟩

/-- A cache is shut down twice, and the second shutdown overtakes the first one. -/
def overtaken : List Action :=
  .openCache { queue := "q", workers := 1 } true none :: .shutdown 0 :: .shutdown 0 ::
    (List.replicate 2 (.closing 0) ++ List.replicate 3 (.closing 1))

/-- A shutdown is dropped while it waits, and the next one has nobody to wait for. -/
def forgotten : List Action :=
  .openCache { queue := "q", workers := 1 } true none :: .shutdown 0 ::
    (List.replicate 2 (.closing 0) ++ .cancelClosing 0 :: .shutdown 0 ::
      List.replicate 3 (.closing 1))

/-- After both runs the second shutdown has returned, and none of the background tasks has ended. -/
theorem returns_early : ∀ as ∈ [overtaken, forgotten], ∃ s x c, run? {} as = some s ∧
    s.closings[1]? = some x ∧ x.phase = .done ∧ s.caches[x.cache]? = some c ∧
    Cache.tasks c.pool = [.notifier, .loop, .worker 0] ∧
    ∀ r ∈ Cache.tasks c.pool, c.taskEnded r = false := by
  have hd : ∀ as ∈ [overtaken, forgotten], (run? {} as).any (fun s => s.closings[1]?.any fun x =>
      s.caches[x.cache]?.any fun c => decide (x.phase = .done ∧
        Cache.tasks c.pool = [.notifier, .loop, .worker 0] ∧
        ∀ r ∈ Cache.tasks c.pool, c.taskEnded r = false)) = true := by
    decide +kernel
  intro as has
  obtain ⟨s, hr, hd⟩ := (Option.any_eq_true _ _).mp (hd as has)
  obtain ⟨x, hx, hd⟩ := (Option.any_eq_true _ _).mp hd
  obtain ⟨c, hc, hd⟩ := (Option.any_eq_true _ _).mp hd
  obtain ⟨hp, ht, he⟩ := of_decide_eq_true hd
  exact ⟨s, x, c, hr, hx, hp, hc, ht, he⟩

end System

end ReadThrough
