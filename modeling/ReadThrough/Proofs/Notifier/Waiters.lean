import ReadThrough.Proofs.Notifier.Steps

/-! # Waiters and where they are listed

A waiter that listens and was not woken (`Notifier.Live`) is in one of two places: its watch is
still to be taken, or it is registered for its id (`Notifier.Listed`).

* **Nobody is forgotten.**  What the notifier does keeps a waiter listed as long as it is live
  (`Step.listed`), and registered if it was (`Step.registered`).
* **Nobody comes back.**  A waiter keeps listening or not, and once it has a signal it keeps one
  (`Step.waiter`). -/

namespace ReadThrough

namespace Waiter

/-- What may become of a waiter: it keeps listening or not, and gets no signal back. -/
def Follows (x y : Waiter) : Prop :=
  y.listening = x.listening ∧ (y.signal = .pending → x.signal = .pending)

theorem Follows.refl (x : Waiter) : x.Follows x := ⟨rfl, fun h => h⟩

theorem follows_wake (x : Waiter) : x.Follows x.wake := by
  unfold wake
  split
  · exact ⟨rfl, nofun⟩
  · exact Follows.refl x

end Waiter

namespace Notifier

/-- A waiter listens and has no signal yet. -/
def Live (n : Notifier) (w : Nat) : Prop :=
  ∃ x, n.waiters[w]? = some x ∧ x.listening = true ∧ x.signal = .pending

/-- A waiter is registered for an id. -/
def Registered (n : Notifier) (id : Id) (w : Nat) : Prop :=
  ∃ ws, n.watchers[id]? = some ws ∧ w ∈ ws

/-- The watch of a waiter is to be taken, or the waiter is registered. -/
def Listed (n : Notifier) (id : Id) (w : Nat) : Prop :=
  .watch id w ∈ n.requests ∨ n.Registered id w

/-- A live waiter is registered for an id. -/
structure Awaits (n : Notifier) (id : Id) (w : Nat) : Prop where
  registered : n.Registered id w
  live : n.Live w

variable {n n' : Notifier} {id j : Id} {w v : Nat}

theorem Registered.mem (h : n.Registered id w) : id ∈ n.watchers := by
  obtain ⟨ws, hw, -⟩ := h
  exact Std.ExtTreeMap.mem_iff_isSome_getElem?.mpr (by rw [hw]; rfl)

theorem Live.listens (h : n.Live w) : n.listens w = true := by
  obtain ⟨x, hx, hl, -⟩ := h
  unfold Notifier.listens
  rw [hx]
  exact hl

/-! ### Waking -/

/-- Waking the waiters of a list wakes each of them, once or more often. -/
theorem getElem?_foldl_wake (ws : List Nat) (l : List Waiter) (w : Nat) :
    (ws.foldl (fun all v => all.modify v Waiter.wake) l)[w]? =
      if w ∈ ws then l[w]?.map Waiter.wake else l[w]? := by
  have twice : ∀ x : Waiter, x.wake.wake = x.wake := by
    intro x
    unfold Waiter.wake
    split <;> simp_all
  induction ws generalizing l with
  | nil => simp
  | cons v rest ih =>
      rw [List.foldl_cons, ih, List.getElem?_modify]
      by_cases hv : v = w
      · subst hv
        cases l[v]? with
        | none => simp
        | some x => simp [twice]
      · simp [hv, Ne.symm hv]

/-- What waking an id makes of a waiter. -/
theorem waiters_wake (n : Notifier) (id : Id) (w : Nat) :
    (n.wake id).1.waiters[w]? = n.waiters[w]? ∧ ¬ n.Registered id w ∨
      (n.wake id).1.waiters[w]? = n.waiters[w]?.map Waiter.wake ∧ n.Registered id w := by
  unfold wake Registered
  cases hw : n.watchers[id]? with
  | none =>
      left
      exact ⟨rfl, fun ⟨ws, he, _⟩ => by cases he⟩
  | some ws =>
      dsimp only
      rw [getElem?_foldl_wake]
      by_cases hm : w ∈ ws
      · right
        exact ⟨if_pos hm, ws, rfl, hm⟩
      · left
        refine ⟨if_neg hm, fun ⟨vs, he, hm'⟩ => ?_⟩
        obtain rfl := Option.some.inj he
        exact hm hm'

/-- Whoever is live after an id was woken was not registered for it. -/
theorem live_wake (h : (n.wake id).1.Live w) : n.Live w ∧ ¬ n.Registered id w := by
  obtain ⟨x, hx, hl, hs⟩ := h
  rcases waiters_wake n id w with ⟨he, hr⟩ | ⟨he, -⟩
  · exact ⟨⟨x, he ▸ hx, hl, hs⟩, hr⟩
  · rw [he] at hx
    obtain ⟨y, -, rfl⟩ := Option.map_eq_some_iff.mp hx
    unfold Waiter.wake at hl hs
    split at hs
    · cases hs
    · rename_i hn
      rw [if_neg hn] at hl
      exact absurd hl hn

theorem registered_wake (h : n.Registered j w) (hl : (n.wake id).1.Live w) :
    (n.wake id).1.Registered j w := by
  have hj : j ≠ id := fun he => (live_wake hl).2 (he ▸ h)
  obtain ⟨ws, hw, hm⟩ := h
  refine ⟨ws, ?_, hm⟩
  unfold wake
  split
  · exact hw
  · have hc : ¬ id = j := fun he => hj he.symm
    simp [Std.ExtTreeMap.getElem?_erase, hc, hw]

/-! ### Registering and forgetting -/

theorem registered_register (n : Notifier) (id : Id) (w : Nat) :
    (n.register id w).Registered id w := by
  refine ⟨(n.watchers.getD id []).filter n.listens ++ [w], ?_, by simp⟩
  simp [register]

theorem Registered.register (h : n.Registered j v) (hl : n.Live v) (id : Id) (w : Nat) :
    (n.register id w).Registered j v := by
  obtain ⟨ws, hw, hm⟩ := h
  unfold Notifier.register Registered
  by_cases hj : id = j
  · subst hj
    refine ⟨_, Std.ExtTreeMap.getElem?_insert_self, ?_⟩
    refine List.mem_append_left _ (List.mem_filter.mpr ⟨?_, hl.listens⟩)
    simpa [Std.ExtTreeMap.getD_eq_getD_getElem?, hw] using hm
  · refine ⟨ws, ?_, hm⟩
    simp [Std.ExtTreeMap.getElem?_insert, hj, hw]

theorem Registered.forget (h : n.Registered j v) (hl : n.Live v) (id : Id) :
    (n.forget id).Registered j v := by
  obtain ⟨ws, hw, hm⟩ := h
  unfold Notifier.forget
  split
  · exact ⟨ws, hw, hm⟩
  · rename_i vs hv
    by_cases hj : id = j
    · subst hj
      obtain rfl := Option.some.inj (hw.symm.trans hv)
      have hm' : v ∈ ws.filter n.listens := List.mem_filter.mpr ⟨hm, hl.listens⟩
      split
      · rename_i he
        rw [he] at hm'
        cases hm'
      · exact ⟨_, Std.ExtTreeMap.getElem?_insert_self, hm'⟩
    · split
      · exact ⟨ws, by simp [Std.ExtTreeMap.getElem?_erase, hj, hw], hm⟩
      · exact ⟨ws, by simp [Std.ExtTreeMap.getElem?_insert, hj, hw], hm⟩

theorem Registered.prune (h : n.Registered j v) (hl : n.Live v) : n.prune.Registered j v := by
  obtain ⟨ws, hw, hm⟩ := h
  have hm' : v ∈ ws.filter n.listens := List.mem_filter.mpr ⟨hm, hl.listens⟩
  refine ⟨ws.filter n.listens, ?_, hm'⟩
  unfold Notifier.prune
  simp only [Std.ExtTreeMap.getElem?_filterMap, hw]
  cases hf : ws.filter n.listens with
  | nil =>
      rw [hf] at hm'
      cases hm'
  | cons x xs => simp [hf]

/-! ### What the notifier does -/

theorem waiter_wake {x : Waiter} (hx : n.waiters[w]? = some x) (id : Id) :
    ∃ y, (n.wake id).1.waiters[w]? = some y ∧ x.Follows y := by
  rcases waiters_wake n id w with ⟨he, -⟩ | ⟨he, -⟩
  · exact ⟨x, by rw [he, hx], Waiter.Follows.refl x⟩
  · exact ⟨x.wake, by rw [he, hx]; rfl, x.follows_wake⟩

theorem waiters_forget (n : Notifier) (id : Id) : (n.forget id).waiters = n.waiters := by
  unfold forget
  split
  · rfl
  · split <;> rfl

theorem waiter_checked {x : Waiter} (hx : n.waiters[w]? = some x) (id : Id)
    (answer : Except Error Bool) :
    ∃ y, (n.checked id answer).1.waiters[w]? = some y ∧ x.Follows y := by
  unfold checked
  split
  · exact waiter_wake hx id
  · exact ⟨x, hx, Waiter.Follows.refl x⟩
  · exact ⟨x, hx, Waiter.Follows.refl x⟩

theorem waiters_stop (n : Notifier) (w : Nat) :
    n.stop.waiters[w]? = n.waiters[w]?.map fun x =>
      if x.signal = .pending then { x with signal := .lost } else x :=
  List.getElem?_map

theorem waiter_stop {x : Waiter} (hx : n.waiters[w]? = some x) :
    ∃ y, n.stop.waiters[w]? = some y ∧ x.Follows y := by
  rw [waiters_stop, hx]
  by_cases hs : x.signal = .pending
  · refine ⟨{ x with signal := .lost }, ?_, rfl, nofun⟩
    simp [hs]
  · refine ⟨x, ?_, Waiter.Follows.refl x⟩
    simp [hs]

/-- Nobody is live once the notifier has ended. -/
theorem not_live_stop (n : Notifier) (w : Nat) : ¬ n.stop.Live w := by
  rintro ⟨x, hx, -, hs⟩
  rw [waiters_stop] at hx
  obtain ⟨y, -, rfl⟩ := Option.map_eq_some_iff.mp hx
  split at hs
  · cases hs
  · rename_i hn
    exact hn hs

variable {s s' : Store} {now : Instant} {stopping : Bool} {fault : Option Error} {m : Move}
  {events : List Event}

theorem Step.waiter (h : Step n s now stopping fault m n' s' events) {x : Waiter}
    (hx : n.waiters[w]? = some x) : ∃ y, n'.waiters[w]? = some y ∧ x.Follows y := by
  have same := Waiter.Follows.refl x
  cases h with
  | stop hp hs => exact waiter_stop hx
  | hangUp hp he => exact waiter_stop hx
  | watch hp hr => exact ⟨x, hx, same⟩
  | @release id rest hp hr =>
      refine ⟨x, ?_, same⟩
      show ({ n with requests := rest }.forget id).waiters[w]? = some x
      rw [waiters_forget]
      exact hx
  | announcement hp hr hi => exact waiter_wake hx _
  | sentinel hp hr => exact ⟨x, hx, same⟩
  | check hp ha => exact waiter_checked hx _ _
  | recheck hp hi ha => exact waiter_checked hx _ _
  | conclude hp => exact ⟨x, hx, same⟩

theorem registered_checked (h : n.Registered j w) {answer : Except Error Bool}
    (hl : (n.checked id answer).1.Live w) : (n.checked id answer).1.Registered j w := by
  unfold checked at *
  split at hl
  · exact registered_wake h hl
  · exact h
  · exact h

/-- Whoever is registered stays registered while it is live. -/
theorem Step.registered (h : Step n s now stopping fault m n' s' events) (hr : n.Registered j w)
    (hl : n'.Live w) : n'.Registered j w := by
  cases h with
  | stop hp hs => exact absurd hl (not_live_stop n w)
  | hangUp hp he => exact absurd hl (not_live_stop n w)
  | @watch id v rest hp hq =>
      exact Registered.register (n := { n with requests := rest }) hr hl id v
  | @release id rest hp hq =>
      have hl' : ({ n with requests := rest } : Notifier).Live w := by
        obtain ⟨x, hx, hx'⟩ := hl
        refine ⟨x, ?_, hx'⟩
        rw [← waiters_forget { n with requests := rest } id]
        exact hx
      exact Registered.forget (n := { n with requests := rest }) hr hl' id
  | announcement hp hq hi => exact registered_wake hr hl
  | sentinel hp hq => exact hr.prune hl
  | check hp ha => exact registered_checked hr hl
  | recheck hp hi ha => exact registered_checked hr hl
  | conclude hp => exact hr

theorem requests_wake (n : Notifier) (id : Id) : (n.wake id).1.requests = n.requests := by
  unfold wake
  split <;> rfl

theorem requests_checked (n : Notifier) (id : Id) (answer : Except Error Bool) :
    (n.checked id answer).1.requests = n.requests := by
  unfold checked
  split
  · exact requests_wake n id
  · rfl
  · rfl

theorem requests_forget (n : Notifier) (id : Id) : (n.forget id).requests = n.requests := by
  unfold forget
  split
  · rfl
  · split <;> rfl

/-- Whoever is listed stays listed while it is live. -/
theorem Step.listed (h : Step n s now stopping fault m n' s' events) (hn : n.Listed j w)
    (hl : n'.Live w) : n'.Listed j w := by
  rcases hn with hq | hr
  · cases h with
    | stop hp hs => exact absurd hl (not_live_stop n w)
    | hangUp hp he => exact absurd hl (not_live_stop n w)
    | @watch id v rest hp hr =>
        rw [hr] at hq
        rcases List.mem_cons.mp hq with he | hq
        · obtain ⟨rfl, rfl⟩ := Request.watch.inj he
          exact Or.inr (registered_register _ _ _)
        · exact Or.inl hq
    | @release id rest hp hr =>
        rw [hr] at hq
        refine Or.inl ?_
        show _ ∈ ({ n with requests := rest }.forget id).requests
        rw [requests_forget]
        exact (List.mem_cons.mp hq).resolve_left nofun
    | announcement hp hr hi => exact Or.inl ((requests_wake n _).symm ▸ hq)
    | sentinel hp hr => exact Or.inl hq
    | check hp ha => exact Or.inl ((requests_checked n _ _).symm ▸ hq)
    | recheck hp hi ha => exact Or.inl ((requests_checked n _ _).symm ▸ hq)
    | conclude hp => exact Or.inl hq
  · exact Or.inr (h.registered hr hl)

end Notifier

end ReadThrough
