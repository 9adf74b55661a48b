import ReadThrough.Proofs.Call.Waiting
import ReadThrough.Proofs.Notifier.Alert

/-! # A waiter that is told

A waiter is told of its id (`Notifier.Told`) if it is not live any more, or if it is registered and
the id waits in the feed.  Then nothing that the notifier (`Step.told`) or anybody else
(`Told.others`) does can leave it waiting: once the feed is empty, the waiter is not live
(`Told.not_live`).

* **Fading** (`Notifier.Fades`).  Waiters stay where they are, and none that was not live becomes
  live again.
* **Checks** (`Step.not_live_of_check`).  A check that finds the id finished tells all waiters that
  are registered for it. -/

namespace ReadThrough

namespace Notifier

/-- All waiters stay, and none of them listens again or loses its signal. -/
def Fades (n n' : Notifier) : Prop :=
  ∀ (w : Nat) (x : Waiter), n.waiters[w]? = some x → ∃ y, n'.waiters[w]? = some y ∧
    (y.listening = true → x.listening = true) ∧ (y.signal = .pending → x.signal = .pending)

variable {n n' : Notifier} {id : Id} {w : Nat}

theorem Fades.refl (n : Notifier) : Fades n n := fun _ x hx => ⟨x, hx, fun h => h, fun h => h⟩

theorem Fades.trans {n₁ n₂ n₃ : Notifier} (h : Fades n₁ n₂) (h' : Fades n₂ n₃) : Fades n₁ n₃ := by
  intro w x hx
  obtain ⟨y, hy, hl, hs⟩ := h w x hx
  obtain ⟨z, hz, hl', hs'⟩ := h' w y hy
  exact ⟨z, hz, fun h => hl (hl' h), fun h => hs (hs' h)⟩

/-- Waiters that are left alone have not faded. -/
theorem Fades.of_prefix
    (h : ∀ (w : Nat) (x : Waiter), n.waiters[w]? = some x → n'.waiters[w]? = some x) :
    Fades n n' :=
  fun w x hx => ⟨x, h w x hx, fun h => h, fun h => h⟩

theorem Fades.lt_length (h : Fades n n') (hw : w < n.waiters.length) : w < n'.waiters.length := by
  obtain ⟨y, hy, -⟩ := h w _ (List.getElem?_eq_getElem hw)
  exact (List.getElem?_eq_some_iff.mp hy).1

/-- Nobody comes to life. -/
theorem Fades.live (h : Fades n n') (hw : w < n.waiters.length) (hl : n'.Live w) : n.Live w := by
  have hx := List.getElem?_eq_getElem hw
  obtain ⟨y, hy, hlisten, hsignal⟩ := h w _ hx
  obtain ⟨z, hz, hl, hs⟩ := hl
  obtain rfl := Option.some.inj (hy.symm.trans hz)
  exact ⟨_, hx, hlisten hl, hsignal hs⟩

theorem Live.lt_length (h : n.Live w) : w < n.waiters.length := by
  obtain ⟨x, hx, -⟩ := h
  exact (List.getElem?_eq_some_iff.mp hx).1

theorem fades_release (n : Notifier) (id : Id) : Fades n (n.release id) :=
  Fades.of_prefix fun w => (spares_release n id w).waiter

theorem fades_subscribe? {v : Nat} (h : n.subscribe? id = some (v, n')) : Fades n n' :=
  Fades.of_prefix fun w => ((attends_subscribe? h).2.2 w).waiter

theorem fades_leave (n : Notifier) (v : Nat) : Fades n (n.leave v) := by
  intro w x hx
  by_cases hv : v = w
  · subst hv
    exact ⟨{ x with listening := false }, by simp [leave, hx], nofun, fun h => h⟩
  · exact ⟨x, by simp [leave, hv, hx], fun h => h, fun h => h⟩

section Steps

variable {s s' : Store} {now : Instant} {stopping : Bool} {fault : Option Error} {m : Move}
  {events : List Event}

theorem Step.fades (h : Step n s now stopping fault m n' s' events) : Fades n n' := by
  intro w x hx
  obtain ⟨y, hy, hl, hs⟩ := h.waiter hx
  exact ⟨y, hy, fun h => hl ▸ h, hs⟩

/-- A waiter that is still live is registered, and the id that it waits for is in the feed. -/
def Told (n : Notifier) (s : Store) (id : Id) (w : Nat) : Prop :=
  w < n.waiters.length ∧ (n.Live w → id ≠ "" ∧ n.Registered id w ∧ id ∈ s.inbox n.feed)

theorem told_of_not_live (hw : w < n.waiters.length) (h : ¬ n.Live w) (s : Store) (id : Id) :
    n.Told s id w :=
  ⟨hw, fun hl => absurd hl h⟩

/-- Once there are no messages left, nobody who was told is live. -/
theorem Told.not_live (h : n.Told s id w) (hs : s.inbox n.feed = []) : ¬ n.Live w := by
  intro hl
  obtain ⟨-, -, hi⟩ := h.2 hl
  rw [hs] at hi
  cases hi

/-- What others do keeps a waiter told, if the notifier keeps its messages while it watches. -/
theorem Told.others (h : n.Told s id w) (hf : Fades n n') (hd : n'.desk = n.desk)
    (hk : id ∈ n.watchers → ∀ m ∈ s.inbox n.feed, m ∈ s'.inbox n.feed) : n'.Told s' id w := by
  refine ⟨hf.lt_length h.1, fun hl => ?_⟩
  obtain ⟨hid, hr, hi⟩ := h.2 (hf.live h.1 hl)
  have hfeed : n'.feed = n.feed := congrArg (·.1.2) hd
  have hwatch : n'.watchers = n.watchers := congrArg (·.2.2) hd
  refine ⟨hid, ?_, ?_⟩
  · unfold Registered
    rw [hwatch]
    exact hr
  · rw [hfeed]
    exact hk hr.mem id hi

/-- What the notifier does keeps a waiter told: it takes the id out of the feed only to wake it. -/
theorem Step.told (h : Step n s now stopping fault m n' s' events) (ht : n.Told s id w) :
    n'.Told s' id w := by
  refine ⟨h.fades.lt_length ht.1, fun hl => ?_⟩
  obtain ⟨hid, hr, hi⟩ := ht.2 (h.fades.live ht.1 hl)
  have hfeed : n'.feed = n.feed := congrArg Prod.snd h.wired_eq
  refine ⟨hid, h.registered hr hl, ?_⟩
  rw [hfeed]
  have same {i : Id} {answer : Except Error Bool}
      (ha : s.attempt fault (·.isFinished n.keys i now) = (answer, s')) : id ∈ s'.inbox n.feed := by
    unfold Store.attempt at ha
    cases fault with
    | some e =>
        obtain ⟨-, rfl⟩ := Prod.mk.inj ha
        exact hi
    | none =>
        obtain ⟨-, rfl⟩ := Prod.mk.inj ha
        have hwire := Store.wire_afterFinished s n.keys i now
        rw [← (Store.feed_congr "" (Store.feeds_of_wire n.feed hwire)).1] at hi
        exact hi
  cases h with
  | stop hp hs => exact absurd hl (not_live_stop n w)
  | hangUp hp he => exact absurd hl (not_live_stop n w)
  | announcement hp hq hne =>
      obtain ⟨hbox, -⟩ := Store.receive?_some hq
      rw [hbox] at hi
      refine (List.mem_cons.mp hi).resolve_left ?_
      -- the id itself wakes the waiter
      rintro rfl
      exact (live_wake hl).2 hr
  | sentinel hp hq =>
      obtain ⟨hbox, -⟩ := Store.receive?_some hq
      rw [hbox] at hi
      exact (List.mem_cons.mp hi).resolve_left hid
  | check hp ha => exact same ha
  | recheck hp hx ha => exact same ha
  | _ => exact hi

/-- A check that finds its id finished leaves nobody live who is registered for it. -/
theorem Step.not_live_of_check (h : Step n s now stopping none (.check id) n' s' events)
    (hr : n.Registered id w) (hf : (s.entry n.keys id).finished now = true) : ¬ n'.Live w := by
  intro hl
  cases h with
  | check hp ha =>
      obtain ⟨rfl, -⟩ := check_answered ha
      rw [hf] at hl
      exact (live_wake hl).2 hr
  | recheck hp hx ha =>
      obtain ⟨rfl, -⟩ := check_answered ha
      rw [hf] at hl
      exact (live_wake hl).2 hr

end Steps

end Notifier

namespace Call

variable {x x' : Call} {settings : Settings} {now : Instant} {fault : Option Error}
  {n n' : Notifier} {s s' : Store} {events : List Event}

/-- Callers bring nobody to life. -/
theorem Step.fades (h : Step x settings now fault n s x' n' s' events) :
    Notifier.Fades n n' := by
  cases h with
  | reread hp ha hr hb =>
      exact Notifier.Fades.of_prefix fun w => (spares_wakeRelease _ n x.id w).waiter
  | subscribe hp hn =>
      refine Notifier.Fades.of_prefix fun w y hy => ?_
      rw [List.getElem?_append_left (List.getElem?_eq_some_iff.mp hy).1]
      exact hy
  | woken hp hs => exact Notifier.fades_leave n _
  | lost hp hs => exact Notifier.fades_leave n _
  | timedOut hp hs hl ht => exact Notifier.fades_leave n _
  | _ => exact Notifier.Fades.refl n

theorem fades_cancel (x : Call) (n : Notifier) : Notifier.Fades n (x.cancel n).2 := by
  unfold cancel
  dsimp only
  split
  · exact (Notifier.fades_leave n _).trans (Notifier.fades_release _ _)
  · exact Notifier.Fades.of_prefix fun w => (spares_wakeRelease _ n x.id w).waiter
  · exact Notifier.Fades.refl n

end Call

end ReadThrough
