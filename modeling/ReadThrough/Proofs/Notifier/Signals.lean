import ReadThrough.Proofs.Notifier.Registry

/-! # Who is woken

A step of a notifier wakes the waiters of at most one id (`Notifier.rouses?`): the id of the message
that it takes, or the id that it checks and finds finished.  It sends one signal to each of the
waiters that are registered for the id (`Notifier.wakes`).

As long as the lists are tidy, none of them was sent a signal before, and none of them is listed
afterwards (`Step.not_listed_of_wakes`). -/

namespace ReadThrough

namespace Notifier

/-- The id whose waiters a step wakes. -/
def rouses? (n : Notifier) (s : Store) (now : Instant) (fault : Option Error) : Move → Option Id
  | .message => ((s.receive? n.feed).map (·.1)).filter (· ≠ "")
  | .check id => if fault.isNone ∧ s.finished n.keys id now then some id else none
  | _ => none

/-- The waiters to whom a step sends their signal. -/
def wakes (n : Notifier) (s : Store) (now : Instant) (fault : Option Error) (m : Move) : List Nat :=
  match n.rouses? s now fault m with
  | some id => n.watchers.getD id []
  | none => []

variable {n n' : Notifier} {s s' : Store} {now : Instant} {stopping : Bool}
  {fault : Option Error} {m : Move} {events : List Event} {id j : Id} {w : Nat}
  {owed : Id → Nat → Prop}

theorem mem_wakes : w ∈ n.wakes s now fault m ↔
    ∃ id, n.rouses? s now fault m = some id ∧ n.Registered id w := by
  unfold wakes
  cases n.rouses? s now fault m with
  | none => simp
  | some id =>
      refine ⟨fun h => ⟨id, rfl, registered_of_mem_getD h⟩, fun ⟨j, hj, ws, hw, hm⟩ => ?_⟩
      obtain rfl := Option.some.inj hj
      simpa [Std.ExtTreeMap.getD_eq_getD_getElem?, hw] using hm

/-- A check wakes its id if the answer is that it is finished. -/
theorem rouses?_check {answer : Except Error Bool}
    (ha : s.attempt fault (·.isFinished n.keys id now) = (answer, s')) :
    n.rouses? s now fault (.check id) = some id ∧ answer = .ok true ∨
      n.rouses? s now fault (.check id) = none ∧ ∀ k : Notifier, (k.checked id answer).1 = k := by
  unfold Store.attempt at ha
  cases fault with
  | some e =>
      obtain ⟨rfl, -⟩ := Prod.mk.inj ha
      exact Or.inr ⟨rfl, fun _ => rfl⟩
  | none =>
      obtain ⟨rfl, -⟩ := Prod.mk.inj ha
      cases hf : s.finished n.keys id now with
      | true => exact Or.inl ⟨by simp [rouses?, hf], rfl⟩
      | false => exact Or.inr ⟨by simp [rouses?, hf], fun _ => rfl⟩

/-- A step that wakes an id does to the waiters what waking does; any other one leaves the waiters
alone, or is the end. -/
theorem Step.roused (hs : Step n s now stopping fault m n' s' events) :
    (∃ id, n.rouses? s now fault m = some id ∧ n'.waiters = (n.wake id).1.waiters ∧
      n'.requests = n.requests ∧ n'.watchers = (n.wake id).1.watchers) ∨
    n.rouses? s now fault m = none ∧ (n'.waiters = n.waiters ∨ n' = n.stop) := by
  cases hs with
  | stop hp hs => exact Or.inr ⟨rfl, Or.inr rfl⟩
  | hangUp hp he => exact Or.inr ⟨rfl, Or.inr rfl⟩
  | watch hp hr => exact Or.inr ⟨rfl, Or.inl rfl⟩
  | release hp hr => exact Or.inr ⟨rfl, Or.inl (waiters_forget _ _)⟩
  | @announcement id _ hp hr hi =>
      exact Or.inl ⟨id, by simp [rouses?, hr, hi], rfl, requests_wake n id, rfl⟩
  | sentinel hp hr => exact Or.inr ⟨by simp [rouses?, hr], Or.inl rfl⟩
  | @check id _ _ hp ha =>
      rcases rouses?_check ha with ⟨hr, rfl⟩ | ⟨hr, he⟩
      · exact Or.inl ⟨id, hr, rfl, requests_wake n id, rfl⟩
      · exact Or.inr ⟨hr, Or.inl (by rw [settle, he])⟩
  | @recheck id _ _ _ _ hp hi ha =>
      rcases rouses?_check ha with ⟨hr, rfl⟩ | ⟨hr, he⟩
      · exact Or.inl ⟨id, hr, rfl, requests_wake n id, rfl⟩
      · exact Or.inr ⟨hr, Or.inl (by rw [he])⟩
  | conclude hp => exact Or.inr ⟨rfl, Or.inl rfl⟩

/-- One signal is sent to each of the waiters. -/
theorem Tidy.nodup_wakes (h : n.Tidy owed) : (n.wakes s now fault m).Nodup := by
  unfold wakes
  split
  · rename_i id hr
    rw [Std.ExtTreeMap.getD_eq_getD_getElem?]
    cases hw : n.watchers[id]? with
    | none => exact List.nodup_nil
    | some ws => exact h.apart id ws hw
  · exact List.nodup_nil

/-- Whoever is woken is not listed any more. -/
theorem Step.not_listed_of_wakes (hs : Step n s now stopping fault m n' s' events)
    (h : n.Tidy owed) (hw : w ∈ n.wakes s now fault m) : ¬ n'.Listed j w := by
  obtain ⟨id, hr, hreg⟩ := mem_wakes.mp hw
  rcases hs.roused with ⟨id', hr', -, hreq, hwatch⟩ | ⟨hr', -⟩
  · obtain rfl := Option.some.inj (hr.symm.trans hr')
    rintro (hq | ⟨ws, hj, hm⟩)
    · exact h.untaken _ _ _ (hreq ▸ hq) hreg
    · rw [hwatch] at hj
      obtain ⟨hj, hne⟩ := wake_some hj
      exact hne ((h.pends j w (Or.inr ⟨ws, hj, hm⟩)).inj (h.pends id w (Or.inr hreg)))
  · rw [hr] at hr'
    cases hr'

/-- Whoever has the signal after a step had it before, or gets it in this step. -/
theorem Step.woken (hs : Step n s now stopping fault m n' s' events)
    (hw : n'.signal w = .woken) : n.signal w = .woken ∨ w ∈ n.wakes s now fault m := by
  rcases hs.roused with ⟨id, hr, hx, -, -⟩ | ⟨-, hx | rfl⟩
  · rcases waiters_wake n id w with ⟨he, -⟩ | ⟨-, hreg⟩
    · left
      rw [signal, hx, he] at hw
      exact hw
    · exact Or.inr (mem_wakes.mpr ⟨id, hr, hreg⟩)
  · left
    rw [signal, hx] at hw
    exact hw
  · left
    unfold signal at hw ⊢
    rw [waiters_stop] at hw
    cases hy : n.waiters[w]? with
    | none => simp [hy] at hw
    | some y =>
        simp only [hy, Option.map_some] at hw
        split at hw
        · cases hw
        · exact hw

end Notifier

end ReadThrough
