import ReadThrough.Notifier

/-! # The steps of a notifier, one by one

Everything that a notifier can do by itself, as the rules of a relation (`Notifier.Step`,
`step_of`).  A check takes the answer of the store, or the fault in its place
(`Store.attempt`). -/

namespace ReadThrough

namespace Notifier

/-- How many more ids a reconciliation has found finished after an answer. -/
def found (answer : Except Error Bool) : Nat :=
  match answer with
  | .ok true => 1
  | _ => 0

/-- `Step n s now stopping fault m n' s' events`: the move `m` leads from the notifier `n` and the
store `s` to `n'` and `s'` and reports `events`. -/
inductive Step (n : Notifier) (s : Store) (now : Instant) (stopping : Bool)
    (fault : Option Error) : Move → Notifier → Store → List Event → Prop
  | stop (hp : n.phase = .idle) (hs : stopping = true) :
      Step n s now stopping fault .stop n.stop (s.unsubscribe n.feed) [.notifierStopped n.keys.name]
  | watch {id : Id} {w : Nat} {rest : List Request} (hp : n.phase = .idle)
      (hr : n.requests = .watch id w :: rest) :
      Step n s now stopping fault .request
        { ({ n with requests := rest }.register id w) with phase := .checking id } s []
  | release {id : Id} {rest : List Request} (hp : n.phase = .idle)
      (hr : n.requests = .release id :: rest) :
      Step n s now stopping fault .request ({ n with requests := rest }.forget id).settle s []
  | announcement {id : Id} {s' : Store} (hp : n.phase = .idle)
      (hr : s.receive? n.feed = some (id, s')) (hi : id ≠ "") :
      Step n s now stopping fault .message (n.wake id).1.settle s' (n.wake id).2
  | sentinel {s' : Store} (hp : n.phase = .idle) (hr : s.receive? n.feed = some ("", s')) :
      Step n s now stopping fault .message
        { n.prune with phase := .reconciling n.prune.watchers.keys 0 } s'
        [.reconnected n.keys.name]
  | hangUp (hp : n.phase = .idle) (he : s.feedEnded n.feed = true) :
      Step n s now stopping fault .hangUp n.stop (s.unsubscribe n.feed)
        [.channelClosed n.keys.name, .notifierStopped n.keys.name]
  | check {id : Id} {answer : Except Error Bool} {s' : Store} (hp : n.phase = .checking id)
      (ha : s.attempt fault (·.isFinished n.keys id now) = (answer, s')) :
      Step n s now stopping fault (.check id) (n.checked id answer).1.settle s'
        (n.checked id answer).2
  | recheck {id : Id} {todo : List Id} {woken : Nat} {answer : Except Error Bool} {s' : Store}
      (hp : n.phase = .reconciling todo woken) (hi : id ∈ todo)
      (ha : s.attempt fault (·.isFinished n.keys id now) = (answer, s')) :
      Step n s now stopping fault (.check id)
        { (n.checked id answer).1 with
          phase := .reconciling (todo.erase id) (woken + found answer) } s'
        (n.checked id answer).2
  | conclude {woken : Nat} (hp : n.phase = .reconciling [] woken) :
      Step n s now stopping fault .conclude n.settle s
        [.reconciled n.keys.name (n.watchers.size + woken) woken]

variable {n n' : Notifier} {s s' : Store} {now : Instant} {stopping : Bool} {fault : Option Error}
  {events : List Event}

/-- A check that is due takes the answer of the store. -/
theorem step_check_of {id : Id}
    (h : n.step? s now stopping fault (.check id) = some (n', s', events)) :
    Step n s now stopping fault (.check id) n' s' events := by
  obtain ⟨answer, t, ha⟩ : ∃ answer t,
      s.attempt fault (·.isFinished n.keys id now) = (answer, t) := ⟨_, _, rfl⟩
  have hn : n.due id = true ∧ n' = (n.afterCheck id answer).1 ∧ s' = t ∧
      events = (n.afterCheck id answer).2 := by
    simp only [step?, Option.ite_none_right_eq_some] at h
    obtain ⟨hd, h⟩ := h
    unfold Store.attempt at ha
    cases fault with
    | some e =>
        obtain ⟨rfl, rfl⟩ := Prod.mk.inj ha
        obtain ⟨rfl, rfl, rfl⟩ := by simpa using h
        exact ⟨hd, rfl, rfl, rfl⟩
    | none =>
        obtain ⟨rfl, rfl⟩ := Prod.mk.inj ha
        obtain ⟨rfl, rfl, rfl⟩ := by simpa using h
        exact ⟨hd, rfl, rfl, rfl⟩
  obtain ⟨hd, rfl, rfl, rfl⟩ := hn
  unfold due at hd
  cases hp : n.phase with
  | idle => simp [hp] at hd
  | stopped => simp [hp] at hd
  | checking i =>
      obtain rfl : i = id := by simpa [hp] using hd
      simp only [afterCheck, hp]
      exact .check hp ha
  | reconciling todo woken =>
      have hi : id ∈ todo := by simpa [hp] using hd
      simp only [afterCheck, hp]
      exact .recheck hp hi ha

theorem step_of {m : Move} (h : n.step? s now stopping fault m = some (n', s', events)) :
    Step n s now stopping fault m n' s' events := by
  cases m with
  | stop =>
      simp only [step?, Option.ite_none_right_eq_some, Option.some.injEq, Prod.mk.injEq] at h
      obtain ⟨⟨hp, hs⟩, rfl, rfl, rfl⟩ := h
      exact .stop hp hs
  | request =>
      obtain ⟨m, hm, he⟩ := Option.map_eq_some_iff.mp h
      obtain ⟨rfl, rfl, rfl⟩ := by simpa using he
      unfold takeRequest? at hm
      split at hm
      · rename_i id w rest hp hr
        obtain rfl := Option.some.inj hm
        exact .watch hp hr
      · rename_i id rest hp hr
        obtain rfl := Option.some.inj hm
        exact .release hp hr
      · cases hm
  | message =>
      simp only [step?, Option.ite_none_right_eq_some] at h
      obtain ⟨hp, h⟩ := h
      obtain ⟨⟨message, t⟩, hr, he⟩ := Option.map_eq_some_iff.mp h
      by_cases hm : message = ""
      · subst hm
        obtain ⟨rfl, rfl, rfl⟩ := by simpa [receive] using he
        exact .sentinel hp hr
      · obtain ⟨rfl, rfl, rfl⟩ := by simpa [receive, hm] using he
        exact .announcement hp hr hm
  | hangUp =>
      simp only [step?, Option.ite_none_right_eq_some, Option.some.injEq, Prod.mk.injEq] at h
      obtain ⟨⟨hp, he⟩, rfl, rfl, rfl⟩ := h
      exact .hangUp hp he
  | check id => exact step_check_of h
  | conclude =>
      simp only [step?] at h
      split at h
      · rename_i woken hp
        obtain ⟨rfl, rfl, rfl⟩ := by simpa using h
        exact .conclude hp
      · cases h

/-! ### What stays -/

/-- The queue and the feed of a notifier. -/
def wired (n : Notifier) : Keys × Nat := (n.keys, n.feed)

/-- The part of a notifier that says what it watches and does; callers do not touch it. -/
def desk (n : Notifier) : (Keys × Nat) × Phase × Std.ExtTreeMap Id (List Nat) :=
  (n.wired, n.phase, n.watchers)

theorem ended_of_desk_eq (h : n'.desk = n.desk) : n'.ended = n.ended := by
  have hp : n'.phase = n.phase := congrArg (·.2.1) h
  rw [ended, hp, ended]

/-- A notifier that takes a step has not ended. -/
theorem Step.going {m : Move} (h : Step n s now stopping fault m n' s' events) :
    n.ended = false := by
  cases h <;> simp [ended, *]

theorem desk_release (n : Notifier) (id : Id) : (n.release id).desk = n.desk := by
  unfold release
  split <;> rfl

theorem desk_subscribe? {id : Id} {w : Nat} (h : n.subscribe? id = some (w, n')) :
    n'.desk = n.desk := by
  unfold subscribe? at h
  split at h
  · cases h
  · obtain ⟨-, rfl⟩ := Prod.mk.inj (Option.some.inj h)
    rfl

@[simp] theorem wired_forget (n : Notifier) (id : Id) : (n.forget id).wired = n.wired := by
  unfold forget
  split
  · rfl
  · split <;> rfl

@[simp] theorem wired_wake (n : Notifier) (id : Id) : (n.wake id).1.wired = n.wired := by
  unfold wake
  split <;> rfl

@[simp] theorem wired_checked (n : Notifier) (id : Id) (answer : Except Error Bool) :
    (n.checked id answer).1.wired = n.wired := by
  unfold checked
  split
  · exact wired_wake n id
  · rfl
  · rfl

/-- A notifier keeps its queue and its feed. -/
theorem Step.wired_eq {m : Move} (h : Step n s now stopping fault m n' s' events) :
    n'.wired = n.wired := by
  cases h with
  | release hp hr => exact wired_forget _ _
  | announcement hp hr hi => exact wired_wake _ _
  | check hp ha => exact wired_checked _ _ _
  | recheck hp hi ha => exact wired_checked _ _ _
  | _ => rfl

end Notifier

end ReadThrough
