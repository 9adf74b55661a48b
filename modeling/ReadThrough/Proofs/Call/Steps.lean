import ReadThrough.Call
import ReadThrough.Proofs.Notifier.Steps

/-! # The steps of a caller, one by one

Everything that a caller can do by itself, as the rules of a relation (`Call.Step`, `step_of`).
The answer to a lookup settles what the caller returns unless there is no record
(`Call.verdict`). -/

namespace ReadThrough

namespace Call

/-- What a caller of an id returns after a lookup, if that settles it. -/
def verdict (id : Id) : Except Error Record → Option (Except Error Bytes)
  | .error e => some (.error e)
  | .ok (.value bytes) => some (.ok bytes)
  | .ok (.failure m) => some (.error (.computation id m))
  | .ok .missing => none

/-- `Step x settings now fault n s x' n' s' events`: the caller `x` goes on to `x'` over the
notifier `n` of its cache and the store `s`, which become `n'` and `s'`, and reports `events`. -/
inductive Step (x : Call) (settings : Settings) (now : Instant) (fault : Option Error)
    (n : Notifier) (s : Store) : Call → Notifier → Store → List Event → Prop
  | settled {answer : Except Error Record} {r : Except Error Bytes} {s' : Store}
      (hp : x.phase = .looking)
      (ha : s.attempt fault (·.lookup settings.keys x.id now) = (answer, s'))
      (hv : verdict x.id answer = some r) :
      Step x settings now fault n s (x.answer settings.queue r false).1 n s'
        (x.answer settings.queue r false).2
  | missed {s' : Store} (hp : x.phase = .looking)
      (ha : s.attempt fault (·.lookup settings.keys x.id now) = (.ok .missing, s')) :
      Step x settings now fault n s { x with phase := .queueing } n s' []
  | reread {w : Nat} {wake : Wake} {answer : Except Error Record} {r : Except Error Bytes}
      {before : List Event} {s' : Store} (hp : x.phase = .rereading w wake)
      (ha : s.attempt fault (·.lookup settings.keys x.id now) = (answer, s'))
      (hr : r = (verdict x.id answer).getD (.error (wake.error x.id)))
      (hb : before =
        if (verdict x.id answer).isNone then wake.events settings.queue x.id else []) :
      Step x settings now fault n s (x.answer settings.queue r true).1 (wake.release n x.id) s'
        (before ++ (x.answer settings.queue r true).2)
  | refused {e : Error} {s' : Store} (hp : x.phase = .queueing)
      (ha : s.attempt fault (·.enqueue settings.keys x.id x.priority now) = (.error e, s')) :
      Step x settings now fault n s (x.answer settings.queue (.error e) false).1 n s'
        (x.answer settings.queue (.error e) false).2
  | again {s' : Store} (hp : x.phase = .queueing)
      (ha : s.attempt fault (·.enqueue settings.keys x.id x.priority now) = (.ok .resolved, s')) :
      Step x settings now fault n s { x with phase := .looking } n s'
        [.enqueued settings.queue x.id x.priority .resolved]
  | queued {outcome : Enqueued} {s' : Store} (hp : x.phase = .queueing)
      (ha : s.attempt fault (·.enqueue settings.keys x.id x.priority now) = (.ok outcome, s'))
      (ho : outcome ≠ .resolved) :
      Step x settings now fault n s { x with phase := .subscribing } n s'
        [.enqueued settings.queue x.id x.priority outcome]
  | gone (hp : x.phase = .subscribing) (hn : n.ended = true) :
      Step x settings now fault n s (x.answer settings.queue (.error .shutdown) true).1 n s
        (x.answer settings.queue (.error .shutdown) true).2
  | subscribe (hp : x.phase = .subscribing) (hn : n.ended = false) :
      Step x settings now fault n s
        { x with phase := .waiting n.waiters.length (settings.waitTimeout.bind now.deadline) }
        { n with
          waiters := n.waiters ++ [{ id := x.id }]
          requests := n.requests ++ [.watch x.id n.waiters.length] } s []
  | woken {w : Nat} {deadline : Option Instant} (hp : x.phase = .waiting w deadline)
      (hs : n.signal w = .woken) :
      Step x settings now fault n s { x with phase := .rereading w .woken } (n.leave w) s []
  | lost {w : Nat} {deadline : Option Instant} (hp : x.phase = .waiting w deadline)
      (hs : n.signal w = .lost) :
      Step x settings now fault n s { x with phase := .rereading w .lost } (n.leave w) s []
  | timedOut {w : Nat} {t : Instant} {limit : Duration} (hp : x.phase = .waiting w (some t))
      (hs : n.signal w = .pending) (hl : settings.waitTimeout = some limit) (ht : t ≤ now) :
      Step x settings now fault n s { x with phase := .rereading w (.timedOut limit) } (n.leave w) s
        []

variable {x x' : Call} {settings : Settings} {now : Instant} {fault : Option Error}
  {n n' : Notifier} {s s' : Store} {events : List Event}

/-! ### Answers -/

theorem result?_answer (x : Call) (q : String) (r : Except Error Bytes) (waited : Bool) :
    (x.answer q r waited).1.result? = some r := by
  unfold answer
  split <;> rfl

theorem ended_of_result? {r : Except Error Bytes} (h : x.result? = some r) : x.ended = true := by
  unfold result? at h
  unfold ended
  split at h
  · rename_i hp
    rw [hp]
  · rename_i hp
    rw [hp]
  · cases h

theorem ended_answer (x : Call) (q : String) (r : Except Error Bytes) (waited : Bool) :
    (x.answer q r waited).1.ended = true :=
  ended_of_result? (result?_answer x q r waited)

/-! ### Steps are steps of the relation -/

/-- A caller that asks nothing of the store registers, or goes on after its wait. -/
theorem step_of_advance? (h : x.advance? settings now n = some (x', n', events)) :
    Step x settings now fault n s x' n' s events := by
  unfold advance? at h
  cases hp : x.phase with
  | subscribing =>
      simp only [hp, Notifier.subscribe?] at h
      cases hn : n.ended with
      | true =>
          obtain ⟨rfl, rfl, rfl⟩ := by simpa [hn] using h
          exact .gone hp hn
      | false =>
          obtain ⟨rfl, rfl, rfl⟩ := by simpa [hn] using h
          exact .subscribe hp hn
  | waiting w deadline =>
      simp only [hp] at h
      cases hs : n.signal w with
      | woken =>
          obtain ⟨rfl, rfl, rfl⟩ := by simpa [hs] using h
          exact .woken hp hs
      | lost =>
          obtain ⟨rfl, rfl, rfl⟩ := by simpa [hs] using h
          exact .lost hp hs
      | pending =>
          simp only [hs] at h
          split at h
          · rename_i t limit hl
            simp only [Option.ite_none_right_eq_some, Option.some.injEq, Prod.mk.injEq] at h
            obtain ⟨ht, rfl, rfl, rfl⟩ := h
            exact .timedOut hp hs hl ht
          · cases h
  | looking => simp [hp] at h
  | queueing => simp [hp] at h
  | rereading w wake => simp [hp] at h
  | served bytes => simp [hp] at h
  | refused e => simp [hp] at h
  | cancelled => simp [hp] at h

theorem step_of (h : x.step? settings now fault n s = some (x', n', s', events)) :
    Step x settings now fault n s x' n' s' events := by
  unfold step? at h
  cases hp : x.phase with
  | looking =>
      simp only [query?, hp, Option.some.injEq, Prod.mk.injEq] at h
      cases ha : s.attempt fault (·.lookup settings.keys x.id now) with
      | mk answer t =>
          rw [ha] at h
          simp only [afterLookup, hp] at h
          split at h
          · obtain ⟨rfl, rfl, rfl, rfl⟩ := h
            exact .settled hp ha rfl
          · obtain ⟨rfl, rfl, rfl, rfl⟩ := h
            exact .settled hp ha rfl
          · obtain ⟨rfl, rfl, rfl, rfl⟩ := h
            exact .settled hp ha rfl
          · obtain ⟨rfl, rfl, rfl, rfl⟩ := h
            exact .missed hp ha
  | rereading w wake =>
      simp only [query?, hp, Option.some.injEq, Prod.mk.injEq] at h
      cases ha : s.attempt fault (·.lookup settings.keys x.id now) with
      | mk answer t =>
          rw [ha] at h
          simp only [afterLookup, hp] at h
          split at h
          · obtain ⟨rfl, rfl, rfl, rfl⟩ := h
            exact .reread hp ha rfl rfl
          · obtain ⟨rfl, rfl, rfl, rfl⟩ := h
            exact .reread hp ha rfl rfl
          · obtain ⟨rfl, rfl, rfl, rfl⟩ := h
            exact .reread hp ha rfl rfl
          · obtain ⟨rfl, rfl, rfl, rfl⟩ := h
            exact .reread hp ha rfl rfl
  | queueing =>
      simp only [query?, hp, Option.some.injEq, Prod.mk.injEq] at h
      cases ha : s.attempt fault (·.enqueue settings.keys x.id x.priority now) with
      | mk answer t =>
          rw [ha] at h
          cases answer with
          | error e =>
              obtain ⟨rfl, rfl, rfl, rfl⟩ := h
              exact .refused hp ha
          | ok outcome =>
              simp only [afterEnqueue] at h
              obtain ⟨rfl, rfl, rfl, rfl⟩ := h
              by_cases ho : outcome = .resolved
              · subst ho
                exact .again hp ha
              · rw [if_neg ho]
                exact .queued hp ha ho
  | subscribing =>
      simp only [query?, hp] at h
      obtain ⟨⟨x₁, n₁, e₁⟩, ha, he⟩ := Option.map_eq_some_iff.mp h
      obtain ⟨rfl, rfl, rfl, rfl⟩ := by simpa using he
      exact step_of_advance? ha
  | waiting w deadline =>
      simp only [query?, hp] at h
      obtain ⟨⟨x₁, n₁, e₁⟩, ha, he⟩ := Option.map_eq_some_iff.mp h
      obtain ⟨rfl, rfl, rfl, rfl⟩ := by simpa using he
      exact step_of_advance? ha
  | served bytes => simp [query?, advance?, hp] at h
  | refused e => simp [query?, advance?, hp] at h
  | cancelled => simp [query?, advance?, hp] at h

/-! ### What stays -/

theorem desk_wakeRelease (wake : Wake) (n : Notifier) (id : Id) :
    (wake.release n id).desk = n.desk := by
  unfold Wake.release
  split
  · rfl
  · exact Notifier.desk_release n id

/-- A caller leaves alone what the notifier watches and does. -/
theorem Step.desk_eq (h : Step x settings now fault n s x' n' s' events) : n'.desk = n.desk := by
  cases h with
  | @reread w wake _ _ _ _ _ _ _ _ => exact desk_wakeRelease wake n x.id
  | _ => rfl

theorem desk_cancel (x : Call) (n : Notifier) : (x.cancel n).2.desk = n.desk := by
  unfold cancel
  dsimp only
  split
  · exact Notifier.desk_release _ _
  · exact desk_wakeRelease _ _ _
  · rfl

end Call

end ReadThrough
