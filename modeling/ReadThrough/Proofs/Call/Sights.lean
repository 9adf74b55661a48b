import ReadThrough.Cache
import ReadThrough.Proofs.Call.Endings
import ReadThrough.Proofs.Store.Entries

/-! # What a caller sees

In each of its steps a caller comes to know one thing (`Call.Sight`, `Call.sight?`): the entry of
its id at the time of a look, the answer to its enqueue, the number of its waiter or that there is
none to be had, and after its wait the signal of its waiter.

* **Justified answers** (`Call.Justified`).  What a caller returns follows from what it saw: a value
  or a failure from its last look, and the error of a wait from the end of the wait and from a last
  look after it, which found nothing.
* **On course** (`Call.Course`).  What a caller has seen fits where it stands; every step of it
  keeps this (`Step.course`), so its answer is justified.
* **Counted** (`Call.label`, `Step.requests`).  The step in which a caller is answered counts one
  request, and no other step of it counts any. -/

namespace ReadThrough

/-- How a request on a queue is counted that was answered under a label. -/
def RequestResult.sample (r : RequestResult) (queue : String) : Sample :=
  ⟨.cacheRequests, [("queue", queue), ("result", r.label)]⟩

/-- The requests that some events count. -/
def Event.requests (events : List Event) : List Sample :=
  (events.flatMap Event.samples).filter (·.metric = .cacheRequests)

theorem Event.requests_append (l m : List Event) :
    requests (l ++ m) = requests l ++ requests m := by
  simp [requests]

namespace Call

/-- What a caller comes to know in one step. -/
inductive Sight where
  /-- It looked for the record of its id. -/
  | looked (entry : Entry) (time : Instant)
  /-- It asked for the computation. -/
  | asked (outcome : Enqueued)
  /-- It began to wait. -/
  | registered (waiter : Nat) (time : Instant)
  /-- It was to wait, but the notifier had ended. -/
  | turnedAway
  /-- It saw the signal of its waiter, and whether the notifier had ended. -/
  | heard (waiter : Nat) (signal : Waiter.Signal) (gone : Bool) (time : Instant)

namespace Sight

/-- Whether this is the begin of a wait. -/
def waits : Sight → Bool
  | registered .. => true
  | _ => false

/-- The answer to an enqueue. -/
def outcome? : Sight → Option Enqueued
  | asked outcome => some outcome
  | _ => none

end Sight

/-- Whether a caller has waited that saw all this. -/
def waited (seen : List Sight) : Bool := seen.any Sight.waits

/-- What a caller sees in its next step. -/
def sight? (x : Call) (settings : Settings) (now : Instant) (n : Notifier) (s : Store) :
    Option Sight :=
  match x.phase with
  | .looking => some (.looked (s.entry settings.keys x.id) now)
  | .queueing => some (.asked (s.enqueue settings.keys x.id x.priority now).1)
  | .subscribing => some (if n.ended then .turnedAway else .registered n.waiters.length now)
  | .waiting w _ => some (.heard w (n.signal w) n.ended now)
  | .rereading .. => some (.looked (s.entry settings.keys x.id) now)
  | _ => none

/-- How a wait can have ended that began at the time `start`, if the waiter had the `signal` at the
time `time`, and the notifier had ended if `gone`. -/
inductive Ends (settings : Settings) (start time : Instant) (gone : Bool) :
    Waiter.Signal → Wake → Prop
  | woken : Ends settings start time gone .woken .woken
  | lost (ho : gone = true) : Ends settings start time gone .lost .lost
  | timedOut {limit : Duration} (hl : settings.waitTimeout = some limit)
      (ht : start + limit.nanos ≤ time) : Ends settings start time gone .pending (.timedOut limit)

/-- `Justified settings id seen r`: a caller of `id` that has `seen` all this is right to return
`r`. -/
inductive Justified (settings : Settings) (id : Id) (seen : List Sight) :
    Except Error Bytes → Prop
  /-- In its last look there was a value and no live failure. -/
  | value {e : Entry} {t : Instant} {bytes : Bytes} (hs : seen.getLast? = some (.looked e t))
      (hv : e.value = some bytes) (hf : e.live? t = none) : Justified settings id seen (.ok bytes)
  /-- In its last look there was a live failure. -/
  | failure {e : Entry} {t : Instant} {f : Failure} (hs : seen.getLast? = some (.looked e t))
      (hf : e.live? t = some f) : Justified settings id seen (.error (.computation id f.message))
  /-- Its enqueue had not found the id finished, its wait came to an end, and in the look after it
  there was neither a value nor a live failure. -/
  | nothing {earlier : List Sight} {outcome : Enqueued} {w : Nat} {start time t : Instant}
      {signal : Waiter.Signal} {gone : Bool} {wake : Wake} {e : Entry}
      (hs : seen = earlier ++ [.asked outcome, .registered w start, .heard w signal gone time,
        .looked e t])
      (ho : outcome ≠ .resolved) (hw : Ends settings start time gone signal wake)
      (hv : e.value = none) (hf : e.live? t = none) :
      Justified settings id seen (.error (wake.error id))
  /-- Its enqueue had not found the id finished, and there was no notifier to wait for. -/
  | turnedAway {earlier : List Sight} {outcome : Enqueued}
      (hs : seen = earlier ++ [.asked outcome, .turnedAway]) (ho : outcome ≠ .resolved) :
      Justified settings id seen (.error .shutdown)

/-- What a caller has seen fits where it stands. -/
def Course (settings : Settings) (seen : List Sight) (x : Call) : Prop :=
  match x.phase with
  | .looking => waited seen = false
  | .queueing => waited seen = false
  | .subscribing => ∃ earlier outcome, seen = earlier ++ [.asked outcome] ∧ outcome ≠ .resolved
  | .waiting w deadline => ∃ earlier outcome start,
      seen = earlier ++ [.asked outcome, .registered w start] ∧ outcome ≠ .resolved ∧
        deadline = settings.waitTimeout.bind start.deadline
  | .rereading w wake => ∃ earlier outcome start time signal gone,
      seen = earlier ++ [.asked outcome, .registered w start, .heard w signal gone time] ∧
        outcome ≠ .resolved ∧ Ends settings start time gone signal wake
  | .served bytes => Justified settings x.id seen (.ok bytes)
  | .refused e => Justified settings x.id seen (.error e)
  | .cancelled => True

variable {x x' : Call} {settings : Settings} {now : Instant} {fault : Option Error}
  {n n' : Notifier} {s s' : Store} {events : List Event} {seen : List Sight}

/-! ### Looks -/

/-- The record of an id is what its entry says. -/
theorem record_cases (s : Store) (k : Keys) (id : Id) (now : Instant) :
    (∃ f, (s.entry k id).live? now = some f ∧ s.record k id now = .failure f.message) ∨
    (s.entry k id).live? now = none ∧
      ((∃ bytes, (s.entry k id).value = some bytes ∧ s.record k id now = .value bytes) ∨
        (s.entry k id).value = none ∧ s.record k id now = .missing) := by
  have hf : s.failure? now (k.failure id) = (s.entry k id).live? now := rfl
  have hv : s.values[k.value id]? = (s.entry k id).value := rfl
  unfold Store.record
  rw [hf, hv]
  cases (s.entry k id).live? now with
  | some f => exact Or.inl ⟨f, rfl, rfl⟩
  | none =>
      refine Or.inr ⟨rfl, ?_⟩
      cases (s.entry k id).value with
      | some bytes => exact Or.inl ⟨bytes, rfl, rfl⟩
      | none => exact Or.inr ⟨rfl, rfl⟩

/-- What a look settles is justified by it. -/
theorem justified_of_verdict {k : Keys} {answer : Except Error Record} {r : Except Error Bytes}
    (ha : s.attempt none (·.lookup k x.id now) = (answer, s'))
    (hv : verdict x.id answer = some r) :
    Justified settings x.id (seen ++ [.looked (s.entry k x.id) now]) r := by
  obtain ⟨rfl, -⟩ := Prod.mk.inj ha
  have hl : (seen ++ [Sight.looked (s.entry k x.id) now]).getLast? =
      some (.looked (s.entry k x.id) now) := List.getLast?_concat
  change verdict x.id (.ok (s.record k x.id now)) = some r at hv
  rcases record_cases s k x.id now with ⟨f, hf, hr⟩ | ⟨hf, ⟨bytes, hb, hr⟩ | ⟨-, hr⟩⟩
  · rw [hr] at hv
    obtain rfl := Option.some.inj hv
    exact .failure hl hf
  · rw [hr] at hv
    obtain rfl := Option.some.inj hv
    exact .value hl hb hf
  · rw [hr] at hv
    cases hv

/-- A look that settles nothing found nothing. -/
theorem nothing_of_verdict {k : Keys} {answer : Except Error Record}
    (ha : s.attempt none (·.lookup k x.id now) = (answer, s')) (hv : verdict x.id answer = none) :
    (s.entry k x.id).value = none ∧ (s.entry k x.id).live? now = none := by
  obtain ⟨rfl, -⟩ := Prod.mk.inj ha
  change verdict x.id (.ok (s.record k x.id now)) = none at hv
  rcases record_cases s k x.id now with ⟨f, -, hr⟩ | ⟨hf, ⟨bytes, -, hr⟩ | ⟨hb, -⟩⟩
  · rw [hr] at hv
    cases hv
  · rw [hr] at hv
    cases hv
  · exact ⟨hb, hf⟩

theorem course_answer {q : String} {r : Except Error Bytes} {b : Bool}
    (h : Justified settings x.id seen r) : Course settings seen (x.answer q r b).1 := by
  unfold answer
  split <;> exact h

theorem waited_concat (seen : List Sight) (sight : Sight) :
    waited (seen ++ [sight]) = (waited seen || sight.waits) := by
  simp [waited]

/-- A wait whose deadline has come has taken as long as it was allowed to. -/
theorem ends_of_deadline {start t : Instant} {limit : Duration} {gone : Bool}
    (hl : settings.waitTimeout = some limit)
    (hd : some t = settings.waitTimeout.bind start.deadline) (ht : t ≤ now) :
    Ends settings start now gone .pending (.timedOut limit) := by
  rw [hl] at hd
  have he := Instant.eq_of_after? hd.symm
  exact .timedOut hl (he ▸ ht)

/-- A caller that goes on stays on course, if a waiter that has lost its notifier knows that the
notifier has ended. -/
theorem Step.course (h : Step x settings now none n s x' n' s' events)
    (hx : x.Course settings seen) (hlost : ∀ w, x.Waits w → n.signal w = .lost → n.ended = true) :
    ∃ sight, x.sight? settings now n s = some sight ∧ x'.Course settings (seen ++ [sight]) := by
  -- the wait is over
  have heard {w : Nat} {deadline : Option Instant} {signal : Waiter.Signal} {wake : Wake}
      (hp : x.phase = .waiting w deadline) (hs : n.signal w = signal)
      (hw : ∀ start, deadline = settings.waitTimeout.bind start.deadline →
        Ends settings start now n.ended signal wake) :
      ∃ sight, x.sight? settings now n s = some sight ∧
        Course settings (seen ++ [sight]) { x with phase := .rereading w wake } := by
    rw [Course, hp] at hx
    obtain ⟨earlier, outcome, start, rfl, ho, hd⟩ := hx
    refine ⟨.heard w signal n.ended now, by rw [← hs]; simp only [sight?, hp], ?_⟩
    exact ⟨earlier, outcome, start, now, signal, n.ended, by simp, ho, hw start hd⟩
  cases h with
  | settled hp ha hv =>
      refine ⟨.looked (s.entry settings.keys x.id) now, by simp only [sight?, hp], ?_⟩
      exact course_answer (justified_of_verdict ha hv)
  | missed hp ha =>
      rw [Course, hp] at hx
      refine ⟨.looked (s.entry settings.keys x.id) now, by simp only [sight?, hp], ?_⟩
      exact (waited_concat _ _).trans (by rw [hx]; rfl)
  | @reread w wake answer r before _ hp ha hr hb =>
      rw [Course, hp] at hx
      obtain ⟨earlier, outcome, start, time, signal, gone, rfl, ho, hw⟩ := hx
      refine ⟨.looked (s.entry settings.keys x.id) now, by simp only [sight?, hp],
        course_answer ?_⟩
      cases hv : verdict x.id answer with
      | some r' =>
          obtain rfl : r = r' := by simpa [hv] using hr
          exact justified_of_verdict ha hv
      | none =>
          obtain rfl : r = .error (wake.error x.id) := by simpa [hv] using hr
          obtain ⟨hb, hf⟩ := nothing_of_verdict ha hv
          exact .nothing (List.append_assoc _ _ _) ho hw hb hf
  | refused hp ha => cases ha
  | again hp ha =>
      rw [Course, hp] at hx
      refine ⟨.asked (s.enqueue settings.keys x.id x.priority now).1, by simp only [sight?, hp], ?_⟩
      exact (waited_concat _ _).trans (by rw [hx]; rfl)
  | queued hp ha ho =>
      obtain ⟨he, -⟩ := Prod.mk.inj ha
      obtain rfl := Except.ok.inj he
      refine ⟨.asked (s.enqueue settings.keys x.id x.priority now).1, by simp only [sight?, hp], ?_⟩
      exact ⟨seen, _, rfl, ho⟩
  | gone hp hn =>
      rw [Course, hp] at hx
      obtain ⟨earlier, outcome, rfl, ho⟩ := hx
      refine ⟨.turnedAway, by simp [sight?, hp, hn], course_answer ?_⟩
      exact .turnedAway (List.append_assoc _ _ _) ho
  | subscribe hp hn =>
      rw [Course, hp] at hx
      obtain ⟨earlier, outcome, rfl, ho⟩ := hx
      refine ⟨.registered n.waiters.length now, by simp [sight?, hp, hn], ?_⟩
      exact ⟨earlier, outcome, now, List.append_assoc _ _ _, ho, rfl⟩
  | woken hp hs => exact heard hp hs fun _ _ => .woken
  | lost hp hs => exact heard hp hs fun _ _ => .lost (hlost _ ⟨_, hp⟩ hs)
  | timedOut hp hs hl ht => exact heard hp hs fun _ hd => ends_of_deadline hl hd ht

/-- A caller that is dropped is off course in no way. -/
theorem course_cancel (hx : x.Course settings seen) (n : Notifier) :
    (x.cancel n).1.Course settings seen := by
  unfold cancel
  cases he : x.ended with
  | true => exact hx
  | false => trivial

/-- The answer of a caller on course is justified. -/
theorem Course.justified (hx : x.Course settings seen) {r : Except Error Bytes}
    (hr : x.result? = some r) : Justified settings x.id seen r := by
  unfold Course at hx
  unfold result? at hr
  split at hr
  · rename_i bytes hp
    obtain rfl := Option.some.inj hr
    rwa [hp] at hx
  · rename_i e hp
    obtain rfl := Option.some.inj hr
    rwa [hp] at hx
  · cases hr

/-! ### Requests -/

/-- A caller that takes a step has no result yet. -/
theorem Step.unanswered (h : Step x settings now fault n s x' n' s' events) : x.result? = none := by
  unfold result?
  cases h <;> simp [*]

/-- Whoever is dropped keeps the result that it has. -/
theorem result?_cancel (x : Call) (n : Notifier) : (x.cancel n).1.result? = x.result? := by
  unfold cancel result? ended
  cases x.phase <;> rfl

/-- Under which label an answer is counted. -/
def label (waited : Bool) : Except Error Bytes → RequestResult
  | .ok _ => if waited then .miss else .hit
  | .error _ => .error

theorem events_answer (x : Call) (q : String) (r : Except Error Bytes) (b : Bool) :
    (x.answer q r b).2 = [.requestAnswered q (label b r)] := by
  unfold answer label
  cases r <;> rfl

/-- An answer counts a request under its label. -/
theorem requests_answer {q : String} {r : Except Error Bytes} {b : Bool}
    (hw : ∀ bytes, r = .ok bytes → waited seen = b) :
    Event.requests (x.answer q r b).2 =
      ((x.answer q r b).1.result?.map fun r => (label (waited seen) r).sample q).toList := by
  have hl : label b r = label (waited seen) r := by
    cases r with
    | error e => rfl
    | ok bytes => rw [hw bytes rfl]
  rw [events_answer, result?_answer, hl]
  rfl

/-- A caller on course counts a request when it is answered, under the label of its answer, and
nothing otherwise. -/
theorem Step.requests (h : Step x settings now none n s x' n' s' events)
    (hx : x.Course settings seen) {sight : Sight}
    (hs : x.sight? settings now n s = some sight) :
    Event.requests events =
      (x'.result?.map fun r =>
        (label (waited (seen ++ [sight])) r).sample settings.queue).toList := by
  cases h with
  | settled hp ha hv =>
      rw [Course, hp] at hx
      simp only [sight?, hp] at hs
      obtain rfl := Option.some.inj hs
      refine requests_answer fun _ _ => ?_
      exact (waited_concat _ _).trans (by rw [hx]; rfl)
  | @reread w wake answer r before _ hp ha hr hb =>
      rw [Course, hp] at hx
      obtain ⟨earlier, outcome, start, time, signal, gone, rfl, -, -⟩ := hx
      have hbefore : Event.requests before = [] := by
        rw [hb]
        cases (verdict x.id answer).isNone <;> cases wake <;> rfl
      rw [Event.requests_append, hbefore, List.nil_append]
      exact requests_answer fun _ _ => by simp [waited, Sight.waits]
  | refused hp ha => cases ha
  | @queued outcome _ hp ha ho => cases outcome <;> rfl
  | gone hp hn => exact requests_answer nofun
  | _ => rfl

end Call

end ReadThrough
