import ReadThrough.Proofs.Call.Waiting

/-! # Callers of a notifier that has ended

Once a notifier has ended, nobody can subscribe any more, and everybody who subscribed before has
got the last word (`Notifier.Over`): whoever was not woken is told that nobody will do it.

* **Nobody is stuck.**  Every caller that is not done can take a step (`isSome_step?`).
* **The end of a wait** (`Call.fate?`) is settled, and callers do not change it (`Step.fate`).
* **The way out.**  A caller that has to wait, or has waited, is done after as many steps as it has
  left (`Call.stepsLeft`, `Step.stepsLeft`).  What it gets depends on its last look at the store, on
  the end of its wait and on faults that it meets (`Call.Outcome`, `Step.outcome`). -/

namespace ReadThrough

namespace Notifier

/-- The notifier has ended, no request is left, and nobody waits to hear from it. -/
structure Over (n : Notifier) : Prop where
  ended : n.ended = true
  requests : n.requests = []
  told : ∀ w, n.signal w ≠ .pending

variable {n n' : Notifier}

/-- The end leaves the woken alone and tells all others. -/
theorem signal_stop (n : Notifier) (w : Nat) :
    n.stop.signal w = if n.signal w = .woken then .woken else .lost := by
  unfold signal
  rw [waiters_stop]
  cases n.waiters[w]? with
  | none => rfl
  | some y => cases hs : y.signal <;> simp [hs]

theorem over_stop (n : Notifier) : n.stop.Over where
  ended := rfl
  requests := rfl
  told w := by
    rw [signal_stop]
    split <;> exact nofun

/-- A notifier that has ended takes no step. -/
theorem Over.not_step (h : n.Over) {s s' : Store} {now : Instant} {stopping : Bool}
    {fault : Option Error} {m : Move} {events : List Event} :
    ¬ Step n s now stopping fault m n' s' events := by
  intro hs
  have he := h.ended
  rw [hs.going] at he
  cases he

theorem Over.release (h : n.Over) (id : Id) : n.release id = n := by
  unfold Notifier.release
  rw [if_pos h.ended]

theorem Over.subscribe? (h : n.Over) (id : Id) : n.subscribe? id = none := by
  unfold Notifier.subscribe?
  rw [if_pos h.ended]

theorem Over.leave (h : n.Over) (v : Nat) : (n.leave v).Over :=
  ⟨h.ended, h.requests, fun w => by
    rw [signal_leave]
    exact h.told w⟩

end Notifier

namespace Call

/-- How the wait of a caller has ended, or ends if nobody is woken any more. -/
def fate? (x : Call) (signal : Nat → Waiter.Signal) : Option Wake :=
  match x.phase with
  | .waiting w _ => some (if signal w = .woken then .woken else .lost)
  | .rereading _ wake => some wake
  | _ => none

/-- How many steps a caller takes that cannot be woken any more, once it is about to register. -/
def stepsLeft (x : Call) : Nat :=
  match x.phase with
  | .subscribing => 1
  | .waiting .. => 2
  | .rereading .. => 1
  | _ => 0

/-- What a caller of `id` gets if `answer` is what it saw in its last look at the store, its wait
ended in `fate`, if it waited, and `faulty` are the faults that it met. -/
inductive Outcome (id : Id) (answer : Except Error Record) (fate : Option Wake)
    (faulty : Error → Prop) : Except Error Bytes → Prop
  /-- The look has settled it. -/
  | found {r : Except Error Bytes} (hv : verdict id answer = some r) :
      Outcome id answer fate faulty r
  /-- There was no record after the wait. -/
  | waited {wake : Wake} (hf : fate = some wake) (hv : verdict id answer = none) :
      Outcome id answer fate faulty (.error (wake.error id))
  /-- There was no record, and no notifier to wait for. -/
  | shutdown (hf : fate = none) (hv : verdict id answer = none) :
      Outcome id answer fate faulty (.error .shutdown)
  /-- There was no record, and the computation could not be asked for. -/
  | failed {e : Error} (hf : fate = none) (hv : verdict id answer = none) (he : faulty e) :
      Outcome id answer fate faulty (.error e)

variable {x x' : Call} {settings : Settings} {now : Instant} {fault : Option Error}
  {n n' : Notifier} {s s' : Store} {events : List Event}

/-- The end of the notifier settles what it would have meant for it to end. -/
theorem fate?_stop (x : Call) (n : Notifier) : x.fate? n.stop.signal = x.fate? n.signal := by
  unfold fate?
  split
  · rw [Notifier.signal_stop]
    split <;> simp_all
  · rfl
  · rfl

theorem Outcome.mono {id : Id} {answer : Except Error Record} {fate : Option Wake}
    {faulty faulty' : Error → Prop} {r : Except Error Bytes}
    (h : Outcome id answer fate faulty r) (hm : ∀ e, faulty e → faulty' e) :
    Outcome id answer fate faulty' r := by
  cases h with
  | found hv => exact .found hv
  | waited hf hv => exact .waited hf hv
  | shutdown hf hv => exact .shutdown hf hv
  | failed hf hv he => exact .failed hf hv (hm _ he)

/-- Whoever cannot be woken any more gets what is on record, or is told that nobody will wake
it. -/
theorem Outcome.of_lost {id : Id} {answer : Except Error Record} {faulty : Error → Prop}
    {r : Except Error Bytes} (h : Outcome id answer (some .lost) faulty r) :
    r = (verdict id answer).getD (.error .shutdown) := by
  cases h with
  | found hv => rw [hv, Option.getD_some]
  | waited hf hv =>
      obtain rfl := Option.some.inj hf
      rw [hv]
      rfl
  | shutdown hf hv => cases hf
  | failed hf hv he => cases hf

/-- Nothing keeps a caller from its next step. -/
theorem isSome_step? (hn : n.Over) (he : x.ended = false) (settings : Settings) (now : Instant)
    (fault : Option Error) (s : Store) : (x.step? settings now fault n s).isSome = true := by
  unfold step?
  cases hp : x.phase with
  | looking => simp [query?, hp]
  | queueing => simp [query?, hp]
  | rereading w wake => simp [query?, hp]
  | subscribing => simp [query?, hp, advance?, hn.subscribe?]
  | waiting w deadline =>
      cases hs : n.signal w with
      | pending => exact absurd hs (hn.told w)
      | woken => simp [query?, hp, advance?, hs]
      | lost => simp [query?, hp, advance?, hs]
  | served bytes => simp [ended, hp] at he
  | refused e => simp [ended, hp] at he
  | cancelled => simp [ended, hp] at he

/-- A caller that looks at the store and finds a record is done. -/
theorem exists_step?_of_verdict (hq : x.query? = some .lookup) {r : Except Error Bytes}
    (hv : verdict x.id (.ok (s.record settings.keys x.id now)) = some r) :
    ∃ x' n' s' events, x.step? settings now none n s = some (x', n', s', events) ∧
      x'.result? = some r := by
  have hl : s.attempt none (·.lookup settings.keys x.id now) =
      (.ok (s.record settings.keys x.id now), (s.lookup settings.keys x.id now).2) := rfl
  refine ⟨_, _, _, _, by simp only [step?, hq, hl]; rfl, ?_⟩
  unfold afterLookup
  cases hr : s.record settings.keys x.id now with
  | missing =>
      rw [hr] at hv
      cases hv
  | value bytes =>
      rw [hr] at hv
      obtain rfl := Option.some.inj hv
      split <;> rfl
  | failure message =>
      rw [hr] at hv
      obtain rfl := Option.some.inj hv
      split <;> rfl

/-- Callers leave a notifier over, and what it told. -/
theorem Step.over (h : Step x settings now fault n s x' n' s' events) (hn : n.Over) :
    n'.Over ∧ ∀ w, n'.signal w = n.signal w := by
  have leave (v : Nat) : (n.leave v).Over ∧ ∀ w, (n.leave v).signal w = n.signal w :=
    ⟨hn.leave v, Notifier.signal_leave n v⟩
  cases h with
  | @reread w wake _ _ _ _ hp ha hr hb =>
      have he : wake.release n x.id = n := by
        unfold Wake.release
        split
        · rfl
        · exact hn.release x.id
      rw [he]
      exact ⟨hn, fun _ => rfl⟩
  | subscribe hp he =>
      rw [hn.ended] at he
      cases he
  | woken hp hs => exact leave _
  | lost hp hs => exact leave _
  | timedOut hp hs hl ht => exact leave _
  | _ => exact ⟨hn, fun _ => rfl⟩

theorem over_cancel (hn : n.Over) (x : Call) :
    (x.cancel n).2.Over ∧ ∀ w, (x.cancel n).2.signal w = n.signal w := by
  unfold cancel
  dsimp only
  split
  · rename_i v _ _
    rw [(hn.leave v).release]
    exact ⟨hn.leave v, Notifier.signal_leave n v⟩
  · unfold Wake.release
    split
    · exact ⟨hn, fun _ => rfl⟩
    · rw [hn.release]
      exact ⟨hn, fun _ => rfl⟩
  · exact ⟨hn, fun _ => rfl⟩

/-- A caller that is about to register, waits or has waited is done, or has one step less left. -/
theorem Step.stepsLeft (h : Step x settings now fault n s x' n' s' events) (hn : n.Over)
    (hx : 0 < x.stepsLeft) :
    x'.ended = true ∨ 0 < x'.stepsLeft ∧ x'.stepsLeft + 1 = x.stepsLeft := by
  cases h with
  | settled hp ha hv => simp [Call.stepsLeft, hp] at hx
  | missed hp ha => simp [Call.stepsLeft, hp] at hx
  | reread hp ha hr hb => exact Or.inl (ended_answer _ _ _ _)
  | refused hp ha => simp [Call.stepsLeft, hp] at hx
  | again hp ha => simp [Call.stepsLeft, hp] at hx
  | queued hp ha ho => simp [Call.stepsLeft, hp] at hx
  | gone hp he => exact Or.inl (ended_answer _ _ _ _)
  | subscribe hp he =>
      rw [hn.ended] at he
      cases he
  | woken hp hs => exact Or.inr ⟨Nat.one_pos, by simp [Call.stepsLeft, hp]⟩
  | lost hp hs => exact Or.inr ⟨Nat.one_pos, by simp [Call.stepsLeft, hp]⟩
  | timedOut hp hs hl ht => exact absurd hs (hn.told _)

/-- What a caller of `id` has come to if `last` was found in its last look: it has the outcome for a
result, or it still faces `fate`. -/
structure Fares (id : Id) (last : Option (Except Error Record)) (fate : Option Wake)
    (faulty : Error → Prop) (signal : Nat → Waiter.Signal) (x : Call) : Prop where
  gets : ∀ r, x.result? = some r → ∃ answer, last = some answer ∧ Outcome id answer fate faulty r
  faces : x.ended = false → x.fate? signal = fate

theorem Fares.answer {id : Id} {answer : Except Error Record} {fate : Option Wake}
    {faulty : Error → Prop} {signal : Nat → Waiter.Signal} {q : String} {r : Except Error Bytes}
    {waited : Bool} (ho : Outcome id answer fate faulty r) :
    Fares id (some answer) fate faulty signal (x.answer q r waited).1 := by
  have hr := result?_answer x q r waited
  refine ⟨fun r' hr' => ?_, fun he => ?_⟩
  · obtain rfl := Option.some.inj (hr.symm.trans hr')
    exact ⟨answer, rfl, ho⟩
  · rw [ended_answer] at he
    cases he

theorem Fares.goesOn {id : Id} {last : Option (Except Error Record)} {fate : Option Wake}
    {faulty : Error → Prop} {signal : Nat → Waiter.Signal} (hr : x.result? = none)
    (hf : x.fate? signal = fate) : Fares id last fate faulty signal x :=
  ⟨fun r h => absurd (h.symm.trans hr) (Option.some_ne_none r), fun _ => hf⟩

/-- What the last look of a caller found, after one more step: it may have looked in this step. -/
def lookedUp (x : Call) (settings : Settings) (now : Instant) (fault : Option Error) (s : Store)
    (last : Option (Except Error Record)) : Option (Except Error Record) :=
  if x.query? = some .lookup then
    some (s.attempt fault (·.lookup settings.keys x.id now)).1
  else last

/-- A caller goes on with the same fate, or has its outcome.  If it did not look in this step, then
it had looked before and found nothing (`hlast`). -/
theorem Step.outcome (h : Step x settings now fault n s x' n' s' events) (hn : n.Over)
    {last : Option (Except Error Record)}
    (hlast : x.phase = .queueing ∨ x.phase = .subscribing → last = some (.ok .missing)) :
    Fares x.id (x.lookedUp settings now fault s last) (x.fate? n.signal) (fun e => fault = some e)
      n'.signal x' := by
  have answered {q : String} {r : Except Error Bytes} {waited : Bool} {answer : Except Error Record}
      (hl : x.lookedUp settings now fault s last = some answer)
      (ho : Outcome x.id answer (x.fate? n.signal) (fun e => fault = some e) r) :
      Fares x.id (x.lookedUp settings now fault s last) (x.fate? n.signal)
        (fun e => fault = some e) n'.signal (x.answer q r waited).1 := by
    rw [hl]
    exact .answer ho
  cases h with
  | settled hp ha hv => exact answered (by simp [lookedUp, query?, hp, ha]) (.found hv)
  | missed hp ha => exact .goesOn rfl (by simp [fate?, hp])
  | @reread w wake answer r before _ hp ha hr hb =>
      have hl : x.lookedUp settings now fault s last = some answer := by
        simp [lookedUp, query?, hp, ha]
      refine answered hl ?_
      cases hv : verdict x.id answer with
      | none =>
          rw [hv] at hr
          exact hr ▸ .waited (by simp [fate?, hp]) hv
      | some r' =>
          rw [hv] at hr
          exact hr ▸ .found hv
  | refused hp ha =>
      refine answered (by simpa [lookedUp, query?, hp] using hlast (Or.inl hp))
        (.failed (by simp [fate?, hp]) rfl ?_)
      unfold Store.attempt at ha
      cases fault with
      | some e => exact congrArg some (Except.error.inj (Prod.mk.inj ha).1)
      | none => cases ha
  | again hp ha => exact .goesOn rfl (by simp [fate?, hp])
  | queued hp ha ho => exact .goesOn rfl (by simp [fate?, hp])
  | gone hp he =>
      exact answered (by simpa [lookedUp, query?, hp] using hlast (Or.inr hp))
        (.shutdown (by simp [fate?, hp]) rfl)
  | subscribe hp he =>
      rw [hn.ended] at he
      cases he
  | woken hp hs => exact .goesOn rfl (by simp [fate?, hp, hs])
  | lost hp hs => exact .goesOn rfl (by simp [fate?, hp, hs])
  | timedOut hp hs hl ht => exact absurd hs (hn.told _)

end Call

end ReadThrough
