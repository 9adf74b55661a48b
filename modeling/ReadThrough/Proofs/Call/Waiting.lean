import ReadThrough.Proofs.Call.Steps
import ReadThrough.Proofs.Notifier.Waiters

/-! # A caller and its waiter

A caller that waits holds the number of its waiter at the notifier (`Call.Waits`).  The notifier
attends to that waiter: it listens, and it is listed unless it has a signal (`Notifier.Attends`).

* A caller that starts to wait is attended to (`Call.Step.attends`).
* What other callers do leaves its waiter alone (`Call.Step.others`, `Call.cancel_others`).
* What the notifier does keeps it attended to (`Notifier.Step.attends`). -/

namespace ReadThrough

namespace Notifier

/-- A waiter listens, and is listed as long as it has no signal. -/
def Attends (n : Notifier) (id : Id) (w : Nat) : Prop :=
  ∃ y, n.waiters[w]? = some y ∧ y.listening = true ∧ (y.signal = .pending → n.Listed id w)

variable {n n' : Notifier} {id : Id} {w v : Nat}

theorem Attends.lt_length (h : n.Attends id w) : w < n.waiters.length := by
  obtain ⟨y, hy, -⟩ := h
  exact (List.getElem?_eq_some_iff.mp hy).1

/-- A waiter that is attended to and has no signal is live. -/
theorem Attends.live (h : n.Attends id w) (hs : n.signal w = .pending) : n.Live w := by
  obtain ⟨y, hy, hl, -⟩ := h
  refine ⟨y, hy, hl, ?_⟩
  unfold signal at hs
  rwa [hy] at hs

theorem Attends.listed (h : n.Attends id w) (hs : n.signal w = .pending) : n.Listed id w := by
  obtain ⟨y, hy, -, hlist⟩ := h
  apply hlist
  unfold signal at hs
  rwa [hy] at hs

theorem Step.attends {s s' : Store} {now : Instant} {stopping : Bool} {fault : Option Error}
    {m : Move} {events : List Event} (h : Step n s now stopping fault m n' s' events)
    (ha : n.Attends id w) : n'.Attends id w := by
  obtain ⟨y, hy, hl, hlist⟩ := ha
  obtain ⟨z, hz, hf⟩ := h.waiter hy
  refine ⟨z, hz, hf.1 ▸ hl, fun hs => ?_⟩
  exact h.listed (hlist (hf.2 hs)) ⟨z, hz, hf.1 ▸ hl, hs⟩

/-- The notifier is left alone, except for new requests and for waiters other than `w`. -/
structure Spares (w : Nat) (n n' : Notifier) : Prop where
  waiter : ∀ y, n.waiters[w]? = some y → n'.waiters[w]? = some y
  requests : ∀ r ∈ n.requests, r ∈ n'.requests
  watchers : n'.watchers = n.watchers

theorem Spares.refl (w : Nat) (n : Notifier) : Spares w n n :=
  ⟨fun _ h => h, fun _ h => h, rfl⟩

theorem Spares.listed (h : Spares w n n') (hl : n.Listed id w) : n'.Listed id w := by
  rcases hl with hq | hr
  · exact Or.inl (h.requests _ hq)
  · right
    unfold Registered
    rw [h.watchers]
    exact hr

theorem Spares.attends (h : Spares w n n') (ha : n.Attends id w) : n'.Attends id w := by
  obtain ⟨y, hy, hl, hlist⟩ := ha
  exact ⟨y, h.waiter y hy, hl, fun hs => h.listed (hlist hs)⟩

theorem spares_release (n : Notifier) (id : Id) (w : Nat) : Spares w n (n.release id) := by
  unfold release
  split
  · exact Spares.refl w n
  · exact ⟨fun _ h => h, fun _ h => List.mem_append_left _ h, rfl⟩

theorem spares_leave (n : Notifier) (h : v ≠ w) : Spares w n (n.leave v) := by
  refine ⟨fun y hy => ?_, fun _ h => h, rfl⟩
  simp [leave, h, hy]

/-- Whoever stops listening was woken or not as before. -/
theorem signal_leave (n : Notifier) (v w : Nat) : (n.leave v).signal w = n.signal w := by
  unfold signal leave
  rw [List.getElem?_modify]
  cases n.waiters[w]? with
  | none => rfl
  | some y => by_cases hv : v = w <;> simp [hv]

theorem Spares.trans {n₁ n₂ n₃ : Notifier} (h : Spares w n₁ n₂) (h' : Spares w n₂ n₃) :
    Spares w n₁ n₃ :=
  ⟨fun y hy => h'.waiter y (h.waiter y hy), fun r hr => h'.requests r (h.requests r hr),
    h'.watchers.trans h.watchers⟩

/-- A new waiter is attended to, and all others are left alone. -/
theorem attends_subscribe? (h : n.subscribe? id = some (v, n')) :
    v = n.waiters.length ∧ n'.Attends id v ∧ ∀ w, Spares w n n' := by
  unfold subscribe? at h
  split at h
  · cases h
  · obtain ⟨rfl, rfl⟩ := Prod.mk.inj (Option.some.inj h)
    refine ⟨rfl, ⟨{ id }, by simp, rfl, fun _ => Or.inl (by simp)⟩, fun w => ?_⟩
    refine ⟨fun y hy => ?_, fun r hr => List.mem_append_left _ hr, rfl⟩
    rw [List.getElem?_append_left (List.getElem?_eq_some_iff.mp hy).1]
    exact hy

end Notifier

namespace Call

/-- The caller waits with the waiter `w`. -/
def Waits (x : Call) (w : Nat) : Prop := ∃ deadline, x.phase = .waiting w deadline

variable {x x' : Call} {settings : Settings} {now : Instant} {fault : Option Error}
  {n n' : Notifier} {s s' : Store} {events : List Event} {w : Nat}

theorem Waits.inj (h : x.Waits w) {v : Nat} (h' : x.Waits v) : w = v := by
  obtain ⟨d, hd⟩ := h
  obtain ⟨e, he⟩ := h'
  have hp := hd.symm.trans he
  injection hp

/-- A caller keeps its cache and its id. -/
theorem Step.same (h : Step x settings now fault n s x' n' s' events) :
    x'.cache = x.cache ∧ x'.id = x.id := by
  have answer : ∀ q (r : Except Error Bytes) b,
      (x.answer q r b).1.cache = x.cache ∧ (x.answer q r b).1.id = x.id := by
    intro q r b
    unfold Call.answer
    split <;> exact ⟨rfl, rfl⟩
  cases h with
  | settled hp ha hv => exact answer _ _ _
  | reread hp ha hr hb => exact answer _ _ _
  | refused hp ha => exact answer _ _ _
  | gone hp hn => exact answer _ _ _
  | _ => exact ⟨rfl, rfl⟩

/-- A caller that is answered does not wait. -/
theorem not_waits_answer (x : Call) (q : String) (r : Except Error Bytes) (b : Bool) (w : Nat) :
    ¬ (x.answer q r b).1.Waits w := by
  rintro ⟨d, hd⟩
  have he := ended_answer x q r b
  rw [ended, hd] at he
  cases he

/-- A caller that waits after a step has just subscribed. -/
theorem Step.attends (h : Step x settings now fault n s x' n' s' events) (hw : x'.Waits w) :
    x.phase = .subscribing ∧ w = n.waiters.length ∧ n'.Attends x.id w := by
  cases h with
  | subscribe hp hn =>
      obtain ⟨d, hd⟩ := hw
      injection hd with hd
      subst hd
      exact ⟨hp, rfl, ⟨{ id := x.id }, by simp, rfl, fun _ => Or.inl (by simp)⟩⟩
  | settled hp ha hv => exact absurd hw (not_waits_answer _ _ _ _ _)
  | reread hp ha hr hb => exact absurd hw (not_waits_answer _ _ _ _ _)
  | refused hp ha => exact absurd hw (not_waits_answer _ _ _ _ _)
  | gone hp hn => exact absurd hw (not_waits_answer _ _ _ _ _)
  | _ =>
      obtain ⟨d, hd⟩ := hw
      cases hd

theorem spares_wakeRelease (wake : Wake) (n : Notifier) (id : Id) (w : Nat) :
    Notifier.Spares w n (wake.release n id) := by
  unfold Wake.release
  split
  · exact Notifier.Spares.refl w n
  · exact Notifier.spares_release n id w

/-- A caller leaves the waiters of others alone. -/
theorem Step.others (h : Step x settings now fault n s x' n' s' events) (hw : ¬ x.Waits w) :
    Notifier.Spares w n n' := by
  have leave {v : Nat} {d : Option Instant} (hp : x.phase = .waiting v d) :
      Notifier.Spares w n (n.leave v) := Notifier.spares_leave n fun he => hw ⟨d, he ▸ hp⟩
  cases h with
  | reread hp ha hr hb => exact spares_wakeRelease _ n x.id w
  | subscribe hp hn =>
      refine ⟨fun y hy => ?_, fun r hr => List.mem_append_left _ hr, rfl⟩
      rw [List.getElem?_append_left (List.getElem?_eq_some_iff.mp hy).1]
      exact hy
  | woken hp hs => exact leave hp
  | lost hp hs => exact leave hp
  | timedOut hp hs hl ht => exact leave hp
  | _ => exact Notifier.Spares.refl w n

theorem cancel_others (x : Call) (n : Notifier) (hw : ¬ x.Waits w) :
    Notifier.Spares w n (x.cancel n).2 := by
  unfold cancel
  dsimp only
  split
  · rename_i v d hp
    have hv : v ≠ w := by
      rintro rfl
      exact hw ⟨d, hp⟩
    exact (Notifier.spares_leave n hv).trans (Notifier.spares_release _ _ w)
  · exact spares_wakeRelease _ n x.id w
  · exact Notifier.Spares.refl w n

/-- A caller that was dropped does not wait. -/
theorem not_waits_cancel (x : Call) (n : Notifier) (w : Nat) : ¬ (x.cancel n).1.Waits w := by
  rintro ⟨d, hd⟩
  simp only [cancel] at hd
  split at hd
  · rename_i he
    unfold ended at he
    rw [hd] at he
    cases he
  · cases hd

end Call

end ReadThrough
