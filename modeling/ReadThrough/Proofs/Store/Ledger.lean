import ReadThrough.Proofs.Store.Operations
import ReadThrough.Store.Wait

/-! # Queued ids, markers and signals

Whoever queues an id leaves a marker and counts a signal; whoever waits takes a marker and notes
the signals.

* **Markers cover the queue** (`Store.Covered`).  No operation but the taking of a marker lets the
  backlog outgrow the markers (`Covered.apply`).
* **Steps of a wait** (`Wait.step_cases`).  A wait takes a marker, or gives up at its deadline and
  leaves everything as it is, or comes closer to one of the two (`Wait.laps`).  Signals that are not
  for it make it look once more; they never change its deadline.
* **A sleeper has missed nothing** (`Wait.Fresh`).  Somebody asleep who has seen all signals looked
  when there was no marker, and there is none now (`Wait.Fresh.blocked`). -/

namespace ReadThrough

namespace Store

/-- The number of queued ids, of markers, and of signals. -/
def ledger (s : Store) (k : Keys) : Nat × Nat × Nat :=
  ((s.queue k).backlog.size, (s.queue k).markers, s.signals)

variable {s s' : Store} {k l : Keys} {now : Instant}

@[simp] theorem ledger_forget (s : Store) (k : Keys) (now : Instant) (key : String) :
    (s.forget now key).ledger k = s.ledger k := by
  unfold forget
  split
  · split <;> rfl
  · rfl

@[simp] theorem ledger_afterFinished (s : Store) (k l : Keys) (id : Id) (now : Instant) :
    (s.afterFinished l id now).ledger k = s.ledger k := by
  unfold afterFinished
  split
  · rfl
  · exact ledger_forget s k now _

theorem ledger_release (s : Store) (k : Keys) (id : Id) :
    (s.release k id).ledger k = s.ledger k := by
  unfold release
  dsimp only
  split
  · simp [ledger, setQueue, queue]
  · rfl

theorem ledger_publish (s : Store) (k : Keys) (channel message : String) :
    (s.publish channel message).ledger k = s.ledger k := by
  unfold publish
  split <;> rfl

theorem ledger_complete (s : Store) (k : Keys) (id : Id) (c : Completion) (now : Instant) :
    (s.complete k id c now).2.ledger k = s.ledger k := by
  unfold complete
  cases c with
  | value bytes =>
      dsimp only
      rw [ledger_publish, ledger_release]
      rfl
  | failure message ttl =>
      dsimp only
      cases now.after? ttl with
      | none => rfl
      | some expires =>
          dsimp only
          rw [ledger_publish, ledger_release]
          rfl

theorem size_offer_le (b : Backlog) (id : Id) (p : Priority) :
    (b.offer id p).size ≤ b.size + 1 := by
  have ho : (b.others id).size ≤ b.line.size := by
    unfold Backlog.others
    split
    · exact Std.ExtTreeSet.size_erase_le
    · exact Nat.le_refl _
  unfold Backlog.offer
  split
  · exact Nat.le_trans Std.ExtTreeSet.size_insert_le (Nat.succ_le_succ ho)
  · exact Nat.le_succ _

/-- Asking for an id changes nothing in the ledger, or adds a marker and a signal. -/
theorem ledger_enqueue (s : Store) (k : Keys) (id : Id) (p : Priority) (now : Instant) :
    (s.enqueue k id p now).2.ledger k = s.ledger k ∨
      ∃ n ≤ (s.ledger k).1 + 1,
        (s.enqueue k id p now).2.ledger k = (n, (s.ledger k).2.1 + 1, (s.ledger k).2.2 + 1) := by
  unfold enqueue
  split
  · exact Or.inl rfl
  · split
    · exact Or.inl (ledger_afterFinished s k k id now)
    · dsimp only
      have hl := ledger_afterFinished s k k id now
      split
      · right
        rw [← hl]
        refine ⟨_, size_offer_le ((s.afterFinished k id now).queue k).backlog id p, ?_⟩
        simp [ledger, setQueue, queue]
      · exact Or.inl hl

theorem ledger_dequeue {t : Claim} (h : s.dequeue k = (some t, s')) :
    s.ledger k = ((s'.ledger k).1 + 1, (s'.ledger k).2) := by
  unfold dequeue at h
  cases hp : (s.queue k).backlog.pop? with
  | none => simp [hp] at h
  | some x =>
      obtain ⟨t', rest⟩ := x
      simp only [hp, Prod.mk.injEq, Option.some.injEq] at h
      obtain ⟨rfl, rfl⟩ := h
      obtain ⟨-, hs, -, -⟩ := pop?_some hp
      simp only [ledger, queue_setQueue, hs]
      rfl

theorem ledger_takeMarker (h : s.takeMarker k = some s') :
    s.ledger k = ((s'.ledger k).1, (s'.ledger k).2.1 + 1, (s'.ledger k).2.2) := by
  unfold takeMarker at h
  dsimp only at h
  split at h
  · cases h
  · rename_i hm
    obtain rfl := Option.some.inj h
    have hpos : (s.queue k).markers - 1 + 1 = (s.queue k).markers := by omega
    simp only [ledger, queue_setQueue, hpos]
    rfl

theorem ledger_takeMarker_ne (hl : l ≠ k) (h : s.takeMarker l = some s') :
    s'.ledger k = s.ledger k := by
  unfold takeMarker at h
  dsimp only at h
  split at h
  · cases h
  · obtain rfl := Option.some.inj h
    simp only [ledger, queue_setQueue_ne s hl]
    rfl

/-- The markers cover the queue, when `extra` more ids than markers may be queued. -/
def Covered (s : Store) (k : Keys) (extra : Nat) : Prop :=
  (s.ledger k).1 ≤ (s.ledger k).2.1 + extra

theorem covered_empty (k : Keys) (extra : Nat) : Covered {} k extra := by
  simp [Covered, ledger, queue, Backlog.size]

/-- Only who takes a marker or asks for another queue is not covered by this. -/
theorem ledger_apply {op : Op} (hk : ∀ l ∈ op.keys?, l = k) (hm : ∀ l, op ≠ .takeMarker l)
    (s : Store) (now : Instant) :
    (op.apply s now).ledger k = s.ledger k ∨
      (∃ n ≤ (s.ledger k).1 + 1,
        (op.apply s now).ledger k = (n, (s.ledger k).2.1 + 1, (s.ledger k).2.2 + 1)) ∨
      s.ledger k = (((op.apply s now).ledger k).1 + 1, ((op.apply s now).ledger k).2) := by
  cases op with
  | enqueue l id p =>
      obtain rfl := hk l rfl
      exact (ledger_enqueue s l id p now).imp_right Or.inl
  | dequeue l =>
      obtain rfl := hk l rfl
      simp only [Op.apply]
      cases hd : s.dequeue l with
      | mk answer t =>
          cases answer with
          | none => exact Or.inl (by rw [(dequeue_none hd).1])
          | some task => exact Or.inr (Or.inr (ledger_dequeue hd))
  | complete l id c => 
      obtain rfl := hk l rfl
      exact Or.inl (ledger_complete s l id c now)
  | lookup l id => exact Or.inl (ledger_forget s k now _)
  | isFinished l id => exact Or.inl (ledger_afterFinished s k l id now)
  | takeMarker l => exact absurd rfl (hm l)
  | receive feed =>
      left
      simp only [Op.apply]
      cases hr : s.receive? feed with
      | none => rfl
      | some x =>
          unfold receive? at hr
          split at hr
          · split at hr
            · cases hr
            · obtain rfl := Option.some.inj hr
              rfl
          · cases hr
  | _ => exact Or.inl rfl

theorem Covered.apply {op : Op} {extra : Nat} (h : s.Covered k extra)
    (hk : ∀ l ∈ op.keys?, l = k) (hm : ∀ l, op ≠ .takeMarker l) (now : Instant) :
    (op.apply s now).Covered k extra := by
  unfold Covered at *
  rcases ledger_apply hk hm s now with he | ⟨n, hn, he⟩ | he
  · rwa [he]
  · rw [he]
    dsimp only
    omega
  · rw [he] at h
    dsimp only at h
    omega

end Store

namespace Wait

variable {w w' : Wait} {s s' : Store} {now : Instant}

/-- How many more steps a wait takes at most after its deadline, if there are no new signals.
Whoever missed a signal goes round once more. -/
def laps (w : Wait) (s : Store) : Nat :=
  match w.phase with
  | .entering => 3
  | .looking seen => if seen < s.signals then 5 else 2
  | .asleep seen => if seen < s.signals then 4 else 1

/-- A wait goes on, takes a marker, or gives up at its deadline. -/
theorem step_cases {progress : Progress} (h : w.step? s now = some (progress, s')) :
    (∃ w', progress = .waiting w' ∧ s' = s ∧ w'.keys = w.keys ∧ w'.deadline = w.deadline ∧
        w'.laps s < w.laps s) ∨
      progress = .finished true ∧ s.takeMarker w.keys = some s' ∨
      progress = .finished false ∧ s' = s ∧ w.deadline ≤ now := by
  unfold step? at h
  split at h
  · rename_i hp
    obtain ⟨rfl, rfl⟩ := Prod.mk.inj (Option.some.inj h)
    exact Or.inl ⟨_, rfl, rfl, rfl, rfl, by simp [laps, hp]⟩
  · rename_i seen hp
    split at h
    · rename_i t ht
      obtain ⟨rfl, rfl⟩ := Prod.mk.inj (Option.some.inj h)
      exact Or.inr (Or.inl ⟨rfl, ht⟩)
    · obtain ⟨rfl, rfl⟩ := Prod.mk.inj (Option.some.inj h)
      refine Or.inl ⟨_, rfl, rfl, rfl, rfl, ?_⟩
      simp only [laps, hp]
      split <;> decide
  · rename_i seen hp
    split at h
    · rename_i hs
      obtain ⟨rfl, rfl⟩ := Prod.mk.inj (Option.some.inj h)
      exact Or.inl ⟨_, rfl, rfl, rfl, rfl, by simp [laps, hp, hs]⟩
    · obtain ⟨hd, h⟩ := Option.ite_none_right_eq_some.mp h
      obtain ⟨rfl, rfl⟩ := Prod.mk.inj (Option.some.inj h)
      exact Or.inr (Or.inr ⟨rfl, rfl, hd⟩)

/-- A step of a wait asks, claims and completes nothing. -/
theorem quiet_of_step {progress : Progress} (h : w.step? s now = some (progress, s')) (k : Keys) :
    Store.Quiet k now s s' := by
  rcases step_cases h with ⟨-, -, rfl, -⟩ | ⟨-, ht⟩ | ⟨-, rfl, -⟩
  · exact Store.Quiet.refl k now s'
  · exact Store.Quiet.of_entry_eq fun id => Store.entry_takeMarker ht k id
  · exact Store.Quiet.refl k now s'

/-- Whoever noted the signals noted no more than there are; whoever sleeps and noted all of them
sleeps because there is no marker. -/
def Fresh (w : Wait) (s : Store) : Prop :=
  match w.phase with
  | .entering => True
  | .looking seen => seen ≤ s.signals
  | .asleep seen => seen ≤ s.signals ∧ (seen = s.signals → (s.queue w.keys).markers = 0)

/-- Signals are never taken back, and without a new one no marker is added. -/
theorem Fresh.mono (h : w.Fresh s) (hs : s.signals ≤ s'.signals)
    (hm : s'.signals = s.signals → (s'.queue w.keys).markers ≤ (s.queue w.keys).markers) :
    w.Fresh s' := by
  unfold Fresh at *
  split at h
  · trivial
  · exact Nat.le_trans h hs
  · obtain ⟨hle, hz⟩ := h
    refine ⟨Nat.le_trans hle hs, fun he => ?_⟩
    have hsig : s'.signals = s.signals := by omega
    have hle' := hm hsig
    have hzero := hz (by omega)
    omega

/-- A wait that goes on stays fresh and leaves the store alone. -/
theorem Fresh.step (h : w.Fresh s) (hs : w.step? s now = some (.waiting w', s')) :
    s' = s ∧ w'.keys = w.keys ∧ w'.Fresh s := by
  unfold step? at hs
  unfold Fresh at h
  split at hs
  · obtain ⟨he, rfl⟩ := Prod.mk.inj (Option.some.inj hs)
    injection he with he
    subst he
    exact ⟨rfl, rfl, Nat.le_refl _⟩
  · rename_i seen hp
    rw [hp] at h
    split at hs
    · cases hs
    · rename_i ht
      obtain ⟨he, rfl⟩ := Prod.mk.inj (Option.some.inj hs)
      injection he with he
      subst he
      refine ⟨rfl, rfl, h, fun _ => ?_⟩
      unfold Store.takeMarker at ht
      dsimp only at ht
      split at ht
      · assumption
      · cases ht
  · split at hs
    · obtain ⟨he, rfl⟩ := Prod.mk.inj (Option.some.inj hs)
      injection he with he
      subst he
      exact ⟨rfl, rfl, trivial⟩
    · obtain ⟨-, hs⟩ := Option.ite_none_right_eq_some.mp hs
      cases hs

/-- A fresh wait that cannot go on has no marker to take, and its deadline is yet to come. -/
theorem Fresh.blocked (h : w.Fresh s) (hn : w.step? s now = none) :
    (s.queue w.keys).markers = 0 ∧ now < w.deadline := by
  unfold Fresh at h
  unfold step? at hn
  split at hn
  · cases hn
  · split at hn <;> cases hn
  · rename_i seen hp
    rw [hp] at h
    split at hn
    · cases hn
    · rename_i hs
      refine ⟨h.2 (Nat.le_antisymm h.1 (Nat.le_of_not_lt hs)), ?_⟩
      exact Nat.lt_of_not_le fun hd => by simp [hd] at hn

/-- A fresh wait that gives up has no marker to take. -/
theorem Fresh.in_vain (h : w.Fresh s) (hs : w.step? s now = some (.finished false, s')) :
    (s.queue w.keys).markers = 0 := by
  unfold Fresh at h
  unfold step? at hs
  split at hs
  · cases hs
  · split at hs <;> cases hs
  · rename_i seen hp
    rw [hp] at h
    split at hs
    · cases hs
    · rename_i hseen
      exact h.2 (Nat.le_antisymm h.1 (Nat.le_of_not_lt hseen))

end Wait

end ReadThrough
