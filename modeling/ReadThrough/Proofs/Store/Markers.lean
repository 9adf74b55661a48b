import ReadThrough.Proofs.Store.Ledger
import ReadThrough.Proofs.Store.Requests

/-! # Markers and signals of all queues

All queues of a store share the signals, and each has its own markers.

* **Raising** (`Store.Op.raises`).  An operation that puts an id into line or moves it up adds one
  marker to its queue and gives a signal; no other operation adds a marker (`ledger_of_apply`), and
  only the taking of one removes one (`markers_takeMarker`).
* **Fresh waits** (`Wait.Fresh.apply`).  So whatever is done to the store, a sleeper who has seen
  all signals has no marker to take. -/

namespace ReadThrough

namespace Store

/-- Whether an operation puts an id of the queue `k` into line or moves it up there. -/
def Op.raises (s : Store) (now : Instant) (k : Keys) : Op → Bool
  | enqueue l id p =>
    decide (l = k ∧ ((s.enqueue l id p now).2.entry l id).priority ≠ (s.entry l id).priority)
  | _ => false

variable {s s' : Store} {k l : Keys} {now : Instant} {op : Op}

/-- An id is raised if it is neither claimed nor finished, and not in line at a priority that is as
good. -/
theorem raises_enqueue (s : Store) (k : Keys) (id : Id) (p : Priority) (now : Instant) :
    (Op.enqueue k id p).raises s now k = true ↔
      (s.entry k id).claimed = false ∧ (s.entry k id).finished now = false ∧
        ∀ old, (s.entry k id).priority = some old → p < old := by
  simp only [Op.raises, decide_eq_true_eq, true_and, entry_enqueue, if_true]
  unfold Entry.asked
  cases hc : (s.entry k id).claimed with
  | true => simp
  | false =>
      cases hf : (s.entry k id).finished now with
      | true =>
          cases hv : (s.entry k id).value <;> simp [hv, Entry.seen]
      | false =>
          cases hp : (s.entry k id).priority with
          | none => simp [Entry.seen, Entry.bid, hp]
          | some old =>
              have hmin : ∀ a b : Int, min a b ≠ a ↔ b < a := by omega
              simp only [Entry.seen, Entry.bid, hp, Bool.false_eq_true, if_false, ne_eq,
                Option.some.injEq, forall_eq', true_and]
              exact hmin old p

/-- Whoever raises an id leaves a marker, and gives a signal to all who wait. -/
theorem ledger_of_enqueue (s : Store) (k : Keys) (id : Id) (p : Priority) (now : Instant) :
    ((s.enqueue k id p now).2.queue k).markers =
        (s.queue k).markers + ((Op.enqueue k id p).raises s now k).toNat ∧
      (s.enqueue k id p now).2.signals =
        s.signals + ((Op.enqueue k id p).raises s now k).toNat := by
  have hr := raises_enqueue s k id p now
  have hl := ledger_afterFinished s k k id now
  simp only [ledger, Prod.mk.injEq] at hl
  obtain ⟨-, hm, hs⟩ := hl
  have kept {t : Store} (hm : (t.queue k).markers = (s.queue k).markers)
      (hs : t.signals = s.signals) (hn : (Op.enqueue k id p).raises s now k ≠ true) :
      (t.queue k).markers = (s.queue k).markers + ((Op.enqueue k id p).raises s now k).toNat ∧
        t.signals = s.signals + ((Op.enqueue k id p).raises s now k).toNat := by
    rw [Bool.eq_false_iff.mpr hn]
    exact ⟨hm, hs⟩
  unfold enqueue
  split
  · rename_i hc
    refine kept rfl rfl fun h => ?_
    exact Bool.false_ne_true ((hr.mp h).1.symm.trans hc)
  · rename_i hc
    split
    · rename_i hf
      refine kept hm hs fun h => ?_
      rw [finished_eq] at hf
      exact Bool.false_ne_true ((hr.mp h).2.1.symm.trans hf)
    · rename_i hf
      rw [finished_eq] at hf
      dsimp only
      rw [queue_afterFinished]
      split
      · rename_i hi
        -- the old priority is worse
        have hup : (Op.enqueue k id p).raises s now k = true := by
          refine hr.mpr ⟨Bool.eq_false_iff.mpr hc, Bool.eq_false_iff.mpr hf, fun old ho => ?_⟩
          change (s.queue k).backlog.priority? id = some old at ho
          simpa [Backlog.improves, ho] using hi
        rw [hup]
        exact ⟨congrArg QueueState.markers (queue_setQueue _ k _), congrArg (· + 1) hs⟩
      · rename_i hi
        refine kept hm hs fun h => hi ?_
        have hp := (hr.mp h).2.2
        unfold Backlog.improves
        cases ho : (s.queue k).backlog.priority? id with
        | none => rfl
        | some old => exact decide_eq_true (hp old ho)

/-- An operation on a queue leaves the markers and signals alone if it does so in its own queue. -/
theorem ledger_of_own (hq : op.queue? = some l)
    (hl : ((op.apply s now).ledger l).2 = (s.ledger l).2) (k : Keys) :
    ((op.apply s now).ledger k).2 = (s.ledger k).2 := by
  by_cases hk : l = k
  · exact hk ▸ hl
  · have hne : (Request.op op).queue? ≠ some k := by simp [Request.queue?, hq, hk]
    have hqueue : (op.apply s now).queue k = s.queue k := Request.queue_apply_of_ne hne s now
    simp only [ledger, Prod.mk.injEq] at hl ⊢
    exact ⟨by rw [hqueue], hl.2⟩

/-- Only asking adds markers and signals, and only the taking of a marker removes one. -/
theorem ledger_of_idle (he : ∀ l id p, op ≠ .enqueue l id p) (hm : ∀ l, op ≠ .takeMarker l)
    (s : Store) (now : Instant) (k : Keys) :
    ((op.apply s now).ledger k).2 = (s.ledger k).2 := by
  cases op with
  | enqueue l id p => exact absurd rfl (he l id p)
  | takeMarker l => exact absurd rfl (hm l)
  | dequeue l =>
      refine ledger_of_own rfl ?_ k
      simp only [Op.apply]
      cases hd : s.dequeue l with
      | mk answer t =>
          cases answer with
          | none => rw [(dequeue_none hd).1]
          | some task => rw [ledger_dequeue hd]
  | complete l id c =>
      refine ledger_of_own rfl ?_ k
      exact congrArg Prod.snd (ledger_complete s l id c now)
  | lookup l id => exact congrArg Prod.snd (ledger_forget s k now _)
  | isFinished l id => exact congrArg Prod.snd (ledger_afterFinished s k l id now)
  | receive feed =>
      simp only [Op.apply]
      cases hr : s.receive? feed with
      | none => rfl
      | some x =>
          unfold receive? at hr
          split at hr
          · split at hr
            · cases hr
            · obtain rfl := Option.some.inj hr
              rfl
          · cases hr
  | _ => rfl

/-- What an operation that takes no marker does to the markers of a queue and to the signals. -/
theorem ledger_of_apply (hm : ∀ l, op ≠ .takeMarker l) (s : Store) (now : Instant) (k : Keys) :
    ((op.apply s now).queue k).markers = (s.queue k).markers + (op.raises s now k).toNat ∧
      s.signals + (op.raises s now k).toNat ≤ (op.apply s now).signals := by
  by_cases he : ∃ l id p, op = .enqueue l id p
  · obtain ⟨l, id, p, rfl⟩ := he
    obtain ⟨hmark, hsig⟩ := ledger_of_enqueue s l id p now
    by_cases hl : l = k
    · subst hl
      exact ⟨hmark, Nat.le_of_eq hsig.symm⟩
    · have hne : (Request.op (.enqueue l id p)).queue? ≠ some k :=
        fun h => hl (Option.some.inj h)
      have hqueue : ((Op.enqueue l id p).apply s now).queue k = s.queue k :=
        Request.queue_apply_of_ne hne s now
      have hr : (Op.enqueue l id p).raises s now k = false := by simp [Op.raises, hl]
      rw [hqueue, hr]
      refine ⟨rfl, ?_⟩
      change s.signals ≤ (s.enqueue l id p now).2.signals
      omega
  · have hidle := ledger_of_idle (fun l id p h => he ⟨l, id, p, h⟩) hm s now k
    have hr : op.raises s now k = false := by
      cases op with
      | enqueue l id p => exact absurd ⟨l, id, p, rfl⟩ he
      | _ => rfl
    simp only [ledger, Prod.mk.injEq] at hidle
    rw [hr]
    exact ⟨hidle.1, Nat.le_of_eq hidle.2.symm⟩

theorem markers_takeMarker (h : s.takeMarker l = some s') (k : Keys) :
    (s'.queue k).markers + (decide (l = k)).toNat = (s.queue k).markers ∧
      s'.signals = s.signals := by
  by_cases hl : l = k
  · subst hl
    have he := ledger_takeMarker h
    simp only [ledger, Prod.mk.injEq] at he
    simp only [decide_true, Bool.toNat_true]
    omega
  · have he := ledger_takeMarker_ne hl h
    simp only [ledger, Prod.mk.injEq] at he
    simp only [hl, decide_false, Bool.toNat_false]
    omega

/-- An operation that takes no marker adds no more ids to the line than markers. -/
theorem size_apply_le (hm : ∀ l, op ≠ .takeMarker l) (s : Store) (now : Instant) (k : Keys) :
    ((op.apply s now).queue k).backlog.size + (s.queue k).markers ≤
      (s.queue k).backlog.size + ((op.apply s now).queue k).markers := by
  by_cases hq : op.queue? = some k
  · have hk : ∀ l ∈ op.keys?, l = k := by
      intro l hl
      cases op with
      | takeMarker l => exact absurd rfl (hm l)
      | _ => exact Option.some.inj (hl.symm.trans hq)
    rcases ledger_apply hk hm s now with he | ⟨n, hn, he⟩ | he
    · simp only [ledger, Prod.mk.injEq] at he
      omega
    · simp only [ledger, Prod.mk.injEq] at hn he
      omega
    · simp only [ledger, Prod.mk.injEq] at he
      omega
  · have hne : (Request.op op).queue? ≠ some k := hq
    have hqueue : (op.apply s now).queue k = s.queue k := Request.queue_apply_of_ne hne s now
    exact Nat.le_of_eq (by rw [hqueue])

/-- Whoever takes a marker leaves the line alone. -/
theorem backlog_takeMarker (h : s.takeMarker l = some s') (k : Keys) :
    (s'.queue k).backlog = (s.queue k).backlog := by
  unfold takeMarker at h
  dsimp only at h
  split at h
  · cases h
  · obtain rfl := Option.some.inj h
    by_cases hl : l = k
    · subst hl
      rw [queue_setQueue]
    · rw [queue_setQueue_ne s hl]

end Store

namespace Wait

variable {w : Wait} {s : Store}

/-- Whatever is done to the store, a fresh wait stays fresh. -/
theorem Fresh.apply {op : Store.Op} (h : w.Fresh s) (now : Instant) : w.Fresh (op.apply s now) := by
  by_cases hm : ∃ l, op = .takeMarker l
  · obtain ⟨l, rfl⟩ := hm
    simp only [Store.Op.apply]
    cases ht : s.takeMarker l with
    | none => exact h
    | some t =>
        obtain ⟨hmark, hsig⟩ := Store.markers_takeMarker ht w.keys
        exact h.mono (Nat.le_of_eq hsig.symm) fun _ => hmark ▸ Nat.le_add_right _ _
  · obtain ⟨hmark, hsig⟩ := Store.ledger_of_apply (fun l he => hm ⟨l, he⟩) s now w.keys
    exact h.mono (by omega) fun _ => by omega

end Wait

end ReadThrough
