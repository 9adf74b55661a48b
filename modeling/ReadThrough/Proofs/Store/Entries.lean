import ReadThrough.Store

/-! # What the store knows about one id

The store keeps the queued ids, the claimed ids, the values and the failures of a queue in separate
places.  An `Entry` gathers what all of them say about one id (`Store.entry`), and every operation
is described by what it does to entries.

* **Operations on an id** change the entry of that id and no other one: asking for it
  (`entry_enqueue`, with `Entry.asked`), claiming it (`entry_of_dequeue`), writing its result
  (`entry_complete`, with `Entry.completed`) and looking at its records (`entry_forget`,
  `entry_afterFinished`, with `Entry.seen`).
* **Everything else** (markers, feeds, announcements, outages) leaves all entries as they are.
* **Ageing** (`Store.Quiet`).  An operation that neither asks, claims nor completes can at most
  remove failures that have expired. -/

namespace ReadThrough

namespace Keys

@[simp] theorem value_inj {k : Keys} {i j : Id} : k.value i = k.value j ↔ i = j :=
  String.append_right_inj _

@[simp] theorem failure_inj {k : Keys} {i j : Id} : k.failure i = k.failure j ↔ i = j :=
  String.append_right_inj _

@[simp] theorem queue_inj {k l : Keys} : k.queue = l.queue ↔ k = l := by
  cases k
  cases l
  simp [queue]

end Keys

/-- An instant that the clock can name is the end of its delay. -/
theorem Instant.eq_of_after? {now t : Instant} {d : Duration} (h : now.after? d = some t) :
    t = now + d.nanos := by
  unfold after? at h
  obtain ⟨-, he⟩ := Option.ite_none_right_eq_some.mp h
  exact (Option.some.inj he).symm

/-- Whether the clock can name the instant at which a result expires, if it does. -/
def Completion.nameable (c : Completion) (now : Instant) : Bool :=
  match c with
  | .value _ => true
  | .failure _ ttl => (now.after? ttl).isSome

/-- What a store knows about one id of a queue. -/
structure Entry where
  /-- The priority under which the id is queued, if it is. -/
  priority : Option Priority
  claimed : Bool
  value : Option Bytes
  /-- The failure on record, expired or not. -/
  failure : Option Failure

namespace Entry

/-- The failure that has not expired. -/
def live? (e : Entry) (now : Instant) : Option Failure := e.failure.filter fun f => now < f.expires

/-- Whether there is a value or a live failure. -/
def finished (e : Entry) (now : Instant) : Bool := e.value.isSome || (e.live? now).isSome

/-- The entry without an expired failure. -/
def seen (e : Entry) (now : Instant) : Entry := { e with failure := e.live? now }

/-- The better of the priority that an id has and the one it is asked for at. -/
def bid (e : Entry) (p : Priority) : Priority :=
  match e.priority with
  | some old => min old p
  | none => p

/-- The entry after the id was asked for at priority `p`. -/
def asked (e : Entry) (p : Priority) (now : Instant) : Entry :=
  if e.claimed then e
  else if e.finished now then if e.value.isSome then e else e.seen now
  else { e.seen now with priority := some (e.bid p) }

/-- The entry after the end of a computation was written back.  If the clock cannot name the expiry
of a failure, only the value is gone. -/
def completed (e : Entry) (c : Completion) (now : Instant) : Entry :=
  match c with
  | .value bytes => { e with claimed := false, value := some bytes, failure := none }
  | .failure message ttl =>
    match now.after? ttl with
    | some expires => { e with claimed := false, value := none, failure := some ⟨message, expires⟩ }
    | none => { e with value := none }

/-- Nothing happened to the entry, except that an expired failure may have been removed. -/
def Aged (now : Instant) (e e' : Entry) : Prop := e' = e ∨ e' = e.seen now

theorem Aged.refl (now : Instant) (e : Entry) : Aged now e e := Or.inl rfl

theorem Aged.priority_eq {now : Instant} {e e' : Entry} (h : Aged now e e') :
    e'.priority = e.priority := by
  rcases h with rfl | rfl <;> rfl

theorem Aged.claimed_eq {now : Instant} {e e' : Entry} (h : Aged now e e') :
    e'.claimed = e.claimed := by
  rcases h with rfl | rfl <;> rfl

theorem Aged.value_eq {now : Instant} {e e' : Entry} (h : Aged now e e') :
    e'.value = e.value := by
  rcases h with rfl | rfl <;> rfl

/-- A failure goes only if it has expired, and none comes. -/
theorem Aged.failure_eq {now : Instant} {e e' : Entry} (h : Aged now e e') :
    e'.failure = e.failure ∨ e'.failure = none ∧ ∃ f, e.failure = some f ∧ f.expires ≤ now := by
  rcases h with rfl | rfl
  · exact Or.inl rfl
  · cases hf : e.failure with
    | none => simp [seen, live?, hf]
    | some f =>
        by_cases hl : now < f.expires
        · simp [seen, live?, hf, Option.filter_some, hl]
        · right
          exact ⟨by simp [seen, live?, hf, Option.filter_some, hl], f, rfl, Nat.le_of_not_lt hl⟩

theorem live?_seen (e : Entry) (now : Instant) : (e.seen now).live? now = e.live? now := by
  simp [seen, live?]

theorem finished_seen (e : Entry) (now : Instant) : (e.seen now).finished now = e.finished now := by
  unfold finished
  rw [live?_seen]
  rfl

theorem Aged.finished_eq {now : Instant} {e e' : Entry} (h : Aged now e e') :
    e'.finished now = e.finished now := by
  rcases h with rfl | rfl
  · rfl
  · exact finished_seen e now

/-- Time only ends the life of a failure. -/
theorem finished_mono {e : Entry} {now later : Instant} (h : now ≤ later)
    (hf : e.finished later = true) : e.finished now = true := by
  unfold finished live? at *
  cases hv : e.value with
  | some b => simp
  | none =>
      cases he : e.failure with
      | none => simp [hv, he] at hf
      | some f =>
          simp only [hv, he, Option.filter_some, Option.isSome_none, Bool.false_or] at hf ⊢
          by_cases hl : later < f.expires
          · simp [Nat.lt_of_le_of_lt h hl]
          · simp [hl] at hf

theorem asked_claimed (e : Entry) (p : Priority) (now : Instant) :
    (e.asked p now).claimed = e.claimed := by
  unfold asked
  split
  · rfl
  · split
    · split <;> rfl
    · rfl

theorem asked_value (e : Entry) (p : Priority) (now : Instant) :
    (e.asked p now).value = e.value := by
  unfold asked
  split
  · rfl
  · split
    · split <;> rfl
    · rfl

theorem finished_asked (e : Entry) (p : Priority) (now : Instant) :
    (e.asked p now).finished now = e.finished now := by
  unfold asked
  split
  · rfl
  · split
    · split
      · rfl
      · exact finished_seen e now
    · exact finished_seen e now

/-- A failure whose expiry the clock cannot name finishes nothing. -/
theorem finished_of_completed {e : Entry} {c : Completion} {now : Instant}
    (hn : c.nameable now = false) (hf : (e.completed c now).finished now = true) :
    e.finished now = true := by
  cases c with
  | value bytes => cases hn
  | failure message ttl =>
      have ha : now.after? ttl = none := by simpa [Completion.nameable] using hn
      simp only [completed, ha, finished, live?, Option.isSome_none, Bool.false_or] at hf
      simp [finished, live?, hf]

end Entry

namespace Store

/-- What the store knows about an id. -/
def entry (s : Store) (k : Keys) (id : Id) : Entry where
  priority := (s.queue k).backlog.priority? id
  claimed := (s.queue k).claimed.contains id
  value := s.values[k.value id]?
  failure := s.failures[k.failure id]?

/-- At first nothing is known about any id. -/
theorem entry_empty (k : Keys) (id : Id) : entry {} k id = ⟨none, false, none, none⟩ := by
  simp [entry, queue, Backlog.priority?]

variable (s : Store) (k : Keys)

/-! ### Queues and records -/

@[simp] theorem queue_setQueue (q : QueueState) : (s.setQueue k q).queue k = q := by
  simp [setQueue, queue]

theorem queue_setQueue_ne {k l : Keys} (h : l ≠ k) (q : QueueState) :
    (s.setQueue l q).queue k = s.queue k := by
  have hq : ¬ l.queue = k.queue := fun e => h (Keys.queue_inj.mp e)
  simp only [setQueue, queue, Std.ExtTreeMap.getD_insert]
  simp [hq]

/-- The entry of an id depends on its queue and its two records only. -/
theorem entry_congr {s t : Store} {k : Keys} {id : Id} (hq : t.queue k = s.queue k)
    (hv : t.values[k.value id]? = s.values[k.value id]?)
    (hf : t.failures[k.failure id]? = s.failures[k.failure id]?) :
    t.entry k id = s.entry k id := by
  simp only [entry, hq, hv, hf]

theorem entry_setQueue (q : QueueState) (id : Id) :
    (s.setQueue k q).entry k id =
      { s.entry k id with
        priority := q.backlog.priority? id, claimed := q.claimed.contains id } := by
  simp only [entry, queue_setQueue]
  rfl

theorem finished_eq (id : Id) (now : Instant) :
    s.finished k id now = (s.entry k id).finished now := by
  simp [finished, failure?, Entry.finished, Entry.live?, entry]

/-! ### Looking -/

/-- Looking at a failure removes it if it has expired. -/
theorem entry_forget (id j : Id) (now : Instant) :
    (s.forget now (k.failure id)).entry k j =
      if j = id then (s.entry k id).seen now else s.entry k j := by
  unfold forget
  cases hf : s.failures[k.failure id]? with
  | none =>
      by_cases hj : j = id
      · subst hj
        simp [Entry.seen, Entry.live?, entry, hf]
      · simp [hj]
  | some f =>
      dsimp only
      by_cases he : f.expires ≤ now
      · rw [if_pos he]
        by_cases hj : j = id
        · subst hj
          have hl : ¬ now < f.expires := Nat.not_lt.mpr he
          simp [Entry.seen, Entry.live?, entry, hf, Option.filter_some, hl, queue]
        · have hk : ¬ id = j := fun e => hj e.symm
          rw [if_neg hj]
          refine entry_congr rfl rfl ?_
          simp [Std.ExtTreeMap.getElem?_erase, hk]
      · rw [if_neg he]
        by_cases hj : j = id
        · subst hj
          have hl : now < f.expires := Nat.lt_of_not_le he
          simp [Entry.seen, Entry.live?, entry, hf, Option.filter_some, hl]
        · simp [hj]

/-- Asking whether an id is finished looks at its failure only if it has no value. -/
theorem entry_afterFinished (id j : Id) (now : Instant) :
    (s.afterFinished k id now).entry k j =
      if j = id ∧ (s.entry k id).value = none then (s.entry k id).seen now else s.entry k j := by
  unfold afterFinished
  rw [Std.ExtTreeMap.contains_eq_isSome_getElem?]
  cases hv : s.values[k.value id]? with
  | some bytes => simp [entry, hv]
  | none =>
      rw [Option.isSome_none, if_neg (by simp), entry_forget]
      simp [entry, hv]

/-! ### Queueing -/

theorem enqueue_answer (id : Id) (p : Priority) (now : Instant) :
    (s.enqueue k id p now).1 =
      if (s.entry k id).claimed then .inProgress
      else if (s.entry k id).finished now then .resolved else .queued := by
  unfold enqueue
  rw [finished_eq]
  show _ = if (s.queue k).claimed.contains id then _ else _
  split
  · rfl
  · split
    · rfl
    · dsimp only
      split <;> rfl

/-- Without a record, asking whether an id is finished leaves only live failures. -/
theorem entry_afterFinished_of_not_finished {id : Id} {now : Instant}
    (h : (s.entry k id).finished now = false) (j : Id) :
    (s.afterFinished k id now).entry k j =
      if j = id then (s.entry k id).seen now else s.entry k j := by
  have hv : (s.entry k id).value = none := by
    unfold Entry.finished at h
    simp only [Bool.or_eq_false_iff, Option.isSome_eq_false_iff, Option.isNone_iff_eq_none] at h
    exact h.1
  rw [entry_afterFinished]
  simp [hv]

/-- Looking at records leaves the queues alone. -/
theorem queue_afterFinished (l : Keys) (id : Id) (now : Instant) :
    (s.afterFinished k id now).queue l = s.queue l := by
  unfold afterFinished forget
  split
  · rfl
  · split
    · split <;> rfl
    · rfl

/-- Offering an id to the backlog of its queue. -/
theorem entry_offer (id j : Id) (p : Priority) (n : Nat) :
    (s.setQueue k { s.queue k with
      backlog := (s.queue k).backlog.offer id p, markers := n }).entry k j =
      if j = id then { s.entry k id with priority := some ((s.entry k id).bid p) }
      else s.entry k j := by
  rw [entry_setQueue, Backlog.priority?_offer]
  by_cases hj : j = id
  · subst hj
    cases hp : (s.queue k).backlog.priority? j with
    | none => simp [Entry.bid, entry, hp]
    | some old => simp [Entry.bid, entry, hp]
  · simp [hj, entry]

/-- Asking for an id changes its entry and no other. -/
theorem entry_enqueue (id j : Id) (p : Priority) (now : Instant) :
    (s.enqueue k id p now).2.entry k j =
      if j = id then (s.entry k id).asked p now else s.entry k j := by
  unfold enqueue Entry.asked
  rw [finished_eq]
  by_cases hc : (s.queue k).claimed.contains id
  · have hc' : (s.entry k id).claimed = true := hc
    rw [if_pos hc, hc']
    by_cases hj : j = id
    · simp [hj]
    · simp [hj]
  · have hc' : (s.entry k id).claimed = false := Bool.eq_false_iff.mpr hc
    rw [if_neg hc, hc']
    cases hf : (s.entry k id).finished now with
    | true =>
        simp only [if_true, entry_afterFinished]
        cases (s.entry k id).value <;> by_cases hj : j = id <;> simp [hj]
    | false =>
        have he := entry_afterFinished_of_not_finished s k hf
        simp only [Bool.false_eq_true, if_false]
        split
        · show ((s.afterFinished k id now).setQueue k _).entry k j = _
          rw [entry_offer]
          by_cases hj : j = id
          · simp [hj, he, Entry.seen, Entry.bid]
          · simp [hj, he]
        · rename_i hi
          rw [he]
          by_cases hj : j = id
          · subst hj
            -- the old priority is at least as good
            rw [queue_afterFinished] at hi
            unfold Backlog.improves at hi
            simp only [if_true, Entry.seen, Entry.bid, entry]
            cases ho : (s.queue k).backlog.priority? j with
            | none => simp [ho] at hi
            | some old =>
                simp only [ho, decide_eq_true_eq, Int.not_lt] at hi
                simp [Int.min_eq_left hi]
          · simp [hj]

/-! ### Claiming -/

/-- Taking the first entry off takes its id out of the backlog. -/
theorem pop?_some {b rest : Backlog} {t : Claim} (h : b.pop? = some (t, rest)) :
    b.priority? t.id = some t.priority ∧ rest.size + 1 = b.size ∧ t.remaining = rest.size ∧
      ∀ j, rest.priority? j = if j = t.id then none else b.priority? j := by
  unfold Backlog.pop? at h
  split at h
  · cases h
  · rename_i p id _ hl
    obtain ⟨rfl, rfl⟩ := Prod.mk.inj (Option.some.inj h)
    have hm : (p, id) ∈ b.line := Backlog.mem_of_toList hl
    refine ⟨(b.agree p id).mp hm, ?_, rfl, fun j => ?_⟩
    · have hpos : b.line.size ≠ 0 := by
        intro h0
        rw [Std.ExtTreeSet.eq_empty_iff_size_eq_zero.mpr h0] at hm
        exact Std.ExtTreeSet.not_mem_empty hm
      have hc : b.line.contains (p, id) = true := hm
      simp only [Backlog.size, Std.ExtTreeSet.size_erase, hc, if_true]
      omega
    · by_cases hj : j = id
      · simp [Backlog.priority?, hj]
      · have hk : ¬ id = j := fun e => hj e.symm
        simp [Backlog.priority?, Std.ExtTreeMap.getElem?_erase, hj, hk]

/-- Nothing can be taken off an empty backlog only. -/
theorem pop?_none {b : Backlog} (h : b.pop? = none) : b.size = 0 := by
  unfold Backlog.pop? at h
  split at h
  · rename_i hl
    rw [Backlog.size, ← Std.ExtTreeSet.length_toList, hl]
    rfl
  · cases h

theorem priority?_of_size_eq_zero {b : Backlog} (h : b.size = 0) (id : Id) :
    b.priority? id = none := by
  refine Option.eq_none_iff_forall_ne_some.mpr fun p hp => ?_
  have hm := (b.agree p id).mpr hp
  rw [Std.ExtTreeSet.eq_empty_iff_size_eq_zero.mpr h] at hm
  exact Std.ExtTreeSet.not_mem_empty hm

/-- A claim takes a queued id, and changes the entry of no other one. -/
theorem entry_of_dequeue {s s' : Store} {k : Keys} {t : Claim} (h : s.dequeue k = (some t, s')) :
    (s.entry k t.id).priority = some t.priority ∧
      ∀ j, s'.entry k j =
        if j = t.id then { s.entry k t.id with priority := none, claimed := true }
        else s.entry k j := by
  unfold dequeue at h
  cases hp : (s.queue k).backlog.pop? with
  | none => simp [hp] at h
  | some x =>
      obtain ⟨t', rest⟩ := x
      simp only [hp, Prod.mk.injEq, Option.some.injEq] at h
      obtain ⟨rfl, rfl⟩ := h
      obtain ⟨hq, -, -, hr⟩ := pop?_some hp
      refine ⟨hq, fun j => ?_⟩
      rw [entry_setQueue, hr]
      by_cases hj : j = t'.id
      · simp [hj, entry]
      · have hk : ¬ t'.id = j := fun e => hj e.symm
        simp [hj, hk, entry, Std.ExtTreeSet.contains_insert]

theorem dequeue_none {s s' : Store} {k : Keys} (h : s.dequeue k = (none, s')) :
    s' = s ∧ (s.queue k).backlog.size = 0 := by
  unfold dequeue at h
  cases hp : (s.queue k).backlog.pop? with
  | none =>
      simp only [hp, Prod.mk.injEq, true_and] at h
      exact ⟨h.symm, pop?_none hp⟩
  | some x => simp [hp] at h

/-! ### Completing -/

theorem entry_publish (channel message : String) (j : Id) :
    (s.publish channel message).entry k j = s.entry k j := by
  unfold publish
  split <;> rfl

theorem entry_release (id j : Id) :
    (s.release k id).entry k j =
      if j = id then { s.entry k id with claimed := false } else s.entry k j := by
  unfold release
  by_cases hc : (s.queue k).claimed.contains id
  · rw [if_pos hc, entry_setQueue]
    by_cases hj : j = id
    · simp [hj, entry]
    · have hk : ¬ id = j := fun e => hj e.symm
      simp [hj, hk, entry, Std.ExtTreeSet.contains_erase]
  · rw [if_neg hc]
    by_cases hj : j = id
    · have hn : (s.queue k).claimed.contains id = false := Bool.eq_false_iff.mpr hc
      simp [hj, entry, hn]
    · simp [hj]

/-- Writing a result changes the entry of its id and no other. -/
theorem entry_complete (id j : Id) (c : Completion) (now : Instant) :
    (s.complete k id c now).2.entry k j =
      if j = id then (s.entry k id).completed c now else s.entry k j := by
  unfold complete Entry.completed
  cases c with
  | value bytes =>
      dsimp only
      rw [entry_publish, entry_release]
      by_cases hj : j = id
      · simp [hj, entry, queue]
      · have hk : ¬ id = j := fun e => hj e.symm
        simp [hj, hk, entry, queue, Std.ExtTreeMap.getElem?_insert, Std.ExtTreeMap.getElem?_erase]
  | failure message ttl =>
      dsimp only
      cases now.after? ttl with
      | none =>
          by_cases hj : j = id
          · simp [hj, entry, queue]
          · have hk : ¬ id = j := fun e => hj e.symm
            simp [hj, hk, entry, queue, Std.ExtTreeMap.getElem?_erase]
      | some expires =>
          dsimp only
          rw [entry_publish, entry_release]
          by_cases hj : j = id
          · simp [hj, entry, queue]
          · have hk : ¬ id = j := fun e => hj e.symm
            simp [hj, hk, entry, queue, Std.ExtTreeMap.getElem?_insert,
              Std.ExtTreeMap.getElem?_erase]

/-- A result is accepted unless the clock cannot name the expiry of a failure. -/
theorem complete_accepted (id : Id) (c : Completion) (now : Instant) :
    (s.complete k id c now).1 = c.nameable now := by
  unfold complete Completion.nameable
  cases c with
  | value bytes => rfl
  | failure message ttl =>
      dsimp only
      cases now.after? ttl <;> rfl

/-! ### Markers -/

theorem entry_takeMarker {s s' : Store} {l : Keys} (h : s.takeMarker l = some s') (k : Keys)
    (id : Id) : s'.entry k id = s.entry k id := by
  unfold takeMarker at h
  dsimp only at h
  split at h
  · cases h
  · obtain rfl := Option.some.inj h
    by_cases hk : l = k
    · subst hk
      rw [entry_setQueue]
      rfl
    · exact entry_congr (queue_setQueue_ne s hk _) rfl rfl

end Store

end ReadThrough
