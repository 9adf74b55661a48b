import ReadThrough.Proofs.Store.Ordering
import ReadThrough.Proofs.System.Asking

/-! # The status of an id

What the store knows about an id is spread over its backlog, its claimed ids and its records.  In a
lawful entry these exclude each other, and the id has one status.

* **Status** (`Status`, `Entry.Shows`).  An id is absent, queued at a priority, claimed, or it has
  a value or a failure that has not expired.
* **Lawful entries** (`Entry.Lawful`) show exactly one status at any time
  (`Lawful.existsUnique_shows`).  They stay lawful under every operation that completes claimed ids
  only (`Store.lawful_apply`).
* **Reports** (`Store.Reports`, `Store.reports_of_lawful`).  Every operation that answers something
  about an id answers what its status says.
* **Changes** (`Status.Change`, `Status.Lapse`, `Store.change_apply`).  The changes of status that
  an operation, or time, can bring about. -/

namespace ReadThrough

/-- What an id is to a queue at some time. -/
inductive Status where
  | absent
  | queued (priority : Priority)
  | claimed
  | value (bytes : Bytes)
  /-- There is a failure that has not expired. -/
  | failed (failure : Failure)
deriving DecidableEq

namespace Status

/-- The answer to whoever asks for the id. -/
def answer : Status → Enqueued
  | absent => .queued
  | queued _ => .queued
  | claimed => .inProgress
  | value _ => .resolved
  | failed _ => .resolved

/-- What whoever looks for the id finds. -/
def record : Status → Record
  | value bytes => .value bytes
  | failed f => .failure f.message
  | _ => .missing

/-- Whether the id is finished. -/
def finished : Status → Bool
  | value _ => true
  | failed _ => true
  | _ => false

/-- `Change id now cause st st'`: at `now` the status of `id` may go from `st` to `st'`, because of
an operation, or because time has passed (`none`). -/
inductive Change (id : Id) (now : Instant) : Option Store.Op → Status → Status → Prop
  | ask {k : Keys} {p : Priority} : Change id now (some (.enqueue k id p)) absent (queued p)
  | improve {k : Keys} {p old : Priority} (hp : p < old) :
      Change id now (some (.enqueue k id p)) (queued old) (queued p)
  | claim {k : Keys} {p : Priority} : Change id now (some (.dequeue k)) (queued p) claimed
  | compute {k : Keys} {bytes : Bytes} :
      Change id now (some (.complete k id (.value bytes))) claimed (value bytes)
  | fail {k : Keys} {message : String} {ttl : Duration} {expires : Instant}
      (ht : now.after? ttl = some expires) :
      Change id now (some (.complete k id (.failure message ttl))) claimed
        (failed ⟨message, expires⟩)
  | expire {f : Failure} (hf : f.expires ≤ now) : Change id now none (failed f) absent

/-- A failure is written that is kept for no time at all, and the claimed id is absent at once. -/
def Lapse (id : Id) (cause : Option Store.Op) (st st' : Status) : Prop :=
  (∃ k message, cause = some (.complete k id (.failure message ⟨0⟩))) ∧ st = claimed ∧ st' = absent

end Status

namespace Entry

/-- An entry shows a status. -/
def Shows (e : Entry) (now : Instant) : Status → Prop
  | .absent => e.priority = none ∧ e.claimed = false ∧ e.value = none ∧ e.live? now = none
  | .queued p => e.priority = some p
  | .claimed => e.claimed = true
  | .value bytes => e.value = some bytes
  | .failed f => e.live? now = some f

instance (e : Entry) (now : Instant) (st : Status) : Decidable (e.Shows now st) :=
  match st with
  | .absent => inferInstanceAs (Decidable (_ ∧ _ ∧ _ ∧ _))
  | .queued _ => inferInstanceAs (Decidable (_ = _))
  | .claimed => inferInstanceAs (Decidable (_ = _))
  | .value _ => inferInstanceAs (Decidable (_ = _))
  | .failed _ => inferInstanceAs (Decidable (_ = _))

/-- A sound entry without a failure beside its value. -/
structure Lawful (e : Entry) : Prop extends Sound e where
  alone : e.value ≠ none → e.failure = none

/-- The status of a lawful entry. -/
def status (e : Entry) (now : Instant) : Status :=
  if e.claimed then .claimed
  else
    match e.priority, e.value, e.live? now with
    | some p, _, _ => .queued p
    | none, some bytes, _ => .value bytes
    | none, none, some f => .failed f
    | none, none, none => .absent

variable {e e' : Entry} {now later : Instant} {st : Status}

theorem live?_of_failure (h : e.failure = none) (now : Instant) : e.live? now = none := by
  simp [live?, h]

theorem Lawful.shows_iff (h : e.Lawful) : e.Shows now st ↔ e.status now = st := by
  obtain ⟨⟨hu, hb⟩, ha⟩ := h
  unfold status
  cases hc : e.claimed with
  | true =>
      have hq := hu hc
      obtain ⟨hv, hf⟩ := hb (Or.inl hc)
      have hl := live?_of_failure hf now
      cases st <;> simp [Shows, hc, hq, hv, hl]
  | false =>
      cases hq : e.priority with
      | some p =>
          obtain ⟨hv, hf⟩ := hb (Or.inr (by simp [hq]))
          have hl := live?_of_failure hf now
          cases st <;> simp [Shows, hc, hq, hv, hl]
      | none =>
          cases hv : e.value with
          | some bytes =>
              have hl := live?_of_failure (ha (by simp [hv])) now
              cases st <;> simp [Shows, hc, hq, hv, hl]
          | none =>
              cases hl : e.live? now with
              | some f => cases st <;> simp [Shows, hc, hq, hv, hl]
              | none => cases st <;> simp [Shows, hc, hq, hv, hl]

/-- **A lawful entry shows one status.** -/
theorem Lawful.existsUnique_shows (h : e.Lawful) (now : Instant) : ∃! st, e.Shows now st :=
  ⟨e.status now, h.shows_iff.mpr rfl, fun _ hs => (h.shows_iff.mp hs).symm⟩

/-- A status says of all places together what is kept there. -/
theorem Lawful.kept (h : e.Lawful) (hs : e.Shows now st) :
    e.claimed = (match st with | .claimed => true | _ => false) ∧
      e.value = (match st with | .value bytes => some bytes | _ => none) ∧
      e.live? now = (match st with | .failed f => some f | _ => none) := by
  have unqueued (hq : e.priority ≠ none) : e.claimed = false :=
    Bool.eq_false_iff.mpr fun hc => hq (h.unqueued hc)
  have bare (hb : e.claimed = true ∨ e.priority ≠ none) : e.value = none ∧ e.live? now = none :=
    ⟨(h.bare hb).1, live?_of_failure (h.bare hb).2 now⟩
  -- whatever has a result is not claimed
  have free (hr : e.value ≠ none ∨ e.live? now ≠ none) : e.claimed = false := by
    refine Bool.eq_false_iff.mpr fun hc => ?_
    obtain ⟨hv, hl⟩ := bare (Or.inl hc)
    exact hr.elim (· hv) (· hl)
  cases st with
  | absent => exact ⟨hs.2.1, hs.2.2⟩
  | queued p =>
      have hq : e.priority ≠ none := by simp [show e.priority = some p from hs]
      exact ⟨unqueued hq, bare (Or.inr hq)⟩
  | claimed => exact ⟨hs, bare (Or.inl hs)⟩
  | value bytes =>
      have hv : e.value ≠ none := by simp [show e.value = some bytes from hs]
      exact ⟨free (Or.inl hv), hs, live?_of_failure (h.alone hv) now⟩
  | failed f =>
      have hl : e.live? now ≠ none := by simp [show e.live? now = some f from hs]
      refine ⟨free (Or.inr hl), ?_, hs⟩
      by_contra hv
      exact hl (live?_of_failure (h.alone hv) now)

/-! ### Lawful entries stay lawful -/

theorem Aged.lawful (ha : Aged now e e') (h : e.Lawful) : e'.Lawful := by
  refine ⟨ha.sound h.toSound, fun hv => ?_⟩
  rw [ha.value_eq] at hv
  rcases ha.failure_eq with hf | ⟨hf, -⟩
  · rw [hf, h.alone hv]
  · exact hf

theorem Lawful.asked (h : e.Lawful) (p : Priority) (now : Instant) : (e.asked p now).Lawful := by
  refine ⟨h.toSound.asked p now, fun hv => ?_⟩
  rw [asked_value] at hv
  have hf := h.alone hv
  have hl := live?_of_failure hf now
  unfold Entry.asked
  split
  · exact hf
  · split
    · split
      · exact hf
      · exact hl
    · exact hl

theorem Lawful.taken (h : e.Lawful) (hq : e.priority ≠ none) :
    Lawful { e with priority := none, claimed := true } :=
  ⟨h.toSound.taken hq, h.alone⟩

theorem Lawful.completed (h : e.Lawful) (hc : e.claimed = true) (c : Completion) (now : Instant) :
    (e.completed c now).Lawful := by
  refine ⟨h.toSound.completed hc c now, ?_⟩
  unfold Entry.completed
  split
  · exact fun _ => rfl
  · split
    · exact fun hv => absurd rfl hv
    · exact fun hv => absurd rfl hv

/-! ### What becomes of the status -/

theorem Aged.status_eq (ha : Aged now e e') : e'.status now = e.status now := by
  rcases ha with rfl | rfl
  · rfl
  · unfold status
    rw [live?_seen]
    rfl

/-- Asking queues an absent id and may improve the priority of a queued one. -/
theorem Lawful.status_asked (h : e.Lawful) (p : Priority) (now : Instant) :
    (e.asked p now).status now =
      match e.status now with
      | .absent => .queued p
      | .queued old => .queued (min old p)
      | st => st := by
  unfold Entry.asked
  cases hc : e.claimed with
  | true => simp [status, hc]
  | false =>
      cases hf : e.finished now with
      | true =>
          -- a finished id is not queued
          have hq : e.priority = none := by
            by_contra hq
            obtain ⟨hv, hn⟩ := h.bare (Or.inr hq)
            simp [finished, hv, live?_of_failure hn now] at hf
          have hs : (if e.value.isSome then e else e.seen now).status now = e.status now := by
            split
            · rfl
            · exact Aged.status_eq (Or.inr rfl)
          rw [if_neg (by simp), if_pos rfl, hs]
          cases hv : e.value with
          | some bytes => simp [status, hc, hq, hv]
          | none =>
              cases hl : e.live? now with
              | some f => simp [status, hc, hq, hv, hl]
              | none => simp [finished, hv, hl] at hf
      | false =>
          obtain ⟨hv, hl⟩ : e.value = none ∧ e.live? now = none := by simpa [finished] using hf
          cases hq : e.priority with
          | some old => simp [status, seen, bid, hc, hq]
          | none => simp [status, seen, bid, hc, hq, hv, hl]

/-- The end of a computation gives a claimed id a value or a failure; a failure that is kept for no
time at all is gone at once. -/
theorem Lawful.status_completed (h : e.Lawful) (hc : e.claimed = true) (c : Completion)
    (now : Instant) :
    (e.completed c now).status now =
      match c with
      | .value bytes => .value bytes
      | .failure message ttl =>
        match now.after? ttl with
        | some expires => if now < expires then .failed ⟨message, expires⟩ else .absent
        | none => .claimed := by
  have hq := h.unqueued hc
  cases c with
  | value bytes => simp [Entry.completed, status, hq]
  | failure message ttl =>
      unfold Entry.completed
      dsimp only
      cases ht : now.after? ttl with
      | none => simp [status, hc]
      | some expires =>
          by_cases hl : now < expires
          · simp [status, hq, live?, Option.filter_some, hl]
          · simp [status, hq, live?, Option.filter_some, hl]

/-- Time can end the life of a failure and changes nothing else. -/
theorem Lawful.status_later (h : e.Lawful) (now : Instant) {later : Instant} (hn : now ≤ later) :
    e.status later = e.status now ∨
      ∃ f, e.status now = .failed f ∧ f.expires ≤ later ∧ e.status later = .absent := by
  cases hf : e.failure with
  | none =>
      left
      unfold status
      rw [live?_of_failure hf, live?_of_failure hf]
  | some f =>
      obtain ⟨hc, hq⟩ : e.claimed = false ∧ e.priority = none := by
        by_contra hb
        have hb' : e.claimed = true ∨ e.priority ≠ none := by
          cases hc : e.claimed with
          | true => exact Or.inl rfl
          | false => exact Or.inr fun hq => hb ⟨hc, hq⟩
        have hn := (h.bare hb').2
        rw [hf] at hn
        cases hn
      have hv : e.value = none := by
        by_contra hv
        have hn := h.alone hv
        rw [hf] at hn
        cases hn
      have hs : ∀ t, e.status t = if t < f.expires then .failed f else .absent := by
        intro t
        by_cases ht : t < f.expires
        · simp [status, hc, hq, hv, live?, hf, Option.filter_some, ht]
        · simp [status, hc, hq, hv, live?, hf, Option.filter_some, ht]
      rw [hs, hs]
      by_cases hl : later < f.expires
      · rw [if_pos hl, if_pos (Nat.lt_of_le_of_lt hn hl)]
        exact Or.inl rfl
      · by_cases hl' : now < f.expires
        · rw [if_pos hl', if_neg hl]
          exact Or.inr ⟨f, rfl, Nat.le_of_not_lt hl, rfl⟩
        · rw [if_neg hl, if_neg hl']
          exact Or.inl rfl

end Entry

namespace Store

variable {s s' : Store} {k : Keys} {now : Instant} {id : Id} {st : Status}

/-! ### Operations -/

/-- Operations that complete claimed ids only keep all entries lawful. -/
theorem lawful_apply {op : Op} (hk : ∀ l ∈ op.keys?, l = k)
    (hc : ∀ l id c, op = .complete l id c → (s.entry k id).claimed = true)
    (h : ∀ id, (s.entry k id).Lawful) (id : Id) : ((op.apply s now).entry k id).Lawful := by
  cases op with
  | enqueue l j p =>
      obtain rfl := hk l rfl
      simp only [Op.apply, entry_enqueue]
      split
      · exact (h j).asked p now
      · exact h id
  | dequeue l =>
      obtain rfl := hk l rfl
      simp only [Op.apply]
      cases hd : s.dequeue l with
      | mk answer t =>
          cases answer with
          | none =>
              obtain ⟨rfl, -⟩ := dequeue_none hd
              exact h id
          | some task =>
              obtain ⟨hp, he⟩ := entry_of_dequeue hd
              rw [he]
              split
              · exact (h task.id).taken (by simp [hp])
              · exact h id
  | complete l j c =>
      obtain rfl := hk l rfl
      simp only [Op.apply, entry_complete]
      split
      · exact (h j).completed (hc l j c rfl) c now
      · exact h id
  | _ => exact (quiet_apply rfl hk s now id).lawful (h id)

/-- What an operation that completes claimed ids only does to the status of an id. -/
theorem change_apply {op : Op} (hk : ∀ l ∈ op.keys?, l = k)
    (hc : ∀ l id c, op = .complete l id c → (s.entry k id).claimed = true)
    (h : ∀ id, (s.entry k id).Lawful) (id : Id) :
    ((op.apply s now).entry k id).status now = (s.entry k id).status now ∨
      Status.Change id now (some op) ((s.entry k id).status now)
        (((op.apply s now).entry k id).status now) ∨
      Status.Lapse id (some op) ((s.entry k id).status now)
        (((op.apply s now).entry k id).status now) := by
  cases op with
  | enqueue l j p =>
      obtain rfl := hk l rfl
      simp only [Op.apply, entry_enqueue]
      split
      · rename_i hj
        subst hj
        rw [(h id).status_asked p now]
        cases hs : (s.entry l id).status now with
        | absent => exact Or.inr (Or.inl .ask)
        | queued old =>
            rcases Int.lt_or_le p old with hp | hp
            · right
              left
              show Status.Change id now _ _ (.queued (min old p))
              rw [Int.min_eq_right (Int.le_of_lt hp)]
              exact .improve hp
            · left
              show Status.queued (min old p) = _
              rw [Int.min_eq_left hp]
        | claimed => exact Or.inl rfl
        | value bytes => exact Or.inl rfl
        | failed f => exact Or.inl rfl
      · exact Or.inl rfl
  | dequeue l =>
      obtain rfl := hk l rfl
      simp only [Op.apply]
      cases hd : s.dequeue l with
      | mk answer t =>
          cases answer with
          | none =>
              obtain ⟨rfl, -⟩ := dequeue_none hd
              exact Or.inl rfl
          | some task =>
              obtain ⟨hp, he⟩ := entry_of_dequeue hd
              simp only [he]
              split
              · rename_i hj
                subst hj
                have hs : (s.entry l task.id).status now = .queued task.priority :=
                  (h _).shows_iff.mp hp
                rw [hs]
                exact Or.inr (Or.inl .claim)
              · exact Or.inl rfl
  | complete l j c =>
      obtain rfl := hk l rfl
      simp only [Op.apply, entry_complete]
      split
      · rename_i hj
        subst hj
        have hclaim := hc l id c rfl
        have hs : (s.entry l id).status now = .claimed := (h id).shows_iff.mp hclaim
        rw [(h id).status_completed hclaim c now, hs]
        cases c with
        | value bytes => exact Or.inr (Or.inl .compute)
        | failure message ttl =>
            dsimp only
            cases ht : now.after? ttl with
            | none => exact Or.inl rfl
            | some expires =>
                dsimp only
                split
                · exact Or.inr (Or.inl (.fail ht))
                · rename_i hl
                  have hz : ttl.nanos = 0 := by
                    by_contra hz
                    rw [Instant.eq_of_after? ht] at hl
                    exact hl (Nat.lt_add_of_pos_right (Nat.pos_of_ne_zero hz))
                  obtain rfl : ttl = ⟨0⟩ := congrArg Duration.mk hz
                  exact Or.inr (Or.inr ⟨⟨l, message, rfl⟩, rfl, rfl⟩)
      · exact Or.inl rfl
  | _ => exact Or.inl (quiet_apply rfl hk s now id).status_eq

/-! ### Reports -/

/-- Everything that a store answers about an id agrees with a status. -/
structure Reports (s : Store) (k : Keys) (id : Id) (now : Instant) (st : Status) : Prop where
  enqueue : ∀ p, (s.enqueue k id p now).1 = st.answer
  lookup : (s.lookup k id now).1 = st.record
  isFinished : (s.isFinished k id now).1 = st.finished
  /-- In the queue the id stands with its priority. -/
  ordered : ∀ p, (id, p) ∈ (s.queue k).backlog.ordered ↔ st = .queued p
  /-- It is listed at most once. -/
  once : ∀ n, (s.queued k n).count id ≤ 1
  queued : ∀ n, id ∈ s.queued k n → ∃ p, st = .queued p
  /-- If as many ids are listed as there are, it is listed. -/
  listed : ∀ n, s.pending k ≤ n → (id ∈ s.queued k n ↔ ∃ p, st = .queued p)
  inProgress : id ∈ s.inProgress k ↔ st = .claimed

/-- **In a lawful entry, what is answered about the id is its status.** -/
theorem reports_of_lawful (h : (s.entry k id).Lawful) (hs : (s.entry k id).Shows now st) :
    s.Reports k id now st := by
  have is (st' : Status) : (s.entry k id).Shows now st' ↔ st = st' := by
    rw [h.shows_iff, ← h.shows_iff.mp hs]
  have hq (p : Priority) : (s.queue k).backlog.priority? id = some p ↔ st = .queued p :=
    is (.queued p)
  have hlisted : (∃ p, (s.queue k).backlog.priority? id = some p) ↔ ∃ p, st = .queued p :=
    exists_congr hq
  obtain ⟨hc, hv, hl⟩ := h.kept hs
  have hf : (s.entry k id).finished now = st.finished := by
    unfold Entry.finished
    rw [hv, hl]
    cases st <;> rfl
  exact {
    enqueue := fun p => by
      rw [enqueue_answer, hc, hf]
      cases st <;> rfl
    lookup := by
      have hl' : s.failure? now (k.failure id) = _ := hl
      have hv' : s.values[k.value id]? = _ := hv
      simp only [lookup, record, hl', hv']
      cases st <;> rfl
    isFinished := (finished_eq s k id now).trans hf
    ordered := fun p => Backlog.mem_ordered.trans (hq p)
    once := fun n => by
      have hsub : ((s.queue k).backlog.ids n).Sublist ((s.queue k).backlog.ordered.map (·.1)) :=
        (List.take_sublist _ _).map _
      exact List.nodup_iff_count_le_one.mp ((Backlog.nodup_ordered _).sublist hsub) id
    queued := fun n hm => hlisted.mp (Backlog.queued_of_mem_ids hm)
    listed := fun n hn => (Backlog.mem_ids hn).trans hlisted
    inProgress := by
      rw [← is .claimed, inProgress, Std.ExtTreeSet.mem_toList]
      exact Iff.rfl }

end Store

end ReadThrough
