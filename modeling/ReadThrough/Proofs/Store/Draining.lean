import Mathlib.Data.List.Nodup
import ReadThrough.Proofs.Store.Demand

/-! # Asking in any order and claiming until nothing is left

The order in which a queue is asked for ids leaves no trace in its backlog, and the tasks that it
hands out are determined by its backlog alone.

* **Asking** (`Backlog.offers`).  Two offers can change places (`Backlog.offer_comm`), so a list of
  offers can be put in any order (`Backlog.offers_perm`).  Each id is queued at the best priority
  that was offered for it (`Backlog.priority?_offers`).
* **Claiming** (`Backlog.tasks`).  A store hands out the tasks of its backlog one after the other,
  and then nothing (`Store.answers_claiming`).
* **Main statement** (`Store.order_of_requests`).  A queue without entries, claims and results that
  is asked for ids in any order hands out each of them once, in the order of the best priorities. -/

namespace ReadThrough

namespace Backlog

variable {b c : Backlog}

/-! ### Asking -/

/-- Two offers can change places. -/
theorem offer_comm (b : Backlog) (i j : Id) (p q : Priority) :
    (b.offer i p).offer j q = (b.offer j q).offer i p := by
  refine ext_priority? fun id => ?_
  simp only [priority?_offer]
  by_cases hi : id = i
  · by_cases hj : id = j
    · subst hi hj
      cases b.priority? id with
      | none => simp [Int.min_comm]
      | some old => simp [Int.min_assoc, Int.min_comm p]
    · subst hi
      simp [hj]
  · by_cases hj : id = j
    · subst hj
      simp [hi]
    · simp [hi, hj]

/-- Offer ids, each at a priority, one after the other. -/
def offers (b : Backlog) (asks : List (Id × Priority)) : Backlog :=
  asks.foldl (fun b x => b.offer x.1 x.2) b

theorem offers_perm {asks asks' : List (Id × Priority)} (h : asks.Perm asks') (b : Backlog) :
    b.offers asks = b.offers asks' :=
  h.foldl_eq' (fun x _ y _ b => b.offer_comm x.1 y.1 x.2 y.2) b

/-- The priorities that are offered for an id. -/
def wishes (id : Id) (asks : List (Id × Priority)) : List Priority :=
  (asks.filter fun x => x.1 = id).map (·.2)

/-- An id is queued at the best of the priority that it had and those that are offered for it. -/
theorem priority?_offers (b : Backlog) (asks : List (Id × Priority)) (id : Id) :
    (b.offers asks).priority? id = ((b.priority? id).toList ++ wishes id asks).min? := by
  induction asks generalizing b with
  | nil => cases h : b.priority? id <;> simp [offers, wishes, h]
  | cons x asks ih =>
      obtain ⟨j, p⟩ := x
      rw [show b.offers ((j, p) :: asks) = (b.offer j p).offers asks from rfl, ih, priority?_offer]
      by_cases hj : j = id
      · subst hj
        have hw : wishes j ((j, p) :: asks) = p :: wishes j asks := by simp [wishes]
        rw [if_pos rfl, hw]
        cases b.priority? j <;> rfl
      · have hid : ¬ id = j := fun e => hj e.symm
        simp [wishes, hj, hid]

/-! ### Claiming -/

/-- The tasks that are left when an entry is claimed after the other. -/
def tasksOf : List (Id × Priority) → List Claim
  | [] => []
  | (id, p) :: rest => ⟨id, p, rest.length⟩ :: tasksOf rest

/-- The tasks of a backlog, the next one to be claimed first. -/
def tasks (b : Backlog) : List Claim := tasksOf b.ordered

theorem map_id_tasksOf (xs : List (Id × Priority)) :
    (tasksOf xs).map (·.id) = xs.map (·.1) := by
  induction xs with
  | nil => rfl
  | cons x xs ih => exact congrArg (x.1 :: ·) ih

theorem length_tasksOf (xs : List (Id × Priority)) : (tasksOf xs).length = xs.length := by
  induction xs with
  | nil => rfl
  | cons x xs ih => exact congrArg (· + 1) ih

/-- The numbers of entries that are left count down to zero. -/
theorem map_remaining_tasksOf (xs : List (Id × Priority)) :
    (tasksOf xs).map (·.remaining) = (List.range xs.length).reverse := by
  induction xs with
  | nil => rfl
  | cons x xs ih =>
      rw [List.length_cons, List.range_succ, List.reverse_append]
      exact congrArg (xs.length :: ·) ih

theorem exists_of_mem_tasksOf {xs : List (Id × Priority)} {t : Claim} (h : t ∈ tasksOf xs) :
    (t.id, t.priority) ∈ xs := by
  induction xs with
  | nil => cases h
  | cons x xs ih =>
      rcases List.mem_cons.mp h with rfl | h
      · exact List.mem_cons_self
      · exact List.mem_cons_of_mem _ (ih h)

theorem pairwise_tasksOf {xs : List (Id × Priority)}
    (h : xs.Pairwise fun x y => x.2 < y.2 ∨ x.2 = y.2 ∧ x.1 < y.1) :
    (tasksOf xs).Pairwise fun t u =>
      t.priority < u.priority ∨ t.priority = u.priority ∧ t.id < u.id := by
  induction xs with
  | nil => exact List.Pairwise.nil
  | cons x xs ih =>
      obtain ⟨hx, hxs⟩ := List.pairwise_cons.mp h
      exact List.pairwise_cons.mpr ⟨fun t ht => hx _ (exists_of_mem_tasksOf ht), ih hxs⟩

/-- The entries that are left when the first one is taken off. -/
theorem ordered_of_pop? {t : Claim} {x : Id × Priority} {xs : List (Id × Priority)}
    (h : b.pop? = some (t, c)) (hx : b.ordered = x :: xs) : c.ordered = xs := by
  obtain ⟨hb, -, -, hc⟩ := Store.pop?_some h
  have hn := b.nodup_ordered
  have hs := b.ordered_pairwise
  have ht : x.1 = t.id := by
    have hh := b.claim_of_pop?
    rw [h, hx] at hh
    exact (congrArg Claim.id (Option.some.inj hh)).symm
  rw [hx] at hn hs
  obtain ⟨hnx, hnxs⟩ := List.nodup_cons.mp hn
  have hm (y : Id × Priority) : y ∈ c.ordered ↔ y ∈ xs := by
    obtain ⟨id, p⟩ := y
    rw [mem_ordered, hc]
    by_cases hid : id = t.id
    · rw [if_pos hid]
      refine ⟨fun he => (nomatch he), fun hy => absurd ?_ hnx⟩
      exact List.mem_map.mpr ⟨_, hy, hid.trans ht.symm⟩
    · rw [if_neg hid, ← mem_ordered, hx, List.mem_cons]
      exact or_iff_right fun he => hid ((congrArg Prod.fst he).trans ht)
  refine ((List.perm_ext_iff_of_nodup (.of_map _ c.nodup_ordered) (.of_map _ hnxs)).mpr
    hm).eq_of_pairwise (fun y z _ _ hyz hzy => ?_) c.ordered_pairwise hs.tail
  -- neither can come before the other one
  have hlt := Place.order_eq_lt_iff (x := y.swap) (y := z.swap) |>.mpr hyz
  exact absurd (Place.order_eq_lt_iff (x := z.swap) (y := y.swap) |>.mpr hzy)
    (Std.OrientedCmp.not_lt_of_lt hlt)

end Backlog

/-- Looking at the records of an id finishes nothing. -/
theorem Entry.finished_of_seen {e : Entry} {now t : Instant} (h : (e.seen now).finished t = true) :
    e.finished t = true := by
  unfold finished live? seen live? at *
  cases hf : e.failure with
  | none => simpa [hf] using h
  | some f =>
      by_cases hl : now < f.expires
      · simpa [hf, Option.filter_some, hl] using h
      · have hv : e.value.isSome = true := by simpa [hf, Option.filter_some, hl] using h
        simp [hv]

namespace Store

variable {s s' : Store} {k : Keys} {now start : Instant}

/-! ### Histories of one kind -/

/-- Requests for ids, each at some time and at a priority. -/
def asking (k : Keys) (asks : List (Instant × Id × Priority)) : List (Instant × Request) :=
  asks.map fun x => (x.1, .op (.enqueue k x.2.1 x.2.2))

/-- Claims, each at some time. -/
def claiming (k : Keys) (times : List Instant) : List (Instant × Request) :=
  times.map fun now => (now, .op (.dequeue k))

theorem ordered_of_dequeue {t : Claim} {x : Id × Priority} {xs : List (Id × Priority)}
    (h : s.dequeue k = (some t, s')) (hx : (s.queue k).backlog.ordered = x :: xs) :
    (s'.queue k).backlog.ordered = xs := by
  unfold dequeue at h
  cases hp : (s.queue k).backlog.pop? with
  | none => simp [hp] at h
  | some y =>
      obtain ⟨u, rest⟩ := y
      simp only [hp, Prod.mk.injEq] at h
      rw [← h.2, queue_setQueue]
      exact Backlog.ordered_of_pop? hp hx

/-- A store hands out the tasks of its backlog one after the other, and then nothing. -/
theorem answers_claiming (s : Store) (k : Keys) (times : List Instant) :
    (s.transcript (claiming k times)).map (·.answer) =
      (List.range times.length).map fun i => .claim (s.queue k).backlog.tasks[i]? := by
  induction times generalizing s with
  | nil => rfl
  | cons now times ih =>
      rw [List.length_cons, List.range_succ_eq_map, List.map_cons, List.map_map]
      have hn := ih (s.dequeue k).2
      cases ho : (s.queue k).backlog.ordered with
      | nil =>
          have hd := dequeue_of_ordered_nil ho
          rw [hd] at hn
          have ht : (s.queue k).backlog.tasks = [] := congrArg Backlog.tasksOf ho
          rw [ht] at hn ⊢
          refine congrArg₂ List.cons (congrArg Answer.claim (congrArg Prod.fst hd)) ?_
          exact (congrArg (fun t : Store => (t.transcript _).map _) (congrArg Prod.snd hd)).trans hn
      | cons x rest =>
          obtain ⟨id, p⟩ := x
          obtain ⟨s', hd⟩ := dequeue_of_ordered ho
          rw [hd] at hn
          have ht : (s.queue k).backlog.tasks =
              ⟨id, p, rest.length⟩ :: (s'.queue k).backlog.tasks := by
            rw [Backlog.tasks, Backlog.tasks, ho, ordered_of_dequeue hd ho]
            rfl
          rw [ht]
          refine congrArg₂ List.cons (congrArg Answer.claim (congrArg Prod.fst hd)) ?_
          exact (congrArg (fun t : Store => (t.transcript _).map _) (congrArg Prod.snd hd)).trans hn

/-- The id that was claimed, if there was one. -/
def Answer.claimed? : Answer → Option Id
  | claim task => task.map (·.id)
  | _ => none

/-- The ids at the front of a queue are those that are claimed next. -/
theorem queued_eq_claimed (s : Store) (k : Keys) (times : List Instant) :
    s.queued k times.length =
      (s.transcript (claiming k times)).filterMap fun e => e.answer.claimed? := by
  have hr (l : List Claim) (n : Nat) :
      (List.range n).filterMap (fun i => l[i]?.map (·.id)) = (l.take n).map (·.id) := by
    induction n with
    | zero => rfl
    | succ n ih =>
        rw [List.range_succ, List.filterMap_append, ih, List.take_add_one, List.map_append]
        cases h : l[n]? <;> simp [h]
  calc s.queued k times.length
      = ((s.queue k).backlog.tasks.take times.length).map (·.id) := by
        rw [queued, Backlog.ids, List.map_take, List.map_take, Backlog.tasks,
          Backlog.map_id_tasksOf]
    _ = ((List.range times.length).map fun i =>
          Answer.claim (s.queue k).backlog.tasks[i]?).filterMap (·.claimed?) := by
        rw [List.filterMap_map, ← hr]
        rfl
    _ = (s.transcript (claiming k times)).filterMap fun e => e.answer.claimed? := by
        rw [← answers_claiming, List.filterMap_map]
        rfl

/-! ### Queues without a past -/

/-- Nothing is queued or claimed, and from `start` on nothing is finished. -/
structure Vacant (s : Store) (k : Keys) (start : Instant) : Prop where
  unqueued : s.pending k = 0
  unclaimed : s.inProgress k = []
  unfinished : ∀ id, s.finished k id start = false

/-- Every id can be queued from `start` on. -/
def Admits (s : Store) (k : Keys) (start : Instant) : Prop :=
  ∀ id, (s.entry k id).claimed = false ∧ (s.entry k id).finished start = false

theorem Vacant.admits (h : s.Vacant k start) : s.Admits k start := by
  refine fun id => ⟨?_, (finished_eq s k id start).symm.trans (h.unfinished id)⟩
  have hid : id ∉ s.inProgress k := h.unclaimed ▸ List.not_mem_nil
  exact Bool.eq_false_iff.mpr fun hc => hid (mem_inProgress.mpr hc)

/-- A request for an id that can be queued is accepted, and leaves all others as they are. -/
theorem Admits.enqueue (h : s.Admits k start) (hn : start ≤ now) (id : Id) (p : Priority) :
    (s.enqueue k id p now).1 = .queued ∧
      ((s.enqueue k id p now).2.queue k).backlog = (s.queue k).backlog.offer id p ∧
      (s.enqueue k id p now).2.Admits k start := by
  obtain ⟨hc, hf⟩ := h id
  have hfn : (s.entry k id).finished now = false :=
    Bool.eq_false_iff.mpr fun ht => absurd (Entry.finished_mono hn ht) (by simp [hf])
  have ha : (s.entry k id).asked p now =
      { (s.entry k id).seen now with priority := some ((s.entry k id).bid p) } := by
    simp [Entry.asked, hc, hfn]
  refine ⟨by simp [enqueue_answer, hc, hfn], Backlog.ext_priority? fun j => ?_, fun j => ?_⟩
  · have he := congrArg Entry.priority (entry_enqueue s k id j p now)
    rw [Backlog.priority?_offer]
    refine he.trans ?_
    rw [ha]
    by_cases hj : j = id
    · subst hj
      rw [if_pos rfl, if_pos rfl]
      rfl
    · rw [if_neg hj, if_neg hj]
      rfl
  · rw [entry_enqueue, ha]
    by_cases hj : j = id
    · rw [if_pos hj]
      exact ⟨hc, Bool.eq_false_iff.mpr fun ht => Bool.eq_false_iff.mp hf (Entry.finished_of_seen ht)⟩
    · rw [if_neg hj]
      exact h j

/-- Requests for ids that can be queued are all accepted, and offered to the backlog in turn. -/
theorem Admits.asking (h : s.Admits k start) {asks : List (Instant × Id × Priority)}
    (ht : ∀ x ∈ asks, start ≤ x.1) :
    (∀ e ∈ s.transcript (asking k asks), e.answer = .enqueued .queued) ∧
      ((s.after (Store.asking k asks)).queue k).backlog =
        (s.queue k).backlog.offers (asks.map (·.2)) := by
  induction asks generalizing s with
  | nil => exact ⟨fun _ he => (nomatch he), rfl⟩
  | cons x asks ih =>
      obtain ⟨now, id, p⟩ := x
      obtain ⟨ha, hb, hs⟩ := h.enqueue (ht _ List.mem_cons_self) id p
      obtain ⟨he, hq⟩ := ih hs fun x hx => ht x (List.mem_cons_of_mem _ hx)
      rw [hb] at hq
      refine ⟨fun e hm => ?_, hq⟩
      rcases List.mem_cons.mp hm with rfl | hm
      · exact congrArg Answer.enqueued ha
      · exact he e hm

theorem Vacant.backlog_eq (h : s.Vacant k start) : (s.queue k).backlog = {} :=
  Backlog.ext_priority? fun id => priority?_of_size_eq_zero h.unqueued id

/-! ### Draining -/

/-- Whoever claims from the queue gets the tasks one after the other and then nothing: every id that
was asked for once, the best ones first, each with the number of those behind it. -/
structure HandsOut (s : Store) (k : Keys) (asks : List (Id × Priority)) (tasks : List Claim) :
    Prop where
  answers : ∀ times, (s.transcript (claiming k times)).map (·.answer) =
    (List.range times.length).map fun i => .claim tasks[i]?
  once : (tasks.map (·.id)).Nodup
  all : ∀ id, id ∈ tasks.map (·.id) ↔ id ∈ asks.map (·.1)
  best : ∀ t ∈ tasks, (Backlog.wishes t.id asks).min? = some t.priority
  sorted : tasks.Pairwise fun t u =>
    t.priority < u.priority ∨ t.priority = u.priority ∧ Utf8.bytes t.id < Utf8.bytes u.id
  countdown : tasks.map (·.remaining) = (List.range tasks.length).reverse

/-- A backlog that comes from offers alone hands out what was offered. -/
theorem handsOut_tasks {asks : List (Id × Priority)}
    (h : (s.queue k).backlog = ({} : Backlog).offers asks) :
    s.HandsOut k asks (s.queue k).backlog.tasks := by
  have hp (id : Id) : (s.queue k).backlog.priority? id = (Backlog.wishes id asks).min? := by
    rw [h, Backlog.priority?_offers]
    simp [Backlog.priority?]
  refine ⟨answers_claiming s k, ?_, fun id => ?_, fun t ht => ?_, ?_, ?_⟩
  · rw [Backlog.tasks, Backlog.map_id_tasksOf]
    exact (s.queue k).backlog.nodup_ordered
  · rw [Backlog.tasks, Backlog.map_id_tasksOf, (lineup_ordered _).mem, hp,
      ← Option.isSome_iff_exists, Option.isSome_iff_ne_none, Ne, List.min?_eq_none_iff]
    simp [Backlog.wishes]
  · rw [← hp]
    exact Backlog.mem_ordered.mp (Backlog.exists_of_mem_tasksOf ht)
  · refine (Backlog.pairwise_tasksOf (s.queue k).backlog.ordered_pairwise).imp fun hlt => ?_
    rwa [Utf8.bytes_lt_bytes_iff]
  · rw [Backlog.tasks, Backlog.map_remaining_tasksOf, Backlog.length_tasksOf]

/-- **The order of requests does not matter.**  If a queue has no entry, no claim and no result, all
requests for ids are accepted, in any order that leads to the same backlog; and then each id is
handed out once, with the best of the priorities for which it was requested.  Whatever the state of
a store is, the ids that it reports at the front of a queue are those that are claimed next. -/
theorem order_of_requests :
    (∀ (s : Store) (k : Keys) (start : Instant) (asks asks' : List (Instant × Id × Priority)),
      s.Vacant k start → (∀ x ∈ asks ++ asks', start ≤ x.1) →
      (asks.map (·.2)).Perm (asks'.map (·.2)) →
      (∀ e ∈ s.transcript (asking k asks) ++ s.transcript (asking k asks'),
        e.answer = .enqueued .queued) ∧
      ((s.after (asking k asks)).queue k).backlog = ((s.after (asking k asks')).queue k).backlog ∧
      ∃ tasks, (s.after (asking k asks)).HandsOut k (asks.map (·.2)) tasks) ∧
    ∀ (s : Store) (k : Keys) (times : List Instant),
      s.queued k times.length =
        (s.transcript (claiming k times)).filterMap fun e => e.answer.claimed? := by
  refine ⟨fun s k start asks asks' hv ht hp => ?_, queued_eq_claimed⟩
  obtain ⟨ha, hb⟩ := hv.admits.asking fun x hx => ht x (List.mem_append_left _ hx)
  obtain ⟨ha', hb'⟩ := hv.admits.asking fun x hx => ht x (List.mem_append_right _ hx)
  rw [hv.backlog_eq] at hb hb'
  refine ⟨fun e he => (List.mem_append.mp he).elim (ha e) (ha' e), ?_, _, handsOut_tasks hb⟩
  rw [hb, hb', Backlog.offers_perm hp]

/-- An id that is asked for twice is handed out once, at the better priority, in either order. -/
theorem order_of_requests_twice :
    let k : Keys := ⟨"q"⟩
    let asks := [(0, "b", 5), (1, "a", 5), (2, "b", 3)]
    let asks' := [(0, "b", 3), (0, "b", 5), (7, "a", 5)]
    Vacant {} k 0 ∧ (asks.map (·.2)).Perm (asks'.map (·.2)) ∧
      ((after {} (asking k asks)).queue k).backlog = ((after {} (asking k asks')).queue k).backlog ∧
      (((after {} (asking k asks)).transcript (claiming k [3, 4, 5])).map (·.answer) =
        [.claim (some ⟨"b", 3, 1⟩), .claim (some ⟨"a", 5, 0⟩), .claim none]) := by
  intro k asks asks'
  have hv : Vacant {} k 0 := by
    refine ⟨by decide, by decide, fun id => ?_⟩
    rw [finished_eq, entry_empty]
    rfl
  have hp : (asks.map (·.2)).Perm (asks'.map (·.2)) := by decide
  exact ⟨hv, hp, (order_of_requests.1 {} k 0 asks asks' hv (by decide) hp).2.1, by decide +kernel⟩

end Store

end ReadThrough
