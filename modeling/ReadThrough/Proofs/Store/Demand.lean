import Mathlib.Data.List.Induction
import ReadThrough.Proofs.Store.Ordering
import ReadThrough.Proofs.Store.Requests
import ReadThrough.Proofs.Text.Utf8

/-! # The backlog as a priority queue

What is queued is determined by the history of requests and their answers alone.

* **Demand** (`Store.demand`).  Each id has the bids that were accepted since it was last claimed;
  it is wanted at the best of them, and not at all without any.
* **What a request does** to an id of a queue (`Store.Treats`, `Store.treats`).  It adds a bid for
  the id, claims it, or leaves both its priority and its claim alone.
* **Order** (`Store.Lineup`).  Wanted ids stand in line by their priority, then by their bytes.
* **Main statement** (`Store.refines_demand`).  After every history the backlog of a queue is the
  demand for its ids; claims and reports follow the line. -/

namespace ReadThrough

namespace Store

/-! ### Demand -/

/-- The bids for an id of a queue after one more request: an accepted bid is added, and a claim of
the id clears them. -/
def Exchange.bids (k : Keys) (id : Id) (bids : List Priority) (e : Exchange) : List Priority :=
  match e.request, e.answer with
  | .op (.enqueue l j p), .enqueued .queued => if l = k ∧ j = id then p :: bids else bids
  | .op (.dequeue l), .claim (some task) => if l = k ∧ task.id = id then [] else bids
  | _, _ => bids

/-- The accepted bids for an id since it was last claimed, the latest one first. -/
def bids (k : Keys) (id : Id) (log : List Exchange) : List Priority :=
  log.foldl (Exchange.bids k id) []

/-- The best of the bids for an id. -/
def demand (k : Keys) (log : List Exchange) (id : Id) : Option Priority := (bids k id log).min?

theorem bids_concat (k : Keys) (id : Id) (log : List Exchange) (e : Exchange) :
    bids k id (log ++ [e]) = e.bids k id (bids k id log) := by
  simp [bids]

/-! ### What a request does to an id -/

/-- What a request does to what is known of an id of the queue `k`, by its answer. -/
inductive Treats (k : Keys) (id : Id) (e e' : Entry) (now : Instant) :
    Request → Answer → Prop
  /-- A bid is accepted. -/
  | asks {p : Priority} (hc : e.claimed = false) (hc' : e'.claimed = false)
      (hp : e'.priority = some (e.bid p)) :
      Treats k id e e' now (.op (.enqueue k id p)) (.enqueued .queued)
  /-- The id is claimed. -/
  | claims {task : Claim} (ht : task.id = id) (hp : e.priority = some task.priority)
      (hp' : e'.priority = none) :
      Treats k id e e' now (.op (.dequeue k)) (.claim (some task))
  /-- Nothing that matters to the backlog; the claim may be released. -/
  | leaves {r : Request} {a : Answer} (hb : ∀ bids, Exchange.bids k id bids ⟨now, r, a⟩ = bids)
      (hp : e'.priority = e.priority) (hc : e'.claimed = true → e.claimed = true) :
      Treats k id e e' now r a

variable {s s' : Store} {k l : Keys} {now : Instant}

theorem Treats.of_aged {e e' : Entry} {id : Id} {r : Request} {a : Answer}
    (hb : ∀ bids, Exchange.bids k id bids ⟨now, r, a⟩ = bids) (h : Entry.Aged now e e') :
    Treats k id e e' now r a :=
  .leaves hb h.priority_eq (fun hc => h.claimed_eq ▸ hc)

/-- A request about another queue, or about none, bids for no id of the queue `k`. -/
theorem Exchange.bids_of_ne {r : Request} (h : r.queue? ≠ some k) (id : Id)
    (bids : List Priority) (now : Instant) (a : Answer) :
    Exchange.bids k id bids ⟨now, r, a⟩ = bids := by
  unfold Exchange.bids
  split
  · rename_i l j p hr _
    cases hr
    exact if_neg fun hl => h (congrArg some hl.1)
  · rename_i l task hr _
    cases hr
    exact if_neg fun hl => h (congrArg some hl.1)
  · rfl

theorem treats_enqueue (s : Store) (k : Keys) (j : Id) (p : Priority) (now : Instant) (id : Id) :
    Treats k id (s.entry k id) ((s.enqueue k j p now).2.entry k id) now
      (.op (.enqueue k j p)) (.enqueued (s.enqueue k j p now).1) := by
  rw [entry_enqueue, enqueue_answer]
  by_cases hj : id = j
  · subst hj
    rw [if_pos rfl]
    unfold Entry.asked
    cases hc : (s.entry k id).claimed with
    | true => exact .leaves (fun _ => rfl) rfl (fun _ => hc)
    | false =>
        cases hf : (s.entry k id).finished now with
        | true =>
            simp only [Bool.false_eq_true, if_false, if_true]
            refine .of_aged (fun _ => rfl) ?_
            split
            · exact .refl now _
            · exact .inr rfl
        | false => exact .asks hc hc rfl
  · rw [if_neg hj]
    refine .leaves (fun bids => ?_) rfl (fun hc => hc)
    unfold Exchange.bids
    split
    · rename_i hr _
      cases hr
      exact if_neg fun h => hj h.2.symm
    · rename_i hr _
      cases hr
    · rfl

theorem treats_dequeue (s : Store) (k : Keys) (now : Instant) (id : Id) :
    Treats k id (s.entry k id) ((s.dequeue k).2.entry k id) now
      (.op (.dequeue k)) (.claim (s.dequeue k).1) := by
  cases hd : s.dequeue k with
  | mk task s' =>
      cases task with
      | none =>
          obtain ⟨rfl, -⟩ := dequeue_none hd
          exact .leaves (fun _ => rfl) rfl (fun hc => hc)
      | some task =>
          obtain ⟨hp, he⟩ := entry_of_dequeue hd
          by_cases hid : id = task.id
          · subst hid
            refine .claims rfl hp ?_
            rw [he, if_pos rfl]
          · have hs : s'.entry k id = s.entry k id := by rw [he, if_neg hid]
            refine .leaves (fun bids => ?_) (congrArg Entry.priority hs)
              (fun hc => (congrArg Entry.claimed hs).symm.trans hc)
            exact if_neg fun h => hid h.2.symm

theorem treats_complete (s : Store) (k : Keys) (j : Id) (c : Completion) (now : Instant)
    (id : Id) :
    Treats k id (s.entry k id) ((s.complete k j c now).2.entry k id) now
      (.op (.complete k j c)) (.accepted (s.complete k j c now).1) := by
  rw [entry_complete]
  split
  · rename_i hj
    subst hj
    cases c with
    | value bytes => exact .leaves (fun _ => rfl) rfl (fun hc => nomatch hc)
    | failure message ttl =>
        unfold Entry.completed
        dsimp only
        split
        · exact .leaves (fun _ => rfl) rfl (fun hc => nomatch hc)
        · exact .leaves (fun _ => rfl) rfl (fun hc => hc)
  · exact .leaves (fun _ => rfl) rfl (fun hc => hc)

/-- Every request is one of the three for every id of every queue. -/
theorem treats (s : Store) (k : Keys) (now : Instant) (r : Request) (id : Id) :
    Treats k id (s.entry k id) ((r.apply s now).entry k id) now r (r.answer s now) := by
  by_cases hr : r.queue? = some k
  · cases r with
    | op o =>
        -- what is neither asked, claimed nor completed is left alone
        have quiet (hq : o.quiet = true) (hk : ∀ l ∈ o.keys?, l = k)
            (hb : ∀ bids, Exchange.bids k id bids ⟨now, .op o, o.answer s now⟩ = bids) :
            Treats k id (s.entry k id) ((o.apply s now).entry k id) now (.op o) (o.answer s now) :=
          .of_aged hb (quiet_apply hq hk s now id)
        have own (l : Keys) (hl : o.queue? = some l) : l = k := by
          exact Option.some.inj (hl.symm.trans hr)
        cases o with
        | enqueue l j p =>
            obtain rfl := own l rfl
            exact treats_enqueue s l j p now id
        | dequeue l =>
            obtain rfl := own l rfl
            exact treats_dequeue s l now id
        | complete l j c =>
            obtain rfl := own l rfl
            exact treats_complete s l j c now id
        | lookup l j => exact quiet rfl (fun _ h => Option.some.inj (h.symm.trans hr)) fun _ => rfl
        | isFinished l j =>
            exact quiet rfl (fun _ h => Option.some.inj (h.symm.trans hr)) fun _ => rfl
        | takeMarker l => exact quiet rfl (fun _ h => nomatch h) fun _ => rfl
        | _ => cases hr
    | _ => exact .leaves (fun _ => rfl) rfl (fun hc => hc)
  · have hq := Request.queue_apply_of_ne hr s now
    refine .leaves (fun bids => Exchange.bids_of_ne hr id bids now _) ?_ fun hc => ?_
    · exact congrArg (fun q => q.backlog.priority? id) hq
    · exact (congrArg (fun q => q.claimed.contains id) hq).symm.trans hc

/-! ### Demand and backlog -/

/-- What is queued under an id is the best of its bids, and a claimed id is not queued. -/
def Entry.Follows (e : Entry) (bids : List Priority) : Prop :=
  e.priority = bids.min? ∧ (e.claimed = true → e.priority = none)

theorem Treats.follows {e e' : Entry} {id : Id} {r : Request} {a : Answer} {bids : List Priority}
    (h : Treats k id e e' now r a) (hf : Entry.Follows e bids) :
    Entry.Follows e' (Exchange.bids k id bids ⟨now, r, a⟩) := by
  obtain ⟨hb, hq⟩ := hf
  cases h with
  | asks hc hc' hp =>
      rename_i p
      constructor
      · have he : Exchange.bids k id bids ⟨now, .op (.enqueue k id p), .enqueued .queued⟩ =
            p :: bids := if_pos ⟨rfl, rfl⟩
        rw [he, hp, List.min?_cons, ← hb]
        unfold Entry.bid
        cases e.priority with
        | none => rfl
        | some old => exact congrArg some (Int.min_comm old p)
      · intro h
        rw [hc'] at h
        cases h
  | claims ht hp hp' =>
      rename_i task
      constructor
      · have he : Exchange.bids k id bids ⟨now, .op (.dequeue k), .claim (some task)⟩ = [] :=
          if_pos ⟨rfl, ht⟩
        rw [he, hp']
        rfl
      · exact fun _ => hp'
  | leaves hl hp hc => exact ⟨by rw [hl, hp, hb], fun h => hp.trans (hq (hc h))⟩

/-- After every history each id of each queue follows its bids. -/
theorem follows_after (h : List (Instant × Request)) (k : Keys) (id : Id) :
    Entry.Follows ((after {} h).entry k id) (bids k id (transcript {} h)) := by
  induction h using List.reverseRecOn with
  | nil =>
      rw [show after {} [] = {} from rfl, entry_empty]
      exact ⟨rfl, fun h => nomatch h⟩
  | append_singleton h x ih =>
      obtain ⟨now, r⟩ := x
      rw [after_concat, transcript_concat, bids_concat]
      exact (treats _ k now r id).follows ih

/-! ### The line -/

/-- The wanted ids stand in line, the one that is claimed next first: better priorities come first,
and of equal ones the id whose bytes come first. -/
structure Lineup (m : Id → Option Priority) (line : List Id) : Prop where
  mem : ∀ id, id ∈ line ↔ ∃ p, m id = some p
  sorted : line.Pairwise fun i j => ∀ p q, m i = some p → m j = some q →
    p < q ∨ p = q ∧ Utf8.bytes i < Utf8.bytes j

/-- The queued ids stand in line. -/
theorem lineup_ordered (b : Backlog) : Lineup b.priority? (b.ordered.map (·.1)) := by
  constructor
  · intro id
    rw [List.mem_map]
    constructor
    · rintro ⟨⟨j, p⟩, hm, rfl⟩
      exact ⟨p, Backlog.mem_ordered.mp hm⟩
    · rintro ⟨p, hp⟩
      exact ⟨(id, p), Backlog.mem_ordered.mpr hp, rfl⟩
  · refine List.pairwise_map.mpr (b.ordered_pairwise.imp_of_mem ?_)
    rintro ⟨i, p'⟩ ⟨j, q'⟩ hi hj hlt p q hp hq
    obtain rfl := Option.some.inj ((Backlog.mem_ordered.mp hi).symm.trans hp)
    obtain rfl := Option.some.inj ((Backlog.mem_ordered.mp hj).symm.trans hq)
    rwa [Utf8.bytes_lt_bytes_iff]

/-- A claim takes the first entry of the backlog. -/
theorem dequeue_of_ordered {id : Id} {p : Priority} {rest : List (Id × Priority)}
    (h : (s.queue k).backlog.ordered = (id, p) :: rest) :
    ∃ s', s.dequeue k = (some ⟨id, p, rest.length⟩, s') := by
  have hl := (s.queue k).backlog.length_ordered
  have hh := (s.queue k).backlog.claim_of_pop?
  rw [h] at hl hh
  cases hp : (s.queue k).backlog.pop? with
  | none => simp [hp] at hh
  | some x =>
      obtain ⟨task, left⟩ := x
      obtain rfl : task = ⟨id, p, rest.length⟩ := by
        simp only [hp, Option.map_some, List.head?_cons, Option.some.injEq] at hh
        rw [hh, ← hl]
        rfl
      unfold dequeue
      simp only [hp]
      exact ⟨_, rfl⟩

theorem dequeue_of_ordered_nil (h : (s.queue k).backlog.ordered = []) :
    s.dequeue k = (none, s) := by
  have hh := (s.queue k).backlog.claim_of_pop?
  rw [h, List.head?_nil, Option.map_none, Option.map_eq_none_iff] at hh
  unfold dequeue
  simp only [hh]

theorem mem_inProgress {id : Id} : id ∈ s.inProgress k ↔ (s.entry k id).claimed = true := by
  rw [inProgress, Std.ExtTreeSet.mem_toList]
  rfl

/-- **A queue is a priority queue of the demand.**  After every history an id is queued at the best
priority that was accepted for it since it was last claimed, if at any, and then it is not claimed.
All reports are about the line of the wanted ids.  A claim takes the first one of the line, if there
is one, with its priority and the number of those behind it; it takes nothing else. -/
theorem refines_demand (h : List (Instant × Request)) (k : Keys) :
    let s := after {} h
    let m := demand k (transcript {} h)
    (∀ id, (s.queue k).backlog.priority? id = m id) ∧ (∀ id ∈ s.inProgress k, m id = none) ∧
    ∃ line, Lineup m line ∧ s.pending k = line.length ∧ (∀ n, s.queued k n = line.take n) ∧
      match line with
      | [] => s.dequeue k = (none, s)
      | id :: rest => ∃ p s', m id = some p ∧ s.dequeue k = (some ⟨id, p, rest.length⟩, s') ∧
          (∀ j, (s'.queue k).backlog.priority? j = if j = id then none else m j) ∧
          ∀ j, j ∈ s'.inProgress k ↔ j = id ∨ j ∈ s.inProgress k := by
  intro s m
  have hm (id : Id) : (s.queue k).backlog.priority? id = m id := (follows_after h k id).1
  refine ⟨hm, fun id hid => ?_, (s.queue k).backlog.ordered.map (·.1), ?_, ?_, ?_, ?_⟩
  · rw [← hm]
    exact (follows_after h k id).2 (mem_inProgress.mp hid)
  · rw [← funext hm]
    exact lineup_ordered _
  · rw [List.length_map, Backlog.length_ordered]
    rfl
  · exact fun n => List.map_take
  · cases ho : (s.queue k).backlog.ordered with
    | nil => exact dequeue_of_ordered_nil ho
    | cons x rest =>
        obtain ⟨id, p⟩ := x
        obtain ⟨s', hs'⟩ := dequeue_of_ordered ho
        obtain ⟨hp, he⟩ := entry_of_dequeue hs'
        refine ⟨p, s', (hm id).symm.trans hp, ?_, fun j => ?_, fun j => ?_⟩
        · rw [List.length_map]
          exact hs'
        · refine (congrArg Entry.priority (he j)).trans ?_
          split
          · rfl
          · exact hm j
        · rw [mem_inProgress, mem_inProgress, he]
          split
          · rename_i hj
            simp [hj]
          · rename_i hj
            simp [hj]

end Store

end ReadThrough
