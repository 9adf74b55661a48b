import ReadThrough.Proofs.Store.Requests

/-! # How long an id is claimed

An id is claimed by taking it off its queue, and stays claimed until a result is accepted for it.

* **Kept** (`Entry.Kept`).  Otherwise its claim does not change, it is not taken off the queue, and
  while it is claimed nobody can queue it.
* **Every operation** keeps an id, takes it off its queue or releases it (`Store.tenure`). -/

namespace ReadThrough

/-- An id is claimed if it was, it is queued if it was, and nobody queues it while it is claimed. -/
structure Entry.Kept (e e' : Entry) : Prop where
  claimed : e'.claimed = e.claimed
  queued : e.priority ≠ none → e'.priority ≠ none
  closed : e.claimed = true → e'.priority = e.priority

namespace Entry

variable {e e' : Entry}

theorem Kept.of_eq (hc : e'.claimed = e.claimed) (hp : e'.priority = e.priority) : e.Kept e' :=
  ⟨hc, fun h => hp ▸ h, fun _ => hp⟩

theorem Aged.keeps {now : Instant} (h : Aged now e e') : e.Kept e' :=
  .of_eq h.claimed_eq h.priority_eq

/-- Asking for an id can queue it, but not if it is claimed. -/
theorem kept_asked (e : Entry) (p : Priority) (now : Instant) : e.Kept (e.asked p now) := by
  refine ⟨asked_claimed e p now, fun hq => ?_, fun hc => ?_⟩
  · unfold asked
    split
    · exact hq
    · split
      · split <;> exact hq
      · exact Option.some_ne_none _
  · rw [asked, if_pos hc]

/-- A result that is not accepted does not release the claim. -/
theorem kept_completed {c : Completion} {now : Instant} (hn : c.nameable now = false) (e : Entry) :
    e.Kept (e.completed c now) := by
  cases c with
  | value bytes => cases hn
  | failure message ttl =>
      have ha : now.after? ttl = none := by simpa [Completion.nameable] using hn
      simp only [completed, ha]
      exact .of_eq rfl rfl

/-- A result that is accepted releases the claim. -/
theorem claimed_completed {c : Completion} {now : Instant} (hn : c.nameable now = true)
    (e : Entry) : (e.completed c now).claimed = false := by
  cases c with
  | value bytes => rfl
  | failure message ttl =>
      obtain ⟨expires, ha⟩ := Option.isSome_iff_exists.mp hn
      simp only [completed, ha]

/-- A result does not touch the queue. -/
theorem priority_completed (e : Entry) (c : Completion) (now : Instant) :
    (e.completed c now).priority = e.priority := by
  unfold completed
  split
  · rfl
  · split <;> rfl

end Entry

namespace Store

variable {s : Store} {k : Keys} {id : Id} {now : Instant}

/-- What an operation does to an id of the queue `k`: it keeps the id, takes it off the queue, or
has a result accepted for it. -/
inductive Tenure (k : Keys) (id : Id) (s : Store) (now : Instant) : Op → Prop
  | keeps {op : Op} (h : (s.entry k id).Kept ((op.apply s now).entry k id)) : Tenure k id s now op
  | begins {t : Claim} (hd : (s.dequeue k).1 = some t) (ht : t.id = id) :
      Tenure k id s now (.dequeue k)
  | ends {c : Completion} (hn : c.nameable now = true) : Tenure k id s now (.complete k id c)

theorem tenure (op : Op) (s : Store) (k : Keys) (id : Id) (now : Instant) :
    Tenure k id s now op := by
  by_cases hk : op.queue? = some k
  · -- what neither asks, claims nor completes is quiet
    have quiet (hq : op.quiet = true) (hl : ∀ l ∈ op.keys?, l = k) : Tenure k id s now op :=
      .keeps (quiet_apply hq hl s now id).keeps
    have other {e : Entry} (he : (op.apply s now).entry k id = e) (h : (s.entry k id).Kept e) :
        Tenure k id s now op := .keeps (he ▸ h)
    cases op with
    | enqueue l j p =>
        obtain rfl := Option.some.inj hk
        refine other (entry_enqueue s l j id p now) ?_
        split
        · rename_i hj
          subst hj
          exact Entry.kept_asked _ p now
        · exact .of_eq rfl rfl
    | dequeue l =>
        obtain rfl := Option.some.inj hk
        cases hd : s.dequeue l with
        | mk answer s' =>
            cases answer with
            | none =>
                have hs : (s.dequeue l).2 = s := by rw [hd, (dequeue_none hd).1]
                exact other (congrArg (fun t => t.entry l id) hs) (.of_eq rfl rfl)
            | some t =>
                by_cases hj : id = t.id
                · exact .begins (congrArg Prod.fst hd) hj.symm
                · refine other (e := s.entry l id) ?_ (.of_eq rfl rfl)
                  show (s.dequeue l).2.entry l id = _
                  rw [hd, (entry_of_dequeue hd).2, if_neg hj]
    | complete l j c =>
        obtain rfl := Option.some.inj hk
        by_cases hj : id = j
        · subst hj
          cases hn : c.nameable now with
          | true => exact .ends hn
          | false =>
              refine other (entry_complete s l id id c now) ?_
              rw [if_pos rfl]
              exact Entry.kept_completed hn _
        · refine other (entry_complete s l j id c now) ?_
          rw [if_neg hj]
          exact .of_eq rfl rfl
    | lookup l j => exact quiet rfl fun _ h => Option.some.inj (h.symm.trans hk)
    | isFinished l j => exact quiet rfl fun _ h => Option.some.inj (h.symm.trans hk)
    | takeMarker l => exact quiet rfl fun _ h => nomatch h
    | _ => cases hk
  · have hq := Request.queue_apply_of_ne (r := .op op) hk s now
    refine .keeps (.of_eq ?_ ?_)
    · exact congrArg (fun q => q.claimed.contains id) hq
    · exact congrArg (fun q => q.backlog.priority? id) hq

/-- Whatever neither claims nor has a result accepted keeps the id. -/
theorem Tenure.kept {op : Op} (h : Tenure k id s now op) (hd : op ≠ .dequeue k)
    (hc : ∀ c, op = .complete k id c → c.nameable now = false) :
    (s.entry k id).Kept ((op.apply s now).entry k id) := by
  cases h with
  | keeps h => exact h
  | begins => exact absurd rfl hd
  | ends hn =>
      rw [hc _ rfl] at hn
      cases hn

end Store

end ReadThrough
