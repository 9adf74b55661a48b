import ReadThrough.Proofs.Call.Waiting
import ReadThrough.Proofs.Pool.Running
import ReadThrough.Proofs.System.Custody

/-! # Callers that have asked

A caller that has asked for its id (`Call.Asked`) is about to register with the notifier or waits.

* **Open ids** (`Entry.Open`).  An id is open if it is queued, claimed or finished; then something
  can still come of it.  Only time can end this (`Handles.open`).  As long as nothing is lost, a
  claimed id is in hand (`Handles.held`).
* **Who has asked** (`Step.asked_cases`).  Whoever has asked after a step had asked before, or its
  id has just been found queued or claimed. -/

namespace ReadThrough

/-- An id is queued, claimed or finished. -/
def Entry.Open (e : Entry) (now : Instant) : Prop :=
  e.priority ≠ none ∨ e.claimed = true ∨ e.finished now = true

instance (e : Entry) (now : Instant) : Decidable (e.Open now) :=
  inferInstanceAs (Decidable (_ ∨ _ ∨ _))

/-- A caller has asked for its id, and is about to wait or waits. -/
def Call.Asked (x : Call) : Prop := x.phase = .subscribing ∨ ∃ w, x.Waits w

namespace Entry

variable {e e' : Entry} {now : Instant}

theorem Open.aged (h : e.Open now) (ha : Aged now e e') : e'.Open now := by
  unfold Open
  rwa [ha.priority_eq, ha.claimed_eq, ha.finished_eq]

/-- Asking for an id leaves it open. -/
theorem Open.asked (h : e.Open now) (p : Priority) : (e.asked p now).Open now := by
  rcases h with hq | hc | hf
  · left
    unfold Entry.asked
    split
    · exact hq
    · split
      · split <;> exact hq
      · exact Option.some_ne_none _
  · right
    left
    unfold Entry.asked
    rw [if_pos hc]
    exact hc
  · right
    right
    rwa [finished_asked]

/-- A failure that lasts is finished when it is written. -/
theorem finished_completed_of_lasts {c : Completion} (hc : c.nameable now = true)
    (hl : c.Lasts) : (e.completed c now).finished now = true := by
  cases c with
  | value bytes => rfl
  | failure message ttl =>
      obtain ⟨t, ht⟩ := Option.isSome_iff_exists.mp hc
      have hlt : now < t := by
        rw [Instant.eq_of_after? ht]
        exact Nat.lt_add_of_pos_right hl
      simp [completed, ht, finished, live?, Option.filter_some, hlt]

end Entry

/-- What happens to the tasks in hand leaves every id open, if the failures that are written
last. -/
theorem Handles.open {k : Keys} {now : Instant} {W : Nat × Nat → Claim → Completion → Prop}
    {L : Prop} {hs hs' : List Hand} {s s' : Store} {id : Id}
    (h : Handles k now W L hs s hs' s') (hc : Custody k hs s) (hw : ∀ o t r, W o t r → r.Lasts)
    (ho : (s.entry k id).Open now) : (s'.entry k id).Open now := by
  cases h with
  | rest hp hq => exact ho.aged (hq id)
  | ask j p =>
      rw [Store.entry_enqueue]
      split
      · rename_i hj
        subst hj
        exact ho.asked p
      · exact ho
  | take hd hp =>
      rw [(Store.entry_of_dequeue hd).2]
      split
      · exact Or.inr (Or.inl rfl)
      · exact ho
  | begin hp hp' => exact ho
  | lose hl hp => exact ho
  | @settle o t r _ _ hwrite hlost hp =>
      rw [Store.entry_complete]
      split
      · cases hn : r.nameable now with
        | true => exact Or.inr (Or.inr (Entry.finished_completed_of_lasts hn (hw o t r hwrite)))
        | false =>
            -- nothing was written, and the id is still claimed
            have hclaim := hc.claimed _ (hp.mem_iff.mpr List.mem_cons_self)
            cases r with
            | value bytes => cases hn
            | failure message ttl =>
                have ha : now.after? ttl = none := by simpa [Completion.nameable] using hn
                right
                left
                simpa [Entry.completed, ha] using hclaim
      · exact ho

/-- Without losses, and if every result that is written is accepted, claimed ids stay in hand. -/
theorem Handles.held {k : Keys} {now : Instant} {W : Nat × Nat → Claim → Completion → Prop}
    {L : Prop} {hs hs' : List Hand} {s s' : Store} (h : Handles k now W L hs s hs' s') (hl : ¬ L)
    (hw : ∀ o t r, W o t r → r.nameable now = true)
    (hh : ∀ id, (s.entry k id).claimed = true → ∃ h ∈ hs, h.task.id = id) :
    ∀ id, (s'.entry k id).claimed = true → ∃ h ∈ hs', h.task.id = id := by
  intro id hc
  cases h with
  | rest hp hq =>
      rw [(hq id).claimed_eq] at hc
      obtain ⟨x, hx, he⟩ := hh id hc
      exact ⟨x, hp.mem_iff.mpr hx, he⟩
  | ask j p =>
      rw [Store.entry_enqueue] at hc
      split at hc
      · rename_i hj
        subst hj
        rw [Entry.asked_claimed] at hc
        exact hh id hc
      · exact hh id hc
  | @take t _ _ hd hp =>
      rw [(Store.entry_of_dequeue hd).2] at hc
      split at hc
      · rename_i hj
        exact ⟨⟨none, t⟩, hp.mem_iff.mpr List.mem_cons_self, hj.symm⟩
      · obtain ⟨x, hx, he⟩ := hh id hc
        exact ⟨x, hp.mem_iff.mpr (List.mem_cons_of_mem _ hx), he⟩
  | @begin o t _ others hp hp' =>
      obtain ⟨x, hx, he⟩ := hh id hc
      rcases List.mem_cons.mp (hp.mem_iff.mp hx) with rfl | hx
      · exact ⟨⟨some o, t⟩, hp'.mem_iff.mpr List.mem_cons_self, he⟩
      · exact ⟨x, hp'.mem_iff.mpr (List.mem_cons_of_mem _ hx), he⟩
  | lose hlose hp => exact absurd hlose hl
  | @settle o t r lost _ hwrite hlost hp =>
      obtain rfl := hlost (hw o t r hwrite)
      rw [Store.entry_complete] at hc
      split at hc
      · -- an accepted result releases the claim
        have hn := hw o t r hwrite
        cases r with
        | value bytes => cases hc
        | failure message ttl =>
            obtain ⟨e, he⟩ := Option.isSome_iff_exists.mp hn
            simp [Entry.completed, he] at hc
      · rename_i hj
        obtain ⟨x, hx, he⟩ := hh id hc
        rcases List.mem_cons.mp (hp.mem_iff.mp hx) with rfl | hx
        · exact absurd he.symm hj
        · exact ⟨x, hx, he⟩

namespace Call

variable {x x' : Call} {settings : Settings} {now : Instant} {fault : Option Error}
  {n n' : Notifier} {s s' : Store} {events : List Event}

theorem not_asked_of_ended (h : x.ended = true) : ¬ x.Asked := by
  rintro (hp | ⟨w, d, hp⟩)
  · simp [ended, hp] at h
  · simp [ended, hp] at h

/-- An id that was asked for and is not finished is queued or claimed. -/
theorem queued_of_enqueue {k : Keys} {id : Id} {p : Priority} {outcome : Enqueued}
    (ha : s.attempt fault (·.enqueue k id p now) = (.ok outcome, s')) (ho : outcome ≠ .resolved) :
    (s'.entry k id).priority ≠ none ∨ (s'.entry k id).claimed = true := by
  cases fault with
  | some e => cases ha
  | none =>
      have he : (s.enqueue k id p now).1 = outcome ∧ (s.enqueue k id p now).2 = s' := by
        simpa [Store.attempt] using ha
      rw [← he.1, Store.enqueue_answer] at ho
      rw [← he.2, Store.entry_enqueue, if_pos rfl]
      unfold Entry.asked
      split
      · rename_i hc
        exact Or.inr hc
      · rename_i hc
        rw [if_neg hc] at ho
        split
        · rename_i hf
          rw [if_pos hf] at ho
          exact absurd rfl ho
        · exact Or.inl (Option.some_ne_none _)

/-- A caller that has asked after a step had asked before, or has just done so. -/
theorem Step.asked (h : Step x settings now fault n s x' n' s' events) (ha : x'.Asked) :
    x.Asked ∨ (s'.entry settings.keys x.id).priority ≠ none ∨
      (s'.entry settings.keys x.id).claimed = true := by
  cases h with
  | settled hp hq hv => exact absurd ha (not_asked_of_ended (ended_answer _ _ _ _))
  | reread hp hq hr hb => exact absurd ha (not_asked_of_ended (ended_answer _ _ _ _))
  | refused hp hq => exact absurd ha (not_asked_of_ended (ended_answer _ _ _ _))
  | gone hp hn => exact absurd ha (not_asked_of_ended (ended_answer _ _ _ _))
  | queued hp hq ho => exact Or.inr (queued_of_enqueue hq ho)
  | subscribe hp hn => exact Or.inl (Or.inl hp)
  | _ =>
      rcases ha with hp | ⟨w, d, hp⟩
      · cases hp
      · cases hp

end Call

namespace System

variable {s s' : System} {a : Action} {q : String}

/-- Whoever has asked after a step had asked before, or has just done so. -/
theorem Step.asked_cases (h : Step s a s') (hk : s.OneQueue ⟨q⟩) {j : Nat} {x' : Call}
    (hx' : s'.calls[j]? = some x') (ha : x'.Asked) :
    (∃ x, s.calls[j]? = some x ∧ x.Asked ∧ x.id = x'.id) ∨
      (s'.store.entry ⟨q⟩ x'.id).priority ≠ none ∨ (s'.store.entry ⟨q⟩ x'.id).claimed = true := by
  rcases h.calls_cases with hc | ⟨i, id, p, -, -, hc⟩ | ⟨i, x, n, -, hx, hc⟩ |
    ⟨i, fault, x, y, c, n, events, -, hx, hcache, hs, hc⟩
  · rw [hc] at hx'
    exact Or.inl ⟨x', hx', ha, rfl⟩
  · rw [hc] at hx'
    rcases Nat.lt_or_ge j s.calls.length with hj | hj
    · rw [List.getElem?_append_left hj] at hx'
      exact Or.inl ⟨x', hx', ha, rfl⟩
    · rw [List.getElem?_append_right hj] at hx'
      obtain rfl := List.mem_singleton.mp (List.mem_of_getElem? hx')
      rcases ha with hp | ⟨w, d, hp⟩
      · cases hp
      · cases hp
  · rw [hc] at hx'
    rcases getElem?_set_cases hx' with ⟨rfl, rfl⟩ | ⟨-, hx'⟩
    · have he : (x.cancel n).1.ended = true := by
        unfold Call.cancel
        dsimp only
        split
        · assumption
        · rfl
      exact absurd ha (Call.not_asked_of_ended he)
    · exact Or.inl ⟨x', hx', ha, rfl⟩
  · rw [hc] at hx'
    rcases getElem?_set_cases hx' with ⟨rfl, rfl⟩ | ⟨-, hx'⟩
    · rw [hs.same.2]
      rcases hs.asked ha with ha | ho
      · exact Or.inl ⟨_, hx, ha, rfl⟩
      · rw [(hk.of_getElem? hcache).1] at ho
        exact Or.inr ho
    · exact Or.inl ⟨x', hx', ha, rfl⟩

end System

end ReadThrough
