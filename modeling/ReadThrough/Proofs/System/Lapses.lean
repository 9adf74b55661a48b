import ReadThrough.Proofs.System.Asking
import ReadThrough.Proofs.System.AtMostOnce
import ReadThrough.Proofs.System.Waiting

/-! # Ids that lapse

What becomes of an id that a caller has asked for, in a run without faults.

* **Safe ids** (`Entry.Safe`).  An id that is queued or claimed or has a value is open, whatever the
  time.  Only a failure that the store accepts changes this (`Handles.safe`).
* **Lapsing** (`System.Lapses`).  From then on, and until the id is queued again, there is nothing
  but the failure, and it is on record until it expires.
* **Prospects** (`System.Prospect`, `run_prospect`).  The id of every caller that has asked is safe,
  or has lapsed by a failure that came after the caller had asked.
* **Spent ids** (`Entry.Spent`, `run_spent`).  As long as an id lapses, it does not become open
  again. -/

namespace ReadThrough

namespace Entry

/-- An id is queued or claimed or has a value. -/
def Safe (e : Entry) : Prop := e.priority ≠ none ∨ e.claimed = true ∨ e.value ≠ none

/-- There is nothing but a failure, which is on record until `expires` at most. -/
structure Spent (e : Entry) (expires : Instant) : Prop where
  unclaimed : e.claimed = false
  unqueued : e.priority = none
  bare : e.value = none
  kept : ∀ f, e.failure = some f → f.expires = expires

variable {e e' : Entry} {now expires : Instant}

theorem Safe.open (h : e.Safe) (now : Instant) : e.Open now := by
  rcases h with hq | hc | hv
  · exact Or.inl hq
  · exact Or.inr (Or.inl hc)
  · obtain ⟨bytes, hb⟩ := Option.ne_none_iff_exists'.mp hv
    exact Or.inr (Or.inr (by simp [finished, hb]))

theorem Safe.aged (h : e.Safe) (ha : Aged now e e') : e'.Safe := by
  unfold Safe
  rwa [ha.priority_eq, ha.claimed_eq, ha.value_eq]

theorem Safe.asked (h : e.Safe) (p : Priority) : (e.asked p now).Safe := by
  unfold Entry.asked
  split
  · exact h
  · split
    · split <;> exact h
    · exact Or.inl (Option.some_ne_none _)

theorem Failed.finished (h : e.Failed expires) (hl : now < expires) : e.finished now = true := by
  obtain ⟨-, -, f, hf, rfl⟩ := h
  simp [Entry.finished, live?, hf, Option.filter_some, hl]

theorem Spent.aged (h : e.Spent expires) (ha : Aged now e e') : e'.Spent expires := by
  refine ⟨ha.claimed_eq.trans h.unclaimed, ha.priority_eq.trans h.unqueued,
    ha.value_eq.trans h.bare, fun f hf => ?_⟩
  rcases ha.failure_eq with he | ⟨he, -⟩
  · exact h.kept f (he ▸ hf)
  · rw [he] at hf
    cases hf

/-- Asking for a spent id queues it, or changes nothing. -/
theorem Spent.asked (h : e.Spent expires) {p : Priority} (hq : (e.asked p now).priority = none) :
    (e.asked p now).Spent expires := by
  unfold Entry.asked at hq ⊢
  split at hq
  · rename_i hc
    rw [h.unclaimed] at hc
    cases hc
  · rename_i hc
    rw [if_neg hc]
    split at hq
    · rename_i hf
      rw [if_pos hf]
      split
      · exact h
      · exact h.aged (Or.inr rfl)
    · cases hq

/-- Nothing will come of a spent id once its failure has expired. -/
theorem Spent.not_open (h : e.Spent expires) (hl : expires ≤ now) : ¬ e.Open now := by
  rintro (hq | hc | hf)
  · exact hq h.unqueued
  · rw [h.unclaimed] at hc
    cases hc
  · cases he : e.failure with
    | none => simp [finished, live?, h.bare, he] at hf
    | some f =>
        have hn : ¬ now < f.expires := by
          rw [h.kept f he]
          exact Nat.not_lt.mpr hl
        simp [finished, live?, h.bare, he, Option.filter_some, hn] at hf

end Entry

section Handling

variable {k : Keys} {now : Instant} {W : Nat × Nat → Claim → Completion → Prop} {L : Prop}
  {hs hs' : List Hand} {s s' : Store} {id : Id} {expires : Instant}

/-- A safe id stays safe until its computation fails. -/
theorem Handles.safe (hh : Handles k now W L hs s hs' s') (hc : Custody k hs s)
    (h : (s.entry k id).Safe) :
    (s'.entry k id).Safe ∨ ∃ o t message ttl expires, t.id = id ∧ W o t (.failure message ttl) ∧
      now.after? ttl = some expires ∧ (s'.entry k id).Failed expires := by
  cases hh with
  | rest hp hq => exact Or.inl (h.aged (hq id))
  | ask j p =>
      left
      rw [Store.entry_enqueue]
      split
      · rename_i hj
        subst hj
        exact h.asked p
      · exact h
  | take hd hp =>
      left
      rw [(Store.entry_of_dequeue hd).2]
      split
      · exact Or.inr (Or.inl rfl)
      · exact h
  | begin hp hp' => exact Or.inl h
  | lose hl hp => exact Or.inl h
  | @settle o t c _ _ hw hl hp =>
      rw [Store.entry_complete]
      split
      · rename_i hj
        subst hj
        have hclaim := hc.claimed _ (hp.mem_iff.mpr List.mem_cons_self)
        rcases (hc.sound t.id).completed_cases hclaim c now with
          ht | ⟨message, ttl, expires, rfl, ha, hf⟩
        · exact Or.inl (Or.inr ht)
        · exact Or.inr ⟨o, t, message, ttl, expires, rfl, hw, ha, hf⟩
      · exact Or.inl h

/-- A spent id stays spent until it is queued. -/
theorem Entry.Spent.handled (h : (s.entry k id).Spent expires) (hc : Custody k hs s)
    (hh : Handles k now W L hs s hs' s') (hq : (s'.entry k id).priority = none) :
    (s'.entry k id).Spent expires := by
  rcases hh.idle hc h.unclaimed h.unqueued with ha | ⟨p, hp⟩
  · exact h.aged ha
  · rw [hp] at hq ⊢
    exact h.asked hq

end Handling

namespace System

variable {s s' : System} {a : Action} {q : String} {j : Nat} {id : Id} {expires : Instant}

/-- The id is not queued, and its failure is on record unless it has expired. -/
def Lapses (q : String) (id : Id) (expires : Instant) (s : System) : Prop :=
  (s.store.entry ⟨q⟩ id).priority = none ∧
    (expires ≤ s.now ∨ (s.store.entry ⟨q⟩ id).Failed expires)

/-- The caller at a place has asked. -/
def HasAsked (s : System) (j : Nat) : Prop := ∃ x, s.calls[j]? = some x ∧ x.Asked

/-- Since caller `j` asked for the id, it is safe, or it has failed and lapses since then. -/
def Prospect (q : String) (j : Nat) (id : Id) (past : List Moment) (s : System) : Prop :=
  (s.store.entry ⟨q⟩ id).Safe ∨
    ∃ early m late o t expires, past = early ++ m :: late ∧ t.id = id ∧ m.Fails o t expires ∧
      m.before.HasAsked j ∧ (∀ m' ∈ late, m'.before.Lapses q id expires) ∧ s.Lapses q id expires

/-- An id lapses until it is queued again. -/
theorem Lapses.step (hl : s.Lapses q id expires) (hs : s.InCustody q) (h : Step s a s')
    (ha : a.On q) (hi : a.intrudes = false) :
    (s'.store.entry ⟨q⟩ id).Safe ∨ s'.Lapses q id expires := by
  by_cases hq : (s'.store.entry ⟨q⟩ id).priority = none
  · refine Or.inr ⟨hq, ?_⟩
    rcases hl.2 with hx | hf
    · exact Or.inl (Nat.le_trans hx h.now_le)
    · rcases Nat.lt_or_ge s.now expires with hn | hn
      · exact Or.inr (hf.handled hn hs.2 (h.handles hs.1 ha hi))
      · exact Or.inl (Nat.le_trans hn h.now_le)
  · exact Or.inl (Or.inl hq)

theorem Prospect.step {past : List Moment} (hp : Prospect q j id past s) (hs : s.Steady q)
    (h : Step s a s') (hm : Moment.Faultless q ⟨s, a⟩) (hx : s.HasAsked j) :
    Prospect q j id (past ++ [⟨s, a⟩]) s' := by
  rcases hp with hsafe | ⟨early, m, late, o, t, expires, rfl, ht, hf, hasked, hlate, hl⟩
  · have hh := h.handles hs.custody.1 hm.on hm.proper
    rcases hh.safe hs.custody.2 hsafe with
      hsafe | ⟨o, t, message, ttl, expires, ht, hw, ha, hf⟩
    · exact Or.inl hsafe
    · exact Or.inr ⟨past, ⟨s, a⟩, [], o, t, expires, rfl, ht, ⟨message, ttl, hw, ha⟩, hx,
        fun _ h => (List.not_mem_nil h).elim, hf.unqueued, Or.inr hf⟩
  · rcases hl.step hs.custody h hm.on hm.proper with hsafe | hl'
    · exact Or.inl hsafe
    · refine Or.inr ⟨early, m, late ++ [⟨s, a⟩], o, t, expires, by simp, ht, hf, hasked, ?_, hl'⟩
      intro m' hm'
      rcases List.mem_append.mp hm' with hm' | hm'
      · exact hlate m' hm'
      · obtain rfl := List.mem_singleton.mp hm'
        exact hl

/-- The id of every caller that has asked is safe, or lapses since a failure that the caller could
have heard of. -/
theorem run_prospect {as : List Action} (hr : run? {} as = some s)
    (hm : ∀ m ∈ moments {} as, m.Faultless q) {x : Call} (hx : s.calls[j]? = some x)
    (ha : x.Asked) : Prospect q j x.id (moments {} as) s := by
  have hi := run_induction (s := {}) (A := Moment.Faultless q)
    (P := fun past s => s.Steady q ∧
      ∀ x, s.calls[j]? = some x → x.Asked → Prospect q j x.id past s)
    ⟨steady_start q, fun _ h => by simp at h⟩
    (fun past u a u' hp hm h => by
      refine ⟨h.steady hm hp.1, fun x' hx' ha' => ?_⟩
      rcases h.asked_cases hp.1.custody.1 hx' ha' with ⟨x, hx, ha, hid⟩ | hq | hc
      · rw [← hid]
        exact (hp.2 x hx ha).step hp.1 h hm ⟨x, hx, ha⟩
      · exact Or.inl (Or.inl hq)
      · exact Or.inl (Or.inr (Or.inl hc))) hm hr
  exact hi.2 x hx ha

/-! ### Spent ids -/

/-- A result that is written is given to the store. -/
theorem Step.store_of_writes (h : Step s a s') (hk : s.OneQueue ⟨q⟩) {o : Nat × Nat} {t : Claim}
    {r : Completion} (hw : Moment.Writes ⟨s, a⟩ o t r) :
    s'.store = (s.store.complete ⟨q⟩ t.id r s.now).2 := by
  obtain ⟨ha, hw⟩ := hw
  obtain rfl : a = _ := ha
  obtain ⟨c, p, p', store, events, hc, -, hk', hs, -, rfl⟩ := h.of_worker hw
  obtain ⟨accepted, hcomplete, -⟩ := hs.of_writing hk' rfl
  rw [← (hk.of_getElem? hc).1]
  exact (congrArg Prod.snd hcomplete).symm

/-- Right after its failure an id is spent. -/
theorem Step.spent_of_fails (h : Step s a s') (hs : s.InCustody q) {o : Nat × Nat} {t : Claim}
    (hf : Moment.Fails ⟨s, a⟩ o t expires) : (s'.store.entry ⟨q⟩ t.id).Spent expires := by
  obtain ⟨message, ttl, hw, ha⟩ := hf
  have hm : (⟨some o, t⟩ : Hand) ∈ s.hands := mem_hands_of_worker hw.2 List.mem_cons_self
  have hclaim := hs.2.claimed _ hm
  rw [h.store_of_writes hs.1 hw, Store.entry_complete, if_pos rfl]
  unfold Entry.completed
  dsimp only
  rw [ha]
  exact ⟨rfl, (hs.2.sound t.id).unqueued hclaim, rfl, fun f hf => by
    obtain rfl := Option.some.inj hf
    rfl⟩

/-- An id that is spent stays spent, unless it is queued on the way. -/
theorem run_spent {u : System} {as : List Action} (hr : u.run? as = some s) (hu : u.InCustody q)
    (hm : ∀ m ∈ u.moments as, m.Faultless q) (hspent : (u.store.entry ⟨q⟩ id).Spent expires)
    (hq : ∀ m ∈ u.moments as, (m.before.store.entry ⟨q⟩ id).priority = none)
    (hq' : (s.store.entry ⟨q⟩ id).priority = none) : (s.store.entry ⟨q⟩ id).Spent expires := by
  have hi := run_induction (s := u)
    (A := fun m => m.Faultless q ∧ (m.before.store.entry ⟨q⟩ id).priority = none)
    (P := fun _ w => w.InCustody q ∧ ((w.store.entry ⟨q⟩ id).priority = none →
      (w.store.entry ⟨q⟩ id).Spent expires))
    ⟨hu, fun _ => hspent⟩
    (fun _ w a w' hp hm h =>
      ⟨h.inCustody hm.1.on hm.1.proper hp.1, fun hq =>
        (hp.2 hm.2).handled hp.1.2 (h.handles hp.1.1 hm.1.on hm.1.proper) hq⟩)
    (fun m h => ⟨hm m h, hq m h⟩) hr
  exact hi.2 hq'

end System

end ReadThrough
