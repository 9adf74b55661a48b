import ReadThrough.Proofs.System.Custody

/-! # Every id is computed at most once

In a run in which only the worker pools claim and complete, on one queue:

* **Never twice at once.**  Two workers that compute the same id are the same worker.
* **Never again without reason.**  A computation of an id begins after an earlier one only if that
  one ended with a failure that the store accepted and that has expired since.  After a value, a
  lost task or a refused write the id is not computed again.

Nothing else is asked of the run: there may be any number of caches, faults, outages, stop signals
and cancelled callers.

What can become of a computation is an invariant of the moments after its begin (`Fate`): its id is
out of reach as long as it is claimed or has a value, and afterwards it has failed. -/

namespace ReadThrough

/-- The worker at a place begins to compute a task. -/
def Moment.Begins (m : Moment) (o : Nat × Nat) (t : Claim) : Prop :=
  (∃ fault, m.action = .worker o.1 o.2 .advance fault) ∧ m.before.worker? o = some (.handed t)

/-- A worker writes that the computation of its task failed, and the store keeps that until
`expires`. -/
def Moment.Fails (m : Moment) (o : Nat × Nat) (t : Claim) (expires : Instant) : Prop :=
  ∃ message ttl, m.Writes o t (.failure message ttl) ∧ m.before.now.after? ttl = some expires

/-- An id is asked for, claimed and computed by nobody, and its failure is kept until `expires`. -/
structure Entry.Failed (e : Entry) (expires : Instant) : Prop where
  unclaimed : e.claimed = false
  unqueued : e.priority = none
  kept : ∃ f, e.failure = some f ∧ f.expires = expires

namespace Entry

variable {e e' : Entry} {now : Instant} {expires : Instant}

/-- While its failure lives, asking for an id changes nothing. -/
theorem Failed.asked (h : e.Failed expires) (hl : now < expires) (p : Priority) :
    (e.asked p now).Failed expires := by
  obtain ⟨hc, hq, f, hf, rfl⟩ := h
  have hv : e.live? now = some f := by
    simp [live?, hf, Option.filter_some, hl]
  have hn : e.finished now = true := by
    simp [finished, hv]
  unfold Entry.asked
  rw [hc, hn]
  simp only [Bool.false_eq_true, if_false, if_true]
  split
  · exact ⟨hc, hq, f, hf, rfl⟩
  · exact ⟨hc, hq, f, hv, rfl⟩

theorem Failed.aged (h : e.Failed expires) (hl : now < expires) (ha : Aged now e e') :
    e'.Failed expires := by
  obtain ⟨hc, hq, f, hf, rfl⟩ := h
  refine ⟨by rw [ha.claimed_eq, hc], by rw [ha.priority_eq, hq], f, ?_, rfl⟩
  rcases ha.failure_eq with he | ⟨-, g, hg, hx⟩
  · rw [he, hf]
  · obtain rfl := Option.some.inj (hf.symm.trans hg)
    exact absurd hx (Nat.not_le.mpr hl)

/-- What becomes of a claimed id when the end of its computation is written back: it has a value, or
it has failed, or the clock could not name the expiry and it is still claimed. -/
theorem Sound.completed_cases (h : e.Sound) (hc : e.claimed = true) (c : Completion)
    (now : Instant) :
    ((e.completed c now).claimed = true ∨ (e.completed c now).value ≠ none) ∨
      ∃ message ttl expires, c = .failure message ttl ∧ now.after? ttl = some expires ∧
        (e.completed c now).Failed expires := by
  cases c with
  | value bytes => exact Or.inl (Or.inr (Option.some_ne_none bytes))
  | failure message ttl =>
      unfold Entry.completed
      dsimp only
      cases ha : now.after? ttl with
      | none => exact Or.inl (Or.inl hc)
      | some expires =>
          right
          exact ⟨message, ttl, expires, rfl, ha, rfl, h.unqueued hc, _, rfl, rfl⟩

end Entry

/-! ### An id whose computation has begun -/

section Guard

variable {k : Keys} {now : Instant} {W : Nat × Nat → Claim → Completion → Prop} {L : Prop}
  {hs hs' : List Hand} {s s' : Store} {o : Nat × Nat} {t : Claim} {expires : Instant}

/-- The id of `t` is out of reach: it is claimed or has a value, and only worker `o` may have it in
hand. -/
structure Guarded (k : Keys) (o : Nat × Nat) (t : Claim) (hs : List Hand) (s : Store) : Prop where
  taken : (s.entry k t.id).claimed = true ∨ (s.entry k t.id).value ≠ none
  only : ∀ h ∈ hs, h.task.id = t.id → h = ⟨some o, t⟩

/-- What is out of reach is not queued. -/
theorem Guarded.unqueued (hg : Guarded k o t hs s) (hc : Custody k hs s) :
    (s.entry k t.id).priority = none := by
  have he := hc.sound t.id
  rcases hg.taken with ht | ht
  · exact he.unqueued ht
  · by_contra hq
    exact ht (he.bare (Or.inr hq)).1

/-- An id stays out of reach until worker `o` writes a failure that the store accepts. -/
theorem Guarded.handled (hg : Guarded k o t hs s) (hc : Custody k hs s)
    (hh : Handles k now W L hs s hs' s') :
    Guarded k o t hs' s' ∨ ∃ message ttl expires, W o t (.failure message ttl) ∧
      now.after? ttl = some expires ∧ (s'.entry k t.id).Failed expires := by
  cases hh with
  | rest hp hq =>
      left
      refine ⟨?_, fun h hm => hg.only h (hp.mem_iff.mp hm)⟩
      rw [(hq t.id).claimed_eq, (hq t.id).value_eq]
      exact hg.taken
  | ask id p =>
      left
      refine ⟨?_, hg.only⟩
      rw [Store.entry_enqueue]
      split
      · rename_i hj
        rw [← hj, Entry.asked_claimed, Entry.asked_value]
        exact hg.taken
      · exact hg.taken
  | @take t' _ _ hd hp =>
      left
      obtain ⟨hq, he⟩ := Store.entry_of_dequeue hd
      have hn : t.id ≠ t'.id := by
        intro hj
        rw [← hj, hg.unqueued hc] at hq
        cases hq
      constructor
      · rw [he, if_neg hn]
        exact hg.taken
      · intro h hm hi
        rcases List.mem_cons.mp (hp.mem_iff.mp hm) with rfl | hm
        · exact absurd hi.symm hn
        · exact hg.only h hm hi
  | @begin o' t' _ _ hp hp' =>
      left
      refine ⟨hg.taken, fun h hm hi => ?_⟩
      rcases List.mem_cons.mp (hp'.mem_iff.mp hm) with rfl | hm
      · -- the task that begins was in hand, and nobody had begun it
        have hb := hg.only ⟨none, t'⟩ (hp.mem_iff.mpr List.mem_cons_self) hi
        cases hb
      · exact hg.only h (hp.mem_iff.mpr (List.mem_cons_of_mem _ hm)) hi
  | lose hl hp =>
      left
      exact ⟨hg.taken, fun h hm => hg.only h (hp.mem_iff.mpr (List.mem_append_right _ hm))⟩
  | @settle o' t' c lost _ hw hl hp =>
      have hrest : ∀ h ∈ hs', h ∈ lost ++ hs' := fun h hm => List.mem_append_right _ hm
      have hx := (hc.perm hp.symm)
      by_cases hj : t.id = t'.id
      · -- the only one who can write the result of the id is worker `o`
        have ho := hg.only ⟨some o', t'⟩ (hp.mem_iff.mpr List.mem_cons_self) hj.symm
        obtain ⟨rfl, rfl⟩ : o' = o ∧ t' = t := by simpa using ho
        have hclaim := hx.claimed _ List.mem_cons_self
        have hnone : ∀ h ∈ hs', h.task.id = t'.id → h = ⟨some o', t'⟩ := by
          intro h hm hi
          have hn := (List.nodup_cons.mp hx.apart).1
          exact absurd (List.mem_map.mpr ⟨h, hrest h hm, hi⟩) hn
        have he := Store.entry_complete s k t'.id t'.id c now
        rw [if_pos rfl] at he
        rcases (hc.sound t'.id).completed_cases hclaim c now with
          ht | ⟨message, ttl, expires, rfl, ha, hf⟩
        · left
          refine ⟨?_, hnone⟩
          rw [he]
          exact ht
        · right
          refine ⟨message, ttl, expires, hw, ha, ?_⟩
          rw [he]
          exact hf
      · left
        refine ⟨?_, fun h hm =>
          hg.only h (hp.mem_iff.mpr (List.mem_cons_of_mem _ (hrest h hm)))⟩
        rw [Store.entry_complete, if_neg hj]
        exact hg.taken

/-- An id that is neither claimed nor queued is left alone, unless somebody asks for it. -/
theorem Handles.idle {id : Id} (hh : Handles k now W L hs s hs' s') (hc : Custody k hs s)
    (hu : (s.entry k id).claimed = false) (hq : (s.entry k id).priority = none) :
    Entry.Aged now (s.entry k id) (s'.entry k id) ∨
      ∃ p, s'.entry k id = (s.entry k id).asked p now := by
  cases hh with
  | rest hp hq => exact Or.inl (hq id)
  | ask j p =>
      rw [Store.entry_enqueue]
      split
      · rename_i hj
        subst hj
        exact Or.inr ⟨p, rfl⟩
      · exact Or.inl (Entry.Aged.refl now _)
  | take hd hp =>
      obtain ⟨hp, hx⟩ := Store.entry_of_dequeue hd
      rw [hx, if_neg]
      · exact Or.inl (Entry.Aged.refl now _)
      · rintro rfl
        rw [hq] at hp
        cases hp
  | begin hp hp' => exact Or.inl (Entry.Aged.refl now _)
  | lose hl hp => exact Or.inl (Entry.Aged.refl now _)
  | settle hw hl hp =>
      have hm := hc.claimed _ (hp.mem_iff.mpr List.mem_cons_self)
      rw [Store.entry_complete, if_neg]
      · exact Or.inl (Entry.Aged.refl now _)
      · rintro rfl
        rw [hu] at hm
        cases hm

/-- A failure stays on record until it expires. -/
theorem Entry.Failed.handled {id : Id} (he : (s.entry k id).Failed expires) (hl : now < expires)
    (hc : Custody k hs s) (hh : Handles k now W L hs s hs' s') :
    (s'.entry k id).Failed expires := by
  rcases hh.idle hc he.unclaimed he.unqueued with ha | ⟨p, hp⟩
  · exact he.aged hl ha
  · rw [hp]
    exact he.asked hl p

end Guard

namespace System

variable {s s' : System} {q : String} {a : Action}

/-! ### Workers and the tasks in hand -/

/-- A worker that begins a task computes it. -/
theorem Step.worker?_of_begins {o : Nat × Nat} {t : Claim} (h : Step s a s')
    (hb : Moment.Begins ⟨s, a⟩ o t) : s'.worker? o = some (.computing t) := by
  obtain ⟨⟨fault, ha⟩, hw⟩ := hb
  obtain rfl : a = _ := ha
  obtain ⟨c, p, p', store, events, hc, hp, hk, hs, hset, -⟩ := h.of_worker hw
  obtain rfl := hs.of_handed hk
  have hi := (List.getElem?_eq_some_iff.mp hc).1
  have hj := (List.getElem?_eq_some_iff.mp hk).1
  simp [worker?, hset, Pool.setWorker, hi, hj]

/-! ### What becomes of a computation -/

/-- What has become of the computation of `t` that worker `o` began before the moments `after`. -/
def Fate (q : String) (o : Nat × Nat) (t : Claim) (after : List Moment) (s : System) : Prop :=
  ((∀ m ∈ after, ∀ o' t', m.Begins o' t' → t'.id ≠ t.id) ∧ Guarded ⟨q⟩ o t s.hands s.store) ∨
  ∃ early m late expires, after = early ++ m :: late ∧
    (∀ m' ∈ early, ∀ o' t', m'.Begins o' t' → t'.id ≠ t.id) ∧ m.Fails o t expires ∧
    (expires ≤ s.now ∨ (s.store.entry ⟨q⟩ t.id).Failed expires)

variable {o : Nat × Nat} {t : Claim}

/-- A task that begins is in hand, and nobody has begun it. -/
theorem mem_hands_of_begins (hb : Moment.Begins ⟨s, a⟩ o t) : (⟨none, t⟩ : Hand) ∈ s.hands :=
  mem_hands_of_worker hb.2 List.mem_cons_self

/-- Right after its begin, the id of a computation is out of reach. -/
theorem fate_start (h : Step s a s') (hs : s'.InCustody q) (hb : Moment.Begins ⟨s, a⟩ o t) :
    Fate q o t [] s' := by
  have hm : (⟨some o, t⟩ : Hand) ∈ s'.hands :=
    mem_hands_of_worker (h.worker?_of_begins hb) List.mem_cons_self
  exact Or.inl ⟨fun _ h => (List.not_mem_nil h).elim, Or.inl (hs.2.claimed _ hm),
    fun x hx hi => hs.2.eq_of_mem hx hm hi⟩

theorem Fate.step {after : List Moment} (hf : Fate q o t after s) (hs : s.InCustody q)
    (h : Step s a s') (ha : a.On q) (hi : a.intrudes = false) :
    Fate q o t (after ++ [⟨s, a⟩]) s' := by
  have hh := h.handles hs.1 ha hi
  rcases hf with ⟨hn, hg⟩ | ⟨early, m, late, expires, rfl, hn, hm, hx⟩
  · rcases hg.handled hs.2 hh with hg' | ⟨message, ttl, expires, hw, he, hx⟩
    · refine Or.inl ⟨fun m hm o' t' hb hid => ?_, hg'⟩
      rcases List.mem_append.mp hm with hm | hm
      · exact hn m hm o' t' hb hid
      · obtain rfl := List.mem_singleton.mp hm
        have hb' := hg.only _ (mem_hands_of_begins hb) hid
        cases hb'
    · exact Or.inr ⟨after, ⟨s, a⟩, [], expires, rfl, hn, ⟨message, ttl, hw, he⟩, Or.inr hx⟩
  · refine Or.inr ⟨early, m, late ++ [⟨s, a⟩], expires, by simp, hn, hm, ?_⟩
    rcases hx with hx | hx
    · exact Or.inl (Nat.le_trans hx h.now_le)
    · rcases Nat.lt_or_ge s.now expires with hl | hl
      · exact Or.inr (hx.handled hl hs.2 hh)
      · exact Or.inl (Nat.le_trans hl h.now_le)

/-- In custody, an id begins again only after its failure has expired. -/
theorem Fate.of_begins {after : List Moment} {o' : Nat × Nat} {t' : Claim}
    (hf : Fate q o t after s) (hs : s.InCustody q) (hb : Moment.Begins ⟨s, a⟩ o' t')
    (hi : t.id = t'.id) :
    ∃ early m late expires, after = early ++ m :: late ∧
      (∀ m' ∈ early, ∀ o' t', m'.Begins o' t' → t'.id ≠ t.id) ∧ m.Fails o t expires ∧
      expires ≤ s.now := by
  have hm := mem_hands_of_begins hb
  rcases hf with ⟨-, hg⟩ | ⟨early, m, late, expires, he, hn, hm', hx⟩
  · have hb' := hg.only _ hm hi.symm
    cases hb'
  · refine ⟨early, m, late, expires, he, hn, hm', hx.resolve_right fun hx => ?_⟩
    have hc := hs.2.claimed _ hm
    rw [← hi, hx.unclaimed] at hc
    cases hc

/-- Nobody but the worker pools claims a task or writes a result, and everything is about one
queue. -/
def Proper (q : String) (a : Action) : Prop := a.On q ∧ a.intrudes = false

instance (q : String) (a : Action) : Decidable (Proper q a) :=
  inferInstanceAs (Decidable (_ ∧ _))

theorem run_inCustody {as : List Action} (hr : run? {} as = some s)
    (hp : ∀ a ∈ as, Proper q a) : s.InCustody q :=
  run_invariant (inCustody_start q) (fun _ _ _ hu ha hs => hs.inCustody ha.1 ha.2 hu) hp hr

/-- **Every id is computed at most once.**  In a run on one queue in which only the worker pools
claim and complete, an id is never computed by two workers at the same time, and between two begins
of its computation the earlier one has ended with a failure that the store accepted, and the failure
has expired. -/
theorem computed_at_most_once {as : List Action} (hr : run? {} as = some s)
    (hp : ∀ a ∈ as, Proper q a) :
    (∀ o o' t t', s.worker? o = some (.computing t) → s.worker? o' = some (.computing t') →
      t.id = t'.id → o = o') ∧
    ∀ past m₁ between m₂ future o t o' t',
      moments {} as = past ++ m₁ :: (between ++ m₂ :: future) →
      m₁.Begins o t → m₂.Begins o' t' → t.id = t'.id →
      ∃ early m late expires, between = early ++ m :: late ∧
        (∀ m' ∈ early, ∀ o'' t'', m'.Begins o'' t'' → t''.id ≠ t.id) ∧
        m.Fails o t expires ∧ expires ≤ m₂.before.now := by
  constructor
  · intro o o' t t' ht ht' hi
    have hc := (run_inCustody hr hp).2
    have hm : (⟨some o, t⟩ : Hand) ∈ s.hands := mem_hands_of_worker ht List.mem_cons_self
    have hm' : (⟨some o', t'⟩ : Hand) ∈ s.hands := mem_hands_of_worker ht' List.mem_cons_self
    have he := hc.eq_of_mem hm hm' hi
    exact Option.some.inj (congrArg Hand.owner he)
  · intro past m₁ between m₂ future o t o' t' hm hb₁ hb₂ hi
    -- cut the run at both begins
    obtain ⟨bs, u, hbs, -, hu, cs, rfl, hcs, hcm⟩ := exists_prefix hr hm
    obtain ⟨ds, v, hds, hdm, -, es, rfl, -, -⟩ := exists_prefix hcs hcm
    have hp₁ : Proper q m₁.action := hp _ (by simp)
    have hs₁ : m₁.before.InCustody q := run_inCustody hbs fun a ha => hp a (by simp [ha])
    have hu := step_of hu
    have hs := hu.inCustody hp₁.1 hp₁.2 hs₁
    -- and follow the fate of the first computation from one to the other
    have hf : Fate q o t (u.moments ds) m₂.before ∧ m₂.before.InCustody q := by
      refine run_induction (P := fun after w => Fate q o t after w ∧ w.InCustody q)
        (A := fun m => Proper q m.action) ⟨fate_start hu hs hb₁, hs⟩ ?_ ?_ hds
      · intro after w a w' hw ha hs'
        exact ⟨hw.1.step hw.2 hs' ha.1 ha.2, hs'.inCustody ha.1 ha.2 hw.2⟩
      · intro m hm
        have ha := action_mem_of_mem_moments hm
        exact hp _ (by simp [ha])
    rw [hdm] at hf
    exact hf.1.of_begins hf.2 hb₂ hi

/-- An id is asked for and handed to the worker of cache 0. -/
def handover : List Action :=
  .enqueue ⟨"q"⟩ "x" 0 none ::
    (List.replicate 7 (.loop 0 .advance none) ++ List.replicate 2 (.worker 0 0 .advance none))

/-- A cache is started and its worker has a task. -/
def firstTry : List Action :=
  .openCache { queue := "q", workers := 1, errorTtl := ⟨5⟩ } true none :: handover

/-- The computation of the task fails, and the worker has it again when the failure has expired. -/
def secondTry : List Action :=
  .worker 0 0 (.computed (.failed "boom")) none :: .worker 0 0 .advance none :: .tick ⟨5⟩ ::
    handover

/-- Two computations of one id. -/
def retried : List Action :=
  firstTry ++ .worker 0 0 .advance none :: (secondTry ++ [.worker 0 0 .advance none])

theorem computed_at_most_once_retried :
    ∃ s past m₁ between m₂ future t, run? {} retried = some s ∧ (∀ a ∈ retried, Proper "q" a) ∧
      moments {} retried = past ++ m₁ :: (between ++ m₂ :: future) ∧
      m₁.Begins (0, 0) t ∧ m₂.Begins (0, 0) t ∧
      ∃ early m late expires, between = early ++ m :: late ∧
        (∀ m' ∈ early, ∀ o'' t'', m'.Begins o'' t'' → t''.id ≠ t.id) ∧
        m.Fails (0, 0) t expires ∧ expires ≤ m₂.before.now := by
  have hp : ∀ a ∈ retried, Proper "q" a := by decide +kernel
  obtain ⟨s, hr⟩ : ∃ s, run? {} retried = some s :=
    Option.isSome_iff_exists.mp (by decide +kernel)
  obtain ⟨u₁, v₁, hu₁, hv₁, hr₁, hm₁⟩ := moments_cut hr
  obtain ⟨u₂, v₂, hu₂, -, -, hm₂⟩ := moments_cut hr₁
  rw [hm₂] at hm₁
  have hw₁ : u₁.worker? (0, 0) = some (.handed ⟨"x", 0, 0⟩) := by
    have hd : (run? {} firstTry).bind (·.worker? (0, 0)) = some (.handed ⟨"x", 0, 0⟩) := by
      decide +kernel
    rwa [hu₁] at hd
  have hw₂ : u₂.worker? (0, 0) = some (.handed ⟨"x", 0, 0⟩) := by
    have hd : (run? {} (firstTry ++ [.worker 0 0 .advance none] ++ secondTry)).bind
        (·.worker? (0, 0)) = some (.handed ⟨"x", 0, 0⟩) := by decide +kernel
    rw [run?_append, hv₁, Option.bind_some, hu₂] at hd
    exact hd
  have hb₁ : Moment.Begins ⟨u₁, .worker 0 0 .advance none⟩ (0, 0) ⟨"x", 0, 0⟩ := ⟨⟨none, rfl⟩, hw₁⟩
  have hb₂ : Moment.Begins ⟨u₂, .worker 0 0 .advance none⟩ (0, 0) ⟨"x", 0, 0⟩ := ⟨⟨none, rfl⟩, hw₂⟩
  exact ⟨s, _, _, _, _, _, _, hr, hp, hm₁, hb₁, hb₂,
    (computed_at_most_once hr hp).2 _ _ _ _ _ _ _ _ _ hm₁ hb₁ hb₂ rfl⟩

end System

end ReadThrough
