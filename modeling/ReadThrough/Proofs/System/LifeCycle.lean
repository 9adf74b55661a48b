import ReadThrough.Proofs.System.Status

/-! # The life cycle of an id

In a run on one queue, let only ids be completed that are claimed at that moment, by workers or from
outside.  Nothing else is asked of the run: there may be caches or none, faults, outages, claims
from outside, and time may pass between any two operations.  Then (`life_cycle`):

* **One status.**  At every time each id is absent, queued, claimed, or it has a value or a live
  failure, and it is only one of these.
* **Reported.**  Everything that the store answers about an id is its status.
* **Changed** by four operations and by time only: an absent id is queued, a queued id gets a better
  priority or is claimed, a claimed id gets a value or a failure, and a failure expires.  A failure
  that is kept for no time at all has expired when it is written (`life_cycle_brief`).

All of it rests on one invariant: the entries are lawful (`Lawfully`, `Step.lawfully`). -/

namespace ReadThrough

/-- The id that a moment completes, and how. -/
def Moment.completion? (m : Moment) : Option (Id × Completion) :=
  match m.action with
  | .complete _ id c none => some (id, c)
  | .worker i k .advance none =>
    match m.before.worker? (i, k) with
    | some (.writing t c) => some (t.id, c)
    | _ => none
  | _ => none

/-- The moment is about one queue, and what it completes is claimed. -/
def Moment.Entitled (q : String) (m : Moment) : Prop :=
  m.action.On q ∧ ∀ x ∈ m.completion?, (m.before.store.entry ⟨q⟩ x.1).claimed = true

instance (q : String) (m : Moment) : Decidable (m.Entitled q) :=
  inferInstanceAs (Decidable (_ ∧ _))

namespace System

variable {s s' : System} {q : String} {a : Action}

/-! ### What a step brings about -/

/-- What happened to the store in a step: one operation, or nothing while time could pass. -/
def Brings (s : System) (a : Action) (s' : System) : Option Store.Op → Prop
  | some op => Asks s a op ∧ s'.store = op.apply s.store s.now ∧ s'.now = s.now
  | none => s'.store = s.store ∧ s.now ≤ s'.now

/-- Only workers complete, and whoever does it from outside. -/
theorem Asks.completion {k : Keys} {id : Id} {c : Completion} (h : Asks s a (.complete k id c)) :
    (∃ i w m, a = .worker i w m none) ∨ Moment.completion? ⟨s, a⟩ = some (id, c) := by
  cases h with
  | write _ _ _ => exact Or.inl ⟨_, _, _, rfl⟩
  | outside ho hf =>
      right
      cases a with
      | complete l j r fault =>
          cases ho
          obtain rfl : fault = none := hf
          rfl
      | _ => cases ho

/-- A worker that writes completes its task. -/
theorem brings_write {i w : Nat} {c : Cache} {p : Pool} {t : Claim} {r : Completion} {b : Bool}
    {store : Store} (hc : s.caches[i]? = some c) (hp : c.pool = some p)
    (hk : p.workers[w]? = some (.writing t r))
    (hw : s.store.complete c.settings.keys t.id r s.now = (b, store)) (hs : s'.store = store)
    (hn : s'.now = s.now) :
    ∃ cause, s.Brings (.worker i w .advance none) s' cause ∧
      ∀ k id c, cause = some (.complete k id c) →
        Moment.completion? ⟨s, .worker i w .advance none⟩ = some (id, c) := by
  refine ⟨some (.complete c.settings.keys t.id r), ⟨.write hc hp hk, ?_, hn⟩, ?_⟩
  · rw [hs]
    exact (congrArg Prod.snd hw).symm
  · intro k id r' he
    cases he
    simp [Moment.completion?, worker?, hc, hp, hk]

/-- Every step has a cause, and what it completes is what its moment completes. -/
theorem Step.brings (h : Step s a s') :
    ∃ cause, s.Brings a s' cause ∧
      ∀ k id c, cause = some (.complete k id c) → Moment.completion? ⟨s, a⟩ = some (id, c) := by
  by_cases hworker : ∃ i w m fault, a = .worker i w m fault
  · obtain ⟨i, w, m, fault, rfl⟩ := hworker
    cases h with
    | worker hc hp hs =>
        cases hs with
        | write hk hf hw =>
            obtain rfl : fault = none := hf
            exact brings_write hc hp hk hw rfl rfl
        | crash hk hf hw =>
            obtain rfl : fault = none := hf
            exact brings_write hc hp hk hw rfl rfl
        | _ => exact ⟨none, ⟨rfl, Nat.le_refl _⟩, fun _ _ _ he => by cases he⟩
    | outside ho => cases ho
    | denied ho => cases ho
  · rcases h.does with hs | ⟨op, ha, hs⟩
    · exact ⟨none, ⟨hs, h.now_le⟩, fun _ _ _ he => by cases he⟩
    · refine ⟨some op, ⟨ha, hs, h.now_eq.resolve_right ?_⟩, ?_⟩
      · -- letting time pass asks nothing of the store
        rintro ⟨span, rfl⟩
        cases ha with
        | outside ho => cases ho
      · intro k id c he
        obtain rfl := Option.some.inj he
        refine ha.completion.resolve_left ?_
        rintro ⟨i, w, m, rfl⟩
        exact hworker ⟨i, w, m, none, rfl⟩

/-! ### Lawful runs -/

/-- There is one queue, and all entries are lawful. -/
def Lawfully (q : String) (s : System) : Prop :=
  s.OneQueue ⟨q⟩ ∧ ∀ id, (s.store.entry ⟨q⟩ id).Lawful

theorem lawfully_start (q : String) : Lawfully q {} := by
  refine ⟨oneQueue_start _, fun id => ?_⟩
  show (Store.entry {} ⟨q⟩ id).Lawful
  rw [Store.entry_empty]
  exact ⟨⟨fun hc => absurd hc Bool.false_ne_true, fun _ => ⟨rfl, rfl⟩⟩, fun _ => rfl⟩

/-- An operation in an entitled moment is about the queue and completes what is claimed. -/
theorem Brings.entitled {op : Store.Op} (hb : s.Brings a s' (some op))
    (hc : ∀ k id c, some op = some (.complete k id c) → Moment.completion? ⟨s, a⟩ = some (id, c))
    (hs : s.Lawfully q) (hm : Moment.Entitled q ⟨s, a⟩) :
    (∀ l ∈ op.keys?, l = ⟨q⟩) ∧
      ∀ l id c, op = .complete l id c → (s.store.entry ⟨q⟩ id).claimed = true := by
  refine ⟨hb.1.keys_eq hs.1 hm.1, fun l id c ho => ?_⟩
  exact hm.2 (id, c) (hc l id c (congrArg some ho))

theorem Step.lawfully (h : Step s a s') (hs : s.Lawfully q) (hm : Moment.Entitled q ⟨s, a⟩) :
    s'.Lawfully q := by
  refine ⟨h.oneQueue hm.1 hs.1, fun id => ?_⟩
  obtain ⟨cause, hb, hc⟩ := h.brings
  cases cause with
  | none =>
      rw [hb.1]
      exact hs.2 id
  | some op =>
      obtain ⟨hk, hclaimed⟩ := hb.entitled hc hs hm
      rw [hb.2.1]
      exact Store.lawful_apply hk hclaimed hs.2 id

theorem run_lawfully {as : List Action} (hr : run? {} as = some s)
    (hm : ∀ m ∈ moments {} as, m.Entitled q) : s.Lawfully q :=
  run_induction (P := fun _ u => u.Lawfully q) (lawfully_start q)
    (fun _ _ _ _ hu ha hs => hs.lawfully hu ha) hm hr

/-- What a step does to the status of an id. -/
theorem Step.status (h : Step s a s') (hs : s.Lawfully q) (hm : Moment.Entitled q ⟨s, a⟩)
    (id : Id) :
    (s'.store.entry ⟨q⟩ id).status s'.now = (s.store.entry ⟨q⟩ id).status s.now ∨
      ∃ cause, s.Brings a s' cause ∧
        (Status.Change id s'.now cause ((s.store.entry ⟨q⟩ id).status s.now)
            ((s'.store.entry ⟨q⟩ id).status s'.now) ∨
          Status.Lapse id cause ((s.store.entry ⟨q⟩ id).status s.now)
            ((s'.store.entry ⟨q⟩ id).status s'.now)) := by
  obtain ⟨cause, hb, hc⟩ := h.brings
  cases cause with
  | none =>
      rw [hb.1]
      rcases (hs.2 id).status_later s.now hb.2 with he | ⟨f, hf, hx, ha⟩
      · exact Or.inl he
      · refine Or.inr ⟨none, hb, Or.inl ?_⟩
        rw [hf, ha]
        exact .expire hx
  | some op =>
      obtain ⟨hk, hclaimed⟩ := hb.entitled hc hs hm
      have hn := hb.2.2
      rw [hn, hb.2.1]
      rcases Store.change_apply hk hclaimed hs.2 id with he | hch | hl
      · exact Or.inl he
      · exact Or.inr ⟨some op, hb, Or.inl hch⟩
      · exact Or.inr ⟨some op, hb, Or.inr hl⟩

/-- **The life cycle of an id.**  In a run on one queue that completes claimed ids only, every id
has one status at any time, the store reports it, and a step leaves it as it is or makes one of the
listed changes, unless it writes a failure that is kept for no time at all. -/
theorem life_cycle {as : List Action} (hr : run? {} as = some s)
    (hm : ∀ m ∈ moments {} as, m.Entitled q) (id : Id) :
    (∀ now, ∃! st, (s.store.entry ⟨q⟩ id).Shows now st) ∧
      (∀ now st, (s.store.entry ⟨q⟩ id).Shows now st → s.store.Reports ⟨q⟩ id now st) ∧
      ∀ a s' st st', Moment.Entitled q ⟨s, a⟩ → s.step? a = some s' →
        (s.store.entry ⟨q⟩ id).Shows s.now st → (s'.store.entry ⟨q⟩ id).Shows s'.now st' →
        st' = st ∨ ∃ cause, s.Brings a s' cause ∧
          (Status.Change id s'.now cause st st' ∨ Status.Lapse id cause st st') := by
  have hs := run_lawfully hr hm
  refine ⟨fun now => (hs.2 id).existsUnique_shows now,
    fun now st h => Store.reports_of_lawful (hs.2 id) h, ?_⟩
  intro a s' st st' ha h hst hst'
  have hs' := (step_of h).lawfully hs ha
  obtain rfl := (hs.2 id).shows_iff.mp hst
  obtain rfl := (hs'.2 id).shows_iff.mp hst'
  exact (step_of h).status hs ha id

/-- An id is asked for twice and claimed. -/
def underway : List Action :=
  [.enqueue ⟨"q"⟩ "x" 3 none, .enqueue ⟨"q"⟩ "x" 1 none, .dequeue ⟨"q"⟩ none]

/-- Its computation fails. -/
def failedOnce : List Action := underway ++ [.complete ⟨"q"⟩ "x" (.failure "boom" ⟨5⟩) none]

theorem life_cycle_expired :
    ∃ s s', run? {} failedOnce = some s ∧ (∀ m ∈ moments {} failedOnce, m.Entitled "q") ∧
      Moment.Entitled "q" ⟨s, .tick ⟨5⟩⟩ ∧ s.step? (.tick ⟨5⟩) = some s' ∧
      (s.store.entry ⟨"q"⟩ "x").Shows s.now (.failed ⟨"boom", 5⟩) ∧
      s.store.Reports ⟨"q"⟩ "x" s.now (.failed ⟨"boom", 5⟩) ∧
      (s'.store.entry ⟨"q"⟩ "x").Shows s'.now .absent ∧
      ∃ cause, s.Brings (.tick ⟨5⟩) s' cause ∧
        (Status.Change "x" s'.now cause (.failed ⟨"boom", 5⟩) .absent ∨
          Status.Lapse "x" cause (.failed ⟨"boom", 5⟩) .absent) := by
  have hm : ∀ m ∈ moments {} failedOnce, m.Entitled "q" := by decide +kernel
  have hd : (run? {} failedOnce).any (fun s => (s.step? (.tick ⟨5⟩)).any fun s' =>
      decide (Moment.Entitled "q" ⟨s, .tick ⟨5⟩⟩) &&
        (decide ((s.store.entry ⟨"q"⟩ "x").Shows s.now (.failed ⟨"boom", 5⟩)) &&
          decide ((s'.store.entry ⟨"q"⟩ "x").Shows s'.now .absent))) = true := by
    decide +kernel
  obtain ⟨s, hr, hd⟩ := (Option.any_eq_true _ _).mp hd
  obtain ⟨s', hs, hd⟩ := (Option.any_eq_true _ _).mp hd
  simp only [Bool.and_eq_true, decide_eq_true_eq] at hd
  obtain ⟨ha, hst, hst'⟩ := hd
  obtain ⟨-, hreports, hchange⟩ := life_cycle hr hm "x"
  refine ⟨s, s', hr, hm, ha, hs, hst, hreports _ _ hst, hst', ?_⟩
  exact (hchange _ _ _ _ ha hs hst hst').resolve_left (by simp)

/-- The exception is needed: a claimed id whose failure is kept for no time at all is absent at
once. -/
theorem life_cycle_brief :
    ∃ s s', run? {} underway = some s ∧ (∀ m ∈ moments {} underway, m.Entitled "q") ∧
      Moment.Entitled "q" ⟨s, .complete ⟨"q"⟩ "x" (.failure "boom" ⟨0⟩) none⟩ ∧
      (Completion.failure "boom" ⟨0⟩).nameable s.now = true ∧
      s.step? (.complete ⟨"q"⟩ "x" (.failure "boom" ⟨0⟩) none) = some s' ∧
      (s.store.entry ⟨"q"⟩ "x").Shows s.now .claimed ∧
      (s'.store.entry ⟨"q"⟩ "x").Shows s'.now .absent ∧
      ∀ cause, ¬ Status.Change "x" s'.now cause .claimed .absent := by
  have hm : ∀ m ∈ moments {} underway, m.Entitled "q" := by decide +kernel
  have hd : (run? {} underway).any (fun s =>
      (s.step? (.complete ⟨"q"⟩ "x" (.failure "boom" ⟨0⟩) none)).any fun s' =>
        (decide (Moment.Entitled "q" ⟨s, .complete ⟨"q"⟩ "x" (.failure "boom" ⟨0⟩) none⟩) &&
          (Completion.failure "boom" ⟨0⟩).nameable s.now) &&
        (decide ((s.store.entry ⟨"q"⟩ "x").Shows s.now .claimed) &&
          decide ((s'.store.entry ⟨"q"⟩ "x").Shows s'.now .absent))) = true := by
    decide +kernel
  obtain ⟨s, hr, hd⟩ := (Option.any_eq_true _ _).mp hd
  obtain ⟨s', hs, hd⟩ := (Option.any_eq_true _ _).mp hd
  simp only [Bool.and_eq_true, decide_eq_true_eq] at hd
  obtain ⟨⟨ha, hn⟩, hst, hst'⟩ := hd
  exact ⟨s, s', hr, hm, ha, hn, hs, hst, hst', fun cause hc => by cases hc⟩

end System

end ReadThrough
