import ReadThrough.Proofs.System.Pausing

/-! # Every queued entry has a marker

Whoever puts an id into line leaves a marker.  A dequeue loop takes one and then claims an id; but
it also claims without one, and an id that moves up leaves another, so the two do not keep step.

* **Debts** (`System.owes`, `System.owing`).  A loop that has taken a marker owes a claim until it
  makes one, and it makes it next (`System.NearAt`).
* **The cover** (`System.Covers`, `Covers.step`).  There are never more ids in line than markers
  and debts.
* **At once** (`System.Finds`).  A loop that owes a claim makes it without any delay, and a wait
  that goes on while there are more ids than debts takes a marker before it could give up.
* `entries_marked`: so no id in line depends on the timeout of a wait. -/

namespace ReadThrough

/-- Whether an action stops a cache. -/
def Action.stops : Action → Bool
  | drop _ => true
  | shutdown _ => true
  | _ => false

/-- Whether the loop of cache `i` makes a claim with a moment. -/
def Moment.claims (m : Moment) (i : Nat) : Bool :=
  m.action.awaiter? = some (.loop i) &&
    (m.before.caches[i]?.bind Cache.pool).any fun p => p.loop = .claiming

/-- No call of a pool to the store fails, nobody stops a cache, and nobody but the loops takes a
marker of the queue `k`. -/
structure Moment.Undisputed (k : Keys) (m : Moment) : Prop where
  answered : m.action.pools = true → m.action.fault? = none
  unstopped : m.action.stops = false
  sole : m.returns? = some (k, true) → m.action.pools = true

instance (k : Keys) (m : Moment) : Decidable (m.Undisputed k) :=
  decidable_of_iff ((m.action.pools = true → m.action.fault? = none) ∧ m.action.stops = false ∧
      (m.returns? = some (k, true) → m.action.pools = true))
    ⟨fun ⟨ha, hu, hs⟩ => ⟨ha, hu, hs⟩, fun h => ⟨h.answered, h.unstopped, h.sole⟩⟩

/-! ### Counting places -/

/-- What is counted changes by what changes at one place. -/
theorem countP_range_of_eq {f g : Nat → Bool} {i n : Nat} (hi : i < n)
    (h : ∀ j, j ≠ i → g j = f j) :
    (List.range n).countP g + (f i).toNat = (List.range n).countP f + (g i).toNat := by
  have hone (b : Bool) : (if b = true then 1 else 0) = b.toNat := by cases b <;> rfl
  induction n with
  | zero => exact absurd hi (Nat.not_lt_zero i)
  | succ n ih =>
      simp only [List.range_succ, List.countP_append, List.countP_singleton, hone]
      rcases Nat.lt_succ_iff_lt_or_eq.mp hi with hlt | rfl
      · have := ih hlt
        rw [h n (Nat.ne_of_gt hlt)]
        omega
      · have hsame : (List.range i).countP g = (List.range i).countP f :=
          List.countP_congr fun j hj => by rw [h j (Nat.ne_of_lt (List.mem_range.mp hj))]
        omega

/-- Nothing is counted at new places where nothing is to be counted. -/
theorem countP_range_of_le {f : Nat → Bool} {n m : Nat} (h : n ≤ m)
    (hf : ∀ j, n ≤ j → f j = false) : (List.range m).countP f = (List.range n).countP f := by
  induction h with
  | refl => rfl
  | @step m hm ih => simp [List.range_succ, ih, hf m hm]

namespace System

variable {s s' t : System} {a : Action} {past : List Moment} {k : Keys} {i : Nat} {c : Cache}
  {p : Pool} {task : Claim}

/-! ### Debts -/

/-- Whether the loop of cache `i` owes a claim: since it made one last, its wait has taken a marker
of the queue `k`. -/
def owes (past : List Moment) (k : Keys) (i : Nat) : Bool :=
  (past.reverse.takeWhile fun m => !m.claims i).any fun m => m.Rouses i k

/-- The number of loops that owe a claim. -/
def owing (s : System) (past : List Moment) (k : Keys) : Nat :=
  (List.range s.caches.length).countP (owes past k)

theorem owes_concat (past : List Moment) (m : Moment) (k : Keys) (i : Nat) :
    owes (past ++ [m]) k i = (!m.claims i && (decide (m.Rouses i k) || owes past k i)) := by
  unfold owes
  rw [List.reverse_append, List.reverse_singleton, List.singleton_append, List.takeWhile_cons]
  cases m.claims i <;> simp

/-- The loop of cache `i` works on the queue `k` and is about to claim. -/
def NearAt (k : Keys) (i : Nat) (s : System) : Prop :=
  ∃ c p, s.caches[i]? = some c ∧ c.settings.keys = k ∧ c.pool = some p ∧ p.nears = true

theorem claims_iff (hc : s.caches[i]? = some c) (hp : c.pool = some p) :
    Moment.claims ⟨s, a⟩ i = true ↔ a.awaiter? = some (.loop i) ∧ p.loop = .claiming := by
  simp [Moment.claims, hc, hp]

/-- Only the step of a loop changes what it owes. -/
theorem owes_of_ne (ha : a.awaiter? ≠ some (.loop i)) :
    owes (past ++ [⟨s, a⟩]) k i = owes past k i := by
  have hr : ¬ Moment.Rouses ⟨s, a⟩ i k := fun h => ha h.1
  have hc : Moment.claims ⟨s, a⟩ i = false := by simp [Moment.claims, ha]
  rw [owes_concat, hc]
  simp [hr]

/-! ### Caches that nobody stops -/

/-- Nobody stops a cache. -/
structure Unstopped (s : System) : Prop where
  unclosed : s.closings = []
  unstopped : ∀ c ∈ s.caches, c.stopping = false

theorem unstopped_start : Unstopped {} := ⟨rfl, fun _ h => (List.not_mem_nil h).elim⟩

theorem Step.unstopped (h : Step s a s') (ha : a.stops = false) (hs : s.Unstopped) :
    s'.Unstopped := by
  have set {i : Nat} {c c' : Cache} (hc : s.caches[i]? = some c) (he : c'.stopping = c.stopping) :
      ∀ d ∈ s.caches.set i c', d.stopping = false := by
    intro d hd
    rcases List.mem_or_eq_of_mem_set hd with hd | rfl
    · exact hs.unstopped d hd
    · exact he.trans (hs.unstopped c (List.mem_of_getElem? hc))
  have append {d : Cache} (hd : d.stopping = false) :
      ∀ c ∈ s.caches ++ [d], c.stopping = false := by
    intro c hc
    rcases List.mem_append.mp hc with hc | hc
    · exact hs.unstopped c hc
    · exact List.mem_singleton.mp hc ▸ hd
  cases h with
  | notifier hc => exact ⟨hs.unclosed, set hc rfl⟩
  | loop hc => exact ⟨hs.unclosed, set hc rfl⟩
  | worker hc => exact ⟨hs.unclosed, set hc rfl⟩
  | call hx hc => exact ⟨hs.unclosed, set hc rfl⟩
  | cancel hx hc => exact ⟨hs.unclosed, set hc rfl⟩
  | closing hx =>
      rw [hs.unclosed] at hx
      cases hx
  | cancelClosing hx =>
      rw [hs.unclosed] at hx
      cases hx
  | openCache => exact ⟨hs.unclosed, append rfl⟩
  | openNotifier => exact ⟨hs.unclosed, append rfl⟩
  | drop => cases ha
  | shutdown => cases ha
  | watch hc => exact ⟨hs.unclosed, set hc rfl⟩
  | leave hc => exact ⟨hs.unclosed, set hc rfl⟩
  | release hc => exact ⟨hs.unclosed, set hc rfl⟩
  | _ => exact ⟨hs.unclosed, hs.unstopped⟩

/-! ### What a step does to the line and to a loop -/

/-- A step adds no more ids to the line than markers, and takes markers only for a wait that returns
with work. -/
theorem Step.size_le (h : Step s a s') (k : Keys) :
    (s'.store.queue k).backlog.size + (s.store.queue k).markers ≤
      (s.store.queue k).backlog.size + (s'.store.queue k).markers +
        (decide (Moment.returns? ⟨s, a⟩ = some (k, true))).toNat := by
  rcases h.does with hd | ⟨op, -, hd⟩
  · rw [hd]
    omega
  · by_cases hm : ∃ l, op = .takeMarker l
    · -- the markers go with the wait, and the line stays as it is
      obtain ⟨l, rfl⟩ := hm
      have hline : (s'.store.queue k).backlog = (s.store.queue k).backlog := by
        rw [hd]
        simp only [Store.Op.apply]
        cases ht : s.store.takeMarker l with
        | none => rfl
        | some store => exact Store.backlog_takeMarker ht k
      have hledger := h.ledger k
      rw [hline]
      omega
    · have hle := Store.size_apply_le (fun l he => hm ⟨l, he⟩) s.store s.now k
      rw [hd]
      omega

/-- The loop of a cache takes a step of its own. -/
theorem Step.of_loop (h : Step s a s') (ha : a.awaiter? = some (.loop i)) :
    ∃ fault c p p' store events, a = .loop i .advance fault ∧ s.caches[i]? = some c ∧
      c.pool = some p ∧ s'.store = store ∧
      s'.caches[i]? = some { c with pool := some p' } ∧
      Pool.LoopStep (s.context c fault) p s.store .advance p' store events := by
  obtain ⟨fault, rfl⟩ : ∃ fault, a = .loop i .advance fault := by
    cases a with
    | loop j m fault => cases m <;> simp_all [Action.awaiter?]
    | _ => cases ha
  cases h with
  | loop hc hp hl =>
      have hlt := (List.getElem?_eq_some_iff.mp hc).1
      exact ⟨_, _, _, _, _, _, rfl, hc, hp, rfl, List.getElem?_set_self hlt, hl⟩
  | outside ho => cases ho
  | denied ho => cases ho

/-- A claim takes an id out of the line, unless there is none. -/
theorem Step.size_of_claim (h : Step s a s') (hn : s.NearAt k i)
    (hm : Moment.claims ⟨s, a⟩ i = true) (hf : a.fault? = none) :
    (s'.store.queue k).markers = (s.store.queue k).markers ∧
      ((s'.store.queue k).backlog.size + 1 = (s.store.queue k).backlog.size ∨
        (s'.store.queue k).backlog.size = 0) := by
  obtain ⟨c, p, hc, rfl, hp, -⟩ := hn
  obtain ⟨ha, hl⟩ := (claims_iff hc hp).mp hm
  obtain ⟨fault, d, r, p', store, events, rfl, hd, hr, rfl, -, hs⟩ := h.of_loop ha
  obtain rfl := Option.some.inj (hc.symm.trans hd)
  obtain rfl := Option.some.inj (hp.symm.trans hr)
  obtain ⟨answer, hq⟩ := hs.of_claiming hl hf
  cases answer with
  | none =>
      obtain ⟨hs, hz⟩ := Store.dequeue_none hq
      exact ⟨by rw [hs], Or.inr (hs ▸ hz)⟩
  | some task =>
      have he := Store.ledger_dequeue hq
      simp only [Store.ledger, Prod.mk.injEq] at he
      exact ⟨he.2.1.symm, Or.inl he.1.symm⟩

/-- Whoever is about to claim stays so until it does. -/
theorem Step.nearAt (h : Step s a s') (hu : s.Unstopped) (hn : s.NearAt k i)
    (hm : Moment.claims ⟨s, a⟩ i = false) : s'.NearAt k i := by
  obtain ⟨c, p, hc, hk, hp, hnear⟩ := hn
  obtain ⟨c', p', hc', hp', hset, -, hl⟩ := h.loop_cases hc hp
  refine ⟨c', p', hc', (congrArg Settings.keys hset).trans hk, hp', ?_⟩
  rcases hl with ⟨hl, -⟩ | ⟨m, fault, events, rfl, hl⟩
  · simpa only [Pool.nears, hl] using hnear
  · refine hl.stays_near (hu.unstopped c (List.mem_of_getElem? hc)) hnear ?_
    rintro rfl hphase
    exact Bool.false_ne_true (hm.symm.trans ((claims_iff hc hp).mpr ⟨rfl, hphase⟩))

/-- A wait that returns was on. -/
theorem wait_of_returns {work : Bool} (h : Moment.returns? ⟨s, a⟩ = some (k, work)) :
    ∃ who w store, a.awaiter? = some who ∧ s.wait? who = some w ∧ w.keys = k ∧
      w.step? s.store s.now = some (.finished work, store) := by
  obtain ⟨who, ha, h⟩ := Option.bind_eq_some_iff.mp h
  obtain ⟨w, hw, h⟩ := Option.bind_eq_some_iff.mp h
  split at h
  · rename_i b store hstep
    obtain ⟨hk, rfl⟩ := Prod.mk.inj (Option.some.inj h)
    exact ⟨who, w, store, ha, hw, hk, hstep⟩
  · cases h

/-- The wait of a loop is the one that its pool stands in. -/
theorem exists_pool_of_wait {w : Wait} (h : s.wait? (.loop i) = some w) :
    ∃ c p, s.caches[i]? = some c ∧ c.pool = some p ∧ p.loop = .waiting w ∧
      s.post? (.loop i) = some c.post ∧ c.post.wait? = some w := by
  obtain ⟨x, hx, hw⟩ := Option.bind_eq_some_iff.mp h
  obtain ⟨c, hc, rfl⟩ := Option.map_eq_some_iff.mp hx
  obtain ⟨p, hp, hpw⟩ := Option.bind_eq_some_iff.mp hw
  exact ⟨c, p, hc, hp, Pool.wait?_eq_some.mp hpw, hx, hw⟩

/-- Whoever takes a marker was not about to claim, and is now. -/
theorem Step.near_of_rouses (h : Step s a s') (ht : s.OnTime past (.loop i))
    (hm : Moment.Rouses ⟨s, a⟩ i k) : ¬ s.NearAt k i ∧ s'.NearAt k i := by
  obtain ⟨ha, hreturn⟩ := hm
  obtain ⟨who, w, after, ha', hw, hk, hstep⟩ := wait_of_returns hreturn
  obtain rfl := Option.some.inj (ha.symm.trans ha')
  obtain ⟨c, p, hc, hp, hphase, hpost, hwait⟩ := exists_pool_of_wait hw
  obtain ⟨fault, d, r, p', store, events, rfl, hd, hr, rfl, hc', hl⟩ := h.of_loop ha
  obtain rfl := Option.some.inj (hc.symm.trans hd)
  obtain rfl := Option.some.inj (hp.symm.trans hr)
  obtain ⟨progress, hstep', hphase'⟩ := hl.of_waiting hphase
  obtain ⟨rfl, -⟩ := Prod.mk.inj (Option.some.inj (hstep.symm.trans hstep'))
  constructor
  · rintro ⟨d, r, hd, -, hr, hnear⟩
    obtain rfl := Option.some.inj (hc.symm.trans hd)
    obtain rfl := Option.some.inj (hp.symm.trans hr)
    simp [Pool.nears, hphase] at hnear
  · have hkeys : w.keys = c.settings.keys := (ht c.post w hpost hwait).1
    exact ⟨_, p', hc', hkeys.symm.trans hk, rfl, by simp [Pool.nears, hphase']⟩

/-- Whoever claims takes no marker. -/
theorem not_rouses_of_claims (hm : Moment.claims ⟨s, a⟩ i = true) :
    ¬ Moment.Rouses ⟨s, a⟩ i k := by
  rintro ⟨ha, hreturn⟩
  obtain ⟨who, w, after, ha', hw, -⟩ := wait_of_returns hreturn
  obtain rfl := Option.some.inj (ha.symm.trans ha')
  obtain ⟨c, p, hc, hp, hphase, -⟩ := exists_pool_of_wait hw
  exact nomatch hphase.symm.trans ((claims_iff hc hp).mp hm).2

/-! ### The cover -/

/-- `s.Covers past k`: after the moments `past`, the loops that owe a claim are about to make it,
and together with the markers they cover the line. -/
structure Covers (past : List Moment) (k : Keys) (s : System) : Prop where
  near : ∀ i, owes past k i = true → s.NearAt k i
  covered : s.store.Covered k (s.owing past k)

theorem covers_start (k : Keys) : Covers [] k {} where
  near _ h := nomatch h
  covered := Store.covered_empty k _

/-- There is no loop where there is no cache. -/
theorem Covers.owes_of_le (h : s.Covers past k) (hi : s.caches.length ≤ i) :
    owes past k i = false := by
  refine Bool.eq_false_iff.mpr fun ho => ?_
  obtain ⟨c, -, hc, -⟩ := h.near i ho
  rw [List.getElem?_eq_none_iff.mpr hi] at hc
  cases hc

/-- A step that is no step of a loop keeps all debts. -/
theorem Covers.owing_eq (h : s.Covers past k) (hs : Step s a s')
    (ha : ∀ i, a.awaiter? ≠ some (.loop i)) : s'.owing (past ++ [⟨s, a⟩]) k = s.owing past k := by
  have hsame : owes (past ++ [⟨s, a⟩]) k = owes past k := funext fun i => owes_of_ne (ha i)
  unfold owing
  rw [hsame]
  exact countP_range_of_le hs.caches_length_le fun _ hj => h.owes_of_le hj

/-- A step of a loop changes its own debt only. -/
theorem owing_of_loop (hs : Step s a s') (ha : a.awaiter? = some (.loop i)) :
    s'.owing (past ++ [⟨s, a⟩]) k + (owes past k i).toNat =
      s.owing past k + (owes (past ++ [⟨s, a⟩]) k i).toNat := by
  obtain ⟨fault, c, p, p', store, events, rfl, hc, -⟩ := hs.of_loop ha
  have hlen : s'.caches.length = s.caches.length := by
    cases hs with
    | loop => exact List.length_set
    | outside ho => cases ho
    | denied ho => cases ho
  unfold owing
  rw [hlen]
  refine countP_range_of_eq (List.getElem?_eq_some_iff.mp hc).1 fun j hj => owes_of_ne ?_
  simpa [Action.awaiter?] using Ne.symm hj

/-- Markers and debts cover the line after a step that is no step of a loop. -/
theorem Covers.covered_rest (hs : s.Covers past k) (h : Step s a s')
    (hm : Moment.Undisputed k ⟨s, a⟩) (hl : ∀ i, a.awaiter? ≠ some (.loop i)) :
    s'.store.Covered k (s'.owing (past ++ [⟨s, a⟩]) k) := by
  have hnone : Moment.returns? ⟨s, a⟩ ≠ some (k, true) := by
    intro hr
    obtain ⟨who, -, -, ha, -⟩ := wait_of_returns hr
    have hp := hm.sole hr
    cases a with
    | loop i m fault =>
        cases m with
        | stop => cases ha
        | advance => exact hl i rfl
    | seeker => cases hp
    | _ => cases ha
  have hsize := h.size_le k
  have hcov : (s.store.queue k).backlog.size ≤ (s.store.queue k).markers + s.owing past k :=
    hs.covered
  rw [hs.owing_eq h hl]
  show (s'.store.queue k).backlog.size ≤ (s'.store.queue k).markers + s.owing past k
  simp only [hnone, decide_false, Bool.toNat_false] at hsize
  omega

/-- They do so after a step of a loop: the marker that it takes becomes a debt, and the claim that
settles a debt takes an id out of the line. -/
theorem Covers.covered_loop (hs : s.Covers past k) (h : Step s a s')
    (hm : Moment.Undisputed k ⟨s, a⟩) (ht : s.OnTime past (.loop i))
    (ha : a.awaiter? = some (.loop i)) :
    s'.store.Covered k (s'.owing (past ++ [⟨s, a⟩]) k) := by
  have hsize := h.size_le k
  have howe : s'.owing (past ++ [⟨s, a⟩]) k + (owes past k i).toNat =
      s.owing past k + (owes (past ++ [⟨s, a⟩]) k i).toNat := owing_of_loop h ha
  have hcov : (s.store.queue k).backlog.size ≤ (s.store.queue k).markers + s.owing past k :=
    hs.covered
  show (s'.store.queue k).backlog.size ≤
    (s'.store.queue k).markers + s'.owing (past ++ [⟨s, a⟩]) k
  have hrouse : Moment.returns? ⟨s, a⟩ = some (k, true) ↔ Moment.Rouses ⟨s, a⟩ i k :=
    ⟨fun hr => ⟨ha, hr⟩, fun hr => hr.2⟩
  rw [owes_concat] at howe
  simp only [hrouse] at hsize
  cases hc : Moment.claims ⟨s, a⟩ i with
  | true =>
      simp only [not_rouses_of_claims hc, decide_false, Bool.toNat_false] at hsize
      simp only [hc, Bool.not_true, Bool.false_and, Bool.toNat_false] at howe
      cases ho : owes past k i with
      | false =>
          simp only [ho, Bool.toNat_false] at howe
          omega
      | true =>
          obtain ⟨fault, -, -, -, -, -, rfl, -⟩ := h.of_loop ha
          have hclaim := h.size_of_claim (hs.near i ho) hc (hm.answered rfl)
          simp only [ho, Bool.toNat_true] at howe
          omega
  | false =>
      simp only [hc, Bool.not_false, Bool.true_and] at howe
      by_cases hr : Moment.Rouses ⟨s, a⟩ i k
      · have ho : owes past k i = false :=
          Bool.eq_false_iff.mpr fun ho => (h.near_of_rouses ht hr).1 (hs.near i ho)
        simp only [hr, decide_true, Bool.toNat_true] at hsize
        simp only [hr, ho, decide_true, Bool.true_or, Bool.toNat_true, Bool.toNat_false] at howe
        omega
      · simp only [hr, decide_false, Bool.toNat_false] at hsize
        simp only [hr, decide_false, Bool.false_or] at howe
        omega

theorem Covers.step (hs : s.Covers past k) (h : Step s a s') (hm : Moment.Undisputed k ⟨s, a⟩)
    (hu : s.Unstopped) (ht : ∀ i, s.OnTime past (.loop i)) : s'.Covers (past ++ [⟨s, a⟩]) k := by
  constructor
  · intro i ho
    rw [owes_concat] at ho
    simp only [Bool.and_eq_true, Bool.not_eq_true', Bool.or_eq_true, decide_eq_true_eq] at ho
    obtain ⟨hc, hr | ho⟩ := ho
    · exact (h.near_of_rouses (ht i) hr).2
    · exact h.nearAt hu (hs.near i ho) hc
  · by_cases hl : ∃ i, a.awaiter? = some (.loop i)
    · obtain ⟨i, ha⟩ := hl
      exact hs.covered_loop h hm (ht i) ha
    · exact hs.covered_rest h hm fun i ha => hl ⟨i, ha⟩

theorem run_covers {as : List Action} (hr : run? {} as = some s)
    (hm : ∀ m ∈ moments {} as, m.Undisputed k) :
    s.Unstopped ∧ s.Covers (moments {} as) k := by
  have hrun := run_induction_step? (s := {})
    (P := fun past u => u.Unstopped ∧ (∀ i, u.OnTime past (.loop i)) ∧ u.Covers past k)
    ⟨unstopped_start, fun i => onTime_start (.loop i), covers_start k⟩
    (fun past u a u' ⟨hu, ht, hc⟩ hm h =>
      ⟨(step_of h).unstopped hm.unstopped hu, fun i => step?_onTime h (ht i),
        hc.step (step_of h) hm hu ht⟩) hm hr
  exact ⟨hrun.1, hrun.2.2⟩

/-! ### At once -/

/-- By its own steps, while no time passes and no wait gives up, the loop of cache `i` comes to
claim `task`. -/
def Finds (i : Nat) (task : Claim) (s : System) : Prop :=
  ∃ n t c p, s.run? (List.replicate n (.loop i .advance none)) = some t ∧ t.now = s.now ∧
    (∀ m ∈ s.moments (List.replicate n (.loop i .advance none)), ∀ k,
      m.returns? ≠ some (k, false)) ∧
    t.caches[i]? = some c ∧ c.pool = some p ∧ p.loop = .sending task

theorem finds_of_sending (hc : s.caches[i]? = some c) (hp : c.pool = some p)
    (hl : p.loop = .sending task) : s.Finds i task :=
  ⟨0, s, c, p, rfl, rfl, fun _ hm => (List.not_mem_nil hm).elim, hc, hp, hl⟩

theorem Finds.of_step (h : s.step? (.loop i .advance none) = some s') (hn : s'.now = s.now)
    (hr : ∀ k, Moment.returns? ⟨s, .loop i .advance none⟩ ≠ some (k, false))
    (hf : s'.Finds i task) : s.Finds i task := by
  obtain ⟨n, t, c, p, hrun, hnow, hm, hc, hp, hl⟩ := hf
  refine ⟨n + 1, t, c, p, ?_, hnow.trans hn, fun m hm' => ?_, hc, hp, hl⟩
  · rw [List.replicate_succ]
    simpa only [run?, h, Option.bind_some] using hrun
  · rw [List.replicate_succ] at hm'
    simp only [moments, h] at hm'
    rcases List.mem_cons.mp hm' with rfl | hm'
    · exact hr
    · exact hm m hm'

/-- Whoever does not wait does not give up. -/
theorem returns?_of_loop (hc : s.caches[i]? = some c) (hp : c.pool = some p)
    (hl : ∀ w, p.loop ≠ .waiting w) : Moment.returns? ⟨s, .loop i .advance none⟩ = none := by
  refine Option.eq_none_iff_forall_ne_some.mpr fun ⟨k, work⟩ hr => ?_
  obtain ⟨who, w, -, ha, hw, -⟩ := wait_of_returns hr
  obtain rfl := Option.some.inj ha
  obtain ⟨d, r, hd, hr, hphase, -⟩ := exists_pool_of_wait hw
  obtain rfl := Option.some.inj (hc.symm.trans hd)
  obtain rfl := Option.some.inj (hp.symm.trans hr)
  exact hl w hphase

/-- A loop that claims gets the id that is first in line. -/
theorem finds_of_claiming {rest : Backlog} (hc : s.caches[i]? = some c) (hp : c.pool = some p)
    (hl : p.loop = .claiming)
    (hq : (s.store.queue c.settings.keys).backlog.pop? = some (task, rest)) : s.Finds i task := by
  obtain ⟨store, hd⟩ : ∃ store, s.store.dequeue c.settings.keys = (some task, store) := by
    simp [Store.dequeue, hq]
  obtain ⟨s', h, hn, -, hc'⟩ := exists_step_of_loop hc hp (.claim hl rfl hd)
  refine Finds.of_step h hn ?_ (finds_of_sending hc' rfl rfl)
  simp [returns?_of_loop hc hp (by simp [hl])]

/-- A loop that is about to claim does so at once. -/
theorem finds_of_near {rest : Backlog} (hu : s.Unstopped) (hn : s.NearAt k i)
    (hq : (s.store.queue k).backlog.pop? = some (task, rest)) : s.Finds i task := by
  obtain ⟨c, p, hc, rfl, hp, hnear⟩ := hn
  have hphase : p.loop = .checking ∨ p.loop = .claiming := by simpa [Pool.nears] using hnear
  rcases hphase with hl | hl
  · have hstop := hu.unstopped c (List.mem_of_getElem? hc)
    obtain ⟨s', h, hnow, hstore, hc'⟩ := exists_step_of_loop hc hp (.proceed hl hstop)
    refine Finds.of_step h hnow ?_ (finds_of_claiming hc' rfl rfl (hstore ▸ hq))
    simp [returns?_of_loop hc hp (by simp [hl])]
  · exact finds_of_claiming hc hp hl hq

/-- A loop whose wait is fresh finds the marker that is left. -/
theorem finds_of_waiting {w : Wait} {rest : Backlog} (hu : s.Unstopped)
    (hc : s.caches[i]? = some c) (hk : c.settings.keys = k) (hp : c.pool = some p)
    (hl : p.loop = .waiting w) (hw : w.keys = k) (hf : w.Fresh s.store)
    (hm : (s.store.queue k).markers ≠ 0)
    (hq : (s.store.queue k).backlog.pop? = some (task, rest)) : s.Finds i task := by
  -- every step brings the wait closer to the marker
  induction hn : w.laps s.store using Nat.strongRecOn generalizing s c p w with
  | _ n ih =>
      subst hn
      have hmark : (s.store.queue w.keys).markers ≠ 0 := by rwa [hw]
      have hpost : s.wait? (.loop i) = some w := by
        simp [wait?, post?, hc, Cache.post, hp, Pool.wait?, hl]
      cases hs : w.step? s.store s.now with
      | none => exact absurd (hf.blocked hs).1 hmark
      | some next =>
          obtain ⟨progress, store⟩ := next
          rcases Wait.step_cases hs with ⟨w', rfl, rfl, hk', -, hlaps⟩ | ⟨rfl, ht⟩ | ⟨rfl, -, -⟩
          · obtain ⟨s', h, hnow, hstore, hc'⟩ := exists_step_of_loop hc hp (.wait hl hs)
            refine Finds.of_step h hnow ?_ ?_
            · simp [Moment.returns?, Action.awaiter?, hpost, hs]
            · obtain ⟨-, -, hf'⟩ := hf.step hs
              exact ih _ hlaps ((step_of h).unstopped rfl hu) hc' hk rfl rfl (hk'.trans hw)
                (hstore ▸ hf') (hstore ▸ hm) (hstore ▸ hq) (by rw [hstore])
          · obtain ⟨s', h, hnow, hstore, hc'⟩ := exists_step_of_loop hc hp (.waited hl hs)
            refine Finds.of_step h hnow ?_ ?_
            · simp [Moment.returns?, Action.awaiter?, hpost, hs]
            · have hline : (s'.store.queue k).backlog.pop? = some (task, rest) := by
                rwa [hstore, Store.backlog_takeMarker ht]
              exact finds_of_near ((step_of h).unstopped rfl hu) ⟨_, _, hc', hk, rfl, rfl⟩ hline
          · exact absurd (hf.in_vain hs) hmark

/-- **Every queued entry has a marker.**  Let any number of loops share the queue `k`, let no call
of a pool to the store fail, nobody stop a cache, and nobody else take a marker of the queue.  Then
in every state of every run:

* There are no more ids in line than there are markers left and loops that owe a claim.
* A wait that gives up at its timeout leaves no more ids in line than there are such loops.
* A loop that owes a claim gets the id that is first in line, if there is one, by its own steps and
  without any delay.  So does a loop that waits, however soundly it sleeps, if there are more ids
  than debts; no wait gives up on the way. -/
theorem entries_marked {as : List Action} (hr : run? {} as = some s)
    (hm : ∀ m ∈ moments {} as, m.Undisputed k) :
    (s.store.queue k).backlog.size ≤ (s.store.queue k).markers + s.owing (moments {} as) k ∧
      (∀ a, Moment.returns? ⟨s, a⟩ = some (k, false) →
        (s.store.queue k).backlog.size ≤ s.owing (moments {} as) k) ∧
      ∀ i task rest, (s.store.queue k).backlog.pop? = some (task, rest) →
        (owes (moments {} as) k i = true ∨
          (∃ w, s.wait? (.loop i) = some w ∧ w.keys = k) ∧
            s.owing (moments {} as) k < (s.store.queue k).backlog.size) →
        s.Finds i task := by
  obtain ⟨hu, hc⟩ := run_covers hr hm
  have hcov : (s.store.queue k).backlog.size ≤
      (s.store.queue k).markers + s.owing (moments {} as) k := hc.covered
  refine ⟨hcov, fun a hret => ?_, fun i task rest hq ho => ?_⟩
  · obtain ⟨who, w, store, -, hw, rfl, hstep⟩ := wait_of_returns hret
    obtain ⟨x, hx, hxw⟩ := Option.bind_eq_some_iff.mp hw
    have hzero := (run_onTime hr who x w hx hxw).2.1.in_vain hstep
    omega
  · rcases ho with ho | ⟨⟨w, hw, rfl⟩, hlt⟩
    · exact finds_of_near hu (hc.near i ho) hq
    · obtain ⟨c, p, hcache, hp, hl, hx, hxw⟩ := exists_pool_of_wait hw
      obtain ⟨hk, hf, -⟩ := run_onTime hr (.loop i) c.post w hx hxw
      exact finds_of_waiting hu hcache hk.symm hp hl rfl hf (by omega) hq

/-- Two loops sleep when two ids are queued; the first one has taken a marker and owes a claim. -/
def shared : List Action :=
  List.flatten [
    [.openCache { queue := "q", workers := 1 } true none,
      .openCache { queue := "q", workers := 1 } true none],
    .replicate 4 (.loop 0 .advance none), .replicate 4 (.loop 1 .advance none),
    [.enqueue ⟨"q"⟩ "x" 3 none, .enqueue ⟨"q"⟩ "y" 2 none], .replicate 3 (.loop 0 .advance none)]

theorem entries_marked_shared :
    ∃ s, run? {} shared = some s ∧ (∀ m ∈ moments {} shared, m.Undisputed ⟨"q"⟩) ∧
      (s.store.queue ⟨"q"⟩).backlog.size = 2 ∧ (s.store.queue ⟨"q"⟩).markers = 1 ∧
      s.owing (moments {} shared) ⟨"q"⟩ = 1 ∧ 2 ≤ 1 + s.owing (moments {} shared) ⟨"q"⟩ ∧
      owes (moments {} shared) ⟨"q"⟩ 0 = true ∧ owes (moments {} shared) ⟨"q"⟩ 1 = false ∧
      s.wait? (.loop 1) = some ⟨⟨"q"⟩, 1000000000, .asleep 0⟩ ∧
      s.Finds 0 ⟨"y", 2, 1⟩ ∧ s.Finds 1 ⟨"y", 2, 1⟩ := by
  have hm : ∀ m ∈ moments {} shared, m.Undisputed ⟨"q"⟩ := by decide +kernel
  have howes : owes (moments {} shared) ⟨"q"⟩ 0 = true ∧
      owes (moments {} shared) ⟨"q"⟩ 1 = false := by decide +kernel
  have hd : (run? {} shared).any (fun s =>
      ((s.store.queue ⟨"q"⟩).backlog.size = 2 && (s.store.queue ⟨"q"⟩).markers = 1) &&
        (s.owing (moments {} shared) ⟨"q"⟩ = 1 &&
          (s.wait? (.loop 1) = some ⟨⟨"q"⟩, 1000000000, .asleep 0⟩ &&
            (s.store.queue ⟨"q"⟩).backlog.pop?.map Prod.fst = some ⟨"y", 2, 1⟩))) = true := by
    decide +kernel
  obtain ⟨s, hr, hd⟩ := (Option.any_eq_true _ _).mp hd
  simp only [Bool.and_eq_true, decide_eq_true_eq] at hd
  obtain ⟨⟨hsize, hmarkers⟩, howing, hwait, hline⟩ := hd
  obtain ⟨⟨task, rest⟩, hline, rfl⟩ := Option.map_eq_some_iff.mp hline
  obtain ⟨hcov, -, hfinds⟩ := entries_marked hr hm
  rw [hsize, hmarkers] at hcov
  have hlt : s.owing (moments {} shared) ⟨"q"⟩ < (s.store.queue ⟨"q"⟩).backlog.size := by omega
  exact ⟨s, hr, hm, hsize, hmarkers, howing, hcov, howes.1, howes.2, hwait,
    hfinds 0 _ _ hline (Or.inl howes.1), hfinds 1 _ _ hline (Or.inr ⟨⟨_, hwait, rfl⟩, hlt⟩)⟩

end System

end ReadThrough
