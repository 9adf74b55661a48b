import ReadThrough.Proofs.System.Markers
import ReadThrough.Proofs.System.Pools

/-! # Pauses of the dequeue loop

A dequeue loop asks the store to wait for work and to claim.  Either may fail.

* **Rest** (`Pool.Rests`).  After a failure the loop pauses or waits, and it does not claim before
  the pause is over, unless its wait takes a marker (`Pool.LoopStep.rests`, `run_rests`).
* **Left markers.**  A wait that is cut short takes a marker, and without new work there are only
  those that were left when the call failed (`run_unmarked`).
* `pauses_iff`: so the loop pauses after a failed wait, and after a failed claim it pauses exactly
  if no marker was left; otherwise it may claim again at once (`exists_run_of_failed_claim`). -/

namespace ReadThrough

/-! ### The loop of one pool -/

namespace Pool

/-- Whether the next step of the loop asks the store to wait for work or to claim. -/
def asks (p : Pool) : Bool := p.loop = .claiming || p.loop = .holding && !p.hasMore

/-- The loop does not claim before the time `T`.  In a light rest it waits, and a marker of the
queue `k` may rouse it. -/
def Rests (light : Bool) (k : Keys) (T : Instant) (p : Pool) : Prop :=
  match p.loop with
  | .holding => p.hasMore = false ∧ (light = true ∨ Instant.last < T)
  | .waiting w => light = true ∧ w.keys = k ∧ T ≤ w.deadline
  | .pausing until? => ∀ t ∈ until?, T ≤ t
  | .stopped => True
  | .crashed => True
  | _ => False

variable {c : Context} {p p' : Pool} {s s' : Store} {m : LoopMove} {events : List Event}
  {light : Bool} {k : Keys} {T : Instant}

theorem rests_of_ended (h : p.loop.ended = true) : p.Rests light k T := by
  unfold Rests
  cases hl : p.loop <;> simp_all [LoopPhase.ended]

/-- After a failed wait the loop pauses, and after a failed claim it waits next. -/
theorem LoopStep.of_fault {e : Error} (h : LoopStep c p s .advance p' s' events)
    (ha : p.asks = true) (hf : c.fault = some e) :
    s' = s ∧
      (p.loop = .holding ∧
          p' = { p with loop := .pausing (c.now.deadline c.settings.pollTimeout) } ∨
        p.loop = .claiming ∧ p' = { p with loop := .holding, hasMore := false }) := by
  have none_of (hn : c.fault = none) : False := nomatch hn.symm.trans hf
  cases h with
  | failWait hl hm _ => exact ⟨rfl, Or.inl ⟨hl, rfl⟩⟩
  | failClaim hl _ => exact ⟨rfl, Or.inr ⟨hl, rfl⟩⟩
  | skip hl hm => simp [asks, hl, hm] at ha
  | startWait _ _ hn => exact (none_of hn).elim
  | crash _ _ hn => exact (none_of hn).elim
  | claimNothing _ hn => exact (none_of hn).elim
  | claim _ hn => exact (none_of hn).elim
  | acquire hl => simp [asks, hl] at ha
  | wait hl => simp [asks, hl] at ha
  | waited hl => simp [asks, hl] at ha
  | resume hl => simp [asks, hl] at ha
  | quit hl => simp [asks, hl] at ha
  | proceed hl => simp [asks, hl] at ha
  | strand hl => simp [asks, hl] at ha
  | send hl => simp [asks, hl] at ha

/-- A loop at rest stays at rest until the time has come, or until its wait takes a marker. -/
theorem LoopStep.rests (h : LoopStep c p s m p' s' events) (hk : c.settings.keys = k)
    (hT : T ≤ c.now + c.settings.pollTimeout.nanos) (hr : p.Rests light k T) :
    p'.Rests light k T ∨ T ≤ c.now ∨
      light = true ∧ m = .advance ∧ ∃ w, p.wait? = some w ∧ w.keys = k ∧
        w.step? s c.now = some (.finished true, s') := by
  have ends {t : Instant} (hd : c.now.after? c.settings.pollTimeout = some t) :
      T ≤ t ∧ T ≤ Instant.last := by
    obtain ⟨hle, hd⟩ := Option.ite_none_right_eq_some.mp hd
    exact ⟨Option.some.inj hd ▸ hT, Nat.le_trans hT hle⟩
  cases h with
  | stop hs hl => exact Or.inl (rests_of_ended rfl)
  | skip hl hm => simp [Rests, hl, hm] at hr
  | failWait hl hm hf => exact Or.inl fun t ht => (ends ht).1
  | startWait hl hm hf hw =>
      simp only [Rests, hl] at hr
      obtain ⟨d, hd, rfl⟩ := Option.map_eq_some_iff.mp hw
      obtain ⟨hle, hlast⟩ := ends hd
      exact Or.inl ⟨hr.2.resolve_right (Nat.not_lt.mpr hlast), hk, hle⟩
  | crash hl hm hf hw => exact Or.inl (rests_of_ended rfl)
  | @wait w w' _ hl hw =>
      simp only [Rests, hl] at hr
      rcases Wait.step_cases hw with ⟨v, hv, -, hk', hd, -⟩ | ⟨hv, -⟩ | ⟨hv, -⟩
      · injection hv with hv
        subst hv
        exact Or.inl ⟨hr.1, hk'.trans hr.2.1, hd ▸ hr.2.2⟩
      · cases hv
      · cases hv
  | @waited w work _ hl hw =>
      simp only [Rests, hl] at hr
      rcases Wait.step_cases hw with ⟨v, hv, -⟩ | ⟨hv, -⟩ | ⟨hv, -, hd⟩
      · cases hv
      · exact Or.inr (Or.inr ⟨hr.1, rfl, w, wait?_eq_some.mpr hl, hr.2.1, hv ▸ hw⟩)
      · exact Or.inr (Or.inl (Nat.le_trans hr.2.2 hd))
  | @resume t hl ht =>
      simp only [Rests, hl] at hr
      exact Or.inr (Or.inl (Nat.le_trans (hr t rfl) ht))
  | _ => simp_all [Rests]

end Pool

/-! ### The loop of a cache -/

/-- The wait of the loop of cache `i` takes a marker of the queue `k` with a moment. -/
def Moment.Rouses (m : Moment) (i : Nat) (k : Keys) : Prop :=
  m.action.awaiter? = some (.loop i) ∧ m.returns? = some (k, true)

instance (m : Moment) (i : Nat) (k : Keys) : Decidable (m.Rouses i k) :=
  inferInstanceAs (Decidable (_ ∧ _))

namespace System

variable {s s' t : System} {a : Action} {i : Nat} {settings : Settings} {T : Instant} {k : Keys}
  {light : Bool} {c : Cache} {p p' : Pool}

/-- The loop of cache `i` is about to claim, and no stop signal is raised. -/
def Claims (i : Nat) (s : System) : Prop :=
  ∃ c p, s.caches[i]? = some c ∧ c.stopping = false ∧ c.pool = some p ∧ p.loop = .claiming

/-- The loop of cache `i` rests until the time `T`, or the stop signal is raised. -/
def RestsAt (light : Bool) (i : Nat) (settings : Settings) (T : Instant) (s : System) : Prop :=
  ∃ c p, s.caches[i]? = some c ∧ c.pool = some p ∧ c.settings = settings ∧
    (c.stopping = true ∨ p.Rests light settings.keys T)

/-- Whoever rests does not claim. -/
theorem RestsAt.not_claims (h : s.RestsAt light i settings T) : ¬ s.Claims i := by
  rintro ⟨c, p, hc, hs, hp, hl⟩
  obtain ⟨c', p', hc', hp', -, hr⟩ := h
  obtain rfl := Option.some.inj (hc.symm.trans hc')
  obtain rfl := Option.some.inj (hp.symm.trans hp')
  rcases hr with hr | hr
  · exact Bool.false_ne_true (hs.symm.trans hr)
  · simp [Pool.Rests, hl] at hr

theorem Step.restsAt (h : Step s a s') (hT : T ≤ s.now + settings.pollTimeout.nanos)
    (hr : s.RestsAt light i settings T) :
    s'.RestsAt light i settings T ∨ T ≤ s.now ∨
      light = true ∧ Moment.Rouses ⟨s, a⟩ i settings.keys := by
  obtain ⟨c, p, hc, hp, rfl, hr⟩ := hr
  obtain ⟨c', p', hc', hp', hset, hstop, hl⟩ := h.loop_cases hc hp
  rcases hr with hr | hr
  · exact Or.inl ⟨c', p', hc', hp', hset, Or.inl (hstop hr)⟩
  · rcases hl with ⟨hl, hm⟩ | ⟨m, fault, events, rfl, hl⟩
    · refine Or.inl ⟨c', p', hc', hp', hset, Or.inr ?_⟩
      simpa only [Pool.Rests, hl, hm] using hr
    · rcases hl.rests rfl hT hr with hr | ht | ⟨hlight, rfl, w, hw, hk, hs⟩
      · exact Or.inl ⟨c', p', hc', hp', hset, Or.inr hr⟩
      · exact Or.inr (Or.inl ht)
      · refine Or.inr (Or.inr ⟨hlight, rfl, ?_⟩)
        have hwait : s.wait? (.loop i) = some w := by simp [wait?, post?, hc, Cache.post, hp, hw]
        have hk : w.keys = c.settings.keys := hk
        have hs : w.step? s.store s.now = some (.finished true, s'.store) := hs
        simp [Moment.returns?, Action.awaiter?, hwait, hs, hk]

/-- A loop at rest stays at rest until the time has come or it is roused. -/
theorem run_rests {bs : List Action} (hr : s.RestsAt light i settings T)
    (hT : T ≤ s.now + settings.pollTimeout.nanos) (hrun : s.run? bs = some t) :
    t.RestsAt light i settings T ∨ T ≤ t.now ∨
      light = true ∧ ∃ m ∈ s.moments bs, m.Rouses i settings.keys := by
  have start : s.now ≤ s.now ∧ (s.RestsAt light i settings T ∨ T ≤ s.now ∨
      light = true ∧ ∃ m ∈ ([] : List Moment), m.Rouses i settings.keys) :=
    ⟨Nat.le_refl _, Or.inl hr⟩
  refine (run_induction (P := fun past u => s.now ≤ u.now ∧
    (u.RestsAt light i settings T ∨ T ≤ u.now ∨
      light = true ∧ ∃ m ∈ past, m.Rouses i settings.keys)) (A := fun _ => True) start ?_
    (fun _ _ => trivial) hrun).2
  rintro past u a u' ⟨hle, hu⟩ _ h
  refine ⟨Nat.le_trans hle h.now_le, ?_⟩
  rcases hu with hu | hu | ⟨hlight, m, hm, hro⟩
  · rcases h.restsAt (Nat.le_trans hT (Nat.add_le_add_right hle _)) hu with hu | ht | ⟨hlight, hro⟩
    · exact Or.inl hu
    · exact Or.inr (Or.inl (Nat.le_trans ht h.now_le))
    · exact Or.inr (Or.inr ⟨hlight, _, List.mem_append_right _ List.mem_cons_self, hro⟩)
  · exact Or.inr (Or.inl (Nat.le_trans hu h.now_le))
  · exact Or.inr (Or.inr ⟨hlight, m, List.mem_append_left _ hm, hro⟩)

/-- Without new work nobody who waits finds a marker where none is left. -/
theorem run_unmarked {bs : List Action} (hz : (s.store.queue k).markers = 0)
    (hn : ∀ m ∈ s.moments bs, m.raises k = false) (hrun : s.run? bs = some t) :
    ∀ m ∈ s.moments bs, m.returns? ≠ some (k, true) := by
  have start : (s.store.queue k).markers = 0 ∧
      ∀ m ∈ ([] : List Moment), m.returns? ≠ some (k, true) :=
    ⟨hz, fun _ hm => (List.not_mem_nil hm).elim⟩
  refine (run_induction (P := fun past u => (u.store.queue k).markers = 0 ∧
    ∀ m ∈ past, m.returns? ≠ some (k, true)) (A := fun m => m.raises k = false) start ?_
    hn hrun).2
  rintro past u a u' ⟨hz, hu⟩ hraise h
  have hl := h.ledger k
  rw [hz, hraise] at hl
  have hnone : Moment.returns? ⟨u, a⟩ ≠ some (k, true) := by
    intro he
    simp [he] at hl
  refine ⟨by simp [hnone] at hl; exact hl, fun m hm => ?_⟩
  rcases List.mem_append.mp hm with hm | hm
  · exact hu m hm
  · exact List.mem_singleton.mp hm ▸ hnone

/-! ### At once -/

/-- The loop of a cache can take each of its steps. -/
theorem exists_step_of_loop {store : Store} {events : List Event} (hc : s.caches[i]? = some c)
    (hp : c.pool = some p)
    (h : Pool.LoopStep (s.context c none) p s.store .advance p' store events) :
    ∃ s', s.step? (.loop i .advance none) = some s' ∧ s'.now = s.now ∧ s'.store = store ∧
      s'.caches[i]? = some { c with pool := some p' } := by
  have hstep : s.step? (.loop i .advance none) =
      some ({ (s.setCache i { c with pool := some p' }) with store }.note events) := by
    simp only [step?, hc, hp, Option.bind_eq_bind, Option.bind_some, h.stepLoop?]
  exact ⟨_, hstep, rfl, rfl, List.getElem?_set_self (List.getElem?_eq_some_iff.mp hc).1⟩

/-- A loop that is about to wait may claim at once if there is a marker. -/
theorem exists_run_retry {w : Wait} (hc : s.caches[i]? = some c) (hp : c.pool = some p)
    (hs : c.stopping = false) (hl : p.loop = .holding) (hm : p.hasMore = false)
    (hw : Wait.start? c.settings.keys c.settings.pollTimeout s.now = some w)
    (hk : (s.store.queue c.settings.keys).markers ≠ 0) :
    ∃ bs t, s.run? bs = some t ∧ t.now = s.now ∧ t.Claims i ∧
      ∀ m ∈ s.moments bs, m.raises c.settings.keys = false := by
  obtain ⟨d, -, rfl⟩ := Option.map_eq_some_iff.mp hw
  obtain ⟨store, hstore⟩ : ∃ store, s.store.takeMarker c.settings.keys = some store :=
    ⟨_, if_neg hk⟩
  obtain ⟨s₁, h₁, hn₁, hs₁, hc₁⟩ := exists_step_of_loop hc hp (.startWait hl hm rfl hw)
  obtain ⟨s₂, h₂, hn₂, hs₂, hc₂⟩ := exists_step_of_loop hc₁ rfl (.wait rfl rfl)
  have htake : s₂.store.takeMarker c.settings.keys = some store := by rw [hs₂, hs₁, hstore]
  have hfound : Wait.step? ⟨c.settings.keys, d, .looking s₁.store.signals⟩ s₂.store s₂.now =
      some (.finished true, store) := by simp [Wait.step?, htake]
  obtain ⟨s₃, h₃, hn₃, -, hc₃⟩ := exists_step_of_loop hc₂ rfl (.waited rfl hfound)
  obtain ⟨s₄, h₄, hn₄, -, hc₄⟩ := exists_step_of_loop hc₃ rfl (.proceed rfl hs)
  refine ⟨List.replicate 4 (.loop i .advance none), s₄, ?_, ?_, ⟨_, _, hc₄, hs, rfl, rfl⟩, ?_⟩
  · simp [List.replicate, run?, h₁, h₂, h₃, h₄]
  · rw [hn₄, hn₃, hn₂, hn₁]
  · intro m hm
    have ha := List.eq_of_mem_replicate (action_mem_of_mem_moments hm)
    have hw : m.action.awaiter? = some (.loop i) := by rw [ha]; rfl
    exact raises_of_awaiter hw _

/-! ### Every loop can pause -/

/-- All caches wait for some time. -/
theorem Step.paced (h : Step s a s') (hs : ∀ c ∈ s.caches, 0 < c.settings.pollTimeout.nanos) :
    ∀ c ∈ s'.caches, 0 < c.settings.pollTimeout.nanos := by
  have set {j : Nat} {d d' : Cache} (hd : s.caches[j]? = some d) (he : d'.settings = d.settings) :
      ∀ c ∈ s.caches.set j d', 0 < c.settings.pollTimeout.nanos := by
    intro c hc
    rcases List.mem_or_eq_of_mem_set hc with hc | rfl
    · exact hs c hc
    · exact he ▸ hs d (List.mem_of_getElem? hd)
  have append {d : Cache} (hd : 0 < d.settings.pollTimeout.nanos) :
      ∀ c ∈ s.caches ++ [d], 0 < c.settings.pollTimeout.nanos := by
    intro c hc
    rcases List.mem_append.mp hc with hc | hc
    · exact hs c hc
    · exact List.mem_singleton.mp hc ▸ hd
  cases h with
  | notifier hc => exact set hc rfl
  | loop hc => exact set hc rfl
  | worker hc => exact set hc rfl
  | call hx hc => exact set hc rfl
  | cancel hx hc => exact set hc rfl
  | closing hx hc hx' => exact set hc (Closing.step_keeps hx').1
  | drop hc => exact set hc rfl
  | watch hc => exact set hc rfl
  | leave hc => exact set hc rfl
  | release hc => exact set hc rfl
  | openCache hr => exact append (pollTimeout_pos_of_refusal? hr)
  | openNotifier => exact append (show 0 < (Duration.ofSecs 1).nanos by decide)
  | _ => exact hs

theorem run_paced {as : List Action} (hr : run? {} as = some s) :
    ∀ c ∈ s.caches, 0 < c.settings.pollTimeout.nanos :=
  run_invariant (P := fun u => ∀ c ∈ u.caches, 0 < c.settings.pollTimeout.nanos)
    (A := fun _ => True) (fun _ hc => (List.not_mem_nil hc).elim)
    (fun _ _ _ hu _ h => h.paced hu) (fun _ _ => trivial) hr

/-! ### After a failure -/

/-- A failed call changes the loop that made it and nothing else. -/
theorem of_failed_call {e : Error} (hc : s.caches[i]? = some c) (hp : c.pool = some p)
    (ha : p.asks = true) (hf : s.step? (.loop i .advance (some e)) = some s') :
    ∃ p', s'.caches[i]? = some { c with pool := some p' } ∧ s'.now = s.now ∧ s'.store = s.store ∧
      (p.loop = .holding ∧
          p' = { p with loop := .pausing (s.now.deadline c.settings.pollTimeout) } ∨
        p.loop = .claiming ∧ p' = { p with loop := .holding, hasMore := false }) := by
  cases step_of hf with
  | loop hc' hp' hl =>
      obtain rfl := Option.some.inj (hc.symm.trans hc')
      obtain rfl := Option.some.inj (hp.symm.trans hp')
      obtain ⟨hstore, hcases⟩ := hl.of_fault ha rfl
      exact ⟨_, List.getElem?_set_self (List.getElem?_eq_some_iff.mp hc).1, rfl, hstore, hcases⟩
  | outside ho => cases ho
  | denied ho => cases ho

/-- After a failed call the loop rests.  After a failed claim the rest is a light one, unless the
stop signal is raised or the clock cannot name the end of the timeout. -/
theorem restsAt_of_failed_call {e : Error} (hc : s.caches[i]? = some c) (hp : c.pool = some p)
    (ha : p.asks = true) (hf : s.step? (.loop i .advance (some e)) = some s')
    (hlight : p.loop = .claiming → light = true ∨ c.stopping = true ∨
      Instant.last < s.now + c.settings.pollTimeout.nanos) :
    s'.RestsAt light i c.settings (s.now + c.settings.pollTimeout.nanos) := by
  obtain ⟨p', hc', -, -, hcases⟩ := of_failed_call hc hp ha hf
  refine ⟨_, p', hc', rfl, rfl, ?_⟩
  cases hs : c.stopping with
  | true => exact Or.inl rfl
  | false =>
      right
      rcases hcases with ⟨-, rfl⟩ | ⟨hl, rfl⟩
      · intro t ht
        obtain ⟨-, hd⟩ := Option.ite_none_right_eq_some.mp ht
        exact Nat.le_of_eq (Option.some.inj hd)
      · exact ⟨rfl, by simpa [hs] using hlight hl⟩

/-- After a failed call the loop does not claim before the timeout is over, unless it is roused from
a light rest. -/
theorem rests_after_failed_call {e : Error} (hc : s.caches[i]? = some c) (hp : c.pool = some p)
    (ha : p.asks = true) (hf : s.step? (.loop i .advance (some e)) = some s')
    (hlight : p.loop = .claiming → light = true ∨ c.stopping = true ∨
      Instant.last < s.now + c.settings.pollTimeout.nanos)
    {bs : List Action} (hrun : s'.run? bs = some t) (ht : t.Claims i) :
    s.now + c.settings.pollTimeout.nanos ≤ t.now ∨
      light = true ∧ ∃ m ∈ s'.moments bs, m.Rouses i c.settings.keys := by
  obtain ⟨-, -, hnow, -⟩ := of_failed_call hc hp ha hf
  have hT : s.now + c.settings.pollTimeout.nanos ≤ s'.now + c.settings.pollTimeout.nanos :=
    Nat.le_of_eq (by rw [hnow])
  rcases run_rests (restsAt_of_failed_call hc hp ha hf hlight) hT hrun with hr | hr | hr
  · exact absurd ht hr.not_claims
  · exact Or.inl hr
  · exact Or.inr hr

/-- A marker that is left when a claim fails is worth another claim at once. -/
theorem exists_run_of_failed_claim {e : Error} (hc : s.caches[i]? = some c) (hp : c.pool = some p)
    (ha : p.asks = true) (hf : s.step? (.loop i .advance (some e)) = some s')
    (hl : p.loop ≠ .holding) (hk : (s.store.queue c.settings.keys).markers ≠ 0)
    (hs : c.stopping = false) (hlast : s.now + c.settings.pollTimeout.nanos ≤ Instant.last) :
    ∃ bs t, s'.run? bs = some t ∧ t.now = s.now ∧ t.Claims i ∧
      ∀ m ∈ s'.moments bs, m.raises c.settings.keys = false := by
  obtain ⟨p', hc', hnow, hstore, hcases⟩ := of_failed_call hc hp ha hf
  obtain ⟨hhold, -⟩ | ⟨-, rfl⟩ := hcases
  · exact absurd hhold hl
  have hw : Wait.start? c.settings.keys c.settings.pollTimeout s'.now =
      some ⟨c.settings.keys, s.now + c.settings.pollTimeout.nanos, .entering⟩ := by
    simp [Wait.start?, Instant.after?, hnow, hlast]
  obtain ⟨bs, t, hrun, htime, ht⟩ := exists_run_retry hc' rfl hs rfl rfl hw (hstore ▸ hk)
  exact ⟨bs, t, hrun, htime.trans hnow, ht⟩

/-- **When the dequeue loop pauses.**  In a state of any run, let the loop of a cache ask the store
to wait for work or to claim, and let this fail.

* A claim that comes before the poll timeout is over, and before the stop signal, comes after the
  loop was roused: it has waited once more, and the wait took a marker.
* If nothing is put into line or moved up after the failure, the next claim comes no sooner than the
  poll timeout later, whatever others do, exactly if it was the wait that failed, or no marker of
  the queue was left, or the stop signal was raised, or the clock cannot name the end of the
  timeout.  So after a failed claim a marker that is left is worth another claim at once. -/
theorem pauses_iff {as : List Action} (hr : run? {} as = some s) {e : Error}
    (hc : s.caches[i]? = some c) (hp : c.pool = some p) (ha : p.asks = true)
    (hf : s.step? (.loop i .advance (some e)) = some s') :
    (∀ bs t, s'.run? bs = some t → t.Claims i →
      s.now + c.settings.pollTimeout.nanos ≤ t.now ∨
        ∃ m ∈ s'.moments bs, m.Rouses i c.settings.keys) ∧
    ((∀ bs t, s'.run? bs = some t → t.Claims i →
        (∀ m ∈ s'.moments bs, m.raises c.settings.keys = false) →
          s.now + c.settings.pollTimeout.nanos ≤ t.now) ↔
      p.loop = .holding ∨ (s.store.queue c.settings.keys).markers = 0 ∨ c.stopping = true ∨
        Instant.last < s.now + c.settings.pollTimeout.nanos) := by
  have early {bs : List Action} {t : System} (hrun : s'.run? bs = some t) (ht : t.Claims i) :
      s.now + c.settings.pollTimeout.nanos ≤ t.now ∨
        ∃ m ∈ s'.moments bs, m.Rouses i c.settings.keys :=
    (rests_after_failed_call hc hp ha hf (fun _ => Or.inl rfl) hrun ht).imp_right And.right
  -- nothing rouses the loop from a rest that is not light
  have late (h : p.loop = .claiming → c.stopping = true ∨
      Instant.last < s.now + c.settings.pollTimeout.nanos) {bs : List Action} {t : System}
      (hrun : s'.run? bs = some t) (ht : t.Claims i) :
      s.now + c.settings.pollTimeout.nanos ≤ t.now :=
    (rests_after_failed_call hc hp ha hf (fun hl => Or.inr (h hl)) hrun ht).resolve_right
      fun hr => Bool.false_ne_true hr.1
  refine ⟨fun bs t hrun ht => early hrun ht, fun hall => ?_, ?_⟩
  · refine Decidable.byContradiction fun hn => ?_
    obtain ⟨hhold, hmark, hstop, hlast⟩ :
        p.loop ≠ .holding ∧ (s.store.queue c.settings.keys).markers ≠ 0 ∧ c.stopping = false ∧
          s.now + c.settings.pollTimeout.nanos ≤ Instant.last := by
      simpa only [not_or, Bool.not_eq_true, Nat.not_lt] using hn
    obtain ⟨bs, t, hrun, htime, ht, hraise⟩ :=
      exists_run_of_failed_claim hc hp ha hf hhold hmark hstop hlast
    have hle := hall bs t hrun ht hraise
    have hpos := run_paced hr c (List.mem_of_getElem? hc)
    rw [htime] at hle
    exact absurd hle (Nat.not_le.mpr (Nat.lt_add_of_pos_right hpos))
  · rintro (hl | hz | hs | hlast) bs t hrun ht hraise
    · exact late (fun hl' => nomatch hl.symm.trans hl') hrun ht
    · obtain ⟨-, -, -, hstore, -⟩ := of_failed_call hc hp ha hf
      rcases early hrun ht with hle | ⟨m, hm, -, hreturn⟩
      · exact hle
      · exact absurd hreturn (run_unmarked (hstore ▸ hz) hraise hrun m hm)
    · exact late (fun _ => Or.inl hs) hrun ht
    · exact late (fun _ => Or.inr hlast) hrun ht

/-- An id is queued and moved up before its queue gets a loop, which takes one of the two markers
and is about to claim. -/
def hasty : List Action :=
  List.flatten [
    [.enqueue ⟨"q"⟩ "a" 5 none, .enqueue ⟨"q"⟩ "a" 3 none,
      .openCache { queue := "q", workers := 1 } true none],
    .replicate 5 (.loop 0 .advance none)]

theorem pauses_iff_hasty :
    ∃ s c p s', run? {} hasty = some s ∧ s.caches[0]? = some c ∧ c.pool = some p ∧
      p.loop = .claiming ∧ c.stopping = false ∧ (s.store.queue c.settings.keys).markers = 1 ∧
      s.step? (.loop 0 .advance (some (.other "down"))) = some s' ∧
      ¬ ∀ bs t, s'.run? bs = some t → t.Claims 0 →
        (∀ m ∈ s'.moments bs, m.raises c.settings.keys = false) →
          s.now + c.settings.pollTimeout.nanos ≤ t.now := by
  have hd : (run? {} hasty).any (fun s =>
      s.caches[0]?.any (fun c =>
        c.pool.any (fun p => p.loop = .claiming) && !c.stopping &&
          (s.store.queue c.settings.keys).markers = 1 &&
            s.now + c.settings.pollTimeout.nanos ≤ Instant.last) &&
        (s.step? (.loop 0 .advance (some (.other "down")))).isSome) = true := by decide +kernel
  obtain ⟨s, hr, hd⟩ := (Option.any_eq_true _ _).mp hd
  obtain ⟨hd, hs'⟩ := Bool.and_eq_true_iff.mp hd
  obtain ⟨c, hc, hd⟩ := (Option.any_eq_true _ _).mp hd
  simp only [Bool.and_eq_true, Bool.not_eq_true', decide_eq_true_eq] at hd
  obtain ⟨⟨⟨hp, hstop⟩, hmark⟩, hlast⟩ := hd
  obtain ⟨p, hp, hl⟩ := (Option.any_eq_true _ _).mp hp
  have hl : p.loop = .claiming := of_decide_eq_true hl
  obtain ⟨s', hs'⟩ := Option.isSome_iff_exists.mp hs'
  refine ⟨s, c, p, s', hr, hc, hp, hl, hstop, hmark, hs', fun hall => ?_⟩
  rcases (pauses_iff hr hc hp (by simp [Pool.asks, hl]) hs').2.mp hall with h | h | h | h
  · exact nomatch hl.symm.trans h
  · exact nomatch hmark.symm.trans h
  · exact Bool.false_ne_true (hstop.symm.trans h)
  · exact Nat.not_lt.mpr hlast h

end System

end ReadThrough
