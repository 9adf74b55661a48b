import ReadThrough.Proofs.System.Asking
import ReadThrough.Proofs.System.Quiescence
import ReadThrough.Proofs.System.Waiting

/-! # No caller is stuck

In a calm run (`Moment.Calm`) there is no fault, no outage, no shutdown and nobody who takes work
away from the pools, and time passes only when no task can go on.  Then, whenever no task can go on,
every caller is done or waits for an id that a worker computes, or that is queued while all workers
of all pools compute (`no_stuck_caller`).

The invariant (`Orderly`) gathers what each mechanism keeps: custody of the claimed tasks, alert
notifiers that attend to their callers, running pools, markers that cover the queue, and open ids
for all callers that have asked.  A step keeps it or crashes a task (`Step.orderly`). -/

namespace ReadThrough

/-- Whether an action stops something, waits for work from outside, or cuts the connection. -/
def Action.disturbs : Action → Bool
  | seek .. => true
  | drop _ => true
  | shutdown _ => true
  | disconnect => true
  | reconnect => true
  | _ => false

/-- Whether time passes with an action. -/
def Action.ticks : Action → Bool
  | tick _ => true
  | _ => false

theorem Action.ticks_iff {a : Action} : a.ticks = true ↔ ∃ span, a = .tick span := by
  constructor
  · cases a <;> first | exact fun _ => ⟨_, rfl⟩ | nofun
  · rintro ⟨span, rfl⟩
    rfl

/-- Nothing goes wrong, and time passes only when no task can go on. -/
structure Moment.Calm (q : String) (m : Moment) : Prop extends m.Faultless q where
  peaceful : m.action.disturbs = false
  patient : ∀ span, m.action = .tick span → m.before.Quiescent

instance (q : String) (m : Moment) : Decidable (m.Calm q) :=
  decidable_of_iff (m.Faultless q ∧ m.action.disturbs = false ∧
      (m.action.ticks = true → m.before.Quiescent))
    ⟨fun ⟨hm, hd, hp⟩ => ⟨hm, hd, fun _ ha => hp (ha ▸ rfl)⟩,
    fun h => ⟨h.toFaultless, h.peaceful, fun ht =>
      have ⟨span, ha⟩ := Action.ticks_iff.mp ht
      h.patient span ha⟩⟩

/-- A cache that goes on: nobody stops it, and its pool, if it has one, runs. -/
structure Cache.GoesOn (k : Keys) (c : Cache) (s : Store) : Prop where
  unstopped : c.stopping = false
  listening : c.notifier.phase ≠ .stopped
  lasting : ∀ p, c.pool = some p → 0 < c.settings.errorTtl.nanos
  running : ∀ p, c.pool = some p → p.Running k s

/-- Whether the loop of a cache is about to claim. -/
def Cache.nears (c : Cache) : Bool := c.pool.any Pool.nears

namespace System

/-- A background task has crashed. -/
def Crashed (s : System) : Prop := ∃ c ∈ s.caches, ∃ p, c.pool = some p ∧ p.Crashed

instance (s : System) : Decidable s.Crashed :=
  decidable_of_iff (∃ c ∈ s.caches, c.pool.any (fun p => p.Crashed) = true)
    (by simp [Crashed, Option.any_eq_true])

/-- The number of loops that are about to claim. -/
def near (s : System) : Nat := s.caches.countP Cache.nears

/-- All workers of all pools compute. -/
def AllBusy (s : System) : Prop :=
  ∀ c ∈ s.caches, ∀ p, c.pool = some p → ∀ w ∈ p.workers, ∃ t, w = .computing t

/-- What a calm run keeps. -/
structure Orderly (q : String) (s : System) : Prop extends s.Steady q where
  connected : s.store.connected = true
  unclosed : s.closings = []
  unsought : s.seekers = []
  goesOn : ∀ c ∈ s.caches, c.GoesOn ⟨q⟩ s.store
  covered : s.store.Covered ⟨q⟩ s.near
  held : ∀ id, (s.store.entry ⟨q⟩ id).claimed = true → ∃ h ∈ s.hands, h.task.id = id
  asked : ∀ x ∈ s.calls, x.Asked → (s.store.entry ⟨q⟩ x.id).Open s.now

variable {s s' : System} {a : Action} {q : String}

theorem orderly_start (q : String) : Orderly q {} where
  toSteady := steady_start q
  connected := rfl
  unclosed := rfl
  unsought := rfl
  goesOn _ h := nomatch h
  covered := Store.covered_empty _ _
  held id h := by simp [Store.entry, Store.queue] at h
  asked _ h := nomatch h

/-! ### Crashes stay -/

theorem crashed_set {i : Nat} {c c' : Cache} (hc : s.caches[i]? = some c)
    (hk : ∀ p, c.pool = some p → p.Crashed → ∃ p', c'.pool = some p' ∧ p'.Crashed)
    (h : s.Crashed) : ∃ c ∈ s.caches.set i c', ∃ p, c.pool = some p ∧ p.Crashed := by
  obtain ⟨d, hd, p, hp, hcr⟩ := h
  obtain ⟨j, hj⟩ := List.mem_iff_getElem?.mp hd
  by_cases hij : i = j
  · subst hij
    obtain rfl := Option.some.inj (hc.symm.trans hj)
    exact ⟨c', List.mem_set (List.getElem?_eq_some_iff.mp hc).1 _, hk p hp hcr⟩
  · refine ⟨d, List.mem_iff_getElem?.mpr ⟨j, ?_⟩, p, hp, hcr⟩
    rw [List.getElem?_set_ne hij]
    exact hj

theorem Step.crashed (h : Step s a s') (hc : s.Crashed) : s'.Crashed := by
  have same {i : Nat} {c c' : Cache} (hc' : s.caches[i]? = some c) (hp : c'.pool = c.pool) :
      ∃ c ∈ s.caches.set i c', ∃ p, c.pool = some p ∧ p.Crashed :=
    crashed_set hc' (fun p he hcr => ⟨p, hp.trans he, hcr⟩) hc
  have more (d : Cache) : ∃ c ∈ s.caches ++ [d], ∃ p, c.pool = some p ∧ p.Crashed := by
    obtain ⟨c, hm, hp⟩ := hc
    exact ⟨c, List.mem_append_left _ hm, hp⟩
  cases h with
  | notifier hc' hn => exact same hc' rfl
  | loop hc' hp hl =>
      refine crashed_set hc' (fun p he hcr => ⟨_, rfl, ?_⟩) hc
      obtain rfl := Option.some.inj (hp.symm.trans he)
      exact hl.crashed hcr
  | worker hc' hp hw =>
      refine crashed_set hc' (fun p he hcr => ⟨_, rfl, ?_⟩) hc
      obtain rfl := Option.some.inj (hp.symm.trans he)
      exact hw.crashed hcr
  | call hx hc' hx' => exact same hc' rfl
  | cancel hx hc' => exact same hc' rfl
  | closing hx hc' hx' => exact same hc' (Closing.step_keeps hx').2.2
  | openCache hr => exact more _
  | openNotifier => exact more _
  | drop hc' => exact same hc' rfl
  | watch hc' hn => exact same hc' rfl
  | leave hc' => exact same hc' rfl
  | release hc' => exact same hc' rfl
  | _ => exact hc

/-! ### What one step keeps -/

/-- Without disturbance nobody cuts the connection. -/
theorem Asks.peaceful {op : Store.Op} (h : Asks s a op) (hp : a.disturbs = false) :
    op ≠ .disconnect ∧ op ≠ .reconnect := by
  cases h with
  | outside ho hf => cases a <;> cases ho <;> cases hp <;> exact ⟨nofun, nofun⟩
  | _ => exact ⟨nofun, nofun⟩

/-- Nobody but those who wait for work takes markers. -/
theorem Asks.unmarked {op : Store.Op} (h : Asks s a op) (hl : ∀ i m fault, a ≠ .loop i m fault)
    (hs : ∀ j fault, a ≠ .seeker j fault) (l : Keys) : op ≠ .takeMarker l := by
  cases h with
  | mark => exact absurd rfl (hl _ _ _)
  | seek => exact absurd rfl (hs _ _)
  | outside ho hf => cases a <;> cases ho <;> nofun
  | _ => nofun

theorem Orderly.connected_step (ho : s.Orderly q) (h : Step s a s') (hp : a.disturbs = false) :
    s'.store.connected = true := by
  rcases h.does with hd | ⟨op, hask, hd⟩
  · rw [hd]
    exact ho.connected
  · obtain ⟨hdis, hrec⟩ := hask.peaceful hp
    rw [hd, Store.connected_apply hdis hrec]
    exact ho.connected

/-- Every cache goes on with the store that a step leaves behind. -/
theorem Orderly.goesOn_rest (ho : s.Orderly q) (h : Step s a s') :
    ∀ c ∈ s.caches, c.GoesOn ⟨q⟩ s'.store := by
  intro c hc
  have hg := ho.goesOn c hc
  refine ⟨hg.unstopped, hg.listening, hg.lasting, fun p hp => ?_⟩
  rcases h.does with hd | ⟨op, hask, hd⟩
  · rw [hd]
    exact hg.running p hp
  · rw [hd]
    exact (hg.running p hp).apply op s.now

/-- A notifier that nobody stops, and whose feed is live, does not end. -/
theorem listening_step {n n' : Notifier} {store store' : Store} {now : Instant}
    {fault : Option Error} {m : Notifier.Move} {events : List Event} {channel : String}
    (h : n.Step store now false fault m n' store' events) (hh : store.Hears n.feed channel) :
    n'.phase ≠ .stopped := by
  cases h with
  | stop hp hs => cases hs
  | hangUp hp he =>
      obtain ⟨f, hf, hl, -⟩ := hh
      unfold Store.feedEnded at he
      rw [hf] at he
      unfold Feed.live at hl
      simp_all
  | _ => nofun

theorem fresh_goesOn {settings : Settings} {computes : Bool}
    (hr : refusal? settings computes = none) (k : Keys) (store : Store) (feed : Nat) :
    (Cache.fresh settings computes feed).GoesOn k store := by
  obtain ⟨ht, hw⟩ := refusal?_none hr
  refine ⟨rfl, nofun, fun _ _ => ht, fun p hp => ?_⟩
  unfold Cache.fresh at hp
  dsimp only at hp
  split at hp
  · rename_i hc
    obtain rfl := Option.some.inj hp
    exact Pool.start_running (hw hc) k store
  · cases hp

/-- After a step, a task has crashed or every cache goes on. -/
theorem Orderly.goesOn_step (ho : s.Orderly q) (h : Step s a s') (hm : Moment.Calm q ⟨s, a⟩) :
    s'.Crashed ∨ ∀ c ∈ s'.caches, c.GoesOn ⟨q⟩ s'.store := by
  have hk := ho.custody.1
  have hrest := ho.goesOn_rest h
  have set {i : Nat} {c' : Cache} (hc' : c'.GoesOn ⟨q⟩ s'.store) :
      ∀ c ∈ s.caches.set i c', c.GoesOn ⟨q⟩ s'.store := by
    intro c hc
    rcases List.mem_or_eq_of_mem_set hc with hc | rfl
    · exact hrest c hc
    · exact hc'
  -- callers leave the phase of a notifier alone
  have same {i : Nat} {c c' : Cache} (hc : s.caches[i]? = some c)
      (hd : c'.notifier.desk = c.notifier.desk) (hs : c'.stopping = c.stopping)
      (hset : c'.settings = c.settings) (hp : c'.pool = c.pool) :
      ∀ c ∈ s.caches.set i c', c.GoesOn ⟨q⟩ s'.store := by
    have hg := hrest c (List.mem_of_getElem? hc)
    have hphase : c'.notifier.phase = c.notifier.phase := congrArg (·.2.1) hd
    refine set ⟨hs.trans hg.unstopped, ?_, ?_, ?_⟩
    · rw [hphase]
      exact hg.listening
    · rw [hp, hset]
      exact hg.lasting
    · rw [hp]
      exact hg.running
  -- a pool crashes or goes on running
  have pool {i : Nat} {c : Cache} {p p' : Pool} (hc : s.caches[i]? = some c)
      (hp : c.pool = some p) (hr : p'.Crashed ∨ p'.Running ⟨q⟩ s'.store) :
      (∃ d ∈ s.caches.set i { c with pool := some p' }, ∃ r, d.pool = some r ∧ r.Crashed) ∨
        ∀ d ∈ s.caches.set i { c with pool := some p' }, d.GoesOn ⟨q⟩ s'.store := by
    have hg := ho.goesOn c (List.mem_of_getElem? hc)
    rcases hr with hcr | hr
    · exact Or.inl ⟨_, List.mem_set (List.getElem?_eq_some_iff.mp hc).1 _, p', rfl, hcr⟩
    · refine Or.inr (set ⟨hg.unstopped, hg.listening, fun _ _ => hg.lasting p hp, ?_⟩)
      intro r hr'
      obtain rfl := Option.some.inj hr'
      exact hr
  have more {d : Cache} (hd : d.GoesOn ⟨q⟩ s'.store) :
      ∀ c ∈ s.caches ++ [d], c.GoesOn ⟨q⟩ s'.store := by
    intro c hc
    rcases List.mem_append.mp hc with hc | hc
    · exact hrest c hc
    · obtain rfl := List.mem_singleton.mp hc
      exact hd
  cases h with
  | @notifier i m fault c n store events hc hn =>
      have hg := hrest c (List.mem_of_getElem? hc)
      have hbefore := ho.goesOn c (List.mem_of_getElem? hc)
      rw [hbefore.unstopped] at hn
      have hlisten := listening_step hn ((ho.alert i c hc).hears hbefore.listening)
      exact Or.inr (set ⟨hg.unstopped, hlisten, hg.lasting, hg.running⟩)
  | loop hc hp hl =>
      have hg := ho.goesOn _ (List.mem_of_getElem? hc)
      exact pool hc hp (hl.running hg.unstopped hm.answered (hk.of_getElem? hc).1 (hg.running _ hp))
  | worker hc hp hw =>
      have hg := ho.goesOn _ (List.mem_of_getElem? hc)
      exact pool hc hp (hw.running hg.unstopped hm.answered (hg.lasting _ hp) (hg.running _ hp))
  | call hx hc hx' => exact Or.inr (same hc hx'.desk_eq rfl rfl rfl)
  | @cancel j x c hx hc => exact Or.inr (same hc (Call.desk_cancel x c.notifier) rfl rfl rfl)
  | closing hx hc hx' =>
      rw [ho.unclosed] at hx
      cases hx
  | openCache hr => exact Or.inr (more (fresh_goesOn hr _ _ _))
  | openNotifier => exact Or.inr (more ⟨rfl, nofun, nofun, nofun⟩)
  | drop hc => cases hm.peaceful
  | watch hc hn => exact Or.inr (same hc (Notifier.desk_subscribe? hn) rfl rfl rfl)
  | leave hc => cases hm.loyal
  | release hc => exact Or.inr (same hc (Notifier.desk_release _ _) rfl rfl rfl)
  | _ => exact Or.inr hrest

/-- The loops that are about to claim, after one cache has changed. -/
theorem near_set {i : Nat} {c c' : Cache} (hc : s.caches[i]? = some c) (hn : c'.nears = c.nears) :
    (s.caches.set i c').countP Cache.nears = s.near := by
  obtain ⟨r, hb, hs⟩ := exists_countP_set Cache.nears hc
  rw [hs, hn, near, hb]

/-- The markers and the loops that are about to claim go on covering the queue. -/
theorem Orderly.covered_step (ho : s.Orderly q) (h : Step s a s') (hm : Moment.Calm q ⟨s, a⟩) :
    s'.store.Covered ⟨q⟩ s'.near := by
  have hk := ho.custody.1
  -- whoever is no loop takes no marker
  have quiet (hl : ∀ i m fault, a ≠ .loop i m fault) (hs : ∀ j fault, a ≠ .seeker j fault)
      (hn : s'.near = s.near) : s'.store.Covered ⟨q⟩ s'.near := by
    rw [hn]
    rcases h.does with hd | ⟨op, hask, hd⟩
    · rw [hd]
      exact ho.covered
    · rw [hd]
      exact ho.covered.apply (hask.keys_eq hk hm.on) (hask.unmarked hl hs) s.now
  have open_ (d : Cache) (hd : d.nears = false) :
      (s.caches ++ [d]).countP Cache.nears = s.near := by
    rw [List.countP_append, List.countP_singleton, hd]
    rfl
  cases h with
  | @loop i m fault c p p' store events hc hp hl =>
      have hbefore := ho.goesOn c (List.mem_of_getElem? hc)
      obtain ⟨r, hb, hs⟩ := exists_countP_set Cache.nears hc
      have hnear : c.nears = p.nears := by
        unfold Cache.nears
        rw [hp]
        rfl
      have hcov := ho.covered
      rw [near, hb, hnear] at hcov
      have hcov' := hl.covered hbefore.unstopped hm.answered (hk.of_getElem? hc).1
        (hbefore.running p hp) hcov
      have hnear' : (s.caches.set i { c with pool := some p' }).countP Cache.nears =
          r + if p'.nears then 1 else 0 := hs _
      show store.Covered ⟨q⟩ ((s.caches.set i { c with pool := some p' }).countP Cache.nears)
      rw [hnear']
      exact hcov'
  | seeker hx hs =>
      rw [ho.unsought] at hx
      cases hx
  | worker hc hp hw =>
      refine quiet nofun nofun (near_set hc ?_)
      unfold Cache.nears Pool.nears
      rw [hp]
      simp [hw.loop_eq]
  | notifier hc hn => exact quiet nofun nofun (near_set hc rfl)
  | call hx hc hx' => exact quiet nofun nofun (near_set hc rfl)
  | cancel hx hc => exact quiet nofun nofun (near_set hc rfl)
  | closing hx hc hx' =>
      rw [ho.unclosed] at hx
      cases hx
  | @openCache settings computes events hr =>
      refine quiet nofun nofun (open_ _ ?_)
      cases computes <;> rfl
  | openNotifier => exact quiet nofun nofun (open_ _ rfl)
  | drop hc => cases hm.peaceful
  | watch hc hn => exact quiet nofun nofun (near_set hc rfl)
  | leave hc => cases hm.loyal
  | release hc => exact quiet nofun nofun (near_set hc rfl)
  | outside hop hf =>
      have hl : ∀ i m fault, a ≠ .loop i m fault := by
        rintro i m fault rfl
        cases hop
      have hs : ∀ j fault, a ≠ .seeker j fault := by
        rintro j fault rfl
        cases hop
      exact quiet hl hs rfl
  | denied hop hf => exact ho.covered
  | _ => exact quiet nofun nofun rfl

/-- A result that the clock cannot keep crashes its worker. -/
theorem Step.crashed_of_writes (h : Step s a s') {o : Nat × Nat} {t : Claim} {r : Completion}
    (hw : Moment.Writes ⟨s, a⟩ o t r) (hn : r.nameable s.now = false) : s'.Crashed := by
  obtain ⟨ha, hw⟩ := hw
  obtain rfl : a = _ := ha
  obtain ⟨c, p, p', store, events, hc, hp, hk, hs, hset, -⟩ := h.of_worker hw
  obtain ⟨accepted, hcomplete, rfl⟩ := hs.of_writing hk rfl
  obtain rfl : false = accepted := by
    rw [← hn, ← Store.complete_accepted s.store (s.context c none).settings.keys t.id r s.now]
    exact congrArg Prod.fst hcomplete
  have hi := (List.getElem?_eq_some_iff.mp hc).1
  have hj := (List.getElem?_eq_some_iff.mp hk).1
  exact ⟨_, hset ▸ List.mem_set hi _, _, rfl, Or.inr ⟨_, List.mem_set hj _, rfl⟩⟩

/-- A computation that takes its worker down crashes it. -/
theorem Step.crashed_of_collapses (h : Step s a s') (ha : a.collapses = true) : s'.Crashed := by
  cases a with
  | worker i k m fault =>
      cases h with
      | worker hc hp hw =>
          have hi := (List.getElem?_eq_some_iff.mp hc).1
          cases hw with
          | collapse hk =>
              have hj := (List.getElem?_eq_some_iff.mp hk).1
              exact ⟨_, List.mem_set hi _, _, rfl, Or.inr ⟨_, List.mem_set hj _, rfl⟩⟩
          | _ => cases ha
      | outside ho => cases ho
      | denied ho => cases ho
  | _ => cases ha

/-- A result that is written is that of a worker. -/
theorem mem_workers_of_writes {o : Nat × Nat} {t : Claim} {r : Completion}
    (hw : Moment.Writes ⟨s, a⟩ o t r) :
    ∃ c ∈ s.caches, ∃ p, c.pool = some p ∧ .writing t r ∈ p.workers := by
  obtain ⟨c, hc, hw⟩ := Option.bind_eq_some_iff.mp hw.2
  obtain ⟨p, hp, hk⟩ := Option.bind_eq_some_iff.mp hw
  exact ⟨c, List.mem_of_getElem? hc, p, hp, List.mem_of_getElem? hk⟩

/-- In a calm run nothing is lost, unless a task crashes. -/
theorem Orderly.not_loses (ho : s.Orderly q) (hm : Moment.Calm q ⟨s, a⟩) (h : Step s a s')
    (hcr : ¬ s'.Crashed) : ¬ Moment.Loses ⟨s, a⟩ := by
  rintro (hf | ha | ⟨c, hc, hs | ⟨p, hp, he⟩⟩)
  · exact hf hm.answered
  · exact hcr (h.crashed_of_collapses ha)
  · rw [(ho.goesOn c hc).unstopped] at hs
    cases hs
  · have hr := (ho.goesOn c hc).running p hp
    obtain ⟨w, hw⟩ := List.exists_mem_of_ne_nil _ hr.staffed
    have hw' := List.all_eq_true.mp he w hw
    rw [hr.workers w hw] at hw'
    cases hw'

/-- When no task can go on, a caller that is not done waits for an id that is not finished. -/
theorem Orderly.waits_of_quiescent (ho : s.Orderly q) (hq : s.Quiescent) {x : Call}
    (hx : x ∈ s.calls) (he : x.ended = false) :
    (∃ w, x.Waits w) ∧ (s.store.entry ⟨q⟩ x.id).finished s.now = false := by
  obtain ⟨j, hj⟩ := List.mem_iff_getElem?.mp hx
  obtain ⟨c, hc⟩ : ∃ c, s.caches[x.cache]? = some c :=
    ⟨_, List.getElem?_eq_getElem (ho.attended.placed x hx)⟩
  rcases Call.of_stuck (hq.call hj hc) with hend | ⟨w, hw, hs⟩
  · rw [he] at hend
    cases hend
  · refine ⟨⟨w, hw⟩, ?_⟩
    have ha := ho.alert x.cache c hc
    have hsettled := Notifier.settled_of_stuck ha ho.connected
      (ho.goesOn c (List.mem_of_getElem? hc)).listening (hq.notifier hc)
    rcases (ho.attended.attends x hx c hc w hw).listed hs with hr | hr
    · rw [hsettled.unasked] at hr
      cases hr
    · rw [← Store.finished_eq]
      exact ha.not_finished hsettled hr.mem

/-- The ids of all callers that have asked stay open. -/
theorem Orderly.asked_step (ho : s.Orderly q) (h : Step s a s') (hm : Moment.Calm q ⟨s, a⟩) :
    ∀ x ∈ s'.calls, x.Asked → (s'.store.entry ⟨q⟩ x.id).Open s'.now := by
  intro x' hx' ha'
  obtain ⟨j, hj⟩ := List.mem_iff_getElem?.mp hx'
  rcases h.asked_cases ho.custody.1 hj ha' with ⟨x, hx, ha, hid⟩ | hq | hc
  · rw [← hid]
    have hxm := List.mem_of_getElem? hx
    rcases h.now_eq with hnow | ⟨span, rfl⟩
    · rw [hnow]
      refine (h.handles ho.custody.1 hm.on hm.proper).open ho.custody.2 ?_
        (ho.asked x hxm ha)
      intro o t r hw
      obtain ⟨c, hc, p, hp, hmem⟩ := mem_workers_of_writes hw
      exact ((ho.goesOn c hc).running p hp).lasting t r hmem
    · -- time passes only when the caller waits for an id that is not finished
      have hstore : s'.store = s.store := by
        cases h with
        | tick => rfl
        | outside hop => cases hop
        | denied hop => cases hop
      have hend : x.ended = false := by
        cases he : x.ended with
        | false => rfl
        | true => exact absurd ha (Call.not_asked_of_ended he)
      obtain ⟨-, hf⟩ := ho.waits_of_quiescent (hm.patient span rfl) hxm hend
      rw [hstore]
      rcases ho.asked x hxm ha with hp | hc | hfin
      · exact Or.inl hp
      · exact Or.inr (Or.inl hc)
      · rw [hf] at hfin
        cases hfin
  · exact Or.inl hq
  · exact Or.inr (Or.inl hc)

/-- A calm step keeps order, or a task crashes. -/
theorem Step.orderly (h : Step s a s') (hm : Moment.Calm q ⟨s, a⟩) (ho : s.Orderly q) :
    s'.Crashed ∨ s'.Orderly q := by
  by_cases hcr : s'.Crashed
  · exact Or.inl hcr
  · right
    exact {
      toSteady := h.steady hm.toFaultless ho.toSteady
      connected := ho.connected_step h hm.peaceful
      unclosed := by
        cases h with
        | closing hx hc hx' =>
            rw [ho.unclosed] at hx
            cases hx
        | cancelClosing hx =>
            rw [ho.unclosed] at hx
            cases hx
        | shutdown hi => cases hm.peaceful
        | _ => exact ho.unclosed
      unsought := by
        cases h with
        | seeker hx hs =>
            rw [ho.unsought] at hx
            cases hx
        | cancelSeeker hx =>
            rw [ho.unsought] at hx
            cases hx
        | seek => cases hm.peaceful
        | _ => exact ho.unsought
      goesOn := (ho.goesOn_step h hm).resolve_left hcr
      covered := ho.covered_step h hm
      held := (h.handles ho.custody.1 hm.on hm.proper).held (ho.not_loses hm h hcr) (fun o t r hw => by
        cases hn : r.nameable s.now with
        | true => rfl
        | false => exact absurd (h.crashed_of_writes hw hn) hcr) ho.held
      asked := ho.asked_step h hm }

theorem run_orderly {as : List Action} (hr : run? {} as = some s)
    (hm : ∀ m ∈ moments {} as, m.Calm q) (hs : ¬ s.Crashed) : s.Orderly q := by
  have hi := run_induction (s := {}) (P := fun _ s => s.Crashed ∨ s.Orderly q)
    (Or.inr (orderly_start q))
    (fun _ u a u' hp hc h => by
      rcases hp with hp | hp
      · exact Or.inl (h.crashed hp)
      · exact h.orderly hc hp) hm hr
  exact hi.resolve_left hs

/-! ### No caller is stuck -/

/-- A task in hand, when no task can go on, is being computed. -/
theorem Orderly.computing_of_quiescent (ho : s.Orderly q) (hq : s.Quiescent) {h : Hand}
    (hh : h ∈ s.hands) : ∃ o, s.worker? o = some (.computing h.task) := by
  obtain ⟨i, c, hc, hh⟩ := mem_flatten_mapIdx.mp hh
  have hg := ho.goesOn c (List.mem_of_getElem? hc)
  unfold Cache.hands at hh
  split at hh
  · rename_i p hp
    obtain ⟨hsend, hchannel, hphases, -⟩ := (hg.running p hp).stuck (c := s.context c none)
      hg.unstopped rfl (hq.loop hc hp) fun k => hq.worker hc hp
    rcases List.mem_append.mp hh with hh | hh
    · unfold LoopPhase.hands at hh
      split at hh
      · rename_i t ht
        exact absurd ht (hsend t)
      · cases hh
    · rw [hchannel] at hh
      obtain ⟨k, w, hk, hw⟩ := mem_flatten_mapIdx.mp hh
      rcases hphases w (List.mem_of_getElem? hk) with rfl | ⟨t, rfl⟩
      · cases hw
      · obtain rfl := List.mem_singleton.mp hw
        exact ⟨(i, k), by simp [worker?, hc, hp, hk]⟩
  · cases hh

/-- When no task can go on and some worker does not compute, nothing is queued. -/
theorem Orderly.allBusy_of_queued (ho : s.Orderly q) (hq : s.Quiescent) {id : Id}
    (hid : (s.store.entry ⟨q⟩ id).priority ≠ none) : s.AllBusy := by
  intro c hc p hp
  obtain ⟨i, hi⟩ := List.mem_iff_getElem?.mp hc
  have hg := ho.goesOn c hc
  obtain ⟨-, -, -, hbusy | hmarkers⟩ := (hg.running p hp).stuck (c := s.context c none)
    hg.unstopped rfl (hq.loop hi hp) fun k => hq.worker hi hp
  · exact hbusy
  · -- no loop is about to claim, so the queue is empty
    have hnear : s.near = 0 := by
      refine List.countP_eq_zero.mpr fun d hd hn => ?_
      obtain ⟨j, hj⟩ := List.mem_iff_getElem?.mp hd
      have hgd := ho.goesOn d hd
      obtain ⟨r, hr, hn⟩ := (Option.any_eq_true _ _).mp hn
      rcases (hgd.running r hr).loop_of_stuck (c := s.context d none) rfl (hq.loop hj hr) with
        ⟨hl, -⟩ | ⟨w, hl, -⟩ | ⟨t, hl, -⟩ <;> simp [Pool.nears, hl] at hn
    have hcov := ho.covered
    unfold Store.Covered at hcov
    have hsize : (s.store.queue ⟨q⟩).backlog.size = 0 := by
      have hm : (s.store.ledger ⟨q⟩).2.1 = 0 := hmarkers
      rw [hm, hnear] at hcov
      exact Nat.le_zero.mp hcov
    exact absurd (Store.priority?_of_size_eq_zero hsize id) hid

/-- **No caller is stuck.**  When in a calm run no task can go on, every caller that is not done
waits for an id that some worker computes, or that is queued while all workers of all pools compute;
and nothing is queued next to an idle worker. -/
theorem no_stuck_caller {as : List Action} (hr : run? {} as = some s)
    (hm : ∀ m ∈ moments {} as, m.Calm q) (hs : ¬ s.Crashed) (hq : s.Quiescent) :
    (∀ x ∈ s.calls, x.ended = false → (∃ w, x.Waits w) ∧
      ((s.store.entry ⟨q⟩ x.id).claimed = true ∧
          (∃ o t, s.worker? o = some (.computing t) ∧ t.id = x.id) ∨
        (s.store.entry ⟨q⟩ x.id).priority ≠ none ∧ s.AllBusy)) ∧
    ∀ id, (s.store.entry ⟨q⟩ id).priority ≠ none → s.AllBusy := by
  have ho := run_orderly hr hm hs
  refine ⟨fun x hx he => ?_, fun id hid => ho.allBusy_of_queued hq hid⟩
  obtain ⟨⟨w, hw⟩, hf⟩ := ho.waits_of_quiescent hq hx he
  refine ⟨⟨w, hw⟩, ?_⟩
  rcases ho.asked x hx (Or.inr ⟨w, hw⟩) with hp | hc | hfin
  · exact Or.inr ⟨hp, ho.allBusy_of_queued hq hp⟩
  · left
    obtain ⟨h, hh, hid⟩ := ho.held x.id hc
    obtain ⟨o, ho'⟩ := ho.computing_of_quiescent hq hh
    exact ⟨hc, o, h.task, ho', hid⟩
  · rw [hf] at hfin
    cases hfin

/-- Two ids are wanted from a cache with one worker, and nothing happens any more. -/
def crowded : List Action :=
  List.flatten [
    [.openCache { queue := "q", workers := 1 } true none, .get 0 "x" 0, .get 0 "y" 0,
      .notifier 0 .message none, .notifier 0 .conclude none],
    .replicate 4 (.loop 0 .advance none),
    [.worker 0 0 .advance none, .call 0 none, .call 0 none],
    .replicate 6 (.loop 0 .advance none),
    [.worker 0 0 .advance none, .worker 0 0 .advance none, .call 0 none, .call 1 none, .call 1 none,
      .call 1 none, .notifier 0 .request none, .notifier 0 (.check "x") none,
      .notifier 0 .request none, .notifier 0 (.check "y") none, .tick ⟨5⟩]]

theorem no_stuck_caller_crowded :
    ∃ s, run? {} crowded = some s ∧ (∀ m ∈ moments {} crowded, m.Calm "q") ∧ ¬ s.Crashed ∧
      s.Quiescent ∧ s.calls.map (fun x => (x.id, x.ended)) = [("x", false), ("y", false)] ∧
      s.worker? (0, 0) = some (.computing ⟨"x", 0, 0⟩) ∧
      (s.store.entry ⟨"q"⟩ "y").priority = some 0 ∧ (∀ x ∈ s.calls, ∃ w, x.Waits w) ∧
      s.AllBusy := by
  have hm : ∀ m ∈ moments {} crowded, m.Calm "q" := by decide +kernel
  have hd : (run? {} crowded).any (fun s =>
      (!decide s.Crashed && decide s.Quiescent) &&
        (s.calls.map (fun x => (x.id, x.ended)) = [("x", false), ("y", false)] &&
          (s.worker? (0, 0) = some (.computing ⟨"x", 0, 0⟩) &&
            (s.store.entry ⟨"q"⟩ "y").priority = some 0))) = true := by
    decide +kernel
  obtain ⟨s, hr, hd⟩ := (Option.any_eq_true _ _).mp hd
  simp only [Bool.and_eq_true, Bool.not_eq_true', decide_eq_true_eq, decide_eq_false_iff_not] at hd
  obtain ⟨⟨hs, hq⟩, hx, hw, hy⟩ := hd
  obtain ⟨hcalls, hbusy⟩ := no_stuck_caller hr hm hs hq
  have hopen : ∀ x ∈ s.calls, x.ended = false := by
    intro x hm
    have hp := List.mem_map_of_mem (f := fun x : Call => (x.id, x.ended)) hm
    rw [hx] at hp
    simp only [List.mem_cons, Prod.mk.injEq, List.not_mem_nil, or_false] at hp
    rcases hp with ⟨-, he⟩ | ⟨-, he⟩ <;> exact he
  have hqueued : (s.store.entry ⟨"q"⟩ "y").priority ≠ none := by
    rw [hy]
    exact Option.some_ne_none 0
  exact ⟨s, hr, hm, hs, hq, hx, hw, hy, fun x hm => (hcalls x hm (hopen x hm)).1, hbusy "y" hqueued⟩

end System

end ReadThrough
