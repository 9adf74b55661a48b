import ReadThrough.Proofs.System.Awaiters
import ReadThrough.Proofs.System.Runs

/-! # Markers in runs

Whoever queues an id leaves a marker, and whoever waits takes one.

* **The account of a queue** (`Step.ledger`).  Every enqueue that puts an id into line or moves it
  up (`Moment.raises`) adds a marker, and every wait that returns with work (`Moment.returns?`)
  takes one.
* **Deadlines** (`OnTime`).  The deadline of a wait was set when it began, and the wait is fresh.
* **Ends** (`Fares`).  A wait goes on, is dropped, returns with a marker, or gives up at its
  deadline.
* `markers_exact`: in every run, the markers that are left and the waits that returned with work
  are as many as the raised ids; a wait that returns without work has reached its own deadline and
  taken nothing; and a wait that cannot go on has no marker to take. -/

namespace ReadThrough

/-! ### The account of a queue -/

/-- The operation that a caller asks for in its next step. -/
def Call.op? (x : Call) (settings : Settings) : Option Store.Op :=
  x.query?.map fun
    | .lookup => .lookup settings.keys x.id
    | .enqueue => .enqueue settings.keys x.id x.priority

/-- A caller has done what it asks for, unless there is a fault, and nothing else. -/
theorem Call.Step.store_cases {x x' : Call} {settings : Settings} {now : Instant}
    {fault : Option Error} {n n' : Notifier} {s s' : Store} {events : List Event}
    (h : x.Step settings now fault n s x' n' s' events) :
    s' = s ∧ (fault ≠ none ∨ x.op? settings = none) ∨
      fault = none ∧ ∃ op, x.op? settings = some op ∧ s' = op.apply s now ∧
        ∀ l, op ≠ .takeMarker l := by
  have does (op : Store.Op) (ho : x.op? settings = some op) (hm : ∀ l, op ≠ .takeMarker l)
      (hs : s' = s ∧ fault ≠ none ∨ fault = none ∧ s' = op.apply s now) :
      s' = s ∧ (fault ≠ none ∨ x.op? settings = none) ∨
        fault = none ∧ ∃ op, x.op? settings = some op ∧ s' = op.apply s now ∧
          ∀ l, op ≠ .takeMarker l := by
    rcases hs with ⟨hs, hf⟩ | ⟨hf, hs⟩
    · exact Or.inl ⟨hs, Or.inl hf⟩
    · exact Or.inr ⟨hf, op, ho, hs, hm⟩
  have looked {answer : Except Error Record} (hq : x.query? = some .lookup)
      (ha : s.attempt fault (·.lookup settings.keys x.id now) = (answer, s')) :=
    does (.lookup settings.keys x.id) (by simp [op?, hq]) (by simp) (Store.state_of_attempt ha)
  have asked {answer : Except Error Enqueued} (hp : x.phase = .queueing)
      (ha : s.attempt fault (·.enqueue settings.keys x.id x.priority now) = (answer, s')) :=
    does (.enqueue settings.keys x.id x.priority) (by simp [op?, query?, hp]) (by simp)
      (Store.state_of_attempt ha)
  cases h with
  | settled hp ha => exact looked (by simp [query?, hp]) ha
  | missed hp ha => exact looked (by simp [query?, hp]) ha
  | reread hp ha => exact looked (by simp [query?, hp]) ha
  | refused hp ha => exact asked hp ha
  | again hp ha => exact asked hp ha
  | queued hp ha => exact asked hp ha
  | gone hp => exact Or.inl ⟨rfl, Or.inr (by simp [op?, query?, hp])⟩
  | subscribe hp => exact Or.inl ⟨rfl, Or.inr (by simp [op?, query?, hp])⟩
  | woken hp => exact Or.inl ⟨rfl, Or.inr (by simp [op?, query?, hp])⟩
  | lost hp => exact Or.inl ⟨rfl, Or.inr (by simp [op?, query?, hp])⟩
  | timedOut hp => exact Or.inl ⟨rfl, Or.inr (by simp [op?, query?, hp])⟩

/-- The operation that a caller or somebody outside has done with a moment. -/
def Moment.op? (m : Moment) : Option Store.Op :=
  match m.action.fault? with
  | some _ => none
  | none =>
    match m.action with
    | .call j _ => do
      let x ← m.before.calls[j]?
      let c ← m.before.caches[x.cache]?
      x.op? c.settings
    | a => a.op?

/-- Whether an id of the queue `k` is put into line or moved up with a moment. -/
def Moment.raises (m : Moment) (k : Keys) : Bool :=
  m.op?.any fun op => op.raises m.before.store m.before.now k

/-- The queue of a wait that returns with a moment, and whether it returns with work. -/
def Moment.returns? (m : Moment) : Option (Keys × Bool) := do
  let who ← m.action.awaiter?
  let w ← m.before.wait? who
  match w.step? m.before.store m.before.now with
  | some (.finished work, _) => some (w.keys, work)
  | _ => none

namespace System

variable {s s' : System} {a : Action} {who : Awaiter} {k : Keys}

/-- How many ids of the queue `k` were put into line or moved up. -/
def raised (past : List Moment) (k : Keys) : Nat := past.countP (·.raises k)

/-- How many waits for the queue `k` have returned with work. -/
def returned (past : List Moment) (k : Keys) : Nat := past.countP (·.returns? = some (k, true))

theorem op?_of_outside {op : Store.Op} (ho : a.op? = some op) (hf : a.fault? = none) :
    Moment.op? ⟨s, a⟩ = some op := by
  unfold Moment.op?
  rw [hf]
  cases a <;> first | exact ho | cases ho

theorem op?_of_inside (ho : a.op? = none) (hc : ∀ j fault, a ≠ .call j fault) :
    Moment.op? ⟨s, a⟩ = none := by
  unfold Moment.op?
  dsimp only
  split
  · rfl
  · split
    · exact absurd rfl (hc _ _)
    · exact ho

theorem op?_of_idle (ha : a.idle = true) : Moment.op? ⟨s, a⟩ = none := by
  refine op?_of_inside ?_ ?_
  · cases a <;> first | rfl | cases ha
  · rintro j fault rfl
    cases ha

/-- Only callers and those outside ask for ids, and only those who wait take markers. -/
theorem Asks.idle {op : Store.Op} (h : Asks s a op) (ha : a.idle = true) :
    (∀ l id p, op ≠ .enqueue l id p) ∧ ∀ l, op ≠ .takeMarker l := by
  cases h with
  | outside ho => cases a <;> cases ho <;> cases ha
  | mark => cases ha
  | claim => cases ha
  | seek => cases ha
  | look => cases ha
  | ask => cases ha
  | _ => exact ⟨nofun, nofun⟩

/-- Nobody who waits for work asks for any. -/
theorem raises_of_awaiter (ha : a.awaiter? = some who) (k : Keys) :
    Moment.raises ⟨s, a⟩ k = false := by
  have ho : Moment.op? ⟨s, a⟩ = none := by
    cases a with
    | seeker => exact op?_of_inside rfl nofun
    | loop => exact op?_of_inside rfl nofun
    | _ => cases ha
  simp [Moment.raises, ho]

/-- Whoever does not wait takes no marker, and adds one if it puts an id into line or moves one
up. -/
theorem Step.ledger_rest (h : Step s a s') (ha : a.awaiter? = none) (k : Keys) :
    (s'.store.queue k).markers = (s.store.queue k).markers + (Moment.raises ⟨s, a⟩ k).toNat := by
  have asked {op : Store.Op} (ho : Moment.op? ⟨s, a⟩ = some op)
      (hs : s'.store = op.apply s.store s.now) (hm : ∀ l, op ≠ .takeMarker l) :
      (s'.store.queue k).markers =
        (s.store.queue k).markers + (Moment.raises ⟨s, a⟩ k).toNat := by
    simp only [Moment.raises, ho, Option.any_some, hs]
    exact (Store.ledger_of_apply hm s.store s.now k).1
  have unasked (ho : Moment.op? ⟨s, a⟩ = none) (hs : (s'.store.ledger k).2 = (s.store.ledger k).2) :
      (s'.store.queue k).markers =
        (s.store.queue k).markers + (Moment.raises ⟨s, a⟩ k).toNat := by
    simp only [Store.ledger, Prod.mk.injEq] at hs
    simp [Moment.raises, ho, hs.1]
  have idle (ha : a.idle = true) : (s'.store.queue k).markers =
      (s.store.queue k).markers + (Moment.raises ⟨s, a⟩ k).toNat := by
    refine unasked (op?_of_idle ha) ?_
    rcases h.does with hd | ⟨op, hop, hd⟩
    · rw [hd]
    · obtain ⟨he, hm⟩ := hop.idle ha
      rw [hd, Store.ledger_of_idle he hm]
  cases h with
  | @call j fault x x' c n store events hx hc hs =>
      have hop : fault = none → Moment.op? ⟨s, .call j fault⟩ = x.op? c.settings := by
        rintro rfl
        simp [Moment.op?, Action.fault?, hx, hc]
      rcases hs.store_cases with ⟨rfl, hf⟩ | ⟨rfl, op, ho, hst, hm⟩
      · refine unasked ?_ rfl
        cases fault with
        | some e => rfl
        | none => exact (hop rfl).trans (hf.resolve_left fun hn => hn rfl)
      · exact asked ((hop rfl).trans ho) hst hm
  | outside ho hf =>
      refine asked (op?_of_outside ho hf) rfl fun l he => ?_
      subst he
      cases a <;> cases ho
  | denied ho hf => exact unasked (by simp [Moment.op?, hf]) rfl
  | @loop i m fault c p p' store events hc hp hl =>
      cases m with
      | stop =>
          cases hl with
          | stop hs hl => exact unasked (op?_of_inside rfl (by simp)) rfl
      | advance => cases ha
  | seeker => cases ha
  | _ => exact idle rfl

/-- What a step adds to the markers of a queue and takes from them. -/
theorem Step.ledger (h : Step s a s') (k : Keys) :
    (s'.store.queue k).markers + (decide (Moment.returns? ⟨s, a⟩ = some (k, true))).toNat =
      (s.store.queue k).markers + (Moment.raises ⟨s, a⟩ k).toNat := by
  cases ha : a.awaiter? with
  | some who =>
      rw [raises_of_awaiter ha]
      obtain ⟨x, w', hx, -, hturn⟩ := h.turn ha
      have hwait : s.wait? who = x.wait? := by simp [wait?, hx]
      cases hw : x.wait? with
      | none =>
          rw [hw] at hturn hwait
          have hr : Moment.returns? ⟨s, a⟩ = none := by simp [Moment.returns?, ha, hwait]
          have hl := hturn.of_none.1 k
          simp only [Store.ledger, Prod.mk.injEq] at hl
          simp [hr, hl.1]
      | some w =>
          rw [hw] at hturn hwait
          obtain ⟨progress, hs, -⟩ := hturn.of_some
          rcases Wait.step_cases hs with ⟨w', rfl, hstore, -⟩ | ⟨rfl, ht⟩ | ⟨rfl, hstore, -⟩
          · have hr : Moment.returns? ⟨s, a⟩ = none := by simp [Moment.returns?, ha, hwait, hs]
            simp [hr, hstore]
          · have hr : Moment.returns? ⟨s, a⟩ = some (w.keys, true) := by
              simp [Moment.returns?, ha, hwait, hs]
            simpa [hr] using (Store.markers_takeMarker ht k).1
          · have hr : Moment.returns? ⟨s, a⟩ = some (w.keys, false) := by
              simp [Moment.returns?, ha, hwait, hs]
            simp [hr, hstore]
  | none =>
      have hr : Moment.returns? ⟨s, a⟩ = none := by simp [Moment.returns?, ha]
      simpa [hr] using h.ledger_rest ha k

theorem run_ledger {as : List Action} (hr : run? {} as = some s) (k : Keys) :
    returned (moments {} as) k + (s.store.queue k).markers = raised (moments {} as) k := by
  refine run_induction (P := fun past u =>
    returned past k + (u.store.queue k).markers = raised past k) (A := fun _ => True)
    (by simp [returned, raised, Store.queue]) ?_ (fun _ _ => trivial) hr
  intro past u a u' hu _ h
  have hl := h.ledger k
  have hone (b : Bool) : (if b = true then 1 else 0) = b.toNat := by cases b <;> rfl
  simp only [returned, raised, List.countP_append, List.countP_singleton, hone] at hu ⊢
  omega

/-! ### Deadlines -/

end System

/-- Whether a wait of `who` begins with a moment. -/
def Moment.starts (m : Moment) (who : Awaiter) : Bool :=
  (m.before.wait? who).isNone && (m.before.step? m.action).any fun s => (s.wait? who).isSome

namespace System

variable {s s' : System} {a : Action} {who : Awaiter} {past : List Moment}

/-- When the last wait of `who` began. -/
def started? (past : List Moment) (who : Awaiter) : Option Instant :=
  (past.filter (·.starts who)).getLast?.map (·.before.now)

theorem started?_concat (past : List Moment) (m : Moment) (who : Awaiter) :
    started? (past ++ [m]) who =
      if m.starts who then some m.before.now else started? past who := by
  unfold started?
  rw [List.filter_append]
  cases hm : m.starts who <;> simp [hm]

/-- The wait of `who`, if one is on, is fresh, and its deadline was set when it began. -/
def OnTime (past : List Moment) (who : Awaiter) (s : System) : Prop :=
  ∀ x w, s.post? who = some x → x.wait? = some w →
    w.keys = x.keys ∧ w.Fresh s.store ∧
      ∃ start, started? past who = some start ∧ start.after? x.timeout = some w.deadline

theorem onTime_start (who : Awaiter) : OnTime [] who {} := by
  intro x w hx
  cases who <;> simp [post?] at hx

/-- Whatever a step does to the store, a wait stays fresh. -/
theorem Step.fresh {w : Wait} (h : Step s a s') (hw : w.Fresh s.store) : w.Fresh s'.store := by
  rcases h.does with hd | ⟨op, -, hd⟩
  · rw [hd]
    exact hw
  · rw [hd]
    exact hw.apply s.now

/-- A wait that is on does not begin. -/
theorem started?_of_wait {x : Post} {w : Wait} (hx : s.post? who = some x)
    (hw : x.wait? = some w) : started? (past ++ [⟨s, a⟩]) who = started? past who := by
  rw [started?_concat]
  simp [Moment.starts, wait?, hx, hw]

theorem started?_of_start {x x' : Post} {w : Wait} (h : s.step? a = some s')
    (hx : s.post? who = some x) (hw : x.wait? = none) (hx' : s'.post? who = some x')
    (hw' : x'.wait? = some w) : started? (past ++ [⟨s, a⟩]) who = some s.now := by
  have hb : Moment.starts ⟨s, a⟩ who = true := by simp [Moment.starts, wait?, hx, hw, h, hx', hw']
  rw [started?_concat, hb]
  rfl

theorem step?_onTime (h : s.step? a = some s') (hs : s.OnTime past who) :
    s'.OnTime (past ++ [⟨s, a⟩]) who := by
  intro x' w' hx' hw'
  have hn := (step_of h).next who
  rw [hx'] at hn
  cases hx : s.post? who with
  | none =>
      rw [hx] at hn
      cases hn with
      | comes => cases hw'
  | some x =>
      rw [hx] at hn
      cases hn with
      | rests =>
          obtain ⟨hk, hf, hstart⟩ := hs x' w' hx hw'
          rw [started?_of_wait hx hw']
          exact ⟨hk, (step_of h).fresh hf, hstart⟩
      | dropped => cases hw'
      | turn ha hturn =>
          cases hw : x.wait? with
          | none =>
              rw [started?_of_start h hx hw hx' hw']
              dsimp only at hw'
              rw [hw, hw'] at hturn
              obtain ⟨d, hd, rfl⟩ := Option.map_eq_some_iff.mp (hturn.of_none.2 w' rfl)
              exact ⟨rfl, trivial, s.now, rfl, hd⟩
          | some w =>
              dsimp only at hw'
              rw [hw, hw'] at hturn
              obtain ⟨progress, hstep, he⟩ := hturn.of_some
              obtain ⟨hk, hf, start, hstart, hd⟩ := hs x w hx hw
              rw [started?_of_wait hx hw]
              rcases Wait.step_cases hstep with ⟨v, rfl, hstore, hk', hd', -⟩ | ⟨rfl, -⟩ | ⟨rfl, -⟩
              · obtain rfl := Option.some.inj he
                obtain ⟨-, -, hf'⟩ := hf.step hstep
                rw [hstore, hk', hd']
                exact ⟨hk, hf', start, hstart, hd⟩
              · cases he
              · cases he

theorem run_onTime {as : List Action} (hr : run? {} as = some s) (who : Awaiter) :
    s.OnTime (moments {} as) who :=
  run_induction_step? (P := fun past u => u.OnTime past who) (A := fun _ => True)
    (onTime_start who) (fun _ _ _ _ hu _ h => step?_onTime h hu) (fun _ _ => trivial) hr

/-! ### Waits end -/

/-- `Fares s a s' who w`: what becomes of the wait `w` of `who` with the action `a`. -/
inductive Fares (s : System) (a : Action) (s' : System) (who : Awaiter) (w : Wait) : Prop
  | rests (ha : a.awaiter? ≠ some who) (hw : s'.wait? who = some w)
  | dropped (ha : a.dropped? = some who) (hw : s'.wait? who = none)
  /-- It takes a step and is closer to its end. -/
  | goesOn {w' : Wait} (hr : Moment.returns? ⟨s, a⟩ = none) (hw : s'.wait? who = some w')
      (hk : w'.keys = w.keys) (hd : w'.deadline = w.deadline) (hs : s'.store = s.store)
      (hl : w'.laps s'.store < w.laps s.store)
  /-- It returns with work and has taken a marker. -/
  | works (hr : Moment.returns? ⟨s, a⟩ = some (w.keys, true)) (hw : s'.wait? who = none)
      (ht : s.store.takeMarker w.keys = some s'.store)
  /-- It returns without work, not before its deadline, and has taken nothing. -/
  | givesUp (hr : Moment.returns? ⟨s, a⟩ = some (w.keys, false)) (hw : s'.wait? who = none)
      (hs : s'.store = s.store) (hd : w.deadline ≤ s.now)

theorem Step.fares (h : Step s a s') {w : Wait} (hw : s.wait? who = some w) :
    Fares s a s' who w := by
  obtain ⟨x, hx, hxw⟩ := Option.bind_eq_some_iff.mp hw
  have hn := h.next who
  rw [hx] at hn
  cases hx' : s'.post? who with
  | none =>
      rw [hx'] at hn
      cases hn
  | some x' =>
      have hw' : s'.wait? who = x'.wait? := by simp [wait?, hx']
      rw [hx'] at hn
      cases hn with
      | rests ha => exact .rests ha (hw'.trans hxw)
      | dropped ha => exact .dropped ha hw'
      | turn ha hturn =>
          rw [hxw] at hturn
          obtain ⟨progress, hstep, rfl⟩ := hturn.of_some
          have hr : Moment.returns? ⟨s, a⟩ = match progress with
              | .finished work => some (w.keys, work)
              | .waiting _ => none := by
            simp only [Moment.returns?, ha, hw, hstep, Option.bind_eq_bind, Option.bind_some]
            cases progress <;> rfl
          rcases Wait.step_cases hstep with ⟨v, rfl, hs, hk, hd, hl⟩ | ⟨rfl, ht⟩ | ⟨rfl, hs, hd⟩
          · exact .goesOn hr hw' hk hd hs (hs ▸ hl)
          · exact .works hr hw' ht
          · exact .givesUp hr hw' hs hd

/-- Whoever cannot take a step waits in vain. -/
theorem blocked_of_wait {w : Wait} (hw : s.wait? who = some w) (h : s.step? who.step = none) :
    w.step? s.store s.now = none := by
  cases hstep : w.step? s.store s.now with
  | none => rfl
  | some next =>
      obtain ⟨x, hx, hxw⟩ := Option.bind_eq_some_iff.mp hw
      cases who with
      | seeker j =>
          obtain ⟨y, hy, rfl⟩ := Option.map_eq_some_iff.mp hx
          have hp := Seeker.wait?_eq_some.mp hxw
          simp [Awaiter.step, step?, hy, Seeker.step?, hp, hstep] at h
      | loop i =>
          obtain ⟨c, hc, rfl⟩ := Option.map_eq_some_iff.mp hx
          obtain ⟨p, hp, hpw⟩ := Option.bind_eq_some_iff.mp hxw
          have hl := Pool.wait?_eq_some.mp hpw
          simp [Awaiter.step, step?, hc, hp, Pool.stepLoop?, Pool.advanceLoop?, hl, context,
            hstep] at h

/-- **Markers are neither lost nor duplicated.**  In every run, whoever waits for work of whatever
queues, however their steps and those of all others are mixed, and whoever of them is dropped:

* The waits for a queue that returned with work, and the markers that are left, are as many as the
  ids that were put into line or moved up.
* The deadline of a wait was set when it began, to its own timeout.  Every step leaves the wait
  alone or drops it, or is one of its own: then it goes on with the same deadline, takes a marker,
  or has reached its deadline and takes nothing.  Unless others give signals, it has only a few
  steps to go.
* A wait that cannot take a step has no marker to take, and its deadline is yet to come. -/
theorem markers_exact {as : List Action} (hr : run? {} as = some s) :
    (∀ k, returned (moments {} as) k + (s.store.queue k).markers = raised (moments {} as) k) ∧
      ∀ who x w, s.post? who = some x → x.wait? = some w →
        (w.keys = x.keys ∧
          ∃ start, started? (moments {} as) who = some start ∧
            start.after? x.timeout = some w.deadline) ∧
        (∀ a s', s.step? a = some s' → Fares s a s' who w) ∧
        (s.step? who.step = none → (s.store.queue w.keys).markers = 0 ∧ s.now < w.deadline) := by
  refine ⟨run_ledger hr, fun who x w hx hxw => ?_⟩
  have hw : s.wait? who = some w := by simp [wait?, hx, hxw]
  obtain ⟨hk, hf, hstart⟩ := run_onTime hr who x w hx hxw
  refine ⟨⟨hk, hstart⟩, fun a s' h => (step_of h).fares hw, fun h => ?_⟩
  exact hf.blocked (blocked_of_wait hw h)

/-- Two wait for the same queue and one for another.  An id is queued, and the second to wake up
finds no marker any more. -/
def contended : List Action :=
  List.flatten [
    [.seek ⟨"q"⟩ ⟨5⟩, .seek ⟨"q"⟩ ⟨5⟩, .seek ⟨"r"⟩ ⟨9⟩],
    .replicate 3 (.seeker 0 none), .replicate 3 (.seeker 1 none), .replicate 3 (.seeker 2 none),
    [.tick ⟨2⟩, .enqueue ⟨"q"⟩ "x" 0 none],
    .replicate 3 (.seeker 1 none), .replicate 3 (.seeker 0 none)]

theorem markers_exact_contended :
    ∃ s x w, run? {} contended = some s ∧ s.post? (.seeker 0) = some x ∧ x.wait? = some w ∧
      w = ⟨⟨"q"⟩, 5, .asleep 1⟩ ∧ s.step? (.seeker 0 none) = none ∧ s.now = 2 ∧
      raised (moments {} contended) ⟨"q"⟩ = 1 ∧ returned (moments {} contended) ⟨"q"⟩ = 1 ∧
      returned (moments {} contended) ⟨"q"⟩ + (s.store.queue ⟨"q"⟩).markers = 1 ∧
      (s.store.queue w.keys).markers = 0 ∧ s.now < w.deadline := by
  have hd : (run? {} contended).any (fun s =>
      s.wait? (.seeker 0) = some ⟨⟨"q"⟩, 5, .asleep 1⟩ && s.now = 2 &&
        (s.step? (.seeker 0 none)).isNone) = true := by decide +kernel
  obtain ⟨s, hr, hd⟩ := (Option.any_eq_true _ _).mp hd
  simp only [Bool.and_eq_true, decide_eq_true_eq, Option.isNone_iff_eq_none] at hd
  obtain ⟨⟨hw, hnow⟩, hstuck⟩ := hd
  obtain ⟨x, hx, hxw⟩ := Option.bind_eq_some_iff.mp hw
  have hraised : raised (moments {} contended) ⟨"q"⟩ = 1 := by decide +kernel
  obtain ⟨hledger, hwaits⟩ := markers_exact hr
  obtain ⟨hzero, hlt⟩ := (hwaits _ x _ hx hxw).2.2 hstuck
  exact ⟨s, x, _, hr, hx, hxw, rfl, hstuck, hnow, hraised, by decide +kernel,
    (hledger ⟨"q"⟩).trans hraised, hzero, hlt⟩

end System

end ReadThrough
