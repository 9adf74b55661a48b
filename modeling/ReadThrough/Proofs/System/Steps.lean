import ReadThrough.Proofs.Call.Steps
import ReadThrough.Proofs.Notifier.Steps
import ReadThrough.Proofs.Pool.Steps
import ReadThrough.Proofs.Store.Ledger
import ReadThrough.System

/-! # The steps of the system, one by one

* **Actions** are sorted by what they are about: the operation that they ask of the store from
  outside (`Action.op?`), the fault that they carry (`Action.fault?`) and the queue that they name
  (`Action.queue?`).
* **Rules** (`System.Step`, `step_of`).  One rule for each kind of action, over the rules of the
  notifier, the pool and the caller.
* **The store** (`System.Asks`, `Step.does`).  A step asks for at most one operation of the
  store. -/

namespace ReadThrough

namespace Action

/-- The operation that somebody outside asks for, if the action is one. -/
def op? : Action → Option Store.Op
  | enqueue k id p _ => some (.enqueue k id p)
  | dequeue k _ => some (.dequeue k)
  | complete k id c _ => some (.complete k id c)
  | lookup k id _ => some (.lookup k id)
  | isFinished k id _ => some (.isFinished k id)
  | subscribe channel _ => some (.subscribe channel)
  | receive feed => some (.receive feed)
  | unsubscribe feed => some (.unsubscribe feed)
  | disconnect => some .disconnect
  | reconnect => some .reconnect
  | closeFeeds => some .closeFeeds
  | _ => none

/-- The fault that takes the place of the answer of the store. -/
def fault? : Action → Option Error
  | notifier _ _ fault => fault
  | loop _ _ fault => fault
  | worker _ _ _ fault => fault
  | call _ fault => fault
  | seeker _ fault => fault
  | openCache _ _ fault => fault
  | openNotifier _ fault => fault
  | enqueue _ _ _ fault => fault
  | dequeue _ fault => fault
  | complete _ _ _ fault => fault
  | lookup _ _ fault => fault
  | isFinished _ _ fault => fault
  | subscribe _ fault => fault
  | _ => none

/-- The queue that an action names, if it names one. -/
def queue? : Action → Option String
  | openCache settings _ _ => some settings.queue
  | openNotifier k _ => some k.name
  | seek k _ => some k.name
  | enqueue k _ _ _ => some k.name
  | dequeue k _ => some k.name
  | complete k _ _ _ => some k.name
  | lookup k _ _ => some k.name
  | isFinished k _ _ => some k.name
  | _ => none

/-- Whether an action names no queue but `q`. -/
def On (q : String) (a : Action) : Prop := ∀ r ∈ a.queue?, r = q

instance (q : String) (a : Action) : Decidable (a.On q) :=
  inferInstanceAs (Decidable (∀ r ∈ a.queue?, r = q))

/-- An operation from outside is about the queue that the action names. -/
theorem keys_of_op? {a : Action} {op : Store.Op} {q : String} (ho : a.op? = some op)
    (ha : a.On q) : ∀ l ∈ op.keys?, l = ⟨q⟩ := by
  intro l hl
  cases a <;> cases ho <;> cases hl <;> exact congrArg Keys.mk (ha _ rfl)

/-- Whether somebody outside of the worker pools claims a task or writes a result. -/
def intrudes : Action → Bool
  | dequeue .. => true
  | complete .. => true
  | _ => false

/-- Whether an action is a step of a worker pool. -/
def pools : Action → Bool
  | loop .. => true
  | worker .. => true
  | _ => false

/-- Whether a computation takes its worker down. -/
def collapses : Action → Bool
  | worker _ _ m _ => m.collapses
  | _ => false

/-- Without intrusion, somebody outside asks for ids at most. -/
theorem mild_of_op? {a : Action} {op : Store.Op} (ho : a.op? = some op)
    (hi : a.intrudes = false) : op.quiet = true ∨ ∃ k id p, op = .enqueue k id p := by
  cases a <;> cases ho <;> cases hi <;> first | exact Or.inl rfl | exact Or.inr ⟨_, _, _, rfl⟩

theorem pools_of_op? {a : Action} {op : Store.Op} (ho : a.op? = some op) : a.pools = false := by
  cases a <;> first | rfl | cases ho

end Action

/-- A new cache that listens to a feed. -/
def Cache.fresh (settings : Settings) (computes : Bool) (feed : Nat) : Cache :=
  let pool := if computes then some (Pool.start settings.workers) else none
  { settings, notifier := { keys := settings.keys, feed }, pool, background := Cache.tasks pool }

/-- A new cache has a new pool, if it has one. -/
theorem Cache.pool_fresh {settings : Settings} {computes : Bool} {feed : Nat} {p : Pool}
    (hp : (Cache.fresh settings computes feed).pool = some p) :
    p = Pool.start settings.workers := by
  cases computes with
  | true => exact (Option.some.inj hp).symm
  | false => cases hp

/-- A shutdown raises the stop signal, takes the background tasks over, sees one of those end that
it waits for, or returns when there are none. -/
theorem Closing.step_cases {x x' : Closing} {c c' : Cache} {events : List Event}
    (h : x.step? c = some (x', c', events)) :
    x'.cache = x.cache ∧
      (x.phase = .signalling ∧ x'.phase = .taking ∧ c' = { c with stopping := true } ∨
        x.phase = .taking ∧ x'.phase = .joining c.background ∧ c' = { c with background := [] } ∨
        (∃ t rest, x.phase = .joining (t :: rest) ∧ c.taskEnded t = true ∧
          x'.phase = .joining rest ∧ c' = c) ∨
        x.phase = .joining [] ∧ x'.phase = .done ∧ c' = c) := by
  unfold step? at h
  split at h
  · rename_i hp
    obtain ⟨rfl, rfl, -⟩ := by simpa using h
    exact ⟨rfl, Or.inl ⟨hp, rfl, rfl⟩⟩
  · rename_i hp
    obtain ⟨rfl, rfl, -⟩ := by simpa using h
    exact ⟨rfl, Or.inr (Or.inl ⟨hp, rfl, rfl⟩)⟩
  · rename_i t rest hp
    split at h
    · rename_i he
      obtain ⟨rfl, rfl, -⟩ := by simpa using h
      exact ⟨rfl, Or.inr (Or.inr (Or.inl ⟨t, rest, hp, he, rfl, rfl⟩))⟩
    · cases h
  · rename_i hp
    obtain ⟨rfl, rfl, -⟩ := by simpa using h
    exact ⟨rfl, Or.inr (Or.inr (Or.inr ⟨hp, rfl, rfl⟩))⟩
  · cases h
  · cases h

/-- A shutdown changes the stop signal and the background tasks of a cache only. -/
theorem Closing.step_keeps {x x' : Closing} {c c' : Cache} {events : List Event}
    (h : x.step? c = some (x', c', events)) :
    c'.settings = c.settings ∧ c'.notifier = c.notifier ∧ c'.pool = c.pool := by
  obtain ⟨-, ⟨-, -, rfl⟩ | ⟨-, -, rfl⟩ | ⟨t, rest, -, -, -, rfl⟩ | ⟨-, -, rfl⟩⟩ := step_cases h <;>
    exact ⟨rfl, rfl, rfl⟩

/-- A shutdown raises a stop signal at most. -/
theorem Closing.stopping_of_step {x x' : Closing} {c c' : Cache} {events : List Event}
    (h : x.step? c = some (x', c', events)) : c'.stopping = c.stopping ∨ c'.stopping = true := by
  obtain ⟨-, ⟨-, -, rfl⟩ | ⟨-, -, rfl⟩ | ⟨t, rest, -, -, -, rfl⟩ | ⟨-, -, rfl⟩⟩ := step_cases h
  · exact Or.inr rfl
  · exact Or.inl rfl
  · exact Or.inl rfl
  · exact Or.inl rfl

namespace System

/-- `Step s a s'`: the action `a` leads from `s` to `s'`. -/
inductive Step (s : System) : Action → System → Prop
  | notifier {i : Nat} {m : Notifier.Move} {fault : Option Error} {c : Cache} {n : Notifier}
      {store : Store} {events : List Event} (hc : s.caches[i]? = some c)
      (hn : c.notifier.Step s.store s.now c.stopping fault m n store events) :
      Step s (.notifier i m fault)
        ({ (s.setCache i { c with notifier := n }) with store }.note events)
  | loop {i : Nat} {m : Pool.LoopMove} {fault : Option Error} {c : Cache} {p p' : Pool}
      {store : Store} {events : List Event} (hc : s.caches[i]? = some c) (hp : c.pool = some p)
      (hl : Pool.LoopStep (s.context c fault) p s.store m p' store events) :
      Step s (.loop i m fault)
        ({ (s.setCache i { c with pool := some p' }) with store }.note events)
  | worker {i k : Nat} {m : Pool.WorkerMove} {fault : Option Error} {c : Cache} {p p' : Pool}
      {store : Store} {events : List Event} (hc : s.caches[i]? = some c) (hp : c.pool = some p)
      (hw : Pool.WorkerStep (s.context c fault) p s.store k m p' store events) :
      Step s (.worker i k m fault)
        ({ (s.setCache i { c with pool := some p' }) with store }.note events)
  | call {j : Nat} {fault : Option Error} {x x' : Call} {c : Cache} {n : Notifier} {store : Store}
      {events : List Event} (hx : s.calls[j]? = some x) (hc : s.caches[x.cache]? = some c)
      (hs : x.Step c.settings s.now fault c.notifier s.store x' n store events) :
      Step s (.call j fault)
        ({ (s.setCache x.cache { c with notifier := n }) with
          store, calls := s.calls.set j x' }.note events)
  | cancel {j : Nat} {x : Call} {c : Cache} (hx : s.calls[j]? = some x)
      (hc : s.caches[x.cache]? = some c) :
      Step s (.cancel j)
        { (s.setCache x.cache { c with notifier := (x.cancel c.notifier).2 }) with
          calls := s.calls.set j (x.cancel c.notifier).1 }
  | closing {j : Nat} {x x' : Closing} {c c' : Cache} {events : List Event}
      (hx : s.closings[j]? = some x) (hc : s.caches[x.cache]? = some c)
      (hs : x.step? c = some (x', c', events)) :
      Step s (.closing j)
        ({ (s.setCache x.cache c') with closings := s.closings.set j x' }.note events)
  | cancelClosing {j : Nat} {x : Closing} (hx : s.closings[j]? = some x) :
      Step s (.cancelClosing j)
        { s with
          closings := s.closings.set j
            (if x.phase = .done then x else { x with phase := .cancelled }) }
  | seeker {j : Nat} {fault : Option Error} {x x' : Seeker} {store : Store}
      (hx : s.seekers[j]? = some x) (hs : x.step? s.now fault s.store = some (x', store)) :
      Step s (.seeker j fault) { s with store, seekers := s.seekers.set j x' }
  | cancelSeeker {j : Nat} {x : Seeker} (hx : s.seekers[j]? = some x) :
      Step s (.cancelSeeker j)
        { s with
          seekers := s.seekers.set j (if x.ended then x else { x with phase := .cancelled }) }
  | openCache {settings : Settings} {computes : Bool} {events : List Event}
      (hr : refusal? settings computes = none) :
      Step s (.openCache settings computes none)
        ({ s with
          caches := s.caches ++ [Cache.fresh settings computes s.store.feeds.length]
          store := (s.store.subscribe settings.keys.channel).2 }.note events)
  | openNotifier {k : Keys} :
      Step s (.openNotifier k none)
        { s with
          caches := s.caches ++ [Cache.fresh { queue := k.name } false s.store.feeds.length]
          store := (s.store.subscribe k.channel).2 }
  | notOpened {settings : Settings} {computes : Bool} {fault : Option Error} :
      Step s (.openCache settings computes fault) s
  | startCrash {settings : Settings} {computes : Bool} {events : List Event} {message : String}
      (hm : startCrash? settings computes = some message) :
      Step s (.openCache settings computes none) (s.note events)
  | noNotifier {k : Keys} {e : Error} : Step s (.openNotifier k (some e)) s
  | drop {i : Nat} {c : Cache} (hc : s.caches[i]? = some c) :
      Step s (.drop i) (s.setCache i { c with stopping := true })
  | get {i : Nat} {id : Id} {p : Priority} (hi : i < s.caches.length) :
      Step s (.get i id p) { s with calls := s.calls ++ [{ cache := i, id, priority := p }] }
  | shutdown {i : Nat} (hi : i < s.caches.length) :
      Step s (.shutdown i) { s with closings := s.closings ++ [{ cache := i }] }
  | seek {k : Keys} {timeout : Duration} :
      Step s (.seek k timeout) { s with seekers := s.seekers ++ [{ keys := k, timeout }] }
  | watch {i w : Nat} {id : Id} {c : Cache} {n : Notifier} (hc : s.caches[i]? = some c)
      (hn : c.notifier.subscribe? id = some (w, n)) :
      Step s (.watch i id) (s.setCache i { c with notifier := n })
  | leave {i w : Nat} {c : Cache} (hc : s.caches[i]? = some c) :
      Step s (.leave i w) (s.setCache i { c with notifier := c.notifier.leave w })
  | release {i : Nat} {id : Id} {c : Cache} (hc : s.caches[i]? = some c) :
      Step s (.release i id) (s.setCache i { c with notifier := c.notifier.release id })
  | outside {a : Action} {op : Store.Op} {events : List Event} (ho : a.op? = some op)
      (hf : a.fault? = none) :
      Step s a ({ s with store := op.apply s.store s.now }.note events)
  | denied {a : Action} {op : Store.Op} {e : Error} (ho : a.op? = some op)
      (hf : a.fault? = some e) : Step s a s
  | tick {span : Duration} : Step s (.tick span) { s with now := s.now + span.nanos }

variable {s s' : System}

/-- What settings meet that are not refused. -/
theorem refusal?_none {settings : Settings} {computes : Bool}
    (h : refusal? settings computes = none) :
    0 < settings.errorTtl.nanos ∧ (computes = true → settings.workers ≠ 0) := by
  unfold refusal? at h
  split at h
  · cases h
  · rename_i hp
    unfold Settings.problem? at hp
    constructor
    · split at hp
      · cases hp
      · split at hp
        · cases hp
        · rename_i ht
          exact Nat.pos_of_ne_zero (by simpa [Duration.isZero] using ht)
    · rintro hc hw
      simp [hc, hw] at h

/-- Settings that are not refused leave time for a pause. -/
theorem pollTimeout_pos_of_refusal? {settings : Settings} {computes : Bool}
    (h : refusal? settings computes = none) : 0 < settings.pollTimeout.nanos := by
  refine Nat.pos_of_ne_zero fun hz => ?_
  have hp : settings.problem? ≠ none := by
    simp [Settings.problem?, Duration.isZero, hz]
    split
    · nofun
    · split <;> nofun
  unfold refusal? at h
  split at h
  · cases h
  · exact absurd ‹_› hp

/-- A cache is opened if its settings can be used, its notifier can subscribe and its pool can
start. -/
theorem step_openCache {settings : Settings} {computes : Bool} {fault : Option Error} :
    Step s (.openCache settings computes fault) (s.openCache settings computes fault).2 := by
  unfold openCache
  cases hr : refusal? settings computes with
  | some e => exact .notOpened
  | none =>
      cases fault with
      | some e => exact .notOpened
      | none =>
          simp only [subscribe]
          cases hm : startCrash? settings computes with
          | some message => exact .startCrash hm
          | none => exact .openCache hr

/-- What somebody outside asks for happens, unless there is a fault. -/
theorem step_outside {a : Action} {op : Store.Op} {t : System} (ho : a.op? = some op)
    (hn : a.fault? = none → ∃ events, t = { s with store := op.apply s.store s.now }.note events)
    (he : ∀ e, a.fault? = some e → t = s) : Step s a t := by
  cases hf : a.fault? with
  | none =>
      obtain ⟨events, rfl⟩ := hn hf
      exact .outside ho hf
  | some e =>
      obtain rfl := he e hf
      exact .denied ho hf

/-- What somebody outside asks for may leave no trace. -/
theorem step_silent (a : Action) {op : Store.Op} (ho : a.op? = some op) (hf : a.fault? = none) :
    Step s a { s with store := op.apply s.store s.now } := by
  have h : Step s a ({ s with store := op.apply s.store s.now }.note []) := .outside ho hf
  exact h

theorem step_of {a : Action} (h : s.step? a = some s') : Step s a s' := by
  cases a with
  | notifier i m fault =>
      obtain ⟨c, hc, h⟩ := Option.bind_eq_some_iff.mp h
      obtain ⟨⟨n, store, events⟩, hn, h⟩ := Option.bind_eq_some_iff.mp h
      obtain rfl := Option.some.inj h
      exact .notifier hc (Notifier.step_of hn)
  | loop i m fault =>
      obtain ⟨c, hc, h⟩ := Option.bind_eq_some_iff.mp h
      obtain ⟨p, hp, h⟩ := Option.bind_eq_some_iff.mp h
      obtain ⟨⟨p', store, events⟩, hl, h⟩ := Option.bind_eq_some_iff.mp h
      obtain rfl := Option.some.inj h
      exact .loop hc hp (Pool.loopStep_of hl)
  | worker i k m fault =>
      obtain ⟨c, hc, h⟩ := Option.bind_eq_some_iff.mp h
      obtain ⟨p, hp, h⟩ := Option.bind_eq_some_iff.mp h
      obtain ⟨⟨p', store, events⟩, hw, h⟩ := Option.bind_eq_some_iff.mp h
      obtain rfl := Option.some.inj h
      exact .worker hc hp (Pool.workerStep_of hw)
  | call j fault =>
      obtain ⟨x, hx, h⟩ := Option.bind_eq_some_iff.mp h
      obtain ⟨c, hc, h⟩ := Option.bind_eq_some_iff.mp h
      obtain ⟨⟨x', n, store, events⟩, hs, h⟩ := Option.bind_eq_some_iff.mp h
      obtain rfl := Option.some.inj h
      exact .call hx hc (Call.step_of hs)
  | cancel j =>
      obtain ⟨x, hx, h⟩ := Option.bind_eq_some_iff.mp h
      obtain ⟨c, hc, h⟩ := Option.bind_eq_some_iff.mp h
      obtain rfl := Option.some.inj h
      exact .cancel hx hc
  | closing j =>
      obtain ⟨x, hx, h⟩ := Option.bind_eq_some_iff.mp h
      obtain ⟨c, hc, h⟩ := Option.bind_eq_some_iff.mp h
      obtain ⟨⟨x', c', events⟩, hs, h⟩ := Option.bind_eq_some_iff.mp h
      obtain rfl := Option.some.inj h
      exact .closing hx hc hs
  | cancelClosing j =>
      obtain ⟨x, hx, h⟩ := Option.bind_eq_some_iff.mp h
      obtain rfl := Option.some.inj h
      exact .cancelClosing hx
  | seeker j fault =>
      obtain ⟨x, hx, h⟩ := Option.bind_eq_some_iff.mp h
      obtain ⟨⟨x', store⟩, hs, h⟩ := Option.bind_eq_some_iff.mp h
      obtain rfl := Option.some.inj h
      exact .seeker hx hs
  | cancelSeeker j =>
      obtain ⟨x, hx, h⟩ := Option.bind_eq_some_iff.mp h
      obtain rfl := Option.some.inj h
      exact .cancelSeeker hx
  | openCache settings computes fault =>
      obtain rfl := Option.some.inj h
      exact step_openCache
  | openNotifier k fault =>
      obtain rfl := Option.some.inj h
      cases fault with
      | some e => exact .noNotifier
      | none => exact .openNotifier
  | drop i =>
      obtain ⟨c, hc, h⟩ := Option.bind_eq_some_iff.mp h
      obtain rfl := Option.some.inj h
      exact .drop hc
  | get i id p =>
      obtain ⟨hi, h⟩ := Option.ite_none_right_eq_some.mp h
      obtain rfl := Option.some.inj h
      exact .get hi
  | shutdown i =>
      obtain ⟨hi, h⟩ := Option.ite_none_right_eq_some.mp h
      obtain rfl := Option.some.inj h
      exact .shutdown hi
  | seek k timeout =>
      obtain rfl := Option.some.inj h
      exact .seek
  | watch i id =>
      obtain ⟨c, hc, h⟩ := Option.bind_eq_some_iff.mp h
      obtain ⟨⟨w, n⟩, hn, h⟩ := Option.bind_eq_some_iff.mp h
      obtain rfl := Option.some.inj h
      exact .watch hc hn
  | leave i w =>
      obtain ⟨c, hc, h⟩ := Option.bind_eq_some_iff.mp h
      obtain rfl := Option.some.inj h
      exact .leave hc
  | release i id =>
      obtain ⟨c, hc, h⟩ := Option.bind_eq_some_iff.mp h
      obtain rfl := Option.some.inj h
      exact .release hc
  | enqueue k id p fault =>
      obtain rfl := Option.some.inj h
      cases fault with
      | some e => exact .denied rfl rfl
      | none => exact Step.outside (a := .enqueue k id p none) rfl rfl
  | dequeue k fault =>
      obtain rfl := Option.some.inj h
      cases fault with
      | some e => exact .denied rfl rfl
      | none =>
          refine step_outside rfl (fun _ => ?_) (fun e he => by cases he)
          simp only [dequeue, Store.Op.apply]
          split
          · rename_i hd
            exact ⟨_, by rw [hd]⟩
          · rename_i hd
            exact ⟨_, by rw [hd]⟩
  | complete k id c fault =>
      obtain rfl := Option.some.inj h
      cases fault with
      | some e => exact .denied rfl rfl
      | none =>
          refine step_outside rfl (fun _ => ?_) (fun e he => by cases he)
          simp only [complete, Store.Op.apply]
          split
          · rename_i hd
            exact ⟨_, by rw [hd]⟩
          · rename_i hd
            exact ⟨[], by rw [hd]; rfl⟩
  | lookup k id fault =>
      obtain rfl := Option.some.inj h
      cases fault with
      | some e => exact .denied rfl rfl
      | none => exact step_silent (.lookup k id none) rfl rfl
  | isFinished k id fault =>
      obtain rfl := Option.some.inj h
      cases fault with
      | some e => exact .denied rfl rfl
      | none => exact step_silent (.isFinished k id none) rfl rfl
  | subscribe channel fault =>
      obtain rfl := Option.some.inj h
      cases fault with
      | some e => exact .denied rfl rfl
      | none => exact step_silent (.subscribe channel none) rfl rfl
  | receive feed =>
      obtain ⟨⟨m, store⟩, hr, h⟩ := Option.map_eq_some_iff.mp h
      subst h
      have hs : store = (Store.Op.receive feed).apply s.store s.now := by
        simp [Store.Op.apply, hr]
      rw [hs]
      exact step_silent (.receive feed) rfl rfl
  | unsubscribe feed =>
      obtain rfl := Option.some.inj h
      exact step_silent (.unsubscribe feed) rfl rfl
  | disconnect =>
      obtain rfl := Option.some.inj h
      exact step_silent .disconnect rfl rfl
  | reconnect =>
      obtain rfl := Option.some.inj h
      exact step_silent .reconnect rfl rfl
  | closeFeeds =>
      obtain rfl := Option.some.inj h
      exact step_silent .closeFeeds rfl rfl
  | tick span =>
      obtain rfl := Option.some.inj h
      exact .tick

/-! ### The store -/

/-- `Asks s a op`: in `s`, the action `a` may have the operation `op` done. -/
inductive Asks (s : System) : Action → Store.Op → Prop
  | receive {i : Nat} {m : Notifier.Move} {fault : Option Error} {c : Cache}
      (hc : s.caches[i]? = some c) :
      Asks s (.notifier i m fault) (.receive c.notifier.feed)
  | unsubscribe {i : Nat} {m : Notifier.Move} {fault : Option Error} {c : Cache}
      (hc : s.caches[i]? = some c) :
      Asks s (.notifier i m fault) (.unsubscribe c.notifier.feed)
  | check {i : Nat} {m : Notifier.Move} {c : Cache} {id : Id} (hc : s.caches[i]? = some c) :
      Asks s (.notifier i m none) (.isFinished c.notifier.keys id)
  | mark {i : Nat} {m : Pool.LoopMove} {fault : Option Error} {k : Keys} :
      Asks s (.loop i m fault) (.takeMarker k)
  | claim {i : Nat} {m : Pool.LoopMove} {c : Cache} (hc : s.caches[i]? = some c) :
      Asks s (.loop i m none) (.dequeue c.settings.keys)
  | write {i k : Nat} {m : Pool.WorkerMove} {c : Cache} {p : Pool} {t : Claim}
      {completion : Completion} (hc : s.caches[i]? = some c) (hp : c.pool = some p)
      (hk : p.workers[k]? = some (.writing t completion)) :
      Asks s (.worker i k m none) (.complete c.settings.keys t.id completion)
  | look {j : Nat} {x : Call} {c : Cache} (hx : s.calls[j]? = some x)
      (hc : s.caches[x.cache]? = some c) :
      Asks s (.call j none) (.lookup c.settings.keys x.id)
  | ask {j : Nat} {x : Call} {c : Cache} (hx : s.calls[j]? = some x)
      (hc : s.caches[x.cache]? = some c) :
      Asks s (.call j none) (.enqueue c.settings.keys x.id x.priority)
  | seek {j : Nat} {fault : Option Error} {k : Keys} : Asks s (.seeker j fault) (.takeMarker k)
  | openCache {settings : Settings} {computes : Bool} :
      Asks s (.openCache settings computes none) (.subscribe settings.keys.channel)
  | openNotifier {k : Keys} : Asks s (.openNotifier k none) (.subscribe k.channel)
  | outside {a : Action} {op : Store.Op} (ho : a.op? = some op) (hf : a.fault? = none) : Asks s a op

/-- The store is left alone, or has done one operation. -/
def Does (s : System) (a : Action) (store : Store) : Prop :=
  store = s.store ∨ ∃ op, Asks s a op ∧ store = op.apply s.store s.now

theorem does_of_receive {i : Nat} {m : Notifier.Move} {fault : Option Error} {c : Cache}
    {message : String} {store : Store} (hc : s.caches[i]? = some c)
    (hr : s.store.receive? c.notifier.feed = some (message, store)) :
    s.Does (.notifier i m fault) store := by
  refine Or.inr ⟨_, .receive hc, ?_⟩
  simp [Store.Op.apply, hr]

theorem does_of_check {i : Nat} {m : Notifier.Move} {fault : Option Error} {c : Cache}
    {answer : Except Error Bool} {id : Id} {store : Store} (hc : s.caches[i]? = some c)
    (ha : s.store.attempt fault (·.isFinished c.notifier.keys id s.now) = (answer, store)) :
    s.Does (.notifier i m fault) store := by
  rcases Store.state_of_attempt ha with ⟨hs, -⟩ | ⟨rfl, hs⟩
  · exact Or.inl hs
  · exact Or.inr ⟨_, .check hc, hs⟩

theorem does_of_wait {a : Action} {w : Wait} {progress : Wait.Progress} {store : Store}
    (ha : Asks s a (.takeMarker w.keys)) (hw : w.step? s.store s.now = some (progress, store)) :
    s.Does a store := by
  rcases Wait.step_cases hw with ⟨-, -, hs, -⟩ | ⟨-, ht⟩ | ⟨-, hs, -⟩
  · exact Or.inl hs
  · refine Or.inr ⟨_, ha, ?_⟩
    simp [Store.Op.apply, ht]
  · exact Or.inl hs

theorem does_of_lookup {j : Nat} {fault : Option Error} {x : Call} {c : Cache}
    {answer : Except Error Record} {store : Store} (hx : s.calls[j]? = some x)
    (hc : s.caches[x.cache]? = some c)
    (ha : s.store.attempt fault (·.lookup c.settings.keys x.id s.now) = (answer, store)) :
    s.Does (.call j fault) store := by
  rcases Store.state_of_attempt ha with ⟨hs, -⟩ | ⟨rfl, hs⟩
  · exact Or.inl hs
  · exact Or.inr ⟨_, .look hx hc, hs⟩

theorem does_of_enqueue {j : Nat} {fault : Option Error} {x : Call} {c : Cache}
    {answer : Except Error Enqueued} {store : Store} (hx : s.calls[j]? = some x)
    (hc : s.caches[x.cache]? = some c)
    (ha : s.store.attempt fault (·.enqueue c.settings.keys x.id x.priority s.now) =
      (answer, store)) :
    s.Does (.call j fault) store := by
  rcases Store.state_of_attempt ha with ⟨hs, -⟩ | ⟨rfl, hs⟩
  · exact Or.inl hs
  · exact Or.inr ⟨_, .ask hx hc, hs⟩

theorem Step.does {a : Action} (h : Step s a s') : s.Does a s'.store := by
  cases h with
  | notifier hc hn =>
      cases hn with
      | stop _ _ => exact Or.inr ⟨_, .unsubscribe hc, rfl⟩
      | hangUp _ _ => exact Or.inr ⟨_, .unsubscribe hc, rfl⟩
      | announcement _ hr _ => exact does_of_receive hc hr
      | sentinel _ hr => exact does_of_receive hc hr
      | check _ ha => exact does_of_check hc ha
      | recheck _ _ ha => exact does_of_check hc ha
      | _ => exact Or.inl rfl
  | loop hc hp hl =>
      cases hl with
      | wait _ hw => exact does_of_wait .mark hw
      | waited _ hw => exact does_of_wait .mark hw
      | claimNothing _ hf hd =>
          obtain rfl := hf
          refine Or.inr ⟨_, .claim hc, ?_⟩
          exact (congrArg Prod.snd hd).symm
      | claim _ hf hd =>
          obtain rfl := hf
          refine Or.inr ⟨_, .claim hc, ?_⟩
          exact (congrArg Prod.snd hd).symm
      | _ => exact Or.inl rfl
  | worker hc hp hw =>
      cases hw with
      | write hk hf hw =>
          obtain rfl := hf
          refine Or.inr ⟨_, .write hc hp hk, ?_⟩
          exact (congrArg Prod.snd hw).symm
      | crash hk hf hw =>
          obtain rfl := hf
          refine Or.inr ⟨_, .write hc hp hk, ?_⟩
          exact (congrArg Prod.snd hw).symm
      | _ => exact Or.inl rfl
  | call hx hc hs =>
      cases hs with
      | settled _ ha _ => exact does_of_lookup hx hc ha
      | missed _ ha => exact does_of_lookup hx hc ha
      | reread _ ha _ _ => exact does_of_lookup hx hc ha
      | refused _ ha => exact does_of_enqueue hx hc ha
      | again _ ha => exact does_of_enqueue hx hc ha
      | queued _ ha _ => exact does_of_enqueue hx hc ha
      | _ => exact Or.inl rfl
  | seeker hx hs =>
      unfold Seeker.step? at hs
      split at hs
      · split at hs
        · obtain ⟨-, rfl⟩ := Prod.mk.inj (Option.some.inj hs)
          exact Or.inl rfl
        · split at hs
          · obtain ⟨-, rfl⟩ := Prod.mk.inj (Option.some.inj hs)
            exact Or.inl rfl
          · obtain ⟨-, rfl⟩ := Prod.mk.inj (Option.some.inj hs)
            exact Or.inl rfl
      · obtain ⟨⟨progress, t⟩, hw, he⟩ := Option.map_eq_some_iff.mp hs
        cases progress with
        | waiting w =>
            obtain ⟨-, rfl⟩ := Prod.mk.inj he
            exact does_of_wait .seek hw
        | finished work =>
            obtain ⟨-, rfl⟩ := Prod.mk.inj he
            exact does_of_wait .seek hw
      · cases hs
  | openCache hr => exact Or.inr ⟨_, .openCache, rfl⟩
  | openNotifier => exact Or.inr ⟨_, .openNotifier, rfl⟩
  | outside ho hf => exact Or.inr ⟨_, .outside ho hf, rfl⟩
  | _ => exact Or.inl rfl

end System

end ReadThrough
