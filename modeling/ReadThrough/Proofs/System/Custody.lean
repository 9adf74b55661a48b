import Mathlib.Data.List.Nodup
import ReadThrough.Proofs.Store.Ledger
import ReadThrough.Proofs.System.Runs

/-! # Claimed tasks and the hands they are in

A claimed task is in the hands of the loop that claimed it, in a channel, or in the hands of a
worker, until its result is written or it is lost.

* **Hands** (`System.hands`).  All tasks in hand, each with the worker that has begun it, if one
  has.
* **Handling** (`Handles`, `Step.handles`).  What one step does to the tasks in hand and to the
  store, as one relation: a step asks for an id, claims, begins, loses or completes a task, or does
  nothing of this.
* **Custody** (`Custody`, `Step.inCustody`).  No two tasks in hand have the same id, and the ids of
  all of them are claimed; a claimed id is not queued, and one that is queued or claimed has no
  record.  This holds in every run in which only workers claim and complete. -/

namespace ReadThrough

/-- A task in hand, and the worker (the number of its cache and its place) that has begun it. -/
structure Hand where
  owner : Option (Nat × Nat)
  task : Claim

/-- The task that the loop hands over. -/
def LoopPhase.hands : LoopPhase → List Hand
  | sending t => [⟨none, t⟩]
  | _ => []

/-- The task of a worker. -/
def WorkerPhase.hands (owner : Nat × Nat) : WorkerPhase → List Hand
  | handed t => [⟨none, t⟩]
  | computing t => [⟨some owner, t⟩]
  | writing t _ => [⟨some owner, t⟩]
  | _ => []

/-- The tasks in the hands of the workers of cache `i`. -/
def Pool.workerHands (i : Nat) (p : Pool) : List Hand :=
  (p.workers.mapIdx fun k w => w.hands (i, k)).flatten

/-- The tasks in hand in the pool of cache `i`. -/
def Pool.hands (i : Nat) (p : Pool) : List Hand :=
  p.loop.hands ++ (p.channel.map (⟨none, ·⟩) ++ p.workerHands i)

/-- The tasks in hand in cache `i`. -/
def Cache.hands (i : Nat) (c : Cache) : List Hand :=
  match c.pool with
  | some p => p.hands i
  | none => []

/-- All tasks in hand. -/
def System.hands (s : System) : List Hand := (s.caches.mapIdx Cache.hands).flatten

/-- The worker at a place of a cache. -/
def System.worker? (s : System) (o : Nat × Nat) : Option WorkerPhase :=
  (s.caches[o.1]?).bind fun c => c.pool.bind fun p => p.workers[o.2]?

/-- A worker writes how the computation of its task ended, and the store answers. -/
def Moment.Writes (m : Moment) (o : Nat × Nat) (t : Claim) (c : Completion) : Prop :=
  m.action = .worker o.1 o.2 .advance none ∧ m.before.worker? o = some (.writing t c)

/-- A step of a worker is one of its pool. -/
theorem System.Step.of_worker {s s' : System} {i k : Nat} {m : Pool.WorkerMove}
    {fault : Option Error} (h : s.Step (.worker i k m fault) s') {w : WorkerPhase}
    (hw : s.worker? (i, k) = some w) :
    ∃ c p p' store events, s.caches[i]? = some c ∧ c.pool = some p ∧ p.workers[k]? = some w ∧
      Pool.WorkerStep (s.context c fault) p s.store k m p' store events ∧
      s'.caches = s.caches.set i { c with pool := some p' } ∧ s'.store = store := by
  obtain ⟨c, hc, hw⟩ := Option.bind_eq_some_iff.mp hw
  obtain ⟨p, hp, hk⟩ := Option.bind_eq_some_iff.mp hw
  cases h with
  | worker hc' hp' hw' =>
      obtain rfl := Option.some.inj (hc.symm.trans hc')
      obtain rfl := Option.some.inj (hp.symm.trans hp')
      exact ⟨c, p, _, _, _, hc, hp, hk, hw', rfl, rfl⟩
  | outside ho => cases ho
  | denied ho => cases ho

/-- Whether a task can be lost: by a fault, by a computation that takes its worker down, by a stop
signal, or because all workers of a pool are gone. -/
def Moment.Loses (m : Moment) : Prop :=
  m.action.fault? ≠ none ∨ m.action.collapses = true ∨ ∃ c ∈ m.before.caches, c.stopping = true ∨
    ∃ p, c.pool = some p ∧ p.workers.all WorkerPhase.ended = true

/-! ### Lists by places -/

section Places

variable {α β : Type} {l : List α} {a : α} {k : Nat}

/-- A new element changes what its place contributes and nothing else. -/
theorem exists_flatten_set (f : Nat → α → List β) (h : l[k]? = some a) :
    ∃ front back, (l.mapIdx f).flatten = front ++ (f k a ++ back) ∧
      ∀ b, ((l.set k b).mapIdx f).flatten = front ++ (f k b ++ back) := by
  induction l generalizing k f with
  | nil => simp at h
  | cons x xs ih =>
      cases k with
      | zero =>
          obtain rfl := by simpa using h
          exact ⟨[], (xs.mapIdx fun i => f (i + 1)).flatten, by simp, by simp⟩
      | succ k =>
          obtain ⟨front, back, hl, hs⟩ := ih (fun i => f (i + 1)) (by simpa using h)
          refine ⟨f 0 x ++ front, back, ?_, fun b => ?_⟩
          · rw [List.mapIdx_cons, List.flatten_cons, hl, List.append_assoc]
          · rw [List.set_cons_succ, List.mapIdx_cons, List.flatten_cons, hs, List.append_assoc]

theorem mem_flatten_mapIdx {f : Nat → α → List β} {b : β} :
    b ∈ (l.mapIdx f).flatten ↔ ∃ k a, l[k]? = some a ∧ b ∈ f k a := by
  rw [List.mem_flatten]
  constructor
  · rintro ⟨_, hm, hb⟩
    obtain ⟨k, hk, rfl⟩ := List.mem_mapIdx.mp hm
    exact ⟨k, l[k], List.getElem?_eq_getElem hk, hb⟩
  · rintro ⟨k, a, hk, hb⟩
    obtain ⟨hl, rfl⟩ := List.getElem?_eq_some_iff.mp hk
    exact ⟨_, List.mem_mapIdx.mpr ⟨k, hl, rfl⟩, hb⟩

end Places

/-! ### What a step does to the tasks in hand -/

/-- `Handles k now W L hs s hs' s'`: the tasks in hand `hs` and the store `s` become `hs'` and `s'`.
`W` says which results may be written, and `L` whether tasks may be lost.  With a result that is not
accepted, other tasks may be lost as well. -/
inductive Handles (k : Keys) (now : Instant) (W : Nat × Nat → Claim → Completion → Prop) (L : Prop)
    (hs : List Hand) (s : Store) : List Hand → Store → Prop
  | rest {hs' : List Hand} {s' : Store} (hp : hs'.Perm hs) (hq : Store.Quiet k now s s') :
      Handles k now W L hs s hs' s'
  | ask (id : Id) (p : Priority) : Handles k now W L hs s hs (s.enqueue k id p now).2
  | take {t : Claim} {hs' : List Hand} {s' : Store} (hd : s.dequeue k = (some t, s'))
      (hp : hs'.Perm (⟨none, t⟩ :: hs)) : Handles k now W L hs s hs' s'
  | begin {o : Nat × Nat} {t : Claim} {hs' others : List Hand} (hp : hs.Perm (⟨none, t⟩ :: others))
      (hp' : hs'.Perm (⟨some o, t⟩ :: others)) : Handles k now W L hs s hs' s
  | lose {l hs' : List Hand} (hl : L) (hp : hs.Perm (l ++ hs')) :
      Handles k now W L hs s hs' s
  | settle {o : Nat × Nat} {t : Claim} {c : Completion} {l hs' : List Hand} (hw : W o t c)
      (hl : c.nameable now = true → l = []) (hp : hs.Perm (⟨some o, t⟩ :: (l ++ hs'))) :
      Handles k now W L hs s hs' (s.complete k t.id c now).2

namespace Handles

variable {k : Keys} {now : Instant} {W : Nat × Nat → Claim → Completion → Prop} {L : Prop}
  {hs hs' : List Hand} {s s' : Store}

/-- Nothing happens to the tasks in hand. -/
theorem still (hq : Store.Quiet k now s s') : Handles k now W L hs s hs s' :=
  rest (List.Perm.refl hs) hq

/-- What happens in one place happens among all tasks in hand. -/
theorem frame (front back : List Hand) (h : Handles k now W L hs s hs' s') :
    Handles k now W L (front ++ (hs ++ back)) s (front ++ (hs' ++ back)) s' := by
  have hc : ∀ (x : Hand) (l : List Hand),
      (front ++ (x :: l ++ back)).Perm (x :: (front ++ (l ++ back))) :=
    fun x l => List.perm_middle
  have hs : ∀ lost l : List Hand,
      (front ++ (lost ++ l ++ back)).Perm (lost ++ (front ++ (l ++ back))) := fun lost l => by
    rw [List.append_assoc]
    exact List.perm_append_comm_assoc front lost _
  have hm : ∀ {l l' : List Hand}, l.Perm l' →
      (front ++ (l ++ back)).Perm (front ++ (l' ++ back)) :=
    fun hp => (hp.append_right back).append_left front
  cases h with
  | rest hp hq => exact rest (hm hp) hq
  | ask id p => exact ask id p
  | take hd hp => exact take hd ((hm hp).trans (hc _ _))
  | begin hp hp' => exact begin ((hm hp).trans (hc _ _)) ((hm hp').trans (hc _ _))
  | lose hl hp => exact lose hl ((hm hp).trans (hs _ _))
  | settle hw hl hp => exact settle hw hl ((hm hp).trans ((hc _ _).trans ((hs _ _).cons _)))

end Handles

namespace Pool

variable {c : Context} {p p' : Pool} {s s' : Store} {events : List Event} {i k : Nat}
  {W : Nat × Nat → Claim → Completion → Prop} {L : Prop}

/-- Only a loop that hands a task over contributes to the tasks in hand. -/
theorem hands_of_loop (hl : p.loop.hands = []) :
    p.hands i = p.channel.map (⟨none, ·⟩) ++ p.workerHands i := by
  unfold hands
  rw [hl, List.nil_append]

/-- A loop that listens to the stop signal has nothing in hand. -/
theorem hands_of_loopListens (h : p.loopListens = true) : p.loop.hands = [] := by
  unfold loopListens at h
  cases hl : p.loop with
  | sending t => simp [hl] at h
  | _ => rfl

/-- What a step of the loop does to the tasks in hand. -/
theorem LoopStep.handles {m : LoopMove} (h : LoopStep c p s m p' s' events)
    (hL : c.fault ≠ none ∨ c.stopping = true ∨ p.workers.all WorkerPhase.ended = true → L) :
    Handles c.settings.keys c.now W L (p.hands i) s (p'.hands i) s' := by
  -- most steps have the loop without a task before and after
  have same : ∀ {p' : Pool} {s' : Store}, p.loop.hands = [] → p'.loop.hands = [] →
      p'.channel = p.channel → p'.workers = p.workers → Store.Quiet c.settings.keys c.now s s' →
      Handles c.settings.keys c.now W L (p.hands i) s (p'.hands i) s' := by
    intro p' s' hl hl' hc hw hq
    rw [hands_of_loop hl, hands_of_loop hl', workerHands, workerHands, hc, hw]
    exact .still hq
  have quiet := Store.Quiet.refl c.settings.keys c.now s
  cases h with
  | stop hs hl => exact same (hands_of_loopListens hl) rfl rfl rfl quiet
  | acquire hl hp => exact same (by rw [hl]; rfl) rfl rfl rfl quiet
  | skip hl hm => exact same (by rw [hl]; rfl) rfl rfl rfl quiet
  | failWait hl hm hf => exact same (by rw [hl]; rfl) rfl rfl rfl quiet
  | startWait hl hm hf hw => exact same (by rw [hl]; rfl) rfl rfl rfl quiet
  | crash hl hm hf hw => exact same (by rw [hl]; rfl) rfl rfl rfl quiet
  | wait hl hw => exact same (by rw [hl]; rfl) rfl rfl rfl (Wait.quiet_of_step hw _)
  | waited hl hw => exact same (by rw [hl]; rfl) rfl rfl rfl (Wait.quiet_of_step hw _)
  | resume hl ht => exact same (by rw [hl]; rfl) rfl rfl rfl quiet
  | quit hl hs => exact same (by rw [hl]; rfl) rfl rfl rfl quiet
  | proceed hl hs => exact same (by rw [hl]; rfl) rfl rfl rfl quiet
  | failClaim hl hf => exact same (by rw [hl]; rfl) rfl rfl rfl quiet
  | claimNothing hl hf hd =>
      obtain ⟨rfl, -⟩ := Store.dequeue_none hd
      exact same (by rw [hl]; rfl) rfl rfl rfl quiet
  | claim hl hf hd =>
      refine .take hd ?_
      rw [hands_of_loop (p := p) (by rw [hl]; rfl)]
      exact List.Perm.refl _
  | @strand t hl he =>
      refine .lose (l := [⟨none, t⟩]) (hL (Or.inr (Or.inr he))) ?_
      rw [hands, hl]
      exact List.Perm.refl _
  | send hl he hc =>
      refine .rest ?_ quiet
      simp only [hands, hl, LoopPhase.hands, List.map_append, List.append_assoc]
      exact List.perm_middle

/-- What happens to the task of one worker happens among all tasks in hand. -/
theorem handles_setWorker {w w' : WorkerPhase} (hk : p.workers[k]? = some w)
    (hl : p'.loop = p.loop) (hc : p'.channel = p.channel) (hw : p'.workers = p.workers.set k w')
    (h : Handles c.settings.keys c.now W L (w.hands (i, k)) s (w'.hands (i, k)) s') :
    Handles c.settings.keys c.now W L (p.hands i) s (p'.hands i) s' := by
  obtain ⟨front, back, hb, ha⟩ := exists_flatten_set (fun k w => w.hands (i, k)) hk
  have hf := h.frame (p.loop.hands ++ (p.channel.map (⟨none, ·⟩) ++ front)) back
  unfold hands workerHands
  rw [hl, hc, hw, hb, ha]
  simpa only [List.append_assoc] using hf

/-- A worker that ends no longer has its task, and the pool no longer those that go with the
channel. -/
theorem hands_close {w w' : WorkerPhase} {q : Pool} (hk : p.workers[k]? = some w)
    (hl : q.loop = p.loop) (hw : q.workers = p.workers.set k w') (hc : q.channel = p.channel)
    (hn : w'.hands (i, k) = []) :
    (p.hands i).Perm (w.hands (i, k) ++ (q.dropped.map (⟨none, ·⟩) ++ q.close.hands i)) := by
  obtain ⟨front, back, hb, ha⟩ := exists_flatten_set (fun k w => w.hands (i, k)) hk
  have hp : p.workerHands i = front ++ (w.hands (i, k) ++ back) := hb
  have hq : q.close.workerHands i = front ++ back := by
    have hset : q.close.workerHands i = front ++ (w'.hands (i, k) ++ back) := by
      rw [← ha w', ← hw]
      rfl
    rw [hset, hn, List.nil_append]
  -- the task of the worker comes first, and what goes with the channel comes after it
  have hown := List.perm_append_comm_assoc
    (p.loop.hands ++ (p.channel.map (⟨none, ·⟩) ++ front)) (w.hands (i, k)) back
  have hdrop := List.perm_append_comm_assoc p.loop.hands (q.dropped.map (⟨none, ·⟩))
    (q.close.channel.map (⟨none, ·⟩) ++ (front ++ back))
  have hloop : q.close.loop = p.loop := hl
  unfold hands
  rw [hp, hq, hloop, ← hc, ← q.dropped_append_channel, List.map_append] at *
  simp only [List.append_assoc] at hown hdrop ⊢
  exact hown.trans (hdrop.append_left _)

/-- What a step of a worker does to the tasks in hand. -/
theorem WorkerStep.handles {m : WorkerMove} (h : WorkerStep c p s k m p' s' events)
    (hL : c.fault ≠ none ∨ m.collapses = true ∨ c.stopping = true → L)
    (hW : ∀ t r, p.workers[k]? = some (.writing t r) → m = .advance → c.fault = none →
      W (i, k) t r) :
    Handles c.settings.keys c.now W L (p.hands i) s (p'.hands i) s' := by
  have quiet := Store.Quiet.refl c.settings.keys c.now s
  have lose {w w' : WorkerPhase} {q : Pool}
      (hl : c.fault ≠ none ∨ m.collapses = true ∨ c.stopping = true)
      (hk : p.workers[k]? = some w) (hlq : q.loop = p.loop)
      (hw : q.workers = p.workers.set k w') (hc : q.channel = p.channel)
      (hn : w'.hands (i, k) = []) :
      Handles c.settings.keys c.now W L (p.hands i) s (q.close.hands i) s := by
    refine .lose (l := w.hands (i, k) ++ q.dropped.map (⟨none, ·⟩)) (hL hl) ?_
    rw [List.append_assoc]
    exact hands_close hk hlq hw hc hn
  cases h with
  | leave hk hs =>
      exact lose (q := p.setWorker k .stopped) (Or.inr (Or.inr hs)) hk rfl rfl rfl rfl
  | abandon hk ht hs =>
      exact lose (q := p.finish k .stopped) (Or.inr (Or.inr hs)) hk rfl rfl rfl rfl
  | @collapse t r? words hk =>
      exact lose (q := p.finish k (.crashed words)) (Or.inr (Or.inl rfl)) hk rfl rfl rfl rfl
  | quit hk hs =>
      exact lose (q := p.setWorker k .stopped) (Or.inr (Or.inr hs)) hk rfl rfl rfl rfl
  | ready hk hs => exact handles_setWorker hk rfl rfl rfl (.still quiet)
  | @receive t rest hk hc =>
      obtain ⟨front, back, hb, ha⟩ := exists_flatten_set (fun k w => w.hands (i, k)) hk
      have hb' : p.workerHands i = front ++ back := hb
      have ha' : (p.setWorker k (.handed t)).workerHands i = front ++ ⟨none, t⟩ :: back := ha _
      refine .rest ?_ quiet
      show (p.loop.hands ++ (rest.map _ ++ (p.setWorker k (.handed t)).workerHands i)).Perm _
      rw [hands, hb', ha', hc, List.map_cons, List.cons_append]
      refine List.Perm.append_left _ ?_
      rw [← List.append_assoc, ← List.append_assoc]
      exact List.perm_middle
  | hangUp hk hc hl => exact handles_setWorker hk rfl rfl rfl (.still quiet)
  | begin hk =>
      exact handles_setWorker hk rfl rfl rfl (.begin (List.Perm.refl _) (List.Perm.refl _))
  | conclude hk => exact handles_setWorker hk rfl rfl rfl (.still quiet)
  | @failWrite t _ e hk hf =>
      have he : c.fault ≠ none := by
        rw [hf]
        exact Option.some_ne_none e
      exact handles_setWorker hk rfl rfl rfl
        (.lose (l := [⟨some (i, k), t⟩]) (hL (Or.inl he)) (List.Perm.refl _))
  | write hk hf hw =>
      obtain rfl := (congrArg Prod.snd hw).symm
      exact handles_setWorker hk rfl rfl rfl
        (.settle (l := []) (hW _ _ hk rfl hf) (fun _ => rfl) (List.Perm.refl _))
  | @crash t r _ hk hf hw =>
      have hn : r.nameable c.now = false := by
        rw [← s.complete_accepted c.settings.keys t.id, hw]
      obtain rfl := (congrArg Prod.snd hw).symm
      refine .settle (hW _ _ hk rfl hf) (fun hr => ?_) (hands_close
        (q := p.finish k (.crashed Instant.overflowText)) hk rfl rfl rfl rfl)
      rw [hn] at hr
      cases hr

end Pool

namespace System

variable {s s' : System} {q : String} {a : Action}

/-- Outside of the pools nothing changes that depends on the settings and the pools of caches, if
new caches add nothing to it. -/
theorem Step.flatten_caches {β : Type} {f : Nat → Cache → List β} (h : Step s a s')
    (hp : a.pools = false)
    (hset : ∀ i c c', c'.settings = c.settings → c'.pool = c.pool → f i c' = f i c)
    (hnew : ∀ i settings computes feed, f i (Cache.fresh settings computes feed) = []) :
    (s'.caches.mapIdx f).flatten = (s.caches.mapIdx f).flatten := by
  have set {i : Nat} {c c' : Cache} (hc : s.caches[i]? = some c) (hs : c'.settings = c.settings)
      (hp : c'.pool = c.pool) :
      ((s.caches.set i c').mapIdx f).flatten = (s.caches.mapIdx f).flatten := by
    obtain ⟨front, back, hb, ha⟩ := exists_flatten_set f hc
    rw [ha, hb, hset i c c' hs hp]
  have new (settings : Settings) (computes : Bool) (feed : Nat) :
      ((s.caches ++ [Cache.fresh settings computes feed]).mapIdx f).flatten =
        (s.caches.mapIdx f).flatten := by
    rw [List.mapIdx_concat, List.flatten_append, hnew]
    simp
  cases h with
  | loop => cases hp
  | worker => cases hp
  | notifier hc _ => exact set hc rfl rfl
  | call _ hc _ => exact set hc rfl rfl
  | cancel _ hc => exact set hc rfl rfl
  | closing _ hc hx =>
      obtain ⟨hs, -, hp⟩ := Closing.step_keeps hx
      exact set hc hs hp
  | openCache => exact new _ _ _
  | openNotifier => exact new _ _ _
  | drop hc => exact set hc rfl rfl
  | watch hc _ => exact set hc rfl rfl
  | leave hc => exact set hc rfl rfl
  | release hc => exact set hc rfl rfl
  | _ => rfl

/-- Outside of the pools the tasks in hand stay where they are. -/
theorem Step.hands_eq (h : Step s a s') (hp : a.pools = false) : s'.hands = s.hands := by
  refine h.flatten_caches hp (fun i c c' _ hp => ?_) fun i settings computes feed => ?_
  · unfold Cache.hands
    rw [hp]
  · cases computes with
    | false => rfl
    | true =>
        simp [Cache.hands, Cache.fresh, Pool.start, Pool.hands, Pool.workerHands,
          LoopPhase.hands, WorkerPhase.hands]

/-- What happens in the pool of one cache happens among all tasks in hand. -/
theorem handles_setPool {k : Keys} {W : Nat × Nat → Claim → Completion → Prop} {L : Prop}
    {i : Nat} {c : Cache} {p p' : Pool} {store : Store} (hc : s.caches[i]? = some c)
    (hp : c.pool = some p)
    (h : Handles k s.now W L (p.hands i) s.store (p'.hands i) store) :
    Handles k s.now W L s.hands s.store
      (((s.caches.set i { c with pool := some p' }).mapIdx Cache.hands).flatten) store := by
  obtain ⟨front, back, hb, ha⟩ := exists_flatten_set Cache.hands hc
  have hh : c.hands i = p.hands i := by
    unfold Cache.hands
    rw [hp]
  rw [hands, hb, ha, hh]
  exact h.frame front back

/-- Outside of the pools nobody claims or completes, unless it is done from outside of all
caches. -/
theorem Asks.mild {op : Store.Op} (h : Asks s a op) (hi : a.intrudes = false)
    (hp : a.pools = false) : op.quiet = true ∨ ∃ k id p, op = .enqueue k id p := by
  cases h with
  | claim _ => cases hp
  | write _ _ _ => cases hp
  | ask _ _ => exact Or.inr ⟨_, _, _, rfl⟩
  | outside ho _ => exact Action.mild_of_op? ho hi
  | _ => exact Or.inl rfl

/-- What a step does to the tasks in hand. -/
theorem Step.handles (h : Step s a s') (hk : s.OneQueue ⟨q⟩) (ha : a.On q)
    (hi : a.intrudes = false) :
    Handles ⟨q⟩ s.now (Moment.Writes ⟨s, a⟩) (Moment.Loses ⟨s, a⟩) s.hands s.store s'.hands
      s'.store := by
  by_cases hrest : a.pools = false
  · rw [h.hands_eq hrest]
    rcases h.does with hd | ⟨op, ho, hd⟩
    · rw [hd]
      exact .still (Store.Quiet.refl _ _ _)
    · have hq := ho.keys_eq hk ha
      rw [hd]
      rcases ho.mild hi hrest with hm | ⟨l, id, p, rfl⟩
      · exact .still (Store.quiet_apply hm hq s.store s.now)
      · obtain rfl := hq l rfl
        exact .ask id p
  cases h with
  | @loop i m fault c p p' store events hc hp hl =>
      have hh := hl.handles (W := Moment.Writes ⟨s, .loop i m fault⟩)
        (L := Moment.Loses ⟨s, .loop i m fault⟩) (i := i) (fun hl => by
          rcases hl with hl | hl | hl
          · exact Or.inl hl
          · exact Or.inr (Or.inr ⟨c, List.mem_of_getElem? hc, Or.inl hl⟩)
          · exact Or.inr (Or.inr ⟨c, List.mem_of_getElem? hc, Or.inr ⟨p, hp, hl⟩⟩))
      rw [show (s.context c fault).settings.keys = ⟨q⟩ from (hk.of_getElem? hc).1] at hh
      exact handles_setPool hc hp hh
  | @worker i k m fault c p p' store events hc hp hw =>
      have hh := hw.handles (W := Moment.Writes ⟨s, .worker i k m fault⟩)
        (L := Moment.Loses ⟨s, .worker i k m fault⟩) (i := i) (fun hl => by
          rcases hl with hl | hl | hl
          · exact Or.inl hl
          · exact Or.inr (Or.inl hl)
          · exact Or.inr (Or.inr ⟨c, List.mem_of_getElem? hc, Or.inl hl⟩))
        (fun t r ht hm hf => by
          obtain rfl := hm
          obtain rfl : fault = none := hf
          refine ⟨rfl, ?_⟩
          simp [worker?, hc, hp, ht])
      rw [show (s.context c fault).settings.keys = ⟨q⟩ from (hk.of_getElem? hc).1] at hh
      exact handles_setPool hc hp hh
  | outside ho _ => exact absurd (Action.pools_of_op? ho) hrest
  | denied ho _ => exact absurd (Action.pools_of_op? ho) hrest
  | _ => exact absurd rfl hrest

end System

/-! ### Custody -/

/-- A claimed id is not queued, and nothing is on record for an id that is queued or claimed. -/
structure Entry.Sound (e : Entry) : Prop where
  unqueued : e.claimed = true → e.priority = none
  bare : e.claimed = true ∨ e.priority ≠ none → e.value = none ∧ e.failure = none

namespace Entry

variable {e e' : Entry} {now : Instant}

theorem Aged.sound (ha : Aged now e e') (h : e.Sound) : e'.Sound := by
  have hf : e.failure = none → e'.failure = none := by
    intro hn
    rcases ha.failure_eq with hf | ⟨hf, -⟩
    · rw [hf, hn]
    · exact hf
  constructor
  · rw [ha.claimed_eq, ha.priority_eq]
    exact h.unqueued
  · rw [ha.claimed_eq, ha.priority_eq, ha.value_eq]
    intro ho
    obtain ⟨hv, hn⟩ := h.bare ho
    exact ⟨hv, hf hn⟩

theorem Sound.asked (h : e.Sound) (p : Priority) (now : Instant) : (e.asked p now).Sound := by
  unfold Entry.asked
  split
  · exact h
  · rename_i hc
    split
    · split
      · exact h
      · exact Aged.sound (Or.inr rfl) h
    · rename_i hf
      have hn : e.value = none ∧ e.live? now = none := by
        simpa [finished] using hf
      exact ⟨fun hc' => absurd hc' hc, fun _ => hn⟩

theorem Sound.taken (h : e.Sound) (hq : e.priority ≠ none) :
    Sound { e with priority := none, claimed := true } :=
  ⟨fun _ => rfl, fun _ => h.bare (Or.inr hq)⟩

theorem Sound.completed (h : e.Sound) (hc : e.claimed = true) (c : Completion) (now : Instant) :
    (e.completed c now).Sound := by
  have hq := h.unqueued hc
  unfold Entry.completed
  split
  · exact ⟨fun _ => hq, fun h => by simp [hq] at h⟩
  · split
    · exact ⟨fun _ => hq, fun h => by simp [hq] at h⟩
    · exact ⟨fun _ => hq, fun ho => ⟨rfl, (h.bare ho).2⟩⟩

end Entry

/-- No two tasks in hand have the same id, all of them are claimed, and all entries are sound. -/
structure Custody (k : Keys) (hs : List Hand) (s : Store) : Prop where
  apart : (hs.map (·.task.id)).Nodup
  claimed : ∀ h ∈ hs, (s.entry k h.task.id).claimed = true
  sound : ∀ id, (s.entry k id).Sound

namespace Custody

variable {k : Keys} {now : Instant} {W : Nat × Nat → Claim → Completion → Prop} {L : Prop}
  {hs hs' : List Hand} {s s' : Store}

/-- A task in hand is known by its id. -/
theorem eq_of_mem (h : Custody k hs s) {x y : Hand} (hx : x ∈ hs) (hy : y ∈ hs)
    (he : x.task.id = y.task.id) : x = y :=
  List.inj_on_of_nodup_map h.apart hx hy he

theorem perm (h : Custody k hs s) (hp : hs'.Perm hs) : Custody k hs' s :=
  ⟨(hp.map _).nodup_iff.mpr h.apart, fun x hx => h.claimed x (hp.mem_iff.mp hx), h.sound⟩

theorem tail {x : Hand} (h : Custody k (x :: hs) s) : Custody k hs s :=
  ⟨(List.nodup_cons.mp h.apart).2, fun y hy => h.claimed y (List.mem_cons_of_mem x hy), h.sound⟩

theorem drop {lost : List Hand} (h : Custody k (lost ++ hs) s) : Custody k hs s := by
  induction lost with
  | nil => exact h
  | cons x lost ih => exact ih h.tail

theorem aged (h : Custody k hs s) (hq : Store.Quiet k now s s') : Custody k hs s' := by
  refine ⟨h.apart, fun x hx => ?_, fun id => (hq id).sound (h.sound id)⟩
  rw [(hq _).claimed_eq]
  exact h.claimed x hx

theorem asked (h : Custody k hs s) (id : Id) (p : Priority) (now : Instant) :
    Custody k hs (s.enqueue k id p now).2 := by
  refine ⟨h.apart, fun x hx => ?_, fun j => ?_⟩
  · have hc := h.claimed x hx
    rw [Store.entry_enqueue]
    split
    · rename_i hj
      rw [hj] at hc
      rw [Entry.asked, if_pos hc]
      exact hc
    · exact hc
  · rw [Store.entry_enqueue]
    split
    · exact (h.sound id).asked p now
    · exact h.sound j

theorem taken (h : Custody k hs s) {t : Claim} (hd : s.dequeue k = (some t, s')) :
    Custody k (⟨none, t⟩ :: hs) s' := by
  obtain ⟨hp, he⟩ := Store.entry_of_dequeue hd
  have hq : (s.entry k t.id).priority ≠ none := by
    rw [hp]
    exact Option.some_ne_none _
  have hn : ∀ x ∈ hs, x.task.id ≠ t.id := by
    intro x hx hi
    have hu := (h.sound _).unqueued (h.claimed x hx)
    rw [hi] at hu
    exact hq hu
  refine ⟨?_, fun x hx => ?_, fun j => ?_⟩
  · rw [List.map_cons]
    refine List.nodup_cons.mpr ⟨fun hm => ?_, h.apart⟩
    obtain ⟨x, hx, hi⟩ := List.mem_map.mp hm
    exact hn x hx hi
  · rcases List.mem_cons.mp hx with rfl | hx
    · rw [he, if_pos rfl]
    · rw [he, if_neg (hn x hx)]
      exact h.claimed x hx
  · rw [he]
    split
    · exact (h.sound t.id).taken hq
    · exact h.sound j

theorem begun {t : Claim} (h : Custody k (⟨none, t⟩ :: hs) s) (o : Nat × Nat) :
    Custody k (⟨some o, t⟩ :: hs) s := by
  refine ⟨h.apart, fun x hx => ?_, h.sound⟩
  rcases List.mem_cons.mp hx with rfl | hx
  · exact h.claimed ⟨none, t⟩ List.mem_cons_self
  · exact h.claimed x (List.mem_cons_of_mem _ hx)

theorem settled {x : Hand} (h : Custody k (x :: hs) s) (c : Completion) (now : Instant) :
    Custody k hs (s.complete k x.task.id c now).2 := by
  obtain ⟨hn, ha⟩ := List.nodup_cons.mp h.apart
  refine ⟨ha, fun y hy => ?_, fun j => ?_⟩
  · have hj : y.task.id ≠ x.task.id := fun he => hn (List.mem_map.mpr ⟨y, hy, he⟩)
    rw [Store.entry_complete, if_neg hj]
    exact h.claimed y (List.mem_cons_of_mem x hy)
  · rw [Store.entry_complete]
    split
    · exact (h.sound _).completed (h.claimed x List.mem_cons_self) c now
    · exact h.sound j

/-- Custody is kept by everything that happens to tasks in hand. -/
theorem handled (h : Custody k hs s) (hh : Handles k now W L hs s hs' s') : Custody k hs' s' := by
  cases hh with
  | rest hp hq => exact (h.perm hp).aged hq
  | ask id p => exact h.asked id p now
  | take hd hp => exact (h.taken hd).perm hp
  | begin hp hp' => exact ((h.perm hp.symm).begun _).perm hp'
  | lose hl hp => exact (h.perm hp.symm).drop
  | settle hw hl hp => exact ((h.perm hp.symm).settled _ now).drop

end Custody

namespace System

variable {s s' : System} {q : String} {a : Action}

/-- Every task in hand is in the custody of the queue `q`, which is the only one. -/
def InCustody (q : String) (s : System) : Prop :=
  s.OneQueue ⟨q⟩ ∧ Custody ⟨q⟩ s.hands s.store

/-- What a worker has is in hand. -/
theorem mem_hands_of_worker {o : Nat × Nat} {w : WorkerPhase} (hw : s.worker? o = some w)
    {h : Hand} (hh : h ∈ w.hands o) : h ∈ s.hands := by
  obtain ⟨c, hc, hw⟩ := Option.bind_eq_some_iff.mp hw
  obtain ⟨p, hp, hw⟩ := Option.bind_eq_some_iff.mp hw
  refine mem_flatten_mapIdx.mpr ⟨o.1, c, hc, ?_⟩
  unfold Cache.hands
  rw [hp]
  refine List.mem_append_right _ (List.mem_append_right _ ?_)
  exact mem_flatten_mapIdx.mpr ⟨o.2, w, hw, hh⟩

theorem inCustody_start (q : String) : InCustody q {} := by
  refine ⟨oneQueue_start _, List.nodup_nil, fun _ h => (List.not_mem_nil h).elim, fun id => ?_⟩
  show (Store.entry {} ⟨q⟩ id).Sound
  rw [Store.entry_empty]
  exact ⟨fun hc => absurd hc Bool.false_ne_true, fun _ => ⟨rfl, rfl⟩⟩

theorem Step.inCustody (h : Step s a s') (ha : a.On q) (hi : a.intrudes = false)
    (hs : s.InCustody q) : s'.InCustody q :=
  ⟨h.oneQueue ha hs.1, hs.2.handled (h.handles hs.1 ha hi)⟩

end System

end ReadThrough
