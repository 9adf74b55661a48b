import ReadThrough.Proofs.Pool.Settling
import ReadThrough.Proofs.Store.Completing
import ReadThrough.Proofs.Store.Demand
import ReadThrough.Proofs.System.Custody
import ReadThrough.Proofs.System.Exits

/-! # No claimed task gets lost

Whatever a shutdown interrupts, a task that was taken off a queue is settled once, or its id stays
claimed.

* **Dealings** (`Moment.dealing?`).  A loop claims a task, or the store accepts a result from a
  worker.  Nothing else changes which ids of a queue are claimed (`System.Dealt`, `Step.dealt`),
  unless somebody outside of the pools claims or completes there.
* **Rounds** (`System.rounds`).  The dealings with one id go in rounds: it is claimed, and then it
  is settled by the same cache.  Only the last claim may be open.
* **Books** (`System.Booked`, `Step.booked`).  The id is claimed exactly if its last round is open,
  and nobody but the cache that claimed it can have the task.
* **Main statement** (`System.no_task_lost`). -/

namespace ReadThrough

/-- What happens to an id that is queued: the loop of a cache claims it, or the store accepts a
result for it from a worker of a cache. -/
inductive Dealing where
  | claimed (cache : Nat) (task : Claim)
  | settled (cache : Nat) (task : Claim) (result : Completion)
deriving DecidableEq

/-- The id that is dealt with. -/
def Dealing.id : Dealing → Id
  | claimed _ t => t.id
  | settled _ t _ => t.id

namespace Moment

/-- The turn that the pool of a cache takes, and the number of the cache. -/
def turn? (m : Moment) : Option (Nat × Pool.Moment) :=
  let turn (i : Nat) (fault : Option Error) (move : Pool.Move) : Option (Nat × Pool.Moment) := do
    let c ← m.before.caches[i]?
    let p ← c.pool
    some (i, ⟨p, ⟨m.before.context c fault, m.before.store, move⟩⟩)
  match m.action with
  | .loop i move fault => turn i fault (.loop move)
  | .worker i k move fault => turn i fault (.worker k move)
  | _ => none

/-- The dealing with an id of the queue `k` at a moment, if there is one. -/
def dealing? (k : Keys) (m : Moment) : Option Dealing :=
  m.turn?.bind fun (i, t) =>
    if t.turn.context.settings.keys = k then
      match t.claimed?, t.settled? with
      | some task, _ => some (.claimed i task)
      | none, some (task, result) => some (.settled i task result)
      | none, none => none
    else none

/-- The loop of cache `i` sees the stop signal. -/
def Halts (m : Moment) (i : Nat) : Prop :=
  ∃ c p fault, m.before.caches[i]? = some c ∧ c.pool = some p ∧ c.stopping = true ∧
    (m.action = .loop i .stop fault ∨ m.action = .loop i .advance fault ∧ p.loop = .checking)

end Moment

/-- The tasks of a cache that works on the queue `k`, with its number. -/
def Cache.load (k : Keys) (i : Nat) (c : Cache) : List (Nat × Claim) :=
  match c.pool with
  | some p => if c.settings.keys = k then p.tasks.map (i, ·) else []
  | none => []

namespace System

variable {s s' : System} {a : Action} {k : Keys}

/-- All tasks of the queue `k`. -/
def load (k : Keys) (s : System) : List (Nat × Claim) := (s.caches.mapIdx (Cache.load k)).flatten

/-- The dealings with an id, in order. -/
def dealings (k : Keys) (id : Id) (ms : List Moment) : List Dealing :=
  (ms.filterMap (·.dealing? k)).filter (·.id = id)

/-- Rounds that are over, and a claim that may be open. -/
def rounds (done : List (Nat × Claim × Completion)) (last : Option (Nat × Claim)) : List Dealing :=
  done.flatMap (fun (i, t, r) => [.claimed i t, .settled i t r]) ++
    (last.map fun (i, t) => .claimed i t).toList

/-! ### What one step does -/

/-- What a step does to the tasks and to the ids of the queue `k`. -/
inductive Dealt (k : Keys) (s : System) (a : Action) (s' : System) : Prop
  /-- Tasks may be lost, but every id is kept. -/
  | keeps (lost : List (Nat × Claim)) (hd : Moment.dealing? k ⟨s, a⟩ = none)
      (hp : (s.load k).Perm (lost ++ s'.load k))
      (he : ∀ id, (s.store.entry k id).Kept (s'.store.entry k id))
  | claims {i : Nat} {t : Claim} (hd : Moment.dealing? k ⟨s, a⟩ = some (.claimed i t))
      (hq : s.store.dequeue k = (some t, s'.store)) (hp : (s'.load k).Perm ((i, t) :: s.load k))
  | settles {i : Nat} {t : Claim} {r : Completion}
      (hd : Moment.dealing? k ⟨s, a⟩ = some (.settled i t r)) (hn : r.nameable s.now = true)
      (hw : s'.store = (s.store.complete k t.id r s.now).2)
      (hp : (s.load k).Perm ((i, t) :: s'.load k))

/-- What is gained and lost in the middle is gained and lost. -/
theorem perm_frame {α : Type} [DecidableEq α] {front back l l' u v : List α}
    (h : (u ++ l).Perm (v ++ l')) :
    (u ++ (front ++ (l ++ back))).Perm (v ++ (front ++ (l' ++ back))) := by
  refine List.perm_iff_count.mpr fun x => ?_
  have hx := h.count_eq x
  simp only [List.count_append] at hx ⊢
  omega

/-- What the pool of one cache does. -/
theorem dealt_of_turn {i : Nat} {c : Cache} {p p' : Pool} {t : Pool.Turn} {store : Store}
    {events : List Event} (hc : s.caches[i]? = some c) (hp : c.pool = some p)
    (h : Pool.TurnStep p t p' store events) (hm : Moment.turn? ⟨s, a⟩ = some (i, ⟨p, t⟩))
    (hset : t.context.settings = c.settings) (hnow : t.context.now = s.now)
    (hstore : t.store = s.store)
    (hcs : s'.caches = s.caches.set i { c with pool := some p' }) (hs' : s'.store = store) :
    Dealt k s a s' := by
  obtain ⟨front, back, hb, ha⟩ := exists_flatten_set (Cache.load k) hc
  have hafter := ha { c with pool := some p' }
  rw [← hcs] at hafter
  have hload : s.load k = front ++ (c.load k i ++ back) := hb
  have hload' : s'.load k = front ++ (Cache.load k i { c with pool := some p' } ++ back) := hafter
  have hd : Moment.dealing? k ⟨s, a⟩ = if c.settings.keys = k then
      match Pool.Moment.claimed? ⟨p, t⟩, Pool.Moment.settled? ⟨p, t⟩ with
      | some task, _ => some (.claimed i task)
      | none, some (task, result) => some (.settled i task result)
      | none, none => none else none := by
    simp only [Moment.dealing?, hm, Option.bind_some, hset]
  by_cases hk : c.settings.keys = k
  · rw [if_pos hk] at hd
    have hl : c.load k i = p.tasks.map (i, ·) := by
      simp only [Cache.load, hp, if_pos hk]
    have hl' : Cache.load k i { c with pool := some p' } = p'.tasks.map (i, ·) := by
      simp only [Cache.load, if_pos hk]
    rw [hl] at hload
    rw [hl'] at hload'
    have hkeys : t.context.settings.keys = k := by rw [hset, hk]
    cases h.handled with
    | keeps lost hcl hse hperm he =>
        refine .keeps (lost.map (i, ·)) (by rw [hd, hcl, hse]) ?_ fun id => ?_
        · rw [hload, hload']
          exact perm_frame (u := []) (by simpa using hperm.map (i, ·))
        · rw [hs', ← hstore]
          exact he k id
    | @claims x hcl hdq hperm =>
        refine .claims (i := i) (t := x) (by rw [hd, hcl]) ?_ ?_
        · rw [← hstore, ← hkeys, hdq, hs']
        · rw [hload, hload']
          exact perm_frame (u := []) (v := [(i, x)]) (hperm.map (i, ·))
    | @settles x r hcl hse hn hw hperm =>
        refine .settles (i := i) (t := x) (r := r) (by rw [hd, hcl, hse]) (hnow ▸ hn) ?_ ?_
        · rw [hs', hw, hstore, hkeys, hnow]
        · rw [hload, hload']
          exact perm_frame (u := []) (v := [(i, x)]) (hperm.map (i, ·))
  · rw [if_neg hk] at hd
    refine .keeps [] hd ?_ fun id => ?_
    · have hl : c.load k i = [] := by
        simp only [Cache.load, hp, if_neg hk]
      have hl' : Cache.load k i { c with pool := some p' } = [] := by
        simp only [Cache.load, if_neg hk]
      rw [hload, hload', hl, hl']
      exact .refl _
    · rw [hs', ← hstore]
      exact h.handled.kept (by rwa [hset]) id

/-- Nobody but a pool claims or completes on the queue, unless it is done from outside. -/
theorem Asks.spares_claims {op : Store.Op} (h : Asks s a op)
    (hi : a.intrudes = true → a.queue? ≠ some k.name) (hp : a.pools = false) :
    op ≠ .dequeue k ∧ ∀ id c, op ≠ .complete k id c := by
  cases h with
  | claim _ => cases hp
  | write _ _ _ => cases hp
  | outside ho _ =>
      constructor
      · rintro rfl
        cases a <;> cases ho
        exact hi rfl rfl
      · rintro id c rfl
        cases a <;> cases ho
        exact hi rfl rfl
  | _ => exact ⟨nofun, nofun⟩

/-- Outside of the pools the tasks stay where they are. -/
theorem Step.load_eq (h : Step s a s') (hp : a.pools = false) : s'.load k = s.load k := by
  refine h.flatten_caches hp (fun i c c' hs hp => ?_) fun i settings computes feed => ?_
  · unfold Cache.load
    rw [hs, hp]
  · unfold Cache.load
    split
    · rename_i p hp
      rw [Cache.pool_fresh hp, Pool.tasks_start]
      split <;> rfl
    · rfl

/-- Nobody outside of the pools claims or completes on the queue `k`. -/
def PoolsOnly (k : Keys) (a : Action) : Prop := a.intrudes = true → a.queue? ≠ some k.name

instance (k : Keys) (a : Action) : Decidable (PoolsOnly k a) :=
  inferInstanceAs (Decidable (_ → _))

theorem Step.dealt (h : Step s a s') (hi : PoolsOnly k a) : Dealt k s a s' := by
  by_cases hrest : a.pools = false
  · refine .keeps [] ?_ (by rw [h.load_eq hrest]; exact .refl _) fun id => ?_
    · cases a <;> first | rfl | cases hrest
    · rcases h.does with hd | ⟨op, ho, hd⟩
      · rw [hd]
        exact .of_eq rfl rfl
      · obtain ⟨hq, hc⟩ := ho.spares_claims hi hrest
        rw [hd]
        exact (s.store.tenure op k id s.now).kept hq fun c he => absurd he (hc id c)
  cases h with
  | @loop i m fault c p _ _ _ hc hp hl =>
      have ht : Pool.TurnStep p ⟨s.context c fault, s.store, .loop m⟩ _ _ _ := .loop rfl hl
      refine dealt_of_turn hc hp ht ?_ rfl rfl rfl rfl rfl
      simp [Moment.turn?, hc, hp]
  | @worker i k m fault c p _ _ _ hc hp hw =>
      have ht : Pool.TurnStep p ⟨s.context c fault, s.store, .worker k m⟩ _ _ _ := .worker rfl hw
      refine dealt_of_turn hc hp ht ?_ rfl rfl rfl rfl rfl
      simp [Moment.turn?, hc, hp]
  | outside ho _ => exact absurd (Action.pools_of_op? ho) hrest
  | denied ho _ => exact absurd (Action.pools_of_op? ho) hrest
  | _ => exact absurd rfl hrest

/-! ### The books -/

theorem dealings_concat (k : Keys) (id : Id) (ms : List Moment) (m : Moment) :
    dealings k id (ms ++ [m]) =
      dealings k id ms ++ (m.dealing? k).toList.filter (·.id = id) := by
  unfold dealings
  rw [List.filterMap_append, List.filter_append]
  rfl

/-- The history `past` accounts for what is claimed of the queue `k`. -/
structure Booked (k : Keys) (past : List Moment) (s : System) : Prop where
  apart : ((s.load k).map (·.2.id)).Nodup
  unqueued : ∀ id, (s.store.entry k id).claimed = true → (s.store.entry k id).priority = none
  books : ∀ id, ∃ done last, dealings k id past = rounds done last ∧
    (s.store.entry k id).claimed = last.isSome ∧ ∀ x ∈ s.load k, x.2.id = id → last = some x

theorem booked_start (k : Keys) : Booked k [] {} where
  apart := List.nodup_nil
  unqueued id h := by
    have he : (({} : System).store.entry k id) = ⟨none, false, none, none⟩ := Store.entry_empty k id
    rw [he]
  books id := by
    refine ⟨[], none, rfl, ?_, fun x hx => (List.not_mem_nil hx).elim⟩
    have he : (({} : System).store.entry k id) = ⟨none, false, none, none⟩ := Store.entry_empty k id
    rw [he]
    rfl

namespace Booked

variable {past : List Moment} {i : Nat} {t : Claim} {r : Completion}

/-- A task of a pool is claimed. -/
theorem claimed_of_mem (h : Booked k past s) {x : Nat × Claim} (hx : x ∈ s.load k) :
    (s.store.entry k x.2.id).claimed = true := by
  obtain ⟨done, last, -, hc, hm⟩ := h.books x.2.id
  rw [hc, hm x hx rfl]
  rfl

theorem keeps {lost : List (Nat × Claim)} (h : Booked k past s)
    (hd : Moment.dealing? k ⟨s, a⟩ = none) (hp : (s.load k).Perm (lost ++ s'.load k))
    (he : ∀ id, (s.store.entry k id).Kept (s'.store.entry k id)) :
    Booked k (past ++ [⟨s, a⟩]) s' where
  apart := by
    have hn := (hp.map (·.2.id)).nodup_iff.mp h.apart
    rw [List.map_append] at hn
    exact hn.of_append_right
  unqueued id hc := by
    have hc' := (he id).claimed.symm.trans hc
    rw [(he id).closed hc', h.unqueued id hc']
  books id := by
    obtain ⟨done, last, hb, hc, hm⟩ := h.books id
    refine ⟨done, last, ?_, (he id).claimed.trans hc, fun x hx => hm x ?_⟩
    · rw [dealings_concat, hd, hb]
      exact List.append_nil _
    · exact hp.mem_iff.mpr (List.mem_append_right _ hx)

theorem claims (h : Booked k past s) (hd : Moment.dealing? k ⟨s, a⟩ = some (.claimed i t))
    (hq : s.store.dequeue k = (some t, s'.store)) (hp : (s'.load k).Perm ((i, t) :: s.load k)) :
    Booked k (past ++ [⟨s, a⟩]) s' := by
  obtain ⟨hpriority, he⟩ := Store.entry_of_dequeue hq
  -- the id was queued, so nobody had claimed it
  have hfree : (s.store.entry k t.id).claimed = false := by
    refine Bool.eq_false_iff.mpr fun hc => ?_
    rw [h.unqueued _ hc] at hpriority
    cases hpriority
  have hnone : ∀ x ∈ s.load k, x.2.id ≠ t.id := by
    intro x hx hid
    have hc := h.claimed_of_mem hx
    rw [hid, hfree] at hc
    cases hc
  refine ⟨?_, fun id hc => ?_, fun id => ?_⟩
  · rw [(hp.map (·.2.id)).nodup_iff]
    refine List.nodup_cons.mpr ⟨fun hm => ?_, h.apart⟩
    obtain ⟨x, hx, hid⟩ := List.mem_map.mp hm
    exact hnone x hx hid
  · rw [he] at hc ⊢
    split at hc
    · rename_i hid
      rw [if_pos hid]
    · rename_i hid
      rw [if_neg hid]
      exact h.unqueued id hc
  · obtain ⟨done, last, hb, hc, hm⟩ := h.books id
    rw [dealings_concat, hd, hb, he]
    by_cases hid : id = t.id
    · subst hid
      obtain rfl : last = none := by
        rw [hfree] at hc
        exact Option.isNone_iff_eq_none.mp (by simp [← Option.not_isSome, ← hc])
      refine ⟨done, some (i, t), ?_, by rw [if_pos rfl]; rfl, fun x hx hx' => ?_⟩
      · simp [rounds, Dealing.id]
      · rcases List.mem_cons.mp (hp.mem_iff.mp hx) with rfl | hx
        · rfl
        · exact absurd hx' (hnone x hx)
    · refine ⟨done, last, ?_, by rw [if_neg hid]; exact hc, fun x hx hx' => ?_⟩
      · simp [Dealing.id, Ne.symm hid]
      · rcases List.mem_cons.mp (hp.mem_iff.mp hx) with rfl | hx
        · exact absurd hx'.symm hid
        · exact hm x hx hx'

theorem settles (h : Booked k past s) (hd : Moment.dealing? k ⟨s, a⟩ = some (.settled i t r))
    (hn : r.nameable s.now = true) (hw : s'.store = (s.store.complete k t.id r s.now).2)
    (hp : (s.load k).Perm ((i, t) :: s'.load k)) : Booked k (past ++ [⟨s, a⟩]) s' := by
  have he (id : Id) : s'.store.entry k id =
      if id = t.id then (s.store.entry k t.id).completed r s.now else s.store.entry k id := by
    rw [hw]
    exact Store.entry_complete _ _ _ _ _ _
  have hapart := (hp.map (·.2.id)).nodup_iff.mp h.apart
  obtain ⟨hnone, hapart⟩ := List.nodup_cons.mp hapart
  have hmem : (i, t) ∈ s.load k := hp.mem_iff.mpr List.mem_cons_self
  refine ⟨hapart, fun id hc => ?_, fun id => ?_⟩
  · rw [he] at hc ⊢
    split at hc
    · rw [Entry.claimed_completed hn] at hc
      cases hc
    · rename_i hid
      rw [if_neg hid]
      exact h.unqueued id hc
  · obtain ⟨done, last, hb, hc, hm⟩ := h.books id
    rw [dealings_concat, hd, hb, he]
    by_cases hid : id = t.id
    · subst hid
      obtain rfl := hm (i, t) hmem rfl
      refine ⟨done ++ [(i, t, r)], none, ?_, ?_, fun x hx hx' => ?_⟩
      · simp [rounds, Dealing.id]
      · rw [if_pos rfl, Entry.claimed_completed hn]
        rfl
      · exact absurd (List.mem_map.mpr ⟨x, hx, hx'⟩) hnone
    · refine ⟨done, last, ?_, by rw [if_neg hid]; exact hc, fun x hx => hm x ?_⟩
      · simp [Dealing.id, Ne.symm hid]
      · exact hp.mem_iff.mpr (List.mem_cons_of_mem _ hx)

end Booked

theorem Step.booked (h : Step s a s') (hi : PoolsOnly k a) {past : List Moment}
    (hb : Booked k past s) : Booked k (past ++ [⟨s, a⟩]) s' := by
  cases h.dealt hi with
  | keeps lost hd hp he => exact hb.keeps hd hp he
  | claims hd hq hp => exact hb.claims hd hq hp
  | settles hd hn hw hp => exact hb.settles hd hn hw hp

theorem run_booked {as : List Action} (hr : run? {} as = some s) (hi : ∀ a ∈ as, PoolsOnly k a) :
    Booked k (moments {} as) s :=
  run_induction (P := fun past s => Booked k past s) (A := fun m => PoolsOnly k m.action)
    (booked_start k) (fun _ _ _ _ hb hi h => h.booked hi hb)
    (fun _ hm => hi _ (action_mem_of_mem_moments hm)) hr

/-! ### After the signal -/

/-- A loop that sees the stop signal ends. -/
theorem Step.loop_ended_of_halts {i : Nat} (h : Step s a s') (hm : Moment.Halts ⟨s, a⟩ i) :
    ∃ c, s'.caches[i]? = some c ∧ c.taskEnded .loop = true := by
  obtain ⟨c, p, fault, hc, hp, hstop, ha⟩ := hm
  have hi := (List.getElem?_eq_some_iff.mp hc).1
  have ended {d : Cache} {p₁ p' : Pool} {store : Store} {move : Pool.LoopMove} {events : List Event}
      (hd : s.caches[i]? = some d) (hp₁ : d.pool = some p₁)
      (hl : Pool.LoopStep (s.context d fault) p₁ s.store move p' store events)
      (hmove : move = .stop ∨ move = .advance ∧ p.loop = .checking) :
      ∃ c, (s.caches.set i { d with pool := some p' })[i]? = some c ∧
        c.taskEnded .loop = true := by
    obtain rfl := Option.some.inj (hc.symm.trans hd)
    obtain rfl := Option.some.inj (hp.symm.trans hp₁)
    refine ⟨_, List.getElem?_set_self hi, ?_⟩
    rcases hmove with rfl | ⟨rfl, hcheck⟩
    · cases hl with
      | stop => rfl
    · cases hl with
      | quit => rfl
      | proceed hl hs =>
          rw [show (s.context c fault).stopping = true from hstop] at hs
          cases hs
      | _ => simp_all
  rcases ha with ha | ⟨ha, hcheck⟩
  · obtain rfl : a = _ := ha
    cases h with
    | loop hd hp₁ hl => exact ended hd hp₁ hl (Or.inl rfl)
    | outside ho => cases ho
    | denied ho => cases ho
  · obtain rfl : a = _ := ha
    cases h with
    | loop hd hp₁ hl => exact ended hd hp₁ hl (Or.inr ⟨rfl, hcheck⟩)
    | outside ho => cases ho
    | denied ho => cases ho

/-- A loop that has seen the stop signal does nothing more. -/
theorem no_step_of_halts {as : List Action} (hr : run? {} as = some s) {past late : List Moment}
    {m : Moment} {i : Nat} (he : moments {} as = past ++ m :: late) (hm : m.Halts i) {m' : Moment}
    (hm' : m' ∈ late) (move : Pool.LoopMove) (fault : Option Error) :
    m'.action ≠ .loop i move fault := by
  obtain ⟨bs, u, -, -, hu, cs, -, hcs, rfl⟩ := exists_prefix hr he
  obtain ⟨c, hc, hended⟩ := (step_of hu).loop_ended_of_halts hm
  obtain ⟨front, back, hsplit⟩ := List.append_of_mem hm'
  obtain ⟨ds, v, hds, -, hv, -⟩ := exists_prefix hcs hsplit
  obtain ⟨d, hd, hw⟩ := run_winds hds hc
  intro ha
  rw [ha] at hv
  obtain ⟨d', hd', hgoing⟩ := (step_of hv).loop_going
  obtain rfl := Option.some.inj (hd.symm.trans hd')
  rw [hw.ended _ hended] at hgoing
  cases hgoing

/-! ### Nothing is lost -/

/-- **No claimed task gets lost.**  In every run in which only the pools claim and complete on the
queue `k`, whatever else happens, shutdowns at any moment included:

* what is done with an id goes in rounds: a loop takes it off the queue, and then one result of a
  worker of the same cache is accepted for it; it is in progress if and only if the last round is
  open, whichever tasks have ended;
* a result that is accepted takes full effect in one step: it is recorded, and the id, which was in
  progress until then, is released;
* an id leaves the queue only by being taken off it, and is in progress from that step on;
* a loop that has seen the stop signal takes no further step. -/
theorem no_task_lost {as : List Action} (hr : run? {} as = some s) (hi : ∀ a ∈ as, PoolsOnly k a) :
    (∀ id, ∃ done last, dealings k id (moments {} as) = rounds done last ∧
      (id ∈ s.store.inProgress k ↔ last ≠ none)) ∧
    (∀ m ∈ moments {} as, ∀ u, m.before.step? m.action = some u →
      (∀ i t r, m.dealing? k = some (.settled i t r) → t.id ∈ m.before.store.inProgress k ∧
        m.before.store.TakesEffect k t.id r m.before.now u.store) ∧
      ∀ id, (m.before.store.entry k id).priority ≠ none → (u.store.entry k id).priority = none →
        id ∈ u.store.inProgress k ∧ ∃ i t, m.dealing? k = some (.claimed i t) ∧ t.id = id) ∧
    ∀ past m late i, moments {} as = past ++ m :: late → m.Halts i →
      ∀ m' ∈ late, ∀ move fault, m'.action ≠ .loop i move fault := by
  refine ⟨fun id => ?_, fun m hm u hu => ?_, fun past m late i he hm m' hm' move fault =>
    no_step_of_halts hr he hm hm' move fault⟩
  · obtain ⟨done, last, hb, hc, -⟩ := (run_booked hr hi).books id
    refine ⟨done, last, hb, ?_⟩
    rw [Store.mem_inProgress, hc, Option.isSome_iff_ne_none]
  · -- cut the run at the moment
    obtain ⟨past, late, he⟩ := List.append_of_mem hm
    obtain ⟨bs, v, hbs, -, -, cs, rfl, -, -⟩ := exists_prefix hr he
    have hbooked := run_booked hbs fun a ha => hi a (List.mem_append_left _ ha)
    have hdealt := (step_of hu).dealt (hi _ (List.mem_append_right _ List.mem_cons_self))
    constructor
    · intro i t r hd
      cases hdealt with
      | keeps _ hd' _ _ => simp [hd] at hd'
      | claims hd' _ _ => simp [hd] at hd'
      | settles hd' hn hw hp =>
          obtain ⟨rfl, rfl, rfl⟩ := by simpa [hd] using hd'
          have hmem : (i, t) ∈ m.before.load k := hp.mem_iff.mpr List.mem_cons_self
          refine ⟨Store.mem_inProgress.mpr (hbooked.claimed_of_mem hmem), ?_⟩
          rw [hw]
          exact Store.takesEffect_complete hn _ _ _
    · intro id hq hq'
      cases hdealt with
      | keeps _ _ _ hkept => exact absurd hq' ((hkept id).queued hq)
      | @claims i t hd hdq _ =>
          obtain ⟨-, hentry⟩ := Store.entry_of_dequeue hdq
          rw [hentry] at hq'
          split at hq'
          · rename_i hid
            refine ⟨Store.mem_inProgress.mpr ?_, i, t, hd, hid.symm⟩
            rw [hentry, if_pos hid]
          · exact absurd hq' hq
      | settles _ _ hw _ =>
          rw [hw, Store.entry_complete] at hq'
          split at hq'
          · rename_i hid
            rw [Entry.priority_completed, ← hid] at hq'
            exact absurd hq' hq
          · exact absurd hq' hq

/-- An id is asked for, and the worker of cache 0 computes it. -/
def begun (id : Id) : List Action :=
  .enqueue ⟨"q"⟩ id 0 none ::
    (List.replicate 7 (.loop 0 .advance none) ++ List.replicate 3 (.worker 0 0 .advance none))

/-- One computation is over, and another one is interrupted by a shutdown. -/
def interrupted : List Action :=
  List.flatten [
    [.openCache { queue := "q", workers := 1 } true none], begun "x",
    [.worker 0 0 (.computed (.value [7])) none, .worker 0 0 .advance none], begun "y",
    [.shutdown 0, .closing 0, .worker 0 0 .stop none, .loop 0 .stop none, .notifier 0 .stop none],
    .replicate 5 (.closing 0)]

theorem no_task_lost_interrupted :
    ∃ s, run? {} interrupted = some s ∧ (∀ a ∈ interrupted, PoolsOnly ⟨"q"⟩ a) ∧
      s.closings.map (·.phase) = [.done] ∧ s.store.inProgress ⟨"q"⟩ = ["y"] ∧
      (∃ done, dealings ⟨"q"⟩ "x" (moments {} interrupted) = rounds done none) ∧
      ∃ done i t, dealings ⟨"q"⟩ "y" (moments {} interrupted) = rounds done (some (i, t)) := by
  have hi : ∀ a ∈ interrupted, PoolsOnly ⟨"q"⟩ a := by decide +kernel
  have hd : (run? {} interrupted).any (fun s =>
      decide (s.closings.map (·.phase) = [.done] ∧ s.store.inProgress ⟨"q"⟩ = ["y"])) = true := by
    decide +kernel
  obtain ⟨s, hr, hd⟩ := (Option.any_eq_true _ _).mp hd
  obtain ⟨hclosed, hclaimed⟩ := of_decide_eq_true hd
  obtain ⟨hbooks, -⟩ := no_task_lost hr hi
  refine ⟨s, hr, hi, hclosed, hclaimed, ?_, ?_⟩
  · obtain ⟨done, last, hx, hl⟩ := hbooks "x"
    rw [hclaimed] at hl
    cases last with
    | none => exact ⟨done, hx⟩
    | some x => exact absurd (hl.mpr (Option.some_ne_none x)) (by decide)
  · obtain ⟨done, last, hy, hl⟩ := hbooks "y"
    rw [hclaimed] at hl
    cases last with
    | none => exact absurd rfl (hl.mp List.mem_cons_self)
    | some x => exact ⟨done, x.1, x.2, hy⟩

end System

end ReadThrough
