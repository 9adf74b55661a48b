import ReadThrough.Proofs.Call.Waiting
import ReadThrough.Proofs.System.Custody
import ReadThrough.Proofs.System.Wakeup

/-! # States in which no task can go on

* **Tasks** (`Action.isTask`).  The steps that the tasks of the system take by themselves: no fault
  comes in between, no computation ends, and no time passes.
* **Quiescence** (`System.Quiescent`).  No task can take a step.  Only finitely many steps come into
  question in a state (`System.taskSteps`, `mem_taskSteps`), so this is decidable.
* **What a task looks like that cannot go on** (`Notifier.settled_of_stuck`, `Call.of_stuck`). -/

namespace ReadThrough

/-- A step that a task takes by itself. -/
def Action.isTask : Action → Bool
  | notifier _ _ fault => fault.isNone
  | loop _ _ fault => fault.isNone
  | worker _ _ (.computed _) _ => false
  | worker _ _ (.collapse _ _) _ => false
  | worker _ _ _ fault => fault.isNone
  | call _ fault => fault.isNone
  | closing _ => true
  | seeker _ fault => fault.isNone
  | _ => false

theorem Action.isTask_of_op? {a : Action} {op : Store.Op} (ho : a.op? = some op) :
    a.isTask = false := by
  cases a <;> first | rfl | cases ho

/-- No task can take a step until time passes or a computation ends. -/
def System.Quiescent (s : System) : Prop := ∀ a, a.isTask = true → s.step? a = none

/-- The moves that come into question for a notifier. -/
def Notifier.moves (n : Notifier) : List Notifier.Move :=
  [.stop, .request, .message, .hangUp, .conclude] ++
    match n.phase with
    | .checking id => [.check id]
    | .reconciling todo _ => todo.map .check
    | _ => []

/-- The steps that come into question for the worker pool of cache `i`. -/
def Pool.taskSteps (i : Nat) (p : Pool) : List Action :=
  [.loop i .stop none, .loop i .advance none] ++
    (List.range p.workers.length).flatMap fun k =>
      [.worker i k .stop none, .worker i k .advance none]

/-- The steps that come into question for the tasks of cache `i`. -/
def Cache.taskSteps (i : Nat) (c : Cache) : List Action :=
  c.notifier.moves.map (.notifier i · none) ++
    match c.pool with
    | some p => p.taskSteps i
    | none => []

namespace System

/-- The steps that come into question for the tasks of the system. -/
def taskSteps (s : System) : List Action :=
  (s.caches.mapIdx Cache.taskSteps).flatten ++ (List.range s.calls.length).map (.call · none) ++
    (List.range s.closings.length).map .closing ++
    (List.range s.seekers.length).map (.seeker · none)

variable {s s' : System}

theorem mem_moves {n n' : Notifier} {store store' : Store} {now : Instant} {stopping : Bool}
    {m : Notifier.Move} {events : List Event}
    (h : n.Step store now stopping none m n' store' events) : m ∈ n.moves := by
  cases h with
  | check hp ha => simp [Notifier.moves, hp]
  | recheck hp hi ha => simp [Notifier.moves, hp, hi]
  | _ => simp [Notifier.moves]

/-- A task takes only steps that come into question. -/
theorem mem_taskSteps {a : Action} (ht : a.isTask = true) (hs : s.step? a = some s') :
    a ∈ s.taskSteps := by
  have cache {i : Nat} {c : Cache} (hc : s.caches[i]? = some c) (hm : a ∈ c.taskSteps i) :
      a ∈ s.taskSteps := by
    refine List.mem_append_left _ (List.mem_append_left _ (List.mem_append_left _ ?_))
    exact mem_flatten_mapIdx.mpr ⟨i, c, hc, hm⟩
  have lt {α : Type} {l : List α} {i : Nat} {x : α} (h : l[i]? = some x) : i < l.length :=
    (List.getElem?_eq_some_iff.mp h).1
  cases step_of hs with
  | notifier hc hn =>
      obtain rfl := Option.isNone_iff_eq_none.mp ht
      refine cache hc (List.mem_append_left _ ?_)
      exact List.mem_map.mpr ⟨_, mem_moves hn, rfl⟩
  | @loop i m fault c p p' store events hc hp hl =>
      obtain rfl := Option.isNone_iff_eq_none.mp ht
      refine cache hc (List.mem_append_right _ ?_)
      rw [hp]
      refine List.mem_append_left _ ?_
      cases m <;> simp
  | @worker i k m fault c p p' store events hc hp hw =>
      refine cache hc (List.mem_append_right _ ?_)
      rw [hp]
      refine List.mem_append_right _ (List.mem_flatMap.mpr ⟨k, ?_, ?_⟩)
      · refine List.mem_range.mpr ?_
        cases hw <;> exact lt (by assumption)
      · cases m with
        | computed r => cases ht
        | collapse r? words => cases ht
        | stop =>
            obtain rfl := Option.isNone_iff_eq_none.mp ht
            simp
        | advance =>
            obtain rfl := Option.isNone_iff_eq_none.mp ht
            simp
  | call hx hc hx' =>
      obtain rfl := Option.isNone_iff_eq_none.mp ht
      refine List.mem_append_left _ (List.mem_append_left _ (List.mem_append_right _ ?_))
      exact List.mem_map.mpr ⟨_, List.mem_range.mpr (lt hx), rfl⟩
  | closing hx hc hx' =>
      refine List.mem_append_left _ (List.mem_append_right _ ?_)
      exact List.mem_map.mpr ⟨_, List.mem_range.mpr (lt hx), rfl⟩
  | seeker hx hx' =>
      obtain rfl := Option.isNone_iff_eq_none.mp ht
      refine List.mem_append_right _ ?_
      exact List.mem_map.mpr ⟨_, List.mem_range.mpr (lt hx), rfl⟩
  | outside ho hf =>
      rw [Action.isTask_of_op? ho] at ht
      cases ht
  | denied ho hf =>
      rw [Action.isTask_of_op? ho] at ht
      cases ht
  | _ => cases ht

theorem isTask_of_mem {a : Action} (h : a ∈ s.taskSteps) : a.isTask = true := by
  rcases List.mem_append.mp h with h | h
  · rcases List.mem_append.mp h with h | h
    · rcases List.mem_append.mp h with h | h
      · obtain ⟨i, c, -, hm⟩ := mem_flatten_mapIdx.mp h
        rcases List.mem_append.mp hm with hm | hm
        · obtain ⟨m, -, rfl⟩ := List.mem_map.mp hm
          rfl
        · split at hm
          · rcases List.mem_append.mp hm with hm | hm
            · simp only [List.mem_cons, List.not_mem_nil, or_false] at hm
              rcases hm with rfl | rfl <;> rfl
            · obtain ⟨k, -, hm⟩ := List.mem_flatMap.mp hm
              simp only [List.mem_cons, List.not_mem_nil, or_false] at hm
              rcases hm with rfl | rfl <;> rfl
          · cases hm
      · obtain ⟨j, -, rfl⟩ := List.mem_map.mp h
        rfl
    · obtain ⟨j, -, rfl⟩ := List.mem_map.mp h
      rfl
  · obtain ⟨j, -, rfl⟩ := List.mem_map.mp h
    rfl

theorem quiescent_iff (s : System) :
    s.Quiescent ↔ ∀ a ∈ s.taskSteps, (s.step? a).isNone = true := by
  constructor
  · intro h a ha
    rw [h a (isTask_of_mem ha)]
    rfl
  · intro h a ht
    cases hs : s.step? a with
    | none => rfl
    | some t =>
        have hn := h a (mem_taskSteps ht hs)
        rw [hs] at hn
        cases hn

instance (s : System) : Decidable s.Quiescent := decidable_of_iff _ (quiescent_iff s).symm

/-! ### Tasks that cannot go on -/

theorem Quiescent.notifier {i : Nat} {c : Cache} (h : s.Quiescent) (hc : s.caches[i]? = some c)
    (m : Notifier.Move) : c.notifier.step? s.store s.now c.stopping none m = none := by
  have hs := h (.notifier i m none) rfl
  simp only [step?, hc, Option.bind_eq_bind, Option.bind_some, Option.bind_eq_none_iff] at hs
  cases hn : c.notifier.step? s.store s.now c.stopping none m with
  | none => rfl
  | some x => exact absurd (hs x hn) nofun

theorem Quiescent.loop {i : Nat} {c : Cache} {p : Pool} (h : s.Quiescent)
    (hc : s.caches[i]? = some c) (hp : c.pool = some p) :
    p.advanceLoop? (s.context c none) s.store = none := by
  have hs := h (.loop i .advance none) rfl
  simp only [step?, hc, hp, Option.bind_eq_bind, Option.bind_some, Option.bind_eq_none_iff] at hs
  cases hn : p.advanceLoop? (s.context c none) s.store with
  | none => rfl
  | some x => exact absurd (hs x hn) nofun

theorem Quiescent.worker {i k : Nat} {c : Cache} {p : Pool} (h : s.Quiescent)
    (hc : s.caches[i]? = some c) (hp : c.pool = some p) :
    p.stepWorker? (s.context c none) s.store k .advance = none := by
  have hs := h (.worker i k .advance none) rfl
  simp only [step?, hc, hp, Option.bind_eq_bind, Option.bind_some, Option.bind_eq_none_iff] at hs
  cases hn : p.stepWorker? (s.context c none) s.store k .advance with
  | none => rfl
  | some x => exact absurd (hs x hn) nofun

theorem Quiescent.call {j : Nat} {x : Call} {c : Cache} (h : s.Quiescent)
    (hx : s.calls[j]? = some x) (hc : s.caches[x.cache]? = some c) :
    x.step? c.settings s.now none c.notifier s.store = none := by
  have hs := h (.call j none) rfl
  simp only [step?, hx, hc, Option.bind_eq_bind, Option.bind_some, Option.bind_eq_none_iff] at hs
  cases hn : x.step? c.settings s.now none c.notifier s.store with
  | none => rfl
  | some y => exact absurd (hs y hn) nofun

end System

/-- A caller that cannot go on is done, or waits and was not woken. -/
theorem Call.of_stuck {x : Call} {settings : Settings} {now : Instant} {n : Notifier} {s : Store}
    (h : x.step? settings now none n s = none) :
    x.ended = true ∨ ∃ w, x.Waits w ∧ n.signal w = .pending := by
  unfold step? at h
  cases hp : x.phase with
  | looking => simp [query?, hp] at h
  | queueing => simp [query?, hp] at h
  | rereading w wake => simp [query?, hp] at h
  | subscribing =>
      simp only [query?, hp, advance?, Option.map_eq_none_iff] at h
      split at h <;> cases h
  | waiting w d =>
      simp only [query?, hp, advance?, Option.map_eq_none_iff] at h
      cases hs : n.signal w with
      | pending => exact Or.inr ⟨w, ⟨d, hp⟩, hs⟩
      | woken => simp [hs] at h
      | lost => simp [hs] at h
  | served bytes => exact Or.inl (by simp [ended, hp])
  | refused e => exact Or.inl (by simp [ended, hp])
  | cancelled => exact Or.inl (by simp [ended, hp])

namespace Notifier

/-- An alert notifier that cannot go on has nothing left to handle. -/
theorem settled_of_stuck {k : Keys} {n : Notifier} {s : Store} {now : Instant} {stopping : Bool}
    (ha : Alert k n s now) (hc : s.connected = true) (hp : n.phase ≠ .stopped)
    (h : ∀ m, n.step? s now stopping none m = none) : n.Settled s := by
  have hidle : n.phase = .idle := by
    cases hph : n.phase with
    | idle => rfl
    | checking id =>
        have hs := h (.check id)
        simp [step?, due, hph] at hs
    | reconciling todo woken =>
        cases todo with
        | nil =>
            have hs := h .conclude
            simp [step?, hph] at hs
        | cons id todo =>
            have hs := h (.check id)
            simp [step?, due, hph] at hs
    | stopped => exact absurd hph hp
  refine ⟨hc, hidle, ?_, ?_⟩
  · have hs := h .request
    simp only [step?, Option.map_eq_none_iff, takeRequest?, hidle] at hs
    cases hr : n.requests with
    | nil => rfl
    | cons r rest =>
        rw [hr] at hs
        cases r <;> cases hs
  · have hs := h .message
    simp only [step?, hidle, if_true, Option.map_eq_none_iff] at hs
    obtain ⟨f, hf, -, -⟩ := ha.hears hp
    unfold Store.receive? at hs
    unfold Store.inbox
    rw [hf] at hs ⊢
    cases hi : f.inbox with
    | nil => exact hi
    | cons m rest => simp [hi] at hs

end Notifier

end ReadThrough
