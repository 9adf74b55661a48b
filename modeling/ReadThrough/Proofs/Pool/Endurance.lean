import Mathlib.Logic.Relation
import ReadThrough.Proofs.Pool.Running
import ReadThrough.Proofs.Store.Entries

/-! # What a pool endures

A pool asks the clock for two kinds of instants only: deadlines of waits, and expiries of failures.

* **Endurance** (`Pool.Enduring`).  As long as the clock can name both, nobody crashes, and nobody
  ends unless the stop signal is raised (`LoopStep.enduring`, `WorkerStep.enduring`).  This holds
  under any faults, whatever is computed, unless a computation takes its worker down.
* **Crashes.**  A new pool that is left to itself can get to a crash as soon as the clock cannot
  name a deadline (`exists_moves_loop_crash`), or an expiry (`exists_moves_worker_crash`). -/

namespace ReadThrough

/-- A failure is kept for a given time only. -/
def Completion.Keeps (ttl : Duration) : Completion → Prop
  | .value _ => True
  | .failure _ d => d = ttl

theorem Computed.keeps_completion (r : Computed) (ttl : Duration) :
    (r.completion ttl).Keeps ttl := by
  cases r <;> trivial

/-- A worker has not crashed, and a failure that it writes back is kept for the given time. -/
def WorkerPhase.Sound (ttl : Duration) : WorkerPhase → Prop
  | writing _ r => r.Keeps ttl
  | crashed _ => False
  | _ => True

namespace Pool

/-- Nobody has crashed, and nobody has ended unless the stop signal is raised. -/
structure Enduring (ttl : Duration) (stopping : Bool) (p : Pool) : Prop where
  staffed : p.workers ≠ []
  loop : p.loop ≠ .crashed
  workers : ∀ w ∈ p.workers, w.Sound ttl
  serving : stopping = false → p.loop.ended = false ∧ ∀ w ∈ p.workers, w.ended = false

variable {c : Context} {p p' : Pool} {s s' : Store} {events : List Event} {k : Nat}

theorem start_enduring {n : Nat} (hn : n ≠ 0) (ttl : Duration) (stopping : Bool) :
    (start n).Enduring ttl stopping where
  staffed := by simpa [start] using hn
  loop := by simp [start]
  workers w hw := by
    obtain rfl := List.eq_of_mem_replicate hw
    trivial
  serving _ := by
    refine ⟨rfl, fun w hw => ?_⟩
    obtain rfl := List.eq_of_mem_replicate hw
    rfl

/-- A stop signal that is raised asks for less. -/
theorem Enduring.stop {ttl : Duration} {stopping : Bool} (h : p.Enduring ttl stopping) :
    p.Enduring ttl true :=
  ⟨h.staffed, h.loop, h.workers, fun hs => Bool.noConfusion hs⟩

/-- The loop goes on, or ends because the stop signal is raised. -/
theorem Enduring.setLoop {ttl : Duration} {stopping : Bool} (h : p.Enduring ttl stopping)
    (hw : p'.workers = p.workers) (hl : p'.loop ≠ .crashed)
    (he : stopping = false → p'.loop.ended = false) : p'.Enduring ttl stopping where
  staffed := hw ▸ h.staffed
  loop := hl
  workers := hw ▸ h.workers
  serving hs := ⟨he hs, hw ▸ (h.serving hs).2⟩

/-- A worker goes on, or ends because the stop signal is raised. -/
theorem Enduring.setWorker {ttl : Duration} {stopping : Bool} {w : WorkerPhase}
    (h : p.Enduring ttl stopping) (hl : p'.loop = p.loop) (hw : p'.workers = p.workers.set k w)
    (hs : w.Sound ttl) (he : stopping = false → w.ended = false) : p'.Enduring ttl stopping := by
  have hcases : ∀ v ∈ p'.workers, v ∈ p.workers ∨ v = w := fun v hv =>
    List.mem_or_eq_of_mem_set (hw ▸ hv)
  refine ⟨fun hn => ?_, hl ▸ h.loop, fun v hv => ?_, fun hst => ?_⟩
  · have hlen := congrArg List.length (hw.symm.trans hn)
    rw [List.length_set] at hlen
    exact h.staffed (List.length_eq_zero_iff.mp hlen)
  · rcases hcases v hv with hv | rfl
    · exact h.workers v hv
    · exact hs
  · refine ⟨hl ▸ (h.serving hst).1, fun v hv => ?_⟩
    rcases hcases v hv with hv | rfl
    · exact (h.serving hst).2 v hv
    · exact he hst

/-- A clock that can name the deadline of a wait does not crash the loop. -/
theorem LoopStep.enduring {m : LoopMove} (h : LoopStep c p s m p' s' events) {ttl : Duration}
    (hp : p.Enduring ttl c.stopping) (ht : c.now + c.settings.pollTimeout.nanos ≤ Instant.last) :
    p'.Enduring ttl c.stopping := by
  have signal (hs : c.stopping = true) {b : Bool} (hn : c.stopping = false) : b = false :=
    Bool.noConfusion (hs.symm.trans hn)
  cases h with
  | stop hs hl => exact hp.setLoop rfl (by simp [endLoop]) (signal hs)
  | crash hl hm hf hw =>
      have hd := Option.map_eq_none_iff.mp hw
      rw [Instant.after?, if_pos ht] at hd
      cases hd
  | quit hl hs => exact hp.setLoop rfl (by simp [endLoop]) (signal hs)
  | strand hl he =>
      refine hp.setLoop rfl (by simp [endLoop]) fun hs => ?_
      -- while nobody stops the pool, somebody is there to take the task
      obtain ⟨w, hw⟩ := List.exists_mem_of_ne_nil _ hp.staffed
      have hw' := List.all_eq_true.mp he w hw
      rw [(hp.serving hs).2 w hw] at hw'
      cases hw'
  | _ => exact hp.setLoop rfl (by simp) fun _ => rfl

/-- A clock that can name the expiry of a failure does not crash a worker. -/
theorem WorkerStep.enduring {m : WorkerMove} (h : WorkerStep c p s k m p' s' events)
    (hm : m.collapses = false) (hp : p.Enduring c.settings.errorTtl c.stopping)
    (ht : c.now + c.settings.errorTtl.nanos ≤ Instant.last) :
    p'.Enduring c.settings.errorTtl c.stopping := by
  have signal (hs : c.stopping = true) {b : Bool} (hn : c.stopping = false) : b = false :=
    Bool.noConfusion (hs.symm.trans hn)
  cases h with
  | leave hk hs => exact hp.setWorker rfl rfl trivial (signal hs)
  | abandon hk ht hs => exact hp.setWorker rfl rfl trivial (signal hs)
  | quit hk hs => exact hp.setWorker rfl rfl trivial (signal hs)
  | hangUp hk hc hl =>
      refine hp.setWorker rfl rfl trivial fun hs => ?_
      rw [(hp.serving hs).1] at hl
      cases hl
  | @conclude t r hk => exact hp.setWorker rfl rfl (r.keeps_completion _) fun _ => rfl
  | collapse hk => cases hm
  | @crash t r s' hk hf hw =>
      have hr : r.Keeps c.settings.errorTtl := hp.workers _ (List.mem_of_getElem? hk)
      have hn := Store.complete_accepted (s := s) (k := c.settings.keys) t.id r c.now
      rw [hw] at hn
      cases r with
      | value bytes => cases hn
      | failure message d =>
          obtain rfl : d = _ := hr
          simp [Completion.nameable, Instant.after?, ht] at hn
  | _ => exact hp.setWorker rfl rfl trivial fun _ => rfl

/-! ### Crashes -/

/-- A pool and the store go on together, and no computation takes its worker down. -/
inductive Moves (c : Context) : Pool × Store → Pool × Store → Prop
  | loop {p p' : Pool} {s s' : Store} {m : LoopMove} {events : List Event}
      (h : LoopStep c p s m p' s' events) : Moves c (p, s) (p', s')
  | worker {p p' : Pool} {s s' : Store} {k : Nat} {m : WorkerMove} {events : List Event}
      (h : WorkerStep c p s k m p' s' events) (hm : m.collapses = false) : Moves c (p, s) (p', s')

open Relation (ReflTransGen)

/-- The first permit of a new pool is taken. -/
theorem moves_acquire {n : Nat} (hn : n ≠ 0) (s : Store) :
    Moves c (start n, s) ({ start n with permits := n - 1, loop := .holding }, s) :=
  .loop (.acquire rfl (Nat.pos_of_ne_zero hn))

/-- The loop crashes when the clock cannot name the deadline of its wait. -/
theorem exists_moves_loop_crash {n : Nat} (hn : n ≠ 0) (hf : c.fault = none)
    (ht : Instant.last < c.now + c.settings.pollTimeout.nanos) (s : Store) :
    ∃ p' s', ReflTransGen (Moves c) (start n, s) (p', s') ∧ p'.loop = .crashed := by
  have hw : Wait.start? c.settings.keys c.settings.pollTimeout c.now = none := by
    simp [Wait.start?, Instant.after?, ht]
  exact ⟨_, _, (ReflTransGen.single (moves_acquire hn s)).tail (.loop (.crash rfl rfl hf hw)), rfl⟩

/-- A loop that holds a permit claims the first queued task, once there is a marker. -/
theorem moves_claim {s₁ s₂ : Store} {t : Claim} (hs : c.stopping = false) (hf : c.fault = none)
    (hd : c.now + c.settings.pollTimeout.nanos ≤ Instant.last) (hl : p.loop = .holding)
    (hm : p.hasMore = false) (hk : s.takeMarker c.settings.keys = some s₁)
    (hq : s₁.dequeue c.settings.keys = (some t, s₂)) :
    ReflTransGen (Moves c) (p, s)
      ({ p with loop := .sending t, hasMore := 0 < t.remaining }, s₂) := by
  let w : Wait :=
    { keys := c.settings.keys, deadline := c.now + c.settings.pollTimeout.nanos }
  have hw : Wait.start? c.settings.keys c.settings.pollTimeout c.now = some w := by
    simp [Wait.start?, Instant.after?, hd, w]
  have h₁ : Moves c (p, s) ({ p with loop := .waiting w }, s) := .loop (.startWait hl hm hf hw)
  have h₂ : Moves c ({ p with loop := .waiting w }, s)
      ({ p with loop := .waiting { w with phase := .looking s.signals } }, s) :=
    .loop (.wait rfl rfl)
  have h₃ : Moves c ({ p with loop := .waiting { w with phase := .looking s.signals } }, s)
      ({ p with loop := .checking }, s₁) :=
    .loop (.waited rfl (show _ = some (Wait.Progress.finished true, s₁) by
      simp [Wait.step?, w, hk]))
  have h₄ : Moves c ({ p with loop := .checking }, s₁) ({ p with loop := .claiming }, s₁) :=
    .loop (.proceed rfl hs)
  have h₅ : Moves c ({ p with loop := .claiming }, s₁)
      ({ p with loop := .sending t, hasMore := 0 < t.remaining }, s₂) :=
    .loop (.claim rfl hf hq)
  exact ((((ReflTransGen.single h₁).tail h₂).tail h₃).tail h₄).tail h₅

theorem getElem?_setWorker {w : WorkerPhase} (hk : p.workers[k]? = some w) (w' : WorkerPhase) :
    (p.setWorker k w').workers[k]? = some w' :=
  List.getElem?_set_self (List.getElem?_eq_some_iff.mp hk).1

/-- The first worker of a pool takes the task of the loop, and its computation fails. -/
theorem exists_moves_failure {t : Claim} (hs : c.stopping = false) (hl : p.loop = .sending t)
    (hc : p.channel = []) (hk : p.workers[0]? = some .starting) (s : Store) :
    ∃ p', ReflTransGen (Moves c) (p, s) (p', s) ∧
      p'.workers[0]? = some (.writing t (.failure "" c.settings.errorTtl)) := by
  have hopen : p.workers.all WorkerPhase.ended = false :=
    List.all_eq_false.mpr ⟨_, List.mem_of_getElem? hk, by simp [WorkerPhase.ended]⟩
  have hroom : p.channel.length < p.capacity := by
    rw [hc]
    exact Nat.lt_of_lt_of_le Nat.one_pos (Nat.le_max_right _ _)
  let sent : Pool := { p with loop := .acquiring, channel := p.channel ++ [t] }
  let ready := sent.setWorker 0 .receiving
  let handed := { (ready.setWorker 0 (.handed t)) with channel := [] }
  let begun := handed.setWorker 0 (.computing t)
  have hr : ready.workers[0]? = some .receiving := getElem?_setWorker (p := sent) hk _
  have hh : handed.workers[0]? = some (.handed t) := getElem?_setWorker hr _
  have hb : begun.workers[0]? = some (.computing t) := getElem?_setWorker hh _
  have h₁ : Moves c (p, s) (sent, s) := .loop (.send hl hopen hroom)
  have h₂ : Moves c (sent, s) (ready, s) := .worker (.ready hk hs) rfl
  have h₃ : Moves c (ready, s) (handed, s) :=
    .worker (.receive hr (show p.channel ++ [t] = t :: [] by rw [hc]; rfl)) rfl
  have h₄ : Moves c (handed, s) (begun, s) := .worker (.begin hh) rfl
  have h₅ : Moves c (begun, s) (begun.setWorker 0 (.writing t _), s) :=
    .worker (.conclude (r := .failed "") hb) rfl
  exact ⟨_, ((((ReflTransGen.single h₁).tail h₂).tail h₃).tail h₄).tail h₅, getElem?_setWorker hb _⟩

/-- A worker crashes when the clock cannot name the expiry of a failure that it writes back. -/
theorem exists_moves_worker_crash {n : Nat} (hn : n ≠ 0) (hs : c.stopping = false)
    (hf : c.fault = none) (hd : c.now + c.settings.pollTimeout.nanos ≤ Instant.last)
    (ht : Instant.last < c.now + c.settings.errorTtl.nanos) {s s₁ s₂ : Store} {t : Claim}
    (hm : s.takeMarker c.settings.keys = some s₁)
    (hq : s₁.dequeue c.settings.keys = (some t, s₂)) :
    ∃ p' s', ReflTransGen (Moves c) (start n, s) (p', s') ∧
      p'.workers[0]? = some (.crashed Instant.overflowText) := by
  have h₁ := ReflTransGen.single (moves_acquire (c := c) hn s)
  have h₂ := h₁.trans (moves_claim hs hf hd rfl rfl hm hq)
  have hstart : (start n).workers[0]? = some .starting :=
    List.getElem?_replicate_of_lt (Nat.pos_of_ne_zero hn)
  obtain ⟨p, h₃, hk⟩ := exists_moves_failure
    (p := { start n with permits := n - 1, loop := .sending t, hasMore := 0 < t.remaining })
    hs rfl rfl hstart s₂
  have hw : (s₂.complete c.settings.keys t.id (.failure "" c.settings.errorTtl) c.now).1 =
      false := by
    rw [Store.complete_accepted]
    simp [Completion.nameable, Instant.after?, ht]
  have h₄ : Moves c (p, s₂) ((p.finish 0 (.crashed Instant.overflowText)).close, _) :=
    .worker (.crash hk hf (Prod.ext hw rfl)) rfl
  refine ⟨_, _, (h₂.trans h₃).tail h₄, ?_⟩
  exact List.getElem?_set_self (List.getElem?_eq_some_iff.mp hk).1

end Pool

end ReadThrough
