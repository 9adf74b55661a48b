import ReadThrough.Proofs.Call.Sights
import ReadThrough.Proofs.System.LastLook
import ReadThrough.Proofs.System.Signals

/-! # Why callers get what they get

What a caller has seen in a run, and the requests that it has counted, are those of its own moments
(`System.sights`, `System.requests`).

* **Told the truth** (`System.Frank`, `Step.frank`).  Nobody is told that a notifier is lost before
  it has ended.
* **Each on its course** (`System.OnCourse`, `step?_onCourse`).  What a caller has seen fits where
  it stands, whatever others do between its steps.

So every answer of a cache over a store that does not fail is justified by what its caller saw, and
it is counted once, under the right label (`answers_justified`). -/

namespace ReadThrough

/-- What caller `j` sees in the moment, if it takes a step and the store answers. -/
def Moment.sight? (m : Moment) (j : Nat) : Option Call.Sight :=
  match m.action with
  | .call l none =>
    if l = j then do
      let x ← m.before.calls[j]?
      let c ← m.before.caches[x.cache]?
      x.sight? c.settings m.before.now c.notifier m.before.store
    else none
  | _ => none

/-- What is reported in the moment. -/
def Moment.reports (m : Moment) : List Event :=
  match m.before.step? m.action with
  | some s => s.history.drop m.before.history.length
  | none => []

/-- The requests that caller `j` counts in the moment. -/
def Moment.requests (m : Moment) (j : Nat) : List Sample :=
  match m.action with
  | .call l _ => if l = j then Event.requests m.reports else []
  | _ => []

/-! ### Nobody is told too early -/

namespace Notifier

/-- Whoever knows that the notifier is lost is right. -/
def Frank (n : Notifier) : Prop :=
  ∀ (w : Nat) (y : Waiter), n.waiters[w]? = some y → y.signal = .lost → n.ended = true

/-- Nobody gets a signal, and the notifier does not end or begin. -/
structure Hushed (n n' : Notifier) : Prop where
  ended : n'.ended = n.ended
  signal : ∀ (w : Nat) (y : Waiter), n'.waiters[w]? = some y → y.signal ≠ .pending →
    ∃ z, n.waiters[w]? = some z ∧ z.signal = y.signal

variable {n n' : Notifier} {id : Id} {w : Nat}

theorem Hushed.refl (n : Notifier) : Hushed n n := ⟨rfl, fun _ y h _ => ⟨y, h, rfl⟩⟩

theorem Hushed.trans {n₁ n₂ n₃ : Notifier} (h : Hushed n₁ n₂) (h' : Hushed n₂ n₃) :
    Hushed n₁ n₃ := by
  refine ⟨h'.ended.trans h.ended, fun w y hy hs => ?_⟩
  obtain ⟨z, hz, he⟩ := h'.signal w y hy hs
  obtain ⟨x, hx, he'⟩ := h.signal w z hz (he ▸ hs)
  exact ⟨x, hx, he'.trans he⟩

theorem Hushed.frank (h : Hushed n n') (hn : n.Frank) : n'.Frank := by
  intro w y hy hs
  obtain ⟨z, hz, he⟩ := h.signal w y hy (by simp [hs])
  exact h.ended.trans (hn w z hz (he.trans hs))

theorem hushed_release (n : Notifier) (id : Id) : Hushed n (n.release id) := by
  refine ⟨ended_of_desk_eq (desk_release n id), fun w y hy _ => ⟨y, ?_, rfl⟩⟩
  rwa [waiters_release] at hy

theorem hushed_leave (n : Notifier) (v : Nat) : Hushed n (n.leave v) := by
  refine ⟨rfl, fun w y hy _ => ?_⟩
  simp only [leave, List.getElem?_modify] at hy
  obtain ⟨z, hz, rfl⟩ := Option.map_eq_some_iff.mp hy
  exact ⟨z, hz, by split <;> rfl⟩

theorem hushed_push (n : Notifier) (id : Id) :
    Hushed n { n with
      waiters := n.waiters ++ [{ id }]
      requests := n.requests ++ [.watch id n.waiters.length] } := by
  refine ⟨rfl, fun w y hy hs => ?_⟩
  rcases Nat.lt_or_ge w n.waiters.length with hw | hw
  · rw [List.getElem?_append_left hw] at hy
    exact ⟨y, hy, rfl⟩
  · rw [List.getElem?_append_right hw] at hy
    obtain rfl := List.mem_singleton.mp (List.mem_of_getElem? hy)
    exact absurd rfl hs

theorem hushed_subscribe? (h : n.subscribe? id = some (w, n')) : Hushed n n' := by
  unfold subscribe? at h
  split at h
  · cases h
  · obtain ⟨-, rfl⟩ := Prod.mk.inj (Option.some.inj h)
    exact hushed_push n id

/-- A notifier tells that it is lost only when it ends. -/
theorem Step.frank {s s' : Store} {now : Instant} {stopping : Bool} {fault : Option Error}
    {m : Move} {events : List Event} (h : Step n s now stopping fault m n' s' events)
    (hn : n.Frank) : n'.Frank := by
  -- nobody knows of a loss yet
  have hnone : ∀ (w : Nat) (y : Waiter), n.waiters[w]? = some y → y.signal ≠ .lost :=
    fun w y hy hs => Bool.false_ne_true (h.going.symm.trans (hn w y hy hs))
  intro w y hy hs
  rcases h.roused with ⟨id, -, hx, -, -⟩ | ⟨-, hx | rfl⟩
  · rcases waiters_wake n id w with ⟨he, -⟩ | ⟨he, -⟩
    · rw [hx, he] at hy
      exact absurd hs (hnone w y hy)
    · rw [hx, he] at hy
      obtain ⟨z, hz, rfl⟩ := Option.map_eq_some_iff.mp hy
      unfold Waiter.wake at hs
      split at hs
      · cases hs
      · exact absurd hs (hnone w z hz)
  · rw [hx] at hy
    exact absurd hs (hnone w y hy)
  · rfl

end Notifier

namespace Call

variable {x x' : Call} {settings : Settings} {now : Instant} {fault : Option Error}
  {n n' : Notifier} {s s' : Store} {events : List Event}

theorem hushed_wakeRelease (wake : Wake) (n : Notifier) (id : Id) :
    Notifier.Hushed n (wake.release n id) := by
  unfold Wake.release
  split
  · exact .refl n
  · exact Notifier.hushed_release n id

theorem Step.hushed (h : Step x settings now fault n s x' n' s' events) :
    Notifier.Hushed n n' := by
  cases h with
  | reread hp ha hr hb => exact hushed_wakeRelease _ n x.id
  | subscribe hp hn => exact Notifier.hushed_push n x.id
  | woken hp hs => exact Notifier.hushed_leave n _
  | lost hp hs => exact Notifier.hushed_leave n _
  | timedOut hp hs hl ht => exact Notifier.hushed_leave n _
  | _ => exact .refl n

theorem hushed_cancel (x : Call) (n : Notifier) : Notifier.Hushed n (x.cancel n).2 := by
  unfold cancel
  dsimp only
  split
  · exact (Notifier.hushed_leave n _).trans (Notifier.hushed_release _ _)
  · exact hushed_wakeRelease _ n x.id
  · exact .refl n

end Call

namespace System

variable {s s' : System} {a : Action} {i j : Nat} {past : List Moment}

theorem Touches.frank {c : Cache} {n : Notifier} (h : Touches s s' i c a n)
    (hn : c.notifier.Frank) : n.Frank := by
  cases h with
  | spares _ _ => exact hn
  | moves _ hs => exact hs.frank hn
  | serves hx hi hx' hs => exact hs.hushed.frank hn
  | loses hx hi hx' => exact (Call.hushed_cancel _ _).frank hn
  | watch hw => exact (Notifier.hushed_subscribe? hw).frank hn
  | leave => exact (Notifier.hushed_leave _ _).frank hn
  | release => exact (Notifier.hushed_release _ _).frank hn

/-- A cache stays with its settings, and its notifier forgets no waiter. -/
theorem Step.cache_stays (h : Step s a s') {c : Cache} (hc : s.caches[i]? = some c) :
    ∃ c', s'.caches[i]? = some c' ∧ c'.settings = c.settings ∧ Touches s s' i c a c'.notifier ∧
      c.notifier.waiters.length ≤ c'.notifier.waiters.length := by
  have hi := (List.getElem?_eq_some_iff.mp hc).1
  have hc' := List.getElem?_eq_getElem (Nat.lt_of_lt_of_le hi h.caches_length_le)
  refine ⟨_, hc', ?_⟩
  rcases h.touches hc' with ⟨d, hd, hset, ht⟩ | ⟨rfl, -⟩
  · obtain rfl := Option.some.inj (hc.symm.trans hd)
    refine ⟨hset, ht, ?_⟩
    rcases ht.moves_or_aside with ⟨m, fault, events, -, hn⟩ | ⟨hn, -⟩
    · exact hn.length_le
    · exact hn.length
  · exact absurd hi (Nat.lt_irrefl _)

/-- All notifiers are frank. -/
def Frank (s : System) : Prop := ∀ c ∈ s.caches, c.notifier.Frank

theorem Step.frank (h : Step s a s') (hs : s.Frank) : s'.Frank := by
  intro c' hm
  obtain ⟨i, hc'⟩ := List.mem_iff_getElem?.mp hm
  rcases h.touches hc' with ⟨c, hc, -, ht⟩ | ⟨-, -, -, k, hn, -⟩
  · exact ht.frank (hs c (List.mem_of_getElem? hc))
  · rw [hn]
    exact fun w y hy => by simp at hy

/-! ### What callers see and count -/

/-- What caller `j` has seen, the first thing first. -/
def sights (past : List Moment) (j : Nat) : List Call.Sight := past.filterMap (·.sight? j)

/-- The requests that caller `j` has counted. -/
def requests (past : List Moment) (j : Nat) : List Sample := past.flatMap (·.requests j)

/-- Whoever takes no step sees nothing and counts nothing. -/
theorem sights_other (s : System) (past : List Moment) (ha : ∀ fault, a ≠ .call j fault) :
    sights (past ++ [⟨s, a⟩]) j = sights past j ∧
      requests (past ++ [⟨s, a⟩]) j = requests past j := by
  have hsight : Moment.sight? ⟨s, a⟩ j = none := by
    unfold Moment.sight?
    split
    · rename_i l he
      refine if_neg fun hl => ha none ?_
      rw [← hl]
      exact he
    · rfl
  have hcount : Moment.requests ⟨s, a⟩ j = [] := by
    unfold Moment.requests
    split
    · rename_i l fault he
      refine if_neg fun hl => ha fault ?_
      rw [← hl]
      exact he
    · rfl
  simp [sights, requests, hsight, hcount]

/-- What a caller does in its step, and what it sees and counts there. -/
theorem exists_of_call (h : s.step? (.call j none) = some s') :
    ∃ x c x' n events, s.calls[j]? = some x ∧ s.caches[x.cache]? = some c ∧
      x.Step c.settings s.now none c.notifier s.store x' n s'.store events ∧
      s'.calls[j]? = some x' ∧ s'.caches[x.cache]? = some { c with notifier := n } ∧
      Moment.sight? ⟨s, .call j none⟩ j = x.sight? c.settings s.now c.notifier s.store ∧
      Moment.requests ⟨s, .call j none⟩ j = Event.requests events := by
  cases step_of h with
  | @call _ _ x x' c n store events hx hc hs =>
      refine ⟨x, c, x', n, events, hx, hc, hs, ?_, ?_, ?_, ?_⟩
      · exact List.getElem?_set_self (List.getElem?_eq_some_iff.mp hx).1
      · exact List.getElem?_set_self (List.getElem?_eq_some_iff.mp hc).1
      · simp [Moment.sight?, hx, hc]
      · simp [Moment.requests, Moment.reports, h, note, history, setCache]
  | outside ho hf => cases ho
  | denied ho hf => cases ho

/-- A caller of a cache is on its course, and has counted a request if it is answered. -/
structure Stands (c : Cache) (seen : List Call.Sight) (counted : List Sample) (x : Call) :
    Prop where
  waiter : ∀ w, x.Waits w → w < c.notifier.waiters.length
  course : x.Course c.settings seen
  counted : counted = (x.result?.map fun r =>
    (Call.label (Call.waited seen) r).sample c.settings.queue).toList

/-- Whoever is at place `j` of the callers is on its course. -/
structure OnCourse (past : List Moment) (j : Nat) (s : System) : Prop where
  absent : s.calls[j]? = none → sights past j = [] ∧ requests past j = []
  stands : ∀ x, s.calls[j]? = some x →
    ∃ c, s.caches[x.cache]? = some c ∧ Stands c (sights past j) (requests past j) x

theorem onCourse_start (j : Nat) : OnCourse [] j {} :=
  ⟨fun _ => ⟨rfl, rfl⟩, fun _ h => by simp at h⟩

/-- Others may do to a caller's cache what they do. -/
theorem Stands.keep {c c' : Cache} {seen : List Call.Sight} {counted : List Sample} {x : Call}
    (h : Stands c seen counted x) (hs : c'.settings = c.settings)
    (hl : c.notifier.waiters.length ≤ c'.notifier.waiters.length) : Stands c' seen counted x :=
  ⟨fun w hw => Nat.lt_of_lt_of_le (h.waiter w hw) hl, hs ▸ h.course, hs ▸ h.counted⟩

/-- A caller stays on its course in a step of its own. -/
theorem step?_onCourse_call (h : s.step? (.call j none) = some s') (hf : s.Frank)
    (hs : s.OnCourse past j) : s'.OnCourse (past ++ [⟨s, .call j none⟩]) j := by
  obtain ⟨x, c, x', n, events, hx, hc, hx', hy, hc', hsight, hcount⟩ := exists_of_call h
  obtain ⟨d, hd, hst⟩ := hs.stands x hx
  obtain rfl := Option.some.inj (hc.symm.trans hd)
  have hlost : ∀ w, x.Waits w → c.notifier.signal w = .lost → c.notifier.ended = true := by
    intro w hw hl
    have hy := List.getElem?_eq_getElem (hst.waiter w hw)
    unfold Notifier.signal at hl
    rw [hy] at hl
    exact hf c (List.mem_of_getElem? hc) w _ hy hl
  obtain ⟨sight, hsee, hcourse⟩ := hx'.course hst.course hlost
  rw [hsee] at hsight
  have hseen : sights (past ++ [⟨s, .call j none⟩]) j = sights past j ++ [sight] := by
    simp [sights, hsight]
  -- a caller that takes a step had not counted anything
  have hfirst : requests past j = [] := by
    rw [hst.counted, hx'.unanswered]
    rfl
  have hcounted : requests (past ++ [⟨s, .call j none⟩]) j = Event.requests events := by
    rw [requests, List.flatMap_append, ← requests, hfirst]
    simpa using hcount
  refine ⟨fun hn => by simp [hy] at hn, fun y hy' => ?_⟩
  obtain rfl := Option.some.inj (hy.symm.trans hy')
  rw [hseen, hcounted, hx'.same.1]
  refine ⟨_, hc', fun w hw => ?_, hcourse, hx'.requests hst.course hsee⟩
  exact (hx'.attends hw).2.2.lt_length

/-- A caller stays on its course in the steps of others. -/
theorem Step.onCourse_other (h : Step s a s') (ha : ∀ fault, a ≠ .call j fault)
    (hs : s.OnCourse past j) : s'.OnCourse (past ++ [⟨s, a⟩]) j := by
  obtain ⟨hseen, hcount⟩ := sights_other s past ha
  constructor
  · intro hn
    rw [hseen, hcount]
    exact hs.absent (h.absent_of_absent hn)
  · intro y hy
    rw [hseen, hcount]
    cases hx : s.calls[j]? with
    | none =>
        -- it has just come
        obtain ⟨i, id, p, rfl, hi, rfl⟩ := h.comes hx hy
        obtain ⟨c', hc', -⟩ := h.cache_stays (List.getElem?_eq_getElem hi)
        obtain ⟨hs₀, hr₀⟩ := hs.absent hx
        rw [hs₀, hr₀]
        refine ⟨c', hc', ?_, rfl, rfl⟩
        rintro w ⟨d, hd⟩
        cases hd
    | some x =>
        obtain ⟨c, hc, hst⟩ := hs.stands x hx
        obtain ⟨c', hc', hset, -, hle⟩ := h.cache_stays hc
        have hst' := hst.keep hset hle
        rcases h.caller_cases hx with ⟨hy', -⟩ | ⟨n, -, hy'⟩ | ⟨fault, -, -, -, -, rfl, -⟩
        · obtain rfl := Option.some.inj (hy'.symm.trans hy)
          exact ⟨c', hc', hst'⟩
        · obtain rfl := Option.some.inj (hy'.symm.trans hy)
          refine ⟨c', hc', fun w hw => absurd hw (Call.not_waits_cancel x n w),
            Call.course_cancel hst'.course n, ?_⟩
          rw [Call.result?_cancel]
          exact hst'.counted
        · exact absurd rfl (ha fault)

theorem step?_onCourse (h : s.step? a = some s') (hr : ∀ e, a ≠ .call j (some e)) (hf : s.Frank)
    (hs : s.OnCourse past j) : s'.OnCourse (past ++ [⟨s, a⟩]) j := by
  by_cases ha : a = .call j none
  · subst ha
    exact step?_onCourse_call h hf hs
  · refine (step_of h).onCourse_other (fun fault => ?_) hs
    cases fault with
    | none => exact ha
    | some e => exact hr e

theorem run_onCourse {as : List Action} (hr : run? {} as = some s)
    (hj : ∀ e, .call j (some e) ∉ as) : s.OnCourse (moments {} as) j := by
  have hm : ∀ m ∈ moments {} as, ∀ e, m.action ≠ .call j (some e) :=
    fun m hm e he => hj e (he ▸ action_mem_of_mem_moments hm)
  have start : OnCourse [] j {} ∧ Frank {} := ⟨onCourse_start j, fun _ h => nomatch h⟩
  exact (run_induction_step? (P := fun past u => u.OnCourse past j ∧ u.Frank) start
    (fun _ _ _ _ hu hr h => ⟨step?_onCourse h hr hu.2 hu.1, (step_of h).frank hu.2⟩) hm hr).1

/-- **Answers are justified.**  Let the store answer caller `j` whenever it is asked, and let all
others do what they like between any two steps of the caller: they may ask, claim and complete, the
connection may fail, time may pass and failures expire, caches may be shut down.

* What the caller returns is justified by what it saw.  A value, or the message of a failure, was on
  record when it looked for the last time.  If it returns the error of a wait, then its enqueue had
  not found the id finished, and after the wait it looked and found neither a value nor a live
  failure; its waiter had been woken, had lost its notifier, or had not been woken for as long as it
  was to wait.
* It counts one request when it is done and none before: a hit if it returns a value without having
  waited, a miss if it returns a value after a wait, else an error. -/
theorem answers_justified {as : List Action} (hr : run? {} as = some s) {x : Call}
    (hx : s.calls[j]? = some x) (hj : ∀ e, .call j (some e) ∉ as) :
    ∃ c, s.caches[x.cache]? = some c ∧
      (∀ r, x.result? = some r →
        Call.Justified c.settings x.id (sights (moments {} as) j) r) ∧
      requests (moments {} as) j = (x.result?.map fun r => (Call.label
        (Call.waited (sights (moments {} as) j)) r).sample c.settings.queue).toList := by
  obtain ⟨c, hc, hst⟩ := (run_onCourse hr hj).stands x hx
  exact ⟨c, hc, fun r hr => hst.course.justified hr, hst.counted⟩

/-- The result of a caller comes while it waits, but nobody tells it, and it looks too late. -/
def belated : List Action :=
  [.openCache { queue := "q", waitTimeout := some ⟨5⟩ } false none, .get 0 "x" 0, .call 0 none,
    .call 0 none, .call 0 none, .complete ⟨"q"⟩ "x" (.failure "boom" ⟨3⟩) none, .tick ⟨5⟩,
    .call 0 none, .call 0 none]

theorem answers_justified_belated :
    ∃ s x c, run? {} belated = some s ∧ s.calls[0]? = some x ∧
      (∀ e, .call 0 (some e) ∉ belated) ∧ x.result? = some (.error (.timedOut "x" ⟨5⟩)) ∧
      s.caches[x.cache]? = some c ∧
      Call.Justified c.settings x.id (sights (moments {} belated) 0)
        (.error (.timedOut "x" ⟨5⟩)) ∧
      requests (moments {} belated) 0 = [RequestResult.error.sample c.settings.queue] := by
  have hd : (run? {} belated).any (fun s => s.calls[0]?.any fun x =>
      decide (x.result? = some (.error (.timedOut "x" ⟨5⟩)))) = true := by
    decide +kernel
  obtain ⟨s, hs, hd⟩ := (Option.any_eq_true _ _).mp hd
  obtain ⟨x, hx, hd⟩ := (Option.any_eq_true _ _).mp hd
  have hr := of_decide_eq_true hd
  have hj : ∀ e, Action.call 0 (some e) ∉ belated := by simp [belated]
  obtain ⟨c, hc, hjust, hcount⟩ := answers_justified hs hx hj
  refine ⟨s, x, c, hs, hx, hj, hr, hc, hjust _ hr, ?_⟩
  rw [hcount, hr]
  rfl

end System

end ReadThrough
