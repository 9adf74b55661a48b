import ReadThrough.Proofs.System.LastLook
import ReadThrough.Proofs.System.Signals

/-! # After the end of a notifier

When the notifier of a cache has ended, whether it saw the stop signal or found its channel closed,
nobody hangs (`aftermath`).

* **Over.**  From then on nobody waits to hear from it (`System.OverAt`, `Step.overAt`), wherever
  the watch of a waiter was: registered, or still to be taken.
* **The fate** of a caller is settled in that moment (`System.fateAt`): whoever is blocked and was
  not woken is lost.  It comes true for every caller that gets an answer (`System.Fated`,
  `Step.fated`).
* **The way out.**  Callers can always go on, no time has to pass, and those that have to wait are
  done after at most two steps of their own, whatever happens in between (`ended_of_steps`). -/

namespace ReadThrough

/-- Whether an action is a step of caller `j`. -/
def Action.stepOf (j : Nat) : Action → Bool
  | call l _ => l == j
  | _ => false

namespace System

variable {s s' : System} {a : Action} {i j : Nat} {past : List Moment}

/-! ### Nobody waits to hear from it -/

/-- The notifier of cache `i` is over, and `signal` is what everybody has heard from it. -/
def OverAt (i : Nat) (signal : Nat → Waiter.Signal) (s : System) : Prop :=
  ∃ c, s.caches[i]? = some c ∧ c.notifier.Over ∧ ∀ w, c.notifier.signal w = signal w

variable {signal : Nat → Waiter.Signal}

/-- It stays over, and everybody keeps what it has heard. -/
theorem Touches.over {c : Cache} {n : Notifier} (h : Touches s s' i c a n)
    (ho : c.notifier.Over) : n.Over ∧ ∀ w, n.signal w = c.notifier.signal w := by
  cases h with
  | spares _ _ => exact ⟨ho, fun _ => rfl⟩
  | moves _ hn => exact absurd hn ho.not_step
  | serves hx hi hx' hs => exact hs.over ho
  | loses hx hi hx' => exact Call.over_cancel ho _
  | watch hn =>
      rw [ho.subscribe?] at hn
      cases hn
  | leave => exact ⟨ho.leave _, Notifier.signal_leave _ _⟩
  | release =>
      rw [ho.release]
      exact ⟨ho, fun _ => rfl⟩

theorem Step.overAt (h : Step s a s') (ho : s.OverAt i signal) : s'.OverAt i signal := by
  obtain ⟨c, hc, hover, hsignal⟩ := ho
  have hi := (List.getElem?_eq_some_iff.mp hc).1
  have hc' := List.getElem?_eq_getElem (Nat.lt_of_lt_of_le hi h.caches_length_le)
  rcases h.touches hc' with ⟨d, hd, -, ht⟩ | ⟨he, -⟩
  · obtain rfl := Option.some.inj (hc.symm.trans hd)
    obtain ⟨hover', hsignal'⟩ := ht.over hover
    exact ⟨_, hc', hover', fun w => (hsignal' w).trans (hsignal w)⟩
  · exact absurd hi (by omega)

/-- A notifier that sees the stop signal, or finds its channel closed, is over. -/
theorem Step.overAt_of_ends {m : Notifier.Move} {fault : Option Error} {c : Cache}
    (h : Step s (.notifier i m fault) s') (hm : m = .stop ∨ m = .hangUp)
    (hc : s.caches[i]? = some c) :
    s'.calls = s.calls ∧ s'.OverAt i c.notifier.stop.signal := by
  cases h with
  | notifier hd hn =>
      obtain rfl := Option.some.inj (hc.symm.trans hd)
      refine ⟨rfl, _, List.getElem?_set_self (List.getElem?_eq_some_iff.mp hc).1, ?_⟩
      rcases hm with rfl | rfl
      · cases hn with
        | stop hp hs => exact ⟨Notifier.over_stop _, fun _ => rfl⟩
      · cases hn with
        | hangUp hp he => exact ⟨Notifier.over_stop _, fun _ => rfl⟩
  | outside ho => cases ho
  | denied ho => cases ho

/-! ### The fate of callers -/

/-- How the wait of caller `j` ends if the notifier `n` wakes nobody any more. -/
def fateAt (s : System) (n : Notifier) (j : Nat) : Option Call.Wake :=
  (s.calls[j]?).bind (·.fate? n.signal)

/-- The callers of cache `i` that are not done have their fate, and those that have come to their
end since got what it says. -/
structure Fated (i : Nat) (signal : Nat → Waiter.Signal) (known : Nat)
    (fate : Nat → Option Call.Wake) (done : Nat → Prop) (faulty : Nat → Error → Prop)
    (past : List Moment) (s : System) : Prop where
  known : known ≤ s.calls.length
  faces : ∀ (j : Nat) (x : Call), s.calls[j]? = some x → x.cache = i → x.ended = false →
    x.fate? signal = fate j
  gets : ∀ (j : Nat) (x : Call) r, s.calls[j]? = some x → x.cache = i → x.result? = some r →
    ¬ done j → ∃ answer, lastLook past j = some answer ∧
      Call.Outcome x.id answer (fate j) (faulty j) r

variable {known : Nat} {fate : Nat → Option Call.Wake} {done : Nat → Prop}
  {faulty faulty' : Nat → Error → Prop}

theorem Step.fated (h : Step s a s') (ho : s.OverAt i signal) (hl : s.Looked past)
    (hf : ∀ j, known ≤ j → fate j = none) (hm : ∀ j e, faulty j e → faulty' j e)
    (hnew : ∀ j e, a = .call j (some e) → faulty' j e)
    (hs : s.Fated i signal known fate done faulty past) :
    s'.Fated i signal known fate done faulty' (past ++ [⟨s, a⟩]) := by
  obtain ⟨c, hc, hover, hsignal⟩ := ho
  have hfate (x : Call) : x.fate? c.notifier.signal = x.fate? signal :=
    congrArg x.fate? (funext hsignal)
  refine ⟨Nat.le_trans hs.known h.calls_length_le, fun j y hy hi he => ?_,
    fun j y r hy hi hr hdone => ?_⟩
  · cases hx : s.calls[j]? with
    | none =>
        have hj := List.getElem?_eq_none_iff.mp hx
        rw [hf j (Nat.le_trans hs.known hj), Call.fate?, (h.newcomer hx hy).1]
    | some x =>
        rcases h.caller_cases hx with ⟨hx', -⟩ | ⟨n, rfl, hx'⟩ |
          ⟨fault, d, x', n, events, rfl, hd, hstep, hx'⟩
        · obtain rfl := Option.some.inj (hx'.symm.trans hy)
          exact hs.faces j x hx hi he
        · obtain rfl := Option.some.inj (hx'.symm.trans hy)
          rcases x.phase_cancel n with ⟨hsame, hd⟩ | hp
          · rw [hsame, hd] at he
            cases he
          · simp [Call.ended, hp] at he
        · obtain rfl := Option.some.inj (hx'.symm.trans hy)
          rw [hstep.same.1] at hi
          obtain rfl := Option.some.inj (hc.symm.trans (hi ▸ hd))
          have hkept := (hstep.outcome hover (hl j x hx)).faces he
          rw [hfate, hs.faces j x hx hi hstep.not_ended] at hkept
          rw [← hkept]
          exact congrArg x'.fate?
            (funext fun w => (hsignal w).symm.trans ((hstep.over hover).2 w).symm)
  · cases hx : s.calls[j]? with
    | none =>
        have he := Call.ended_of_result? hr
        simp [Call.ended, (h.newcomer hx hy).1] at he
    | some x =>
        rcases h.caller_cases hx with ⟨hx', ha⟩ | ⟨n, rfl, hx'⟩ |
          ⟨fault, d, x', n, events, rfl, hd, hstep, hx'⟩
        · obtain rfl := Option.some.inj (hx'.symm.trans hy)
          obtain ⟨answer, hlook, hout⟩ := hs.gets j x r hx hi hr hdone
          exact ⟨answer, (lastLook_other ha).trans hlook, hout.mono (hm j)⟩
        · obtain rfl := Option.some.inj (hx'.symm.trans hy)
          rcases x.phase_cancel n with ⟨hsame, -⟩ | hp
          · rw [hsame] at hr ⊢
            obtain ⟨answer, hlook, hout⟩ := hs.gets j x r hx hi hr hdone
            exact ⟨answer, by rwa [lastLook_other fun _ => by simp], hout.mono (hm j)⟩
          · simp [Call.result?, hp] at hr
        · obtain rfl := Option.some.inj (hx'.symm.trans hy)
          rw [hstep.same.1] at hi
          obtain rfl := Option.some.inj (hc.symm.trans (hi ▸ hd))
          obtain ⟨answer, hlook, hout⟩ := (hstep.outcome hover (hl j x hx)).gets r hr
          rw [hfate, hs.faces j x hx hi hstep.not_ended] at hout
          refine ⟨answer, (lastLook_call hx hd fault).trans hlook, ?_⟩
          rw [hstep.same.2]
          exact hout.mono fun e he => hnew j e (by rw [he])

/-! ### The way out -/

/-- A step of a caller is a step of the system. -/
theorem step?_call {x x' : Call} {c : Cache} {fault : Option Error} {n : Notifier} {store : Store}
    {events : List Event} (hx : s.calls[j]? = some x) (hc : s.caches[x.cache]? = some c)
    (hs : x.step? c.settings s.now fault c.notifier s.store = some (x', n, store, events)) :
    s.step? (.call j fault) = some ({ (s.setCache x.cache { c with notifier := n }) with
      store, calls := s.calls.set j x' }.note events) := by
  simp only [step?, hx, hc, hs, Option.bind_eq_bind, Option.bind_some]

/-- A caller of a notifier that is over can take its next step at once. -/
theorem OverAt.exists_step (ho : s.OverAt i signal) {x : Call} (hx : s.calls[j]? = some x)
    (hi : x.cache = i) (he : x.ended = false) (fault : Option Error) :
    ∃ t, s.step? (.call j fault) = some t ∧ t.now = s.now := by
  obtain ⟨c, hc, hover, -⟩ := ho
  have hsome := Call.isSome_step? hover he c.settings s.now fault s.store
  obtain ⟨⟨x', n, store, events⟩, hstep⟩ := Option.isSome_iff_exists.mp hsome
  exact ⟨_, step?_call hx (hi ▸ hc) hstep, rfl⟩

/-- A caller that looks for a record that is there has it. -/
theorem exists_step_of_verdict {x : Call} {c : Cache} (hx : s.calls[j]? = some x)
    (hi : x.cache = i) (hc : s.caches[i]? = some c) (hq : x.query? = some .lookup)
    {r : Except Error Bytes}
    (hv : Call.verdict x.id (.ok (s.store.record c.settings.keys x.id s.now)) = some r) :
    ∃ t y, s.step? (.call j none) = some t ∧ t.calls[j]? = some y ∧ y.result? = some r := by
  obtain ⟨x', n, store, events, hstep, hr⟩ :=
    Call.exists_step?_of_verdict (n := c.notifier) hq hv
  refine ⟨_, x', step?_call hx (hi ▸ hc) hstep, ?_, hr⟩
  exact List.getElem?_set_self (List.getElem?_eq_some_iff.mp hx).1

/-- Whoever is about to register, waits or has waited is done after the steps that it has left. -/
theorem ended_of_steps {t : System} {as : List Action} (hr : s.run? as = some t)
    (ho : s.OverAt i signal) {x : Call} (hx : s.calls[j]? = some x) (hi : x.cache = i)
    (hl : x.ended = true ∨ 0 < x.stepsLeft ∧ x.stepsLeft ≤ as.countP (·.stepOf j)) :
    ∃ y, t.calls[j]? = some y ∧ y.ended = true := by
  -- by induction on the run; every step of the caller itself uses up one of those left
  induction as generalizing s x with
  | nil =>
      obtain rfl := Option.some.inj hr
      exact ⟨x, hx, hl.resolve_right fun h => absurd h.1 (Nat.not_lt_of_le h.2)⟩
  | cons a rest ih =>
      obtain ⟨u, hu, hrest⟩ := Option.bind_eq_some_iff.mp hr
      have hstep := step_of hu
      have hover := hstep.overAt ho
      rcases hstep.caller_cases hx with ⟨hx', ha⟩ | ⟨n, rfl, hx'⟩ |
        ⟨fault, d, x', n, events, rfl, hd, hcall, hx'⟩
      · refine ih hrest hover hx' hi (hl.imp_right fun h => ⟨h.1, ?_⟩)
        have hle := h.2
        have hno : a.stepOf j = false := by
          cases a with
          | call l fault =>
              have hlj : l ≠ j := fun he => ha fault (by rw [he])
              simpa [Action.stepOf] using hlj
          | _ => rfl
        rwa [List.countP_cons_of_neg (by simp [hno])] at hle
      · rcases x.phase_cancel n with ⟨hsame, hd⟩ | hp
        · exact ih hrest hover hx' hi (Or.inl (by rw [hsame, hd]))
        · exact ih hrest hover hx' hi (Or.inl (by rw [Call.ended, hp]))
      · obtain ⟨c, hc, hcover, -⟩ := ho
        obtain rfl := Option.some.inj (hc.symm.trans (hi ▸ hd))
        obtain ⟨hpos, hle⟩ := hl.resolve_left (by simp [hcall.not_ended])
        refine ih hrest hover hx' (hcall.same.1.trans hi) ?_
        refine (hcall.stepsLeft hcover hpos).imp_right fun h => ⟨h.1, ?_⟩
        have hleft := h.2
        rw [List.countP_cons_of_pos (by simp [Action.stepOf])] at hle
        omega

/-! ### The end of a notifier -/

theorem run_looked {as : List Action} (hr : run? {} as = some s) : s.Looked (moments {} as) :=
  run_induction (P := fun past s => s.Looked past) (A := fun _ => True) looked_start
    (fun _ _ _ _ hs _ h => h.looked hs) (fun _ _ => trivial) hr

theorem run_outOfTime {as : List Action} (hr : run? {} as = some s) :
    s.OutOfTime (moments {} as) :=
  run_induction (P := fun past s => s.OutOfTime past) (A := fun _ => True) outOfTime_start
    (fun _ _ _ _ hs _ h => h.outOfTime hs) (fun _ _ => trivial) hr

/-- In a run that goes on after the end of a notifier, its callers meet their fate. -/
theorem run_fated {u v : System} {c : Cache} {bs cs : List Action} {m : Notifier.Move}
    {fault : Option Error} (hb : run? {} bs = some u) (hc : u.caches[i]? = some c)
    (hm : m = .stop ∨ m = .hangUp) (hv : u.step? (.notifier i m fault) = some v)
    (hs : v.run? cs = some s) :
    s.OverAt i c.notifier.stop.signal ∧
      s.Fated i c.notifier.stop.signal u.calls.length (u.fateAt c.notifier)
        (fun j => ∃ x, u.calls[j]? = some x ∧ x.ended = true) (fun j e => .call j (some e) ∈ cs)
        (moments {} (bs ++ .notifier i m fault :: cs)) := by
  have hstep := step_of hv
  obtain ⟨hcalls, hover⟩ := hstep.overAt_of_ends hm hc
  have hmoments : moments {} (bs ++ .notifier i m fault :: cs) =
      (moments {} bs ++ [⟨u, .notifier i m fault⟩]) ++ v.moments cs := by
    rw [moments_append hb]
    simp [moments, hv]
  have start : v.Fated i c.notifier.stop.signal u.calls.length (u.fateAt c.notifier)
      (fun j => ∃ x, u.calls[j]? = some x ∧ x.ended = true)
      (fun j e => ∃ m ∈ ([] : List Moment), m.action = .call j (some e))
      (moments {} bs ++ [⟨u, .notifier i m fault⟩]) := by
    refine ⟨Nat.le_of_eq (congrArg List.length hcalls).symm, fun j x hx _ _ => ?_,
      fun j x r hx _ hr hdone => ?_⟩
    · rw [hcalls] at hx
      rw [fateAt, hx, Option.bind_some, Call.fate?_stop]
    · rw [hcalls] at hx
      exact absurd ⟨x, hx, Call.ended_of_result? hr⟩ hdone
  have run := run_induction (A := fun _ => True) (P := fun late t =>
      t.Looked ((moments {} bs ++ [⟨u, .notifier i m fault⟩]) ++ late) ∧
      t.OverAt i c.notifier.stop.signal ∧
      t.Fated i c.notifier.stop.signal u.calls.length (u.fateAt c.notifier)
        (fun j => ∃ x, u.calls[j]? = some x ∧ x.ended = true)
        (fun j e => ∃ m ∈ late, m.action = .call j (some e))
        ((moments {} bs ++ [⟨u, .notifier i m fault⟩]) ++ late))
    ⟨by simpa using hstep.looked (run_looked hb), hover, by simpa using start⟩
    (fun late t b t' hp _ h => by
      obtain ⟨hl, ho, hf⟩ := hp
      rw [← List.append_assoc]
      refine ⟨h.looked hl, h.overAt ho, h.fated ho hl (fun j hj => ?_) ?_ ?_ hf⟩
      · rw [fateAt, List.getElem?_eq_none hj, Option.bind_none]
      · exact fun j e he => he.imp fun m => .imp_left (List.mem_append_left _)
      · exact fun j e he => ⟨_, List.mem_append_right _ List.mem_cons_self, he⟩)
    (fun _ _ => trivial) hs
  rw [hmoments]
  refine ⟨run.2.1, run.2.2.known, run.2.2.faces, fun j x r hx hi hr hdone => ?_⟩
  obtain ⟨answer, hlook, hout⟩ := run.2.2.gets j x r hx hi hr hdone
  refine ⟨answer, hlook, hout.mono fun e he => ?_⟩
  obtain ⟨m, hm, he⟩ := he
  exact he ▸ action_mem_of_mem_moments hm

/-- **Nobody hangs after the end of a notifier.**  Let the notifier of a cache end, by the stop
signal or because its channel was closed, and let the run go on in any way.

* No waiter is pending any more, and no request is left.
* Every caller that is not done can take its next step at once, without waiting for time to pass.
  One that is about to register, waits or has waited is done after as many steps as it has left, two
  at most, whatever else happens.  One that looks for a record that is there returns it.
* Whoever was not done when the notifier ended, or came later, gets what its last look found.  If it
  found nothing, it gets the error of the fate that it had: a caller that was blocked, and had not
  been woken, gets the error of a cache that was shut down, and so does everybody who would have to
  wait, unless the store fails to take its request.
* Only those have timed out whose deadline had come before. -/
theorem aftermath {u v : System} {c : Cache} {bs cs : List Action} {m : Notifier.Move}
    {fault : Option Error} (hb : run? {} bs = some u) (hc : u.caches[i]? = some c)
    (hm : m = .stop ∨ m = .hangUp) (hv : u.step? (.notifier i m fault) = some v)
    (hs : v.run? cs = some s) :
    ∃ d, s.caches[i]? = some d ∧ d.notifier.Over ∧
      (∀ (j : Nat) (x : Call), s.calls[j]? = some x → x.cache = i → x.ended = false →
        (∀ fault, ∃ t, s.step? (.call j fault) = some t ∧ t.now = s.now) ∧
        (0 < x.stepsLeft → ∀ ds t, s.run? ds = some t →
          x.stepsLeft ≤ ds.countP (·.stepOf j) → ∃ y, t.calls[j]? = some y ∧ y.ended = true) ∧
        (x.query? = some .lookup → ∀ r,
          Call.verdict x.id (.ok (s.store.record d.settings.keys x.id s.now)) = some r →
          ∃ t y, s.step? (.call j none) = some t ∧ t.calls[j]? = some y ∧
            y.result? = some r)) ∧
      (∀ (j : Nat) (y : Call) r, s.calls[j]? = some y → y.cache = i → y.result? = some r →
        (∀ x, u.calls[j]? = some x → x.ended = false) →
        ∃ answer, lastLook (moments {} (bs ++ .notifier i m fault :: cs)) j = some answer ∧
          Call.Outcome y.id answer (u.fateAt c.notifier j) (fun e => .call j (some e) ∈ cs) r) ∧
      ∀ (j : Nat) (x : Call) w limit, u.calls[j]? = some x →
        x.phase = .rereading w (.timedOut limit) → ∃ m ∈ moments {} bs, ∃ y t,
          m.before.calls[j]? = some y ∧ y.phase = .waiting w (some t) ∧ t ≤ m.before.now := by
  obtain ⟨hover, hfated⟩ := run_fated hb hc hm hv hs
  obtain ⟨d, hd, hdover, -⟩ := id hover
  refine ⟨d, hd, hdover, fun j x hx hi he => ⟨?_, ?_, ?_⟩, fun j y r hy hi hr hopen => ?_,
    run_outOfTime hb⟩
  · exact hover.exists_step hx hi he
  · exact fun hpos ds t ht hle => ended_of_steps ht hover hx hi (Or.inr ⟨hpos, hle⟩)
  · exact fun hq r hv => exists_step_of_verdict hx hi hd hq hv
  · refine hfated.gets j y r hy hi hr fun ⟨x, hx, he⟩ => ?_
    rw [hopen x hx] at he
    cases he

/-- One caller has timed out, one is registered, the watch of another one is still to be taken, and
the cache is to stop. -/
def lastOrders : List Action :=
  [.openCache { queue := "q", waitTimeout := some ⟨5⟩ } false none, .get 0 "t" 0, .call 0 none,
    .call 0 none, .call 0 none, .tick ⟨5⟩, .call 0 none, .get 0 "x" 0, .call 1 none, .call 1 none,
    .call 1 none, .notifier 0 .request none, .notifier 0 (.check "t") none,
    .notifier 0 .request none, .notifier 0 (.check "x") none, .get 0 "y" 0, .call 2 none,
    .call 2 none, .call 2 none, .drop 0]

/-- After the stop a value comes in, and two more callers. -/
def afterHours : List Action :=
  [.call 0 none, .call 1 none, .call 1 none, .complete ⟨"q"⟩ "y" (.value [7]) none, .call 2 none,
    .call 2 none, .get 0 "z" 0, .call 3 none, .call 3 none, .call 3 none, .get 0 "y" 0,
    .call 4 none]

theorem aftermath_lastOrders :
    ∃ u v s c d, run? {} lastOrders = some u ∧ u.caches[0]? = some c ∧
      u.step? (.notifier 0 .stop none) = some v ∧ v.run? afterHours = some s ∧
      u.fateAt c.notifier 1 = some .lost ∧
      s.calls.map (·.result?) = [some (.error (.timedOut "t" ⟨5⟩)), some (.error .shutdown),
        some (.ok [7]), some (.error .shutdown), some (.ok [7])] ∧
      s.caches[0]? = some d ∧ d.notifier.Over ∧
      ∃ answer, lastLook (moments {} (lastOrders ++ .notifier 0 .stop none :: afterHours)) 1 =
        some answer ∧ (Call.verdict "x" answer).getD (.error .shutdown) = .error .shutdown := by
  have hd : (run? {} lastOrders).any (fun u => u.caches[0]?.any fun c =>
      (u.step? (.notifier 0 .stop none)).any fun v => (v.run? afterHours).any fun s =>
        decide (u.fateAt c.notifier 1 = some .lost ∧
          u.calls[1]?.all (fun x => !x.ended) = true ∧
          s.calls[1]?.map (fun x => (x.cache, x.id)) = some (0, "x") ∧
          s.calls.map (·.result?) = [some (.error (.timedOut "t" ⟨5⟩)), some (.error .shutdown),
            some (.ok [7]), some (.error .shutdown), some (.ok [7])])) = true := by
    decide +kernel
  obtain ⟨u, hu, hd⟩ := (Option.any_eq_true _ _).mp hd
  obtain ⟨c, hc, hd⟩ := (Option.any_eq_true _ _).mp hd
  obtain ⟨v, hv, hd⟩ := (Option.any_eq_true _ _).mp hd
  obtain ⟨s, hs, hd⟩ := (Option.any_eq_true _ _).mp hd
  obtain ⟨hfate, hopen, hx, hcalls⟩ := of_decide_eq_true hd
  obtain ⟨d, hcache, hover, -, hgets, -⟩ := aftermath hu hc (Or.inl rfl) hv hs
  obtain ⟨x, hx, he⟩ := Option.map_eq_some_iff.mp hx
  obtain ⟨hi, hid⟩ := Prod.mk.inj he
  have hr : x.result? = some (.error .shutdown) := by
    have h := congrArg (·[1]?) hcalls
    simpa [hx] using h
  obtain ⟨answer, hlook, hout⟩ := hgets 1 x _ hx hi hr fun y hy => by simpa [hy] using hopen
  rw [hfate, hid] at hout
  exact ⟨u, v, s, c, d, hu, hc, hv, hs, hfate, hcalls, hcache, hover, answer, hlook,
    hout.of_lost.symm⟩

end System

end ReadThrough
