import ReadThrough.Proofs.Call.Waiting
import ReadThrough.Proofs.System.Custody
import ReadThrough.Proofs.System.Wakeup

/-! # Every waiting caller is attended to

As long as nobody else stops listening with the waiter of a caller (`Action.leaves`), the notifier
of its cache attends to every caller that waits, and no two callers of one cache wait with the same
waiter (`Attended`, `Step.attended`).

In a run without faults (`Moment.Faultless`) the tasks in hand stay in custody and all notifiers
alert as well (`Steady`, `run_steady`); the connection may come and go. -/

namespace ReadThrough

/-- Whether somebody who is no caller stops listening with a waiter. -/
def Action.leaves : Action → Bool
  | leave .. => true
  | _ => false

/-- Every answer of the store arrives, only the worker pools claim and complete, and nobody meddles
with the feeds of notifiers or with the waiters of callers. -/
structure Moment.Faultless (q : String) (m : Moment) : Prop where
  undisturbed : ∀ i, m.Undisturbed q i
  answered : m.action.fault? = none
  proper : m.action.intrudes = false
  loyal : m.action.leaves = false

theorem Moment.Faultless.on {q : String} {m : Moment} (h : m.Faultless q) : m.action.On q :=
  (h.undisturbed 0).on

instance (q : String) (m : Moment) : Decidable (m.Faultless q) :=
  decidable_of_iff (m.action.On q ∧ m.action.fault? = none ∧ m.action.intrudes = false ∧
      m.action.leaves = false ∧
      ∀ c ∈ m.before.caches, ∀ op ∈ m.action.op?, op.spares c.notifier.feed = true)
    ⟨fun ⟨ho, hf, hi, hl, hs⟩ =>
      ⟨fun _ => ⟨ho, fun _ => hf, fun c hc => hs c (List.mem_of_getElem? hc)⟩, hf, hi, hl⟩,
    fun h => ⟨h.on, h.answered, h.proper, h.loyal, fun c hc =>
      have ⟨i, hi⟩ := List.mem_iff_getElem?.mp hc
      (h.undisturbed i).own c hi⟩⟩

namespace System

/-- Callers have a cache, the notifier of the cache attends to those that wait, and each of them
waits with its own waiter. -/
structure Attended (s : System) : Prop where
  placed : ∀ x ∈ s.calls, x.cache < s.caches.length
  attends : ∀ x ∈ s.calls, ∀ c ∈ s.caches[x.cache]?, ∀ w, x.Waits w → c.notifier.Attends x.id w
  apart : ∀ (i j : Nat) (x y : Call) (w : Nat), s.calls[i]? = some x → s.calls[j]? = some y →
    x.cache = y.cache → x.Waits w → y.Waits w → i = j

theorem attended_start : Attended {} where
  placed _ h := nomatch h
  attends _ h := nomatch h
  apart _ _ _ _ _ h := by simp at h

variable {s s' : System} {a : Action}

/-- The callers stay, and so does the attention that they get. -/
theorem Attended.keep (h : s.Attended) (hx : s'.calls = s.calls)
    (hl : s.caches.length ≤ s'.caches.length)
    (hc : ∀ i < s.caches.length, ∀ c' ∈ s'.caches[i]?, ∃ c ∈ s.caches[i]?,
      ∀ id w, c.notifier.Attends id w → c'.notifier.Attends id w) : s'.Attended := by
  constructor
  · intro x hm
    rw [hx] at hm
    exact Nat.lt_of_lt_of_le (h.placed x hm) hl
  · intro x hm c' hc' w hw
    rw [hx] at hm
    obtain ⟨c, hc, hn⟩ := hc x.cache (h.placed x hm) c' hc'
    exact hn x.id w (h.attends x hm c hc w hw)
  · rw [hx]
    exact h.apart

/-- One cache changes, and its notifier goes on attending. -/
theorem Attended.set (h : s.Attended) {i : Nat} {c c' : Cache} (hx : s'.calls = s.calls)
    (hs : s'.caches = s.caches.set i c') (hc : s.caches[i]? = some c)
    (hn : ∀ id w, c.notifier.Attends id w → c'.notifier.Attends id w) : s'.Attended := by
  refine h.keep hx (by simp [hs]) fun k hk d hd => ?_
  rw [hs] at hd
  rcases getElem?_set_cases hd with ⟨rfl, rfl⟩ | ⟨-, hd⟩
  · exact ⟨c, hc, hn⟩
  · exact ⟨d, hd, fun _ _ ha => ha⟩

/-- A cache is added. -/
theorem Attended.open (h : s.Attended) {d : Cache} (hx : s'.calls = s.calls)
    (hs : s'.caches = s.caches ++ [d]) : s'.Attended := by
  refine h.keep hx (by simp [hs]) fun k hk c hc => ?_
  rw [hs, List.getElem?_append_left hk] at hc
  exact ⟨c, hc, fun _ _ ha => ha⟩

/-- A caller goes on, and its notifier with it. -/
theorem Attended.move (h : s.Attended) {j : Nat} {x x' : Call} {c c' : Cache}
    (hx : s.calls[j]? = some x) (hc : s.caches[x.cache]? = some c)
    (hcalls : s'.calls = s.calls.set j x') (hcaches : s'.caches = s.caches.set x.cache c')
    (hsame : x'.cache = x.cache ∧ x'.id = x.id)
    (hothers : ∀ w, ¬ x.Waits w → c.notifier.Spares w c'.notifier)
    (hnew : ∀ w, x'.Waits w → w = c.notifier.waiters.length ∧ c'.notifier.Attends x.id w) :
    s'.Attended := by
  have hlen : s'.caches.length = s.caches.length := by rw [hcaches, List.length_set]
  have hmem : x ∈ s.calls := List.mem_of_getElem? hx
  -- a caller of another place does not wait with the waiter of this one
  have hother : ∀ (i : Nat) (y : Call) (w : Nat), s.calls[i]? = some y → i ≠ j →
      y.cache = x.cache → y.Waits w → ¬ x.Waits w := by
    intro i y w hy hij hcache hw hw'
    exact hij (h.apart i j y x w hy hx hcache hw hw')
  -- and its waiter is an old one
  have hold : ∀ (i : Nat) (y : Call) (w : Nat), s.calls[i]? = some y → y.cache = x.cache →
      y.Waits w → w < c.notifier.waiters.length := by
    intro i y w hy hcache hw
    have hm := List.mem_of_getElem? hy
    rw [← hcache] at hc
    exact (h.attends y hm c hc w hw).lt_length
  constructor
  · intro y hm
    rw [hcalls] at hm
    rw [hlen]
    rcases List.mem_or_eq_of_mem_set hm with hm | rfl
    · exact h.placed y hm
    · rw [hsame.1]
      exact h.placed x hmem
  · intro y hm d hd w hw
    rw [hcalls] at hm
    obtain ⟨i, hi⟩ := List.mem_iff_getElem?.mp hm
    rw [hcaches] at hd
    rcases getElem?_set_cases hi with ⟨-, rfl⟩ | ⟨hij, hi⟩
    · rw [hsame.1] at hd
      rcases getElem?_set_cases hd with ⟨-, rfl⟩ | ⟨hne, -⟩
      · rw [hsame.2]
        exact (hnew w hw).2
      · exact absurd rfl hne
    · have hm' := List.mem_of_getElem? hi
      rcases getElem?_set_cases hd with ⟨hk, rfl⟩ | ⟨-, hd⟩
      · have ha := h.attends y hm' c (hk ▸ hc) w hw
        exact (hothers w (hother i y w hi hij hk hw)).attends ha
      · exact h.attends y hm' d hd w hw
  · intro i k y z w hy hz hcache hw hw'
    rw [hcalls] at hy hz
    rcases getElem?_set_cases hy with ⟨rfl, rfl⟩ | ⟨hi, hy₀⟩
    · rcases getElem?_set_cases hz with ⟨rfl, -⟩ | ⟨hk, hz₀⟩
      · rfl
      · rw [hsame.1] at hcache
        have hlt := hold k z w hz₀ hcache.symm hw'
        rw [(hnew w hw).1] at hlt
        exact absurd hlt (Nat.lt_irrefl _)
    · rcases getElem?_set_cases hz with ⟨rfl, rfl⟩ | ⟨hk, hz₀⟩
      · rw [hsame.1] at hcache
        have hlt := hold i y w hy₀ hcache hw
        rw [(hnew w hw').1] at hlt
        exact absurd hlt (Nat.lt_irrefl _)
      · exact h.apart i k y z w hy₀ hz₀ hcache hw hw'

theorem Step.attended (h : Step s a s') (ha : a.leaves = false) (hs : s.Attended) :
    s'.Attended := by
  cases h with
  | notifier hc hn => exact hs.set rfl rfl hc fun _ _ h => hn.attends h
  | loop hc hp hl => exact hs.set rfl rfl hc fun _ _ h => h
  | worker hc hp hw => exact hs.set rfl rfl hc fun _ _ h => h
  | call hx hc hx' =>
      exact hs.move hx hc rfl rfl hx'.same (fun w hw => hx'.others hw)
        fun w hw => (hx'.attends hw).2
  | @cancel j x c hx hc =>
      exact hs.move hx hc rfl rfl ⟨rfl, rfl⟩ (fun w hw => Call.cancel_others x c.notifier hw)
        fun w hw => absurd hw (Call.not_waits_cancel x c.notifier w)
  | closing hx hc hx' =>
      have hn := (Closing.step_keeps hx').2.1
      exact hs.set rfl rfl hc fun _ _ h => hn ▸ h
  | openCache hr => exact hs.open rfl rfl
  | openNotifier => exact hs.open rfl rfl
  | drop hc => exact hs.set rfl rfl hc fun _ _ h => h
  | @get i id p hi =>
      -- the new caller does not wait yet
      have hnew : ∀ w, ¬ Call.Waits { cache := i, id, priority := p } w := by
        rintro w ⟨d, hd⟩
        cases hd
      constructor
      · intro x hm
        rcases List.mem_append.mp hm with hm | hm
        · exact hs.placed x hm
        · obtain rfl := List.mem_singleton.mp hm
          exact hi
      · intro x hm c hc w hw
        rcases List.mem_append.mp hm with hm | hm
        · exact hs.attends x hm c hc w hw
        · obtain rfl := List.mem_singleton.mp hm
          exact absurd hw (hnew w)
      · intro j k x y w hx hy hcache hw hw'
        have old : ∀ (j : Nat) (x : Call),
            (s.calls ++ [{ cache := i, id, priority := p }])[j]? = some x → x.Waits w →
            s.calls[j]? = some x := by
          intro j x hx hw
          rcases Nat.lt_or_ge j s.calls.length with hj | hj
          · rwa [List.getElem?_append_left hj] at hx
          · rw [List.getElem?_append_right hj] at hx
            obtain rfl := List.mem_singleton.mp (List.mem_of_getElem? hx)
            exact absurd hw (hnew w)
        exact hs.apart j k x y w (old j x hx hw) (old k y hy hw') hcache hw hw'
  | watch hc hn =>
      exact hs.set rfl rfl hc fun _ w h => ((Notifier.attends_subscribe? hn).2.2 w).attends h
  | leave hc => cases ha
  | release hc =>
      exact hs.set rfl rfl hc fun _ w h => (Notifier.spares_release _ _ w).attends h
  | _ => exact hs.keep rfl (Nat.le_refl _) fun _ _ c hc => ⟨c, hc, fun _ _ h => h⟩

/-! ### Runs without faults -/

/-- What a run without faults keeps. -/
structure Steady (q : String) (s : System) : Prop where
  custody : s.InCustody q
  feeds : s.FeedsApart
  alert : ∀ i, s.AlertAt q i
  attended : s.Attended

variable {q : String}

theorem steady_start (q : String) : Steady q {} where
  custody := inCustody_start q
  feeds := feedsApart_start
  alert := alertAt_start q
  attended := attended_start

theorem Step.steady (h : Step s a s') (hm : Moment.Faultless q ⟨s, a⟩) (hs : s.Steady q) :
    s'.Steady q where
  custody := h.inCustody hm.on hm.proper hs.custody
  feeds := h.feedsApart hs.feeds
  alert := fun i => h.alertAt (hm.undisturbed i) hs.custody.1 hs.feeds (hs.alert i)
  attended := h.attended hm.loyal hs.attended

theorem run_steady {as : List Action} (hr : run? {} as = some s)
    (hm : ∀ m ∈ moments {} as, m.Faultless q) : s.Steady q :=
  run_induction (P := fun _ s => s.Steady q) (A := Moment.Faultless q) (steady_start q)
    (fun _ _ _ _ hs hm h => h.steady hm hs) hm hr

end System

end ReadThrough
