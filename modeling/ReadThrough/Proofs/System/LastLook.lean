import ReadThrough.Proofs.Call.Endings
import ReadThrough.Proofs.System.Agreement

/-! # The last look of a caller

A caller looks at the store at most twice in a row: before it asks for the computation and after its
wait.  What it sees is part of the history (`Moment.look?`, `System.lastLook`).

* **Nothing found.**  A caller that is about to ask for the computation, or to register, found
  nothing in its last look (`System.Looked`, `Step.looked`).
* **Out of time.**  A caller whose wait ended by its limit was there when its deadline had come
  (`System.OutOfTime`, `Step.outOfTime`). -/

namespace ReadThrough

/-- What caller `j` sees in the moment, if it looks at the store. -/
def Moment.look? (m : Moment) (j : Nat) : Option (Except Error Record) :=
  match m.action with
  | .call l fault =>
    if l = j then do
      let x ← m.before.calls[j]?
      let c ← m.before.caches[x.cache]?
      if x.query? = some .lookup then
        some (m.before.store.attempt fault (·.lookup c.settings.keys x.id m.before.now)).1
      else none
    else none
  | _ => none

namespace Call

variable {x x' : Call} {settings : Settings} {now : Instant} {fault : Option Error}
  {n n' : Notifier} {s s' : Store} {events : List Event}

/-- A caller gets to ask, or to register, by finding nothing. -/
theorem Step.missed_of (h : Step x settings now fault n s x' n' s' events)
    (hp : x'.phase = .queueing ∨ x'.phase = .subscribing) :
    x.query? = some .lookup ∧
        (s.attempt fault (·.lookup settings.keys x.id now)).1 = .ok .missing ∨
      x.query? ≠ some .lookup ∧ x.phase = .queueing := by
  have done {q : String} {r : Except Error Bytes} {w : Bool}
      (hp : (x.answer q r w).1.phase = .queueing ∨ (x.answer q r w).1.phase = .subscribing) :
      False := by
    have he := ended_answer x q r w
    rcases hp with hp | hp <;> simp [ended, hp] at he
  cases h with
  | settled hp' ha hv => exact (done hp).elim
  | missed hp' ha => exact Or.inl ⟨by simp [query?, hp'], by rw [ha]⟩
  | reread hp' ha hr hb => exact (done hp).elim
  | refused hp' ha => exact (done hp).elim
  | queued hp' ha ho => exact Or.inr ⟨by simp [query?, hp'], hp'⟩
  | gone hp' he => exact (done hp).elim
  | _ => simp at hp

/-- A caller gives up when its deadline has come. -/
theorem Step.timedOut_of {w : Nat} {limit : Duration}
    (h : Step x settings now fault n s x' n' s' events)
    (hp : x'.phase = .rereading w (.timedOut limit)) :
    ∃ t, x.phase = .waiting w (some t) ∧ t ≤ now := by
  have done {q : String} {r : Except Error Bytes} {b : Bool}
      (hp : (x.answer q r b).1.phase = .rereading w (.timedOut limit)) : False := by
    have he := ended_answer x q r b
    simp [ended, hp] at he
  cases h with
  | settled hp' ha hv => exact (done hp).elim
  | reread hp' ha hr hb => exact (done hp).elim
  | refused hp' ha => exact (done hp).elim
  | gone hp' he => exact (done hp).elim
  | timedOut hp' he hl ht =>
      obtain ⟨rfl, -⟩ := Phase.rereading.inj hp
      exact ⟨_, hp', ht⟩
  | _ => cases hp

/-- A caller that is dropped is done. -/
theorem phase_cancel (x : Call) (n : Notifier) :
    (x.cancel n).1 = x ∧ x.ended = true ∨ (x.cancel n).1.phase = .cancelled := by
  cases he : x.ended with
  | true => exact Or.inl ⟨by simp [cancel, he], rfl⟩
  | false => exact Or.inr (by simp [cancel, he])

end Call

namespace System

/-- What caller `j` saw when it looked at the store for the last time. -/
def lastLook (past : List Moment) (j : Nat) : Option (Except Error Record) :=
  (past.filterMap (·.look? j)).getLast?

variable {s s' : System} {a : Action} {past : List Moment} {j : Nat}

theorem lastLook_concat (past : List Moment) (m : Moment) (j : Nat) :
    lastLook (past ++ [m]) j = (m.look? j).or (lastLook past j) := by
  unfold lastLook
  rw [List.filterMap_append, List.getLast?_append]
  cases hm : m.look? j <;> simp [hm]

/-- Whoever takes no step does not look. -/
theorem lastLook_other (ha : ∀ fault, a ≠ .call j fault) :
    lastLook (past ++ [⟨s, a⟩]) j = lastLook past j := by
  have hn : Moment.look? ⟨s, a⟩ j = none := by
    unfold Moment.look?
    split
    · rename_i l fault he
      refine if_neg fun hl => ha fault ?_
      rw [← hl]
      exact he
    · rfl
  rw [lastLook_concat, hn, Option.none_or]

theorem lastLook_call {x : Call} {c : Cache} (hx : s.calls[j]? = some x)
    (hc : s.caches[x.cache]? = some c) (fault : Option Error) :
    lastLook (past ++ [⟨s, .call j fault⟩]) j =
      if x.query? = some .lookup then
        some (s.store.attempt fault (·.lookup c.settings.keys x.id s.now)).1
      else lastLook past j := by
  rw [lastLook_concat]
  simp only [Moment.look?, if_true, hx, hc, Option.bind_eq_bind, Option.bind_some]
  split <;> rfl

/-! ### One caller -/

/-- What a step does to a caller. -/
theorem Step.caller_cases (h : Step s a s') {x : Call} (hx : s.calls[j]? = some x) :
    (s'.calls[j]? = some x ∧ ∀ fault, a ≠ .call j fault) ∨
    (∃ n, a = .cancel j ∧ s'.calls[j]? = some (x.cancel n).1) ∨
    ∃ fault c x' n events, a = .call j fault ∧ s.caches[x.cache]? = some c ∧
      x.Step c.settings s.now fault c.notifier s.store x' n s'.store events ∧
      s'.calls[j]? = some x' := by
  have hj := (List.getElem?_eq_some_iff.mp hx).1
  cases h with
  | @call l fault y y' c n _ events hy hc hs =>
      by_cases hl : l = j
      · subst hl
        obtain rfl := Option.some.inj (hx.symm.trans hy)
        exact Or.inr (Or.inr ⟨fault, c, y', n, events, rfl, hc, hs, List.getElem?_set_self hj⟩)
      · exact Or.inl ⟨(List.getElem?_set_ne hl).trans hx, fun _ he => hl (Action.call.inj he).1⟩
  | @cancel l y c hy hc =>
      by_cases hl : l = j
      · subst hl
        obtain rfl := Option.some.inj (hx.symm.trans hy)
        exact Or.inr (Or.inl ⟨c.notifier, rfl, List.getElem?_set_self hj⟩)
      · exact Or.inl ⟨(List.getElem?_set_ne hl).trans hx, nofun⟩
  | get hi => exact Or.inl ⟨(List.getElem?_append_left hj).trans hx, nofun⟩
  | outside ho hf => exact Or.inl ⟨hx, by rintro fault rfl; cases ho⟩
  | denied ho hf => exact Or.inl ⟨hx, by rintro fault rfl; cases ho⟩
  | _ => exact Or.inl ⟨hx, nofun⟩

/-- A caller who was not there before has just come. -/
theorem Step.comes (h : Step s a s') {y : Call} (hx : s.calls[j]? = none)
    (hy : s'.calls[j]? = some y) :
    ∃ i id p, a = .get i id p ∧ i < s.caches.length ∧ y = { cache := i, id, priority := p } := by
  have hj := List.getElem?_eq_none_iff.mp hx
  have hlt := (List.getElem?_eq_some_iff.mp hy).1
  have same (hc : s'.calls.length = s.calls.length) : False :=
    absurd (hc ▸ hlt) (Nat.not_lt_of_le hj)
  rcases h.calls_cases with hc | ⟨i, id, p, rfl, hi, hc⟩ | ⟨l, x, n, -, -, hc⟩ |
    ⟨l, fault, x, x', c, n, events, -, -, -, -, hc⟩
  · exact (same (congrArg List.length hc)).elim
  · rw [hc, List.getElem?_append_right hj] at hy
    exact ⟨i, id, p, rfl, hi, List.mem_singleton.mp (List.mem_of_getElem? hy)⟩
  · exact (same ((congrArg List.length hc).trans List.length_set)).elim
  · exact (same ((congrArg List.length hc).trans List.length_set)).elim

/-- A new caller is about to look. -/
theorem Step.newcomer (h : Step s a s') {y : Call} (hx : s.calls[j]? = none)
    (hy : s'.calls[j]? = some y) : y.phase = .looking ∧ ∀ fault, a ≠ .call j fault := by
  obtain ⟨i, id, p, rfl, -, rfl⟩ := h.comes hx hy
  exact ⟨rfl, nofun⟩

theorem Step.calls_length_le (h : Step s a s') : s.calls.length ≤ s'.calls.length := by
  rcases h.calls_cases with hc | ⟨i, id, p, -, -, hc⟩ | ⟨l, x, n, -, -, hc⟩ |
    ⟨l, fault, x, x', c, n, events, -, -, -, -, hc⟩
  · exact Nat.le_of_eq (congrArg List.length hc).symm
  · rw [hc, List.length_append]
    exact Nat.le_add_right _ _
  · exact Nat.le_of_eq ((congrArg List.length hc).trans List.length_set).symm
  · exact Nat.le_of_eq ((congrArg List.length hc).trans List.length_set).symm

/-- A caller who is not there afterwards was not there before. -/
theorem Step.absent_of_absent (h : Step s a s') (hn : s'.calls[j]? = none) : s.calls[j]? = none :=
  List.getElem?_eq_none_iff.mpr
    (Nat.le_trans h.calls_length_le (List.getElem?_eq_none_iff.mp hn))

/-! ### What callers have seen -/

/-- Whoever is about to ask for the computation, or to register, found nothing. -/
def Looked (past : List Moment) (s : System) : Prop :=
  ∀ (j : Nat) (x : Call), s.calls[j]? = some x → x.phase = .queueing ∨ x.phase = .subscribing →
    lastLook past j = some (.ok .missing)

theorem looked_start : Looked [] {} := fun _ _ h => by simp at h

theorem Step.looked (h : Step s a s') (hs : s.Looked past) : s'.Looked (past ++ [⟨s, a⟩]) := by
  intro j y hy hp
  cases hx : s.calls[j]? with
  | none =>
      rw [(h.newcomer hx hy).1] at hp
      exact absurd hp (by simp)
  | some x =>
      rcases h.caller_cases hx with ⟨hc, ha⟩ | ⟨n, rfl, hc⟩ |
        ⟨fault, c, x', n, events, rfl, hcache, hstep, hc⟩
      · obtain rfl := Option.some.inj (hc.symm.trans hy)
        rw [lastLook_other ha]
        exact hs j x hx hp
      · obtain rfl := Option.some.inj (hc.symm.trans hy)
        rcases x.phase_cancel n with ⟨he, hd⟩ | he
        · rw [he] at hp
          rcases hp with hp | hp <;> simp [Call.ended, hp] at hd
        · rw [he] at hp
          exact absurd hp (by simp)
      · obtain rfl := Option.some.inj (hc.symm.trans hy)
        rw [lastLook_call hx hcache]
        rcases hstep.missed_of hp with ⟨hq, hl⟩ | ⟨hq, hp'⟩
        · rw [if_pos hq, hl]
        · rw [if_neg hq]
          exact hs j x hx (Or.inl hp')

/-- Whoever gave up waiting had come to its deadline. -/
def OutOfTime (past : List Moment) (s : System) : Prop :=
  ∀ (j : Nat) (x : Call) (w : Nat) (limit : Duration), s.calls[j]? = some x →
    x.phase = .rereading w (.timedOut limit) → ∃ m ∈ past, ∃ y t,
      m.before.calls[j]? = some y ∧ y.phase = .waiting w (some t) ∧ t ≤ m.before.now

theorem outOfTime_start : OutOfTime [] {} := fun _ _ _ _ h => by simp at h

theorem Step.outOfTime (h : Step s a s') (hs : s.OutOfTime past) :
    s'.OutOfTime (past ++ [⟨s, a⟩]) := by
  intro j y w limit hy hp
  have old {x : Call} (hx : s.calls[j]? = some x) (hp : x.phase = .rereading w (.timedOut limit)) :
      ∃ m ∈ past ++ [⟨s, a⟩], ∃ y t, m.before.calls[j]? = some y ∧
        y.phase = .waiting w (some t) ∧ t ≤ m.before.now := by
    obtain ⟨m, hm, hrest⟩ := hs j x w limit hx hp
    exact ⟨m, List.mem_append_left _ hm, hrest⟩
  cases hx : s.calls[j]? with
  | none =>
      rw [(h.newcomer hx hy).1] at hp
      cases hp
  | some x =>
      rcases h.caller_cases hx with ⟨hc, -⟩ | ⟨n, rfl, hc⟩ |
        ⟨fault, c, x', n, events, rfl, -, hstep, hc⟩
      · obtain rfl := Option.some.inj (hc.symm.trans hy)
        exact old hx hp
      · obtain rfl := Option.some.inj (hc.symm.trans hy)
        rcases x.phase_cancel n with ⟨he, -⟩ | he
        · exact old hx (he ▸ hp)
        · rw [he] at hp
          cases hp
      · obtain rfl := Option.some.inj (hc.symm.trans hy)
        obtain ⟨t, hp', ht⟩ := hstep.timedOut_of hp
        exact ⟨_, List.mem_append_right _ List.mem_cons_self, x, t, hx, hp', ht⟩

end System

end ReadThrough
