import ReadThrough.Proofs.Call.Waiting
import ReadThrough.Proofs.System.LifeCycle

/-! # Agreement on values

In a run on one queue in which only the worker pools complete (whoever wants may claim), a value is
for ever (`agreement`):

* **It stays.**  Nothing changes or removes a value, and its id is never queued or claimed again.
* **It is what callers get.**  Callers of one id that get bytes get the same bytes, whichever cache
  they ask.
* **They get it at once** (`Prompt`).  A caller that is about to look when the value is stored, as
  every new one is, has it after its next step, unless that step is given a fault, and what it does
  leaves the store as it is.

The runs are those of the life cycle of an id: a worker that writes has its task in hand, and what
is in hand is claimed (`InCustody.entitled`).  A status that is a value has no change. -/

namespace ReadThrough

/-- Whether somebody outside of the worker pools writes a result. -/
def Action.completes : Action → Bool
  | complete .. => true
  | _ => false

/-- Nobody but the worker pools writes a result, and everything is about one queue. -/
def Tended (q : String) (a : Action) : Prop := a.On q ∧ a.completes = false

instance (q : String) (a : Action) : Decidable (Tended q a) :=
  inferInstanceAs (Decidable (_ ∧ _))

/-! ### Looking for a value -/

namespace Store

variable {s : Store} {k : Keys} {id : Id} {now : Instant} {b : Bytes}

/-- Whoever finds bytes finds the value. -/
theorem value_of_record (h : s.record k id now = .value b) : (s.entry k id).value = some b := by
  unfold record at h
  split at h
  · cases h
  · split at h
    · rename_i hv
      cases h
      exact hv
    · cases h

/-- Looking for a value finds it and leaves the store as it is. -/
theorem lookup_of_value (hl : (s.entry k id).Lawful) (hv : (s.entry k id).value = some b)
    (now : Instant) : s.lookup k id now = (.value b, s) := by
  have hst : (s.entry k id).Shows now (.value b) := hv
  have hr := (reports_of_lawful hl hst).lookup
  have hf : s.failures[k.failure id]? = none := hl.alone (by simp [hv])
  have hs : s.forget now (k.failure id) = s := by
    unfold forget
    rw [hf]
  exact Prod.ext hr hs

end Store

namespace Call

variable {x x' : Call} {settings : Settings} {now : Instant} {fault : Option Error}
  {n n' : Notifier} {s s' : Store} {events : List Event} {b : Bytes}

/-- A verdict with bytes comes from the value. -/
theorem value_of_verdict {answer : Except Error Record}
    (ha : s.attempt fault (·.lookup settings.keys x.id now) = (answer, s'))
    (hv : verdict x.id answer = some (.ok b)) :
    (s.entry settings.keys x.id).value = some b := by
  cases fault with
  | some e =>
      obtain ⟨rfl, -⟩ := Prod.mk.inj ha
      cases hv
  | none =>
      have he : answer = .ok (s.record settings.keys x.id now) := (congrArg Prod.fst ha).symm
      cases hr : s.record settings.keys x.id now with
      | value bytes =>
          rw [he, hr] at hv
          cases hv
          exact Store.value_of_record hr
      | failure m =>
          rw [he, hr] at hv
          cases hv
      | missing =>
          rw [he, hr] at hv
          cases hv

theorem served_answer {q : String} {r : Except Error Bytes} {waited : Bool}
    (h : (x.answer q r waited).1.phase = .served b) : r = .ok b := by
  have hr := result?_answer x q r waited
  rw [result?, h] at hr
  exact (Option.some.inj hr).symm

/-- A caller gets bytes by finding the value. -/
theorem Step.served (h : Step x settings now fault n s x' n' s' events)
    (hb : x'.phase = .served b) : (s.entry settings.keys x.id).value = some b := by
  cases h with
  | settled hp ha hv =>
      obtain rfl := served_answer hb
      exact value_of_verdict ha hv
  | @reread w wake answer r before _ hp ha hr hbefore =>
      obtain rfl := served_answer hb
      refine value_of_verdict ha ?_
      cases hv : verdict x.id answer with
      | none =>
          rw [hv] at hr
          cases hr
      | some r =>
          rw [hv] at hr
          exact congrArg some hr.symm
  | refused hp ha => cases served_answer hb
  | gone hp hn => cases served_answer hb
  | _ => cases hb

theorem served_of_result? (h : x.result? = some (.ok b)) : x.phase = .served b := by
  unfold result? at h
  split at h
  · cases h
    assumption
  · cases h
  · cases h

/-- A caller that is done takes no step. -/
theorem Step.not_ended (h : Step x settings now fault n s x' n' s' events) : x.ended = false := by
  cases h <;> simp [ended, *]

/-- The first step of a caller whose id has a value. -/
theorem Step.of_value (h : Step x settings now fault n s x' n' s' events)
    (hp : x.phase = .looking) (hl : s.lookup settings.keys x.id now = (.value b, s)) :
    s' = s ∧ ((fault = none ∧ x'.phase = .served b) ∨
      ∃ e, fault = some e ∧ x'.phase = .refused e) := by
  cases h with
  | settled _ ha hv =>
      cases fault with
      | none =>
          simp only [Store.attempt, hl, Prod.mk.injEq] at ha
          obtain ⟨rfl, rfl⟩ := ha
          cases hv
          exact ⟨rfl, Or.inl ⟨rfl, rfl⟩⟩
      | some e =>
          obtain ⟨rfl, rfl⟩ := Prod.mk.inj ha
          cases hv
          exact ⟨rfl, Or.inr ⟨e, rfl, rfl⟩⟩
  | missed _ ha =>
      cases fault with
      | none => simp [Store.attempt, hl] at ha
      | some e => cases ha
  | reread hp' => simp [hp] at hp'
  | refused hp' => simp [hp] at hp'
  | again hp' => simp [hp] at hp'
  | queued hp' => simp [hp] at hp'
  | gone hp' => simp [hp] at hp'
  | subscribe hp' => simp [hp] at hp'
  | woken hp' => simp [hp] at hp'
  | lost hp' => simp [hp] at hp'
  | timedOut hp' => simp [hp] at hp'

/-- And it can take that step without a fault. -/
theorem step?_of_value (hp : x.phase = .looking)
    (hl : s.lookup settings.keys x.id now = (.value b, s)) :
    x.step? settings now none n s =
      some ({ x with phase := .served b }, n, s, [.requestAnswered settings.queue .hit]) := by
  simp [step?, query?, hp, Store.attempt, hl, afterLookup, answer]

end Call

namespace System

variable {s s' : System} {q : String} {a : Action} {id : Id} {b : Bytes}

/-! ### Tended runs -/

/-- In custody, what a step completes is claimed. -/
theorem InCustody.entitled (hs : s.InCustody q) (ht : Tended q a) : Moment.Entitled q ⟨s, a⟩ := by
  refine ⟨ht.1, fun x hx => ?_⟩
  unfold Moment.completion? at hx
  dsimp only at hx
  split at hx
  · cases ht.2
  · split at hx
    · rename_i t c hw
      cases hx
      exact hs.2.claimed _ (mem_hands_of_worker hw List.mem_cons_self)
    · cases hx
  · cases hx

/-- Custody is kept also when somebody outside claims: then the id is claimed and in nobody's
hands. -/
theorem Step.inCustody_of_tended (h : Step s a s') (ht : Tended q a) (hs : s.InCustody q) :
    s'.InCustody q := by
  cases hi : a.intrudes with
  | false => exact h.inCustody ht.1 hi hs
  | true =>
      cases a with
      | dequeue k fault =>
          cases h with
          | outside ho hf =>
              cases ho
              obtain rfl : k = ⟨q⟩ := congrArg Keys.mk (ht.1 _ rfl)
              refine ⟨hs.1, ?_⟩
              show Custody ⟨q⟩ s.hands (s.store.dequeue ⟨q⟩).2
              cases hd : s.store.dequeue ⟨q⟩ with
              | mk answer store =>
                  cases answer with
                  | none =>
                      obtain ⟨rfl, -⟩ := Store.dequeue_none hd
                      exact hs.2
                  | some t => exact (hs.2.taken hd).tail
          | denied => exact hs
      | complete => cases ht.2
      | _ => cases hi

/-- What holds in tended runs: all tasks in hand are in custody, and all entries are lawful. -/
def Kept (q : String) (s : System) : Prop := s.InCustody q ∧ s.Lawfully q

theorem kept_start (q : String) : Kept q {} := ⟨inCustody_start q, lawfully_start q⟩

theorem Step.kept (h : Step s a s') (ht : Tended q a) (hs : s.Kept q) : s'.Kept q :=
  ⟨h.inCustody_of_tended ht hs.1, h.lawfully hs.2 (hs.1.entitled ht)⟩

/-! ### Values stay -/

/-- The bytes are stored for the id. -/
def Stored (q : String) (id : Id) (b : Bytes) (s : System) : Prop :=
  (s.store.entry ⟨q⟩ id).value = some b

instance (q : String) (id : Id) (b : Bytes) (s : System) : Decidable (s.Stored q id b) :=
  inferInstanceAs (Decidable (_ = _))

theorem Step.stored (h : Step s a s') (ht : Tended q a) (hs : s.Kept q) (hv : s.Stored q id b) :
    s'.Stored q id b := by
  have hm := hs.1.entitled ht
  have hst : (s.store.entry ⟨q⟩ id).status s.now = .value b := (hs.2.2 id).shows_iff.mp hv
  have hst' : (s'.store.entry ⟨q⟩ id).status s'.now = .value b := by
    rcases h.status hs.2 hm id with he | ⟨cause, -, hc | hl⟩
    · rw [he, hst]
    · rw [hst] at hc
      cases hc
    · rw [hst] at hl
      cases hl.2.1
  exact ((h.lawfully hs.2 hm).2 id).shows_iff.mpr hst'

/-- Callers that got bytes got what is stored. -/
def Truthful (q : String) (s : System) : Prop :=
  ∀ x ∈ s.calls, ∀ b, x.phase = .served b → s.Stored q x.id b

theorem truthful_start (q : String) : Truthful q {} := fun _ h => (List.not_mem_nil h).elim

theorem Step.truthful (h : Step s a s') (ht : Tended q a) (hs : s.Kept q) (hx : s.Truthful q) :
    s'.Truthful q := by
  have old {x : Call} {b : Bytes} (hm : x ∈ s.calls) (hb : x.phase = .served b) :
      s'.Stored q x.id b := h.stored ht hs (hx x hm b hb)
  intro y hy b hb
  rcases h.calls_cases with hc | ⟨i, id, p, -, -, hc⟩ | ⟨j, x, n, -, hj, hc⟩ |
    ⟨j, fault, x, x', c, n, events, -, hj, hcache, hstep, hc⟩
  · rw [hc] at hy
    exact old hy hb
  · rw [hc] at hy
    rcases List.mem_append.mp hy with hy | hy
    · exact old hy hb
    · obtain rfl := List.mem_singleton.mp hy
      cases hb
  · rw [hc] at hy
    rcases List.mem_or_eq_of_mem_set hy with hy | rfl
    · exact old hy hb
    · -- a caller that was dropped has its bytes from before
      have hb' : x.phase = .served b := by
        simp only [Call.cancel] at hb
        split at hb
        · exact hb
        · cases hb
      exact old (x := x) (List.mem_of_getElem? hj) hb'
  · rw [hc] at hy
    rcases List.mem_or_eq_of_mem_set hy with hy | rfl
    · exact old hy hb
    · have hv := hstep.served hb
      rw [(hs.2.1.of_getElem? hcache).1] at hv
      rw [hstep.same.2]
      exact h.stored ht hs hv

/-- Callers have a cache. -/
def Placed (s : System) : Prop := ∀ x ∈ s.calls, x.cache < s.caches.length

theorem placed_start : Placed {} := fun _ h => (List.not_mem_nil h).elim

theorem Step.placed (h : Step s a s') (hx : s.Placed) : s'.Placed := by
  have old {x : Call} (hm : x ∈ s.calls) : x.cache < s'.caches.length :=
    Nat.lt_of_lt_of_le (hx x hm) h.caches_length_le
  intro y hy
  rcases h.calls_cases with hc | ⟨i, id, p, -, hi, hc⟩ | ⟨j, x, n, -, hj, hc⟩ |
    ⟨j, fault, x, x', c, n, events, -, hj, -, hstep, hc⟩
  · rw [hc] at hy
    exact old hy
  · rw [hc] at hy
    rcases List.mem_append.mp hy with hy | hy
    · exact old hy
    · obtain rfl := List.mem_singleton.mp hy
      exact Nat.lt_of_lt_of_le hi h.caches_length_le
  · rw [hc] at hy
    rcases List.mem_or_eq_of_mem_set hy with hy | rfl
    · exact old hy
    · exact old (x := x) (List.mem_of_getElem? hj)
  · rw [hc] at hy
    rcases List.mem_or_eq_of_mem_set hy with hy | rfl
    · exact old hy
    · rw [hstep.same.1]
      exact old (List.mem_of_getElem? hj)

/-! ### Callers of a stored value -/

/-- What has become of caller `j` of a stored value in the course of some actions. -/
def Settles (j : Nat) (x : Call) (b : Bytes) (as : List Action) : Prop :=
  x.phase = .served b ∨ x.phase = .looking ∨ (x.phase = .cancelled ∧ .cancel j ∈ as) ∨
    ∃ e, x.phase = .refused e ∧ .call j (some e) ∈ as

theorem Settles.mono {j : Nat} {x : Call} {as bs : List Action} (h : Settles j x b as)
    (hs : ∀ a ∈ as, a ∈ bs) : Settles j x b bs := by
  rcases h with h | h | ⟨h, hm⟩ | ⟨e, h, hm⟩
  · exact Or.inl h
  · exact Or.inr (Or.inl h)
  · exact Or.inr (Or.inr (Or.inl ⟨h, hs _ hm⟩))
  · exact Or.inr (Or.inr (Or.inr ⟨e, h, hs _ hm⟩))

/-- Such a caller is looking or done. -/
theorem Settles.looking {j : Nat} {x : Call} {as : List Action} (h : Settles j x b as)
    (he : x.ended = false) : x.phase = .looking := by
  rcases h with h | h | ⟨h, -⟩ | ⟨e, h, -⟩
  · simp [Call.ended, h] at he
  · exact h
  · simp [Call.ended, h] at he
  · simp [Call.ended, h] at he

/-- A caller of a stored value, at its place. -/
structure Prompt (s : System) (j i : Nat) (id : Id) (b : Bytes) (as : List Action) (x : Call) :
    Prop where
  stands : s.calls[j]? = some x
  cache : x.cache = i
  id : x.id = id
  settles : Settles j x b as

section

variable {i j : Nat} {as : List Action} {x : Call}

/-- Whatever happens, it stays such a caller. -/
theorem Step.prompt (h : Step s a s') (hs : s.Kept q) (hv : s.Stored q id b)
    (hp : s.Prompt j i id b as x) : ∃ x', s'.Prompt j i id b (as ++ [a]) x' := by
  have hmono : Settles j x b (as ++ [a]) :=
    hp.settles.mono fun _ hm => List.mem_append_left _ hm
  have stay (hc : s'.calls[j]? = some x) : ∃ x', s'.Prompt j i id b (as ++ [a]) x' :=
    ⟨x, hc, hp.cache, hp.id, hmono⟩
  have hj : j < s.calls.length := (List.getElem?_eq_some_iff.mp hp.stands).1
  have hlast : a ∈ as ++ [a] := List.mem_append_right _ (List.mem_singleton.mpr rfl)
  rcases h.calls_cases with hc | ⟨k, id', p, -, -, hc⟩ | ⟨k, y, n, rfl, hk, hc⟩ |
    ⟨k, fault, y, y', c, n, events, rfl, hk, hcache, hstep, hc⟩
  · exact stay (by rw [hc, hp.stands])
  · exact stay (by rw [hc, List.getElem?_append_left hj, hp.stands])
  · by_cases hkj : k = j
    · subst hkj
      obtain rfl := Option.some.inj (hp.stands.symm.trans hk)
      refine ⟨(x.cancel n).1, by rw [hc, List.getElem?_set_self hj], hp.cache, hp.id, ?_⟩
      cases he : x.ended with
      | true => simpa [Call.cancel, he] using hmono
      | false =>
          right
          right
          left
          exact ⟨by simp [Call.cancel, he], hlast⟩
    · exact stay (by rw [hc, List.getElem?_set_ne hkj, hp.stands])
  · by_cases hkj : k = j
    · subst hkj
      obtain rfl := Option.some.inj (hp.stands.symm.trans hk)
      obtain ⟨hsame, hsame'⟩ := hstep.same
      refine ⟨y', by rw [hc, List.getElem?_set_self hj], hsame.trans hp.cache,
        hsame'.trans hp.id, ?_⟩
      have hlook := hp.settles.looking hstep.not_ended
      have hl := Store.lookup_of_value (hs.2.2 id) hv s.now
      rw [← hp.id, ← (hs.2.1.of_getElem? hcache).1] at hl
      rcases (hstep.of_value hlook hl).2 with ⟨-, hb⟩ | ⟨e, rfl, he⟩
      · exact Or.inl hb
      · exact Or.inr (Or.inr (Or.inr ⟨e, he, hlast⟩))
    · exact stay (by rw [hc, List.getElem?_set_ne hkj, hp.stands])

/-- What it does leaves the store as it is. -/
theorem Prompt.still {fault : Option Error} (hp : s.Prompt j i id b as x) (hs : s.Kept q)
    (hv : s.Stored q id b) (h : Step s (.call j fault) s') : s'.store = s.store := by
  cases h with
  | call hk hcache hstep =>
      obtain rfl := Option.some.inj (hp.stands.symm.trans hk)
      have hlook := hp.settles.looking hstep.not_ended
      have hl := Store.lookup_of_value (hs.2.2 id) hv s.now
      rw [← hp.id, ← (hs.2.1.of_getElem? hcache).1] at hl
      exact (hstep.of_value hlook hl).1
  | outside ho => cases ho
  | denied ho => cases ho

/-- As long as it is looking, it can have the bytes at once. -/
theorem Prompt.ready (hp : s.Prompt j i id b as x) (hs : s.Kept q) (hv : s.Stored q id b)
    (hi : i < s.caches.length) (hlook : x.phase = .looking) :
    ∃ s', s.step? (.call j none) = some s' ∧ s'.calls[j]? = some { x with phase := .served b } := by
  have hj : j < s.calls.length := (List.getElem?_eq_some_iff.mp hp.stands).1
  have hcache : s.caches[x.cache]? = some s.caches[i] := by
    rw [hp.cache]
    exact List.getElem?_eq_getElem hi
  have hl := Store.lookup_of_value (hs.2.2 id) hv s.now
  rw [← hp.id, ← (hs.2.1.of_getElem? hcache).1] at hl
  have hstep := Call.step?_of_value (n := s.caches[i].notifier) hlook hl
  refine ⟨_, by simp only [step?, hp.stands, hcache, hstep, Option.bind_eq_bind,
    Option.bind_some]; rfl, ?_⟩
  exact List.getElem?_set_self hj

end

/-! ### Runs -/

theorem run_kept {as : List Action} (hr : run? {} as = some s) (ht : ∀ a ∈ as, Tended q a) :
    s.Kept q ∧ s.Truthful q ∧ s.Placed :=
  run_invariant (P := fun u => u.Kept q ∧ u.Truthful q ∧ u.Placed)
    ⟨kept_start q, truthful_start q, placed_start⟩
    (fun _ _ _ hu ha h => ⟨h.kept ha hu.1, h.truthful ha hu.1 hu.2.1, h.placed hu.2.2⟩) ht hr

/-- A value stays. -/
theorem run_stored {u : System} {cs : List Action} (hr : u.run? cs = some s)
    (ht : ∀ a ∈ cs, Tended q a) (hu : u.Kept q) (hv : u.Stored q id b) :
    s.Kept q ∧ s.Stored q id b :=
  run_invariant (P := fun u => u.Kept q ∧ u.Stored q id b) ⟨hu, hv⟩
    (fun _ _ _ hu ha h => ⟨h.kept ha hu.1, h.stored ha hu.1 hu.2⟩) ht hr

/-- A caller that is about to look for a value has its place from then on. -/
theorem run_prompt {u : System} {i j : Nat} {x : Call} {cs : List Action}
    (hr : u.run? cs = some s) (ht : ∀ a ∈ cs, Tended q a) (hu : u.Kept q) (hv : u.Stored q id b)
    (hx : u.Prompt j i id b [] x) : ∃ y, s.Prompt j i id b cs y := by
  -- follow the caller along the moments of the run
  have hrun : (s.Kept q ∧ s.Stored q id b) ∧
      ∃ y, s.Prompt j i id b ((u.moments cs).map (·.action)) y := by
    refine run_induction (P := fun past w => (w.Kept q ∧ w.Stored q id b) ∧
      ∃ y, w.Prompt j i id b (past.map (·.action)) y)
      (A := fun m => Tended q m.action) ⟨⟨hu, hv⟩, x, hx⟩ ?_ ?_ hr
    · rintro past w a w' ⟨⟨hw, hwb⟩, y, hy⟩ ha h
      refine ⟨⟨h.kept ha hw, h.stored ha hw hwb⟩, ?_⟩
      rw [List.map_append]
      exact h.prompt hw hwb hy
    · exact fun m hm => ht _ (action_mem_of_mem_moments hm)
  obtain ⟨-, y, hy⟩ := hrun
  refine ⟨y, hy.stands, hy.cache, hy.id, hy.settles.mono fun a ha => ?_⟩
  obtain ⟨m, hm, rfl⟩ := List.mem_map.mp ha
  exact action_mem_of_mem_moments hm

/-- **Agreement on values.**  In a run on one queue in which only the worker pools complete: a value
stays as it is and its id is never queued or claimed again; callers of one id that get bytes get the
same ones; and a caller that is about to look when the value is stored, as every new one is, gets it
by its next step, unless it is dropped before or the step is given a fault, and never changes the
store. -/
theorem agreement {as : List Action} (hr : run? {} as = some s) (ht : ∀ a ∈ as, Tended q a) :
    (∀ bs cs u id b, as = bs ++ cs → run? {} bs = some u → u.Stored q id b →
      s.Stored q id b ∧ (s.store.entry ⟨q⟩ id).priority = none ∧
        (s.store.entry ⟨q⟩ id).claimed = false) ∧
    (∀ x ∈ s.calls, ∀ y ∈ s.calls, ∀ b b', x.id = y.id → x.result? = some (.ok b) →
      y.result? = some (.ok b') → b = b') ∧
    ∀ bs cs u j x b, as = bs ++ cs → run? {} bs = some u → u.calls[j]? = some x →
      x.phase = .looking → u.Stored q x.id b →
      ∃ y, s.Prompt j x.cache x.id b cs y ∧
        (y.phase = .looking → ∃ s', s.step? (.call j none) = some s' ∧
          s'.calls[j]? = some { y with phase := .served b }) ∧
        ∀ fault s', s.step? (.call j fault) = some s' → s'.store = s.store := by
  obtain ⟨hs, htrue, hplaced⟩ := run_kept hr ht
  -- cut the run at a state in which the value is stored
  have rest {bs cs : List Action} {u : System} {id : Id} {b : Bytes} (has : as = bs ++ cs)
      (hu : run? {} bs = some u) (hv : u.Stored q id b) :
      u.run? cs = some s ∧ (∀ a ∈ cs, Tended q a) ∧ u.Kept q ∧ s.Stored q id b := by
    subst has
    obtain ⟨hbs, hcs⟩ := List.forall_mem_append.mp ht
    rw [run?_append, hu] at hr
    have hku := (run_kept hu hbs).1
    exact ⟨hr, hcs, hku, (run_stored hr hcs hku hv).2⟩
  refine ⟨?_, ?_, ?_⟩
  · intro bs cs u id b has hu hv
    obtain ⟨-, -, -, hb⟩ := rest has hu hv
    have hl := hs.2.2 id
    have hn : (s.store.entry ⟨q⟩ id).value ≠ none := by
      rw [show (s.store.entry ⟨q⟩ id).value = some b from hb]
      exact Option.some_ne_none b
    refine ⟨hb, ?_, ?_⟩
    · by_contra hq
      exact hn (hl.bare (Or.inr hq)).1
    · exact Bool.eq_false_iff.mpr fun hc => hn (hl.bare (Or.inl hc)).1
  · intro x hx y hy b b' hid hb hb'
    have hv := htrue x hx b (Call.served_of_result? hb)
    have hv' := htrue y hy b' (Call.served_of_result? hb')
    rw [hid] at hv
    exact Option.some.inj (hv.symm.trans hv')
  · intro bs cs u j x b has hu hx hlook hv
    obtain ⟨hrest, hcs, hku, hb⟩ := rest has hu hv
    have start : u.Prompt j x.cache x.id b [] x := ⟨hx, rfl, rfl, Or.inr (Or.inl hlook)⟩
    obtain ⟨y, hy⟩ := run_prompt hrest hcs hku hv start
    have hi : y.cache < s.caches.length := hplaced y (List.mem_of_getElem? hy.stands)
    rw [hy.cache] at hi
    exact ⟨y, hy, hy.ready hs hb hi, fun fault s' h => hy.still hs hb (step_of h)⟩

/-- An id is wanted from a cache with a worker, computed and returned. -/
def firstReader : List Action :=
  List.flatten [
    [.openCache { queue := "q", workers := 1 } true none, .openCache { queue := "q" } false none,
      .get 0 "x" 0],
    .replicate 3 (.call 0 none), .replicate 7 (.loop 0 .advance none),
    .replicate 3 (.worker 0 0 .advance none),
    [.worker 0 0 (.computed (.value [42])) none, .worker 0 0 .advance none,
      .notifier 0 .request none, .notifier 0 (.check "x") none, .call 0 none, .call 0 none]]

/-- Then it is wanted from a cache without workers. -/
def secondReader : List Action := firstReader ++ [.get 1 "x" 0]

theorem agreement_secondReader :
    ∃ u s x y b b', run? {} secondReader = some u ∧ u.Stored "q" "x" [42] ∧
      run? {} (secondReader ++ [.call 1 none]) = some s ∧
      (∀ a ∈ secondReader ++ [.call 1 none], Tended "q" a) ∧
      s.Stored "q" "x" [42] ∧ s.calls[0]? = some x ∧ x.result? = some (.ok b) ∧
      s.Prompt 1 1 "x" [42] [.call 1 none] y ∧ y.result? = some (.ok b') ∧ b = b' := by
  have ht : ∀ a ∈ secondReader ++ [.call 1 none], Tended "q" a := by decide +kernel
  have hu : (run? {} secondReader).any (fun u => decide (u.Stored "q" "x" [42]) &&
      decide (u.calls[1]? = some { cache := 1, id := "x", priority := 0 })) = true := by
    decide +kernel
  have hd : (run? {} (secondReader ++ [.call 1 none])).any (fun s =>
      decide (s.calls.map (fun x => (x.id, x.result?)) =
        List.replicate 2 ("x", some (.ok [42])))) = true := by
    decide +kernel
  obtain ⟨u, hu, hv⟩ := (Option.any_eq_true _ _).mp hu
  obtain ⟨s, hr, hd⟩ := (Option.any_eq_true _ _).mp hd
  rw [decide_eq_true_eq] at hd
  rw [Bool.and_eq_true, decide_eq_true_eq, decide_eq_true_eq] at hv
  obtain ⟨hv, hnew⟩ := hv
  obtain ⟨hstays, hsame, hprompt⟩ := agreement hr ht
  obtain ⟨y, hy, -, -⟩ := hprompt _ _ u 1 _ [42] rfl hu hnew rfl hv
  have result {j : Nat} {z : Call} (hj : s.calls[j]? = some z) :
      z.id = "x" ∧ z.result? = some (.ok [42]) := by
    have hm := List.mem_map_of_mem (f := fun x : Call => (x.id, x.result?))
      (List.mem_of_getElem? hj)
    rw [hd] at hm
    exact Prod.mk.inj (List.eq_of_mem_replicate hm)
  obtain ⟨x, hx⟩ : ∃ x, s.calls[0]? = some x := by
    have hlength : s.calls.length = 2 := by simpa using congrArg List.length hd
    exact ⟨_, List.getElem?_eq_getElem (by rw [hlength]; decide)⟩
  obtain ⟨hxid, hxr⟩ := result hx
  obtain ⟨hyid, hyr⟩ := result hy.stands
  exact ⟨u, s, x, y, [42], [42], hu, hv, hr, ht, (hstays _ _ u "x" [42] rfl hu hv).1, hx, hxr, hy,
    hyr, hsame x (List.mem_of_getElem? hx) y (List.mem_of_getElem? hy.stands) _ _
      (hxid.trans hyid.symm) hxr hyr⟩

end System

end ReadThrough
