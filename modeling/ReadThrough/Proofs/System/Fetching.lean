import ReadThrough.Proofs.System.Answers

/-! # The loop of a caller cannot spin

A caller that finds no record asks for the computation, and if it is told that the id is finished
meanwhile, it looks again.  Each such answer is paid for: an id that was not finished when the
caller looked, and is when it asks, became finished by a result that was accepted in between, and
no result pays twice.

* **Paying** (`Moment.settles`, `Step.finished_of`).  An id becomes finished only in a moment that
  accepts a result for it.
* **The balance** (`Call.Balanced`, `Step.balanced`).  A caller that is about to look has not looked
  more often than it was told that its id is finished.  One that is about to ask has looked once
  more, but if its id is finished by now, there is a result that has not paid yet.

So the number of rounds is bounded by the number of results (`fetch_bounded`), whatever others do,
also if failures expire. -/

namespace ReadThrough

/-- Caller `j` begins a round: it looks for a record before it asks. -/
def Moment.begins (m : Moment) (j : Nat) : Bool :=
  match m.action with
  | .call l _ => l == j && m.before.calls[j]?.any (·.phase = .looking)
  | _ => false

/-- A result for the id of caller `j` is accepted before the caller is done. -/
def Moment.settles (m : Moment) (j : Nat) : Bool :=
  m.before.calls[j]?.any fun x => !x.ended &&
    m.completion?.any fun y => y.1 == x.id && y.2.nameable m.before.now

namespace Call

/-- A caller has begun `rounds` rounds, was `told` all this when it asked, and `settled` results
were accepted for its id meanwhile, which is finished by now or not. -/
structure Balanced (x : Call) (finished : Bool) (settled rounds : Nat) (told : List Enqueued) :
    Prop where
  paid : told.count .resolved ≤ settled
  bounded : rounds ≤ told.count .resolved + 1
  once : told.countP (· ≠ .resolved) ≤ 1
  looking : x.phase = .looking → rounds ≤ told.count .resolved
  fetching : x.phase = .looking ∨ x.phase = .queueing → told.countP (· ≠ .resolved) = 0
  due : x.phase = .queueing → finished = true → told.count .resolved + 1 ≤ settled

variable {x x' : Call} {settings : Settings} {now : Instant} {fault : Option Error}
  {n n' : Notifier} {s s' : Store} {events : List Event} {finished finished' : Bool}
  {settled settled' rounds : Nat} {told : List Enqueued}

/-- Time and others may pass, if they pay for what they finish. -/
theorem Balanced.keep (h : x.Balanced finished settled rounds told) (hle : settled ≤ settled')
    (hf : x.ended = false → finished' = true → finished = true ∨ settled + 1 ≤ settled') :
    x.Balanced finished' settled' rounds told where
  paid := Nat.le_trans h.paid hle
  bounded := h.bounded
  once := h.once
  looking := h.looking
  fetching := h.fetching
  due hp hfin := by
    rcases hf (by simp [ended, hp]) hfin with hfin | hpay
    · exact Nat.le_trans (h.due hp hfin) hle
    · exact Nat.le_trans (Nat.succ_le_succ h.paid) hpay

/-- A caller that is out of its loop is not asked for more. -/
theorem Balanced.of_out (hp : x.phase ≠ .looking ∧ x.phase ≠ .queueing)
    (hpaid : told.count .resolved ≤ settled) (hb : rounds ≤ told.count .resolved + 1)
    (ho : told.countP (· ≠ .resolved) ≤ 1) : x.Balanced finished settled rounds told where
  paid := hpaid
  bounded := hb
  once := ho
  looking he := absurd he hp.1
  fetching he := (he.elim hp.1 hp.2).elim
  due he := absurd he hp.2

theorem Balanced.leave (h : x.Balanced finished settled rounds told)
    (hp : x'.phase ≠ .looking ∧ x'.phase ≠ .queueing) :
    x'.Balanced finished' settled rounds told :=
  .of_out hp h.paid h.bounded h.once

theorem phase_answer (x : Call) (q : String) (r : Except Error Bytes) (b : Bool) :
    (x.answer q r b).1.phase ≠ .looking ∧ (x.answer q r b).1.phase ≠ .queueing := by
  unfold answer
  cases r <;> exact ⟨nofun, nofun⟩

/-- What a caller is told in its next step, if it asks. -/
def told? (x : Call) (settings : Settings) (now : Instant) (fault : Option Error) (s : Store) :
    Option Enqueued :=
  if x.phase = .queueing ∧ fault = none then
    some (s.enqueue settings.keys x.id x.priority now).1
  else none

/-- A look that finds nothing leaves an id that is not finished. -/
theorem not_finished_of_missing {k : Keys} {id : Id}
    (ha : s.attempt fault (·.lookup k id now) = (.ok .missing, s')) :
    (s'.entry k id).finished now = false := by
  cases fault with
  | some e => cases ha
  | none =>
      obtain ⟨hr, rfl⟩ := Prod.mk.inj ha
      have hm : s.record k id now = .missing := Except.ok.inj hr
      rw [(Store.quiet_forget s k id now id).finished_eq, Entry.finished]
      rcases record_cases s k id now with ⟨f, -, hr⟩ | ⟨hf, ⟨bytes, -, hr⟩ | ⟨hb, -⟩⟩
      · rw [hr] at hm
        cases hm
      · rw [hr] at hm
        cases hm
      · simp [hf, hb]

/-- Whoever is told that its id is finished is told so by the store. -/
theorem told?_of_attempt {outcome : Enqueued} (hp : x.phase = .queueing)
    (ha : s.attempt fault (·.enqueue settings.keys x.id x.priority now) = (.ok outcome, s')) :
    x.told? settings now fault s = some outcome ∧
      (outcome = .resolved → (s.entry settings.keys x.id).finished now = true) := by
  cases fault with
  | some e => cases ha
  | none =>
      have ho : (s.enqueue settings.keys x.id x.priority now).1 = outcome :=
        Except.ok.inj (Prod.mk.inj ha).1
      refine ⟨by rw [told?, if_pos ⟨hp, rfl⟩, ho], ?_⟩
      rintro rfl
      rw [Store.enqueue_answer] at ho
      split at ho
      · cases ho
      · split at ho
        · assumption
        · cases ho

/-- A caller keeps the balance in its own steps, in which nobody else can pay. -/
theorem Step.balanced (h : Step x settings now fault n s x' n' s' events)
    (hb : x.Balanced ((s.entry settings.keys x.id).finished now) settled rounds told) :
    x'.Balanced ((s'.entry settings.keys x.id).finished now) settled
      (rounds + if x.phase = .looking then 1 else 0)
      (told ++ (x.told? settings now fault s).toList) := by
  -- behind the loop a caller is told nothing
  have behind (hp : x.phase ≠ .looking) (ht : x.told? settings now fault s = none)
      (hp' : x'.phase ≠ .looking ∧ x'.phase ≠ .queueing) :
      x'.Balanced ((s'.entry settings.keys x.id).finished now) settled
        (rounds + if x.phase = .looking then 1 else 0)
        (told ++ (x.told? settings now fault s).toList) := by
    rw [if_neg hp, ht]
    simpa using hb.leave hp'
  cases h with
  | settled hp ha hv =>
      rw [if_pos hp, told?, if_neg (by simp [hp]), Option.toList_none, List.append_nil]
      exact .of_out (phase_answer _ _ _ _) hb.paid (Nat.succ_le_succ (hb.looking hp)) hb.once
  | missed hp ha =>
      have hn := not_finished_of_missing ha
      rw [if_pos hp, told?, if_neg (by simp [hp]), Option.toList_none, List.append_nil]
      exact {
        paid := hb.paid
        bounded := Nat.succ_le_succ (hb.looking hp)
        once := hb.once
        looking := nofun
        fetching := fun _ => hb.fetching (Or.inl hp)
        due := fun _ hf => absurd (hn.symm.trans hf) Bool.false_ne_true }
  | reread hp ha hr hb => exact behind (by simp [hp]) (by simp [told?, hp]) (phase_answer _ _ _ _)
  | refused hp ha =>
      have hf : fault ≠ none := by
        rintro rfl
        cases ha
      exact behind (by simp [hp]) (by simp [told?, hf]) (phase_answer _ _ _ _)
  | again hp ha =>
      obtain ⟨ht, hfin⟩ := told?_of_attempt hp ha
      have hpay := hb.due hp (hfin rfl)
      have ho := hb.fetching (Or.inr hp)
      have hle := hb.bounded
      rw [if_neg (by simp [hp]), ht]
      exact {
        paid := by simpa using hpay
        bounded := by simp; omega
        once := by rw [List.countP_append, ho]; decide
        looking := fun _ => by simpa using hle
        fetching := fun _ => by rw [List.countP_append, ho]; rfl
        due := nofun }
  | @queued outcome _ hp ha ho =>
      have hzero := hb.fetching (Or.inr hp)
      rw [if_neg (by simp [hp]), (told?_of_attempt hp ha).1]
      have hcount : (told ++ [outcome]).count .resolved = told.count .resolved := by
        simp [ho]
      refine .of_out ⟨nofun, nofun⟩ (hcount ▸ hb.paid) (hcount ▸ hb.bounded) ?_
      rw [List.countP_append, hzero]
      simp [ho]
  | gone hp hn => exact behind (by simp [hp]) (by simp [told?, hp]) (phase_answer _ _ _ _)
  | subscribe hp hn => exact behind (by simp [hp]) (by simp [told?, hp]) ⟨nofun, nofun⟩
  | woken hp hs => exact behind (by simp [hp]) (by simp [told?, hp]) ⟨nofun, nofun⟩
  | lost hp hs => exact behind (by simp [hp]) (by simp [told?, hp]) ⟨nofun, nofun⟩
  | timedOut hp hs hl ht => exact behind (by simp [hp]) (by simp [told?, hp]) ⟨nofun, nofun⟩

end Call

namespace System

variable {s s' : System} {a : Action} {j : Nat} {past : List Moment} {q : String}

/-- What caller `j` was told when it asked, the first answer first. -/
def outcomes (past : List Moment) (j : Nat) : List Enqueued :=
  (sights past j).filterMap Call.Sight.outcome?

/-- How often caller `j` has begun a round. -/
def turns (past : List Moment) (j : Nat) : Nat := past.countP (·.begins j)

/-- How many results were accepted for the id of caller `j` before it was done. -/
def payments (past : List Moment) (j : Nat) : Nat := past.countP (·.settles j)

theorem turns_concat (past : List Moment) (m : Moment) (j : Nat) :
    turns (past ++ [m]) j = turns past j + if m.begins j then 1 else 0 := by
  simp [turns, List.countP_append, List.countP_singleton]

theorem payments_concat (past : List Moment) (m : Moment) (j : Nat) :
    payments (past ++ [m]) j = payments past j + if m.settles j then 1 else 0 := by
  simp [payments, List.countP_append, List.countP_singleton]

theorem payments_le (past : List Moment) (m : Moment) (j : Nat) :
    payments past j ≤ payments (past ++ [m]) j := by
  rw [payments_concat]
  exact Nat.le_add_right _ _

/-- An id becomes finished only by a result that is accepted for it. -/
theorem Step.finished_of (h : Step s a s') (hq : a.On q) (hs : s.OneQueue ⟨q⟩) {id : Id}
    (hf : (s'.store.entry ⟨q⟩ id).finished s'.now = true) :
    (s.store.entry ⟨q⟩ id).finished s.now = true ∨
      ∃ c, Moment.completion? ⟨s, a⟩ = some (id, c) ∧ c.nameable s.now = true := by
  obtain ⟨cause, hb, hc⟩ := h.brings
  cases cause with
  | none =>
      rw [hb.1] at hf
      exact Or.inl (Entry.finished_mono hb.2 hf)
  | some op =>
      obtain ⟨hasks, hstore, hnow⟩ := hb
      rw [hstore, hnow] at hf
      rcases Store.finished_apply (hasks.keys_eq hs hq) hf with hf | ⟨c, rfl, hn⟩
      · exact Or.inl hf
      · exact Or.inr ⟨c, hc _ _ _ rfl, hn⟩

theorem begins_call {x : Call} (hx : s.calls[j]? = some x) (fault : Option Error) :
    Moment.begins ⟨s, .call j fault⟩ j = decide (x.phase = .looking) := by
  simp [Moment.begins, hx]

theorem begins_other (ha : ∀ fault, a ≠ .call j fault) : Moment.begins ⟨s, a⟩ j = false := by
  unfold Moment.begins
  split
  · rename_i l fault he
    have hl : l ≠ j := by
      rintro rfl
      exact ha fault he
    simp [hl]
  · rfl

theorem outcomes_other (ha : ∀ fault, a ≠ .call j fault) :
    outcomes (past ++ [⟨s, a⟩]) j = outcomes past j := by
  unfold outcomes
  rw [(sights_other s past ha).1]

theorem outcomes_call {x : Call} {c : Cache} (hx : s.calls[j]? = some x)
    (hc : s.caches[x.cache]? = some c) (fault : Option Error) :
    outcomes (past ++ [⟨s, .call j fault⟩]) j =
      outcomes past j ++ (x.told? c.settings s.now fault s.store).toList := by
  have hsight : (Moment.sight? ⟨s, .call j fault⟩ j).bind Call.Sight.outcome? =
      x.told? c.settings s.now fault s.store := by
    cases fault with
    | some e => simp [Moment.sight?, Call.told?]
    | none =>
        simp only [Moment.sight?, if_true, hx, hc, Option.bind_eq_bind, Option.bind_some]
        unfold Call.sight? Call.told?
        cases x.phase with
        | subscribing => cases c.notifier.ended <;> rfl
        | _ => rfl
  unfold outcomes sights
  rw [List.filterMap_append, List.filterMap_append, ← hsight]
  cases hm : Moment.sight? ⟨s, .call j fault⟩ j with
  | none => simp [hm]
  | some sight => cases ho : sight.outcome? <;> simp [hm, ho]

/-- Whoever is at place `j` of the callers keeps the balance. -/
structure Balanced (q : String) (past : List Moment) (j : Nat) (s : System) : Prop where
  absent : s.calls[j]? = none → turns past j = 0 ∧ outcomes past j = []
  balanced : ∀ x, s.calls[j]? = some x →
    x.Balanced ((s.store.entry ⟨q⟩ x.id).finished s.now) (payments past j) (turns past j)
      (outcomes past j)

theorem balanced_start (q : String) (j : Nat) : Balanced q [] j {} :=
  ⟨fun _ => ⟨rfl, rfl⟩, fun _ h => by simp at h⟩

/-- A caller keeps the balance in a step of its own. -/
theorem Step.balanced_call {fault : Option Error} (h : Step s (.call j fault) s')
    (ho : s.OneQueue ⟨q⟩) (hs : s.Balanced q past j) :
    s'.Balanced q (past ++ [⟨s, .call j fault⟩]) j := by
  have hx : ∃ x, s.calls[j]? = some x := by
    cases h with
    | call hx hc hs => exact ⟨_, hx⟩
    | outside ho hf => cases ho
    | denied ho hf => cases ho
  obtain ⟨x, hx⟩ := hx
  rcases h.caller_cases hx with ⟨-, hn⟩ | ⟨n, he, -⟩ | ⟨fault', c, x', n, events, he, hc, hstep, hy⟩
  · exact absurd rfl (hn fault)
  · cases he
  · obtain ⟨-, rfl⟩ := Action.call.inj he
    have hk : c.settings.keys = ⟨q⟩ := (ho.of_getElem? hc).1
    have hnow : s'.now = s.now := h.now_eq.resolve_right (by rintro ⟨span, he⟩; cases he)
    refine ⟨fun hn => by simp [hy] at hn, fun y hy' => ?_⟩
    obtain rfl := Option.some.inj (hy.symm.trans hy')
    have hb := hstep.balanced (hk ▸ hs.balanced x hx)
    rw [turns_concat, begins_call hx, outcomes_call hx hc, hstep.same.2, hnow]
    rw [hk] at hb
    simpa using hb.keep (payments_le past _ j) fun _ hf => Or.inl hf

/-- Whoever finishes the id of a caller that is not done pays for it. -/
theorem Step.pays (h : Step s a s') (hq : a.On q) (ho : s.OneQueue ⟨q⟩) {x : Call}
    (hx : s.calls[j]? = some x) (he : x.ended = false)
    (hf : (s'.store.entry ⟨q⟩ x.id).finished s'.now = true) :
    (s.store.entry ⟨q⟩ x.id).finished s.now = true ∨
      payments past j + 1 ≤ payments (past ++ [⟨s, a⟩]) j := by
  refine (h.finished_of hq ho hf).imp_right ?_
  rintro ⟨c, hc, hn⟩
  have hm : Moment.settles ⟨s, a⟩ j = true := by simp [Moment.settles, hx, he, hc, hn]
  rw [payments_concat, hm]
  exact Nat.le_refl _

/-- A caller keeps the balance in the steps of others. -/
theorem Step.balanced_other (h : Step s a s') (hq : a.On q) (ho : s.OneQueue ⟨q⟩)
    (ha : ∀ fault, a ≠ .call j fault) (hs : s.Balanced q past j) :
    s'.Balanced q (past ++ [⟨s, a⟩]) j := by
  have hturns : turns (past ++ [⟨s, a⟩]) j = turns past j := by
    rw [turns_concat, begins_other ha]
    rfl
  constructor
  · intro hn
    rw [hturns, outcomes_other ha]
    exact hs.absent (h.absent_of_absent hn)
  · intro y hy
    rw [hturns, outcomes_other ha]
    cases hx : s.calls[j]? with
    | none =>
        -- it has just come
        obtain ⟨i, id, p, -, -, rfl⟩ := h.comes hx hy
        obtain ⟨hb, ht⟩ := hs.absent hx
        rw [hb, ht]
        exact {
          paid := Nat.zero_le _
          bounded := Nat.zero_le _
          once := Nat.zero_le _
          looking := fun _ => Nat.le_refl _
          fetching := fun _ => rfl
          due := nofun }
    | some x =>
        have hb := (hs.balanced x hx).keep (payments_le past _ j) (h.pays hq ho hx)
        rcases h.caller_cases hx with ⟨hy', -⟩ | ⟨n, -, hy'⟩ | ⟨fault, -, -, -, -, rfl, -⟩
        · obtain rfl := Option.some.inj (hy'.symm.trans hy)
          exact hb
        · obtain rfl := Option.some.inj (hy'.symm.trans hy)
          rcases x.phase_cancel n with ⟨he, -⟩ | hp
          · exact he.symm ▸ hb
          · exact hb.leave ⟨by simp [hp], by simp [hp]⟩
        · exact absurd rfl (ha fault)

theorem Step.balanced (h : Step s a s') (hq : a.On q) (ho : s.OneQueue ⟨q⟩)
    (hs : s.Balanced q past j) : s'.Balanced q (past ++ [⟨s, a⟩]) j := by
  by_cases ha : ∃ fault, a = .call j fault
  · obtain ⟨fault, rfl⟩ := ha
    exact h.balanced_call ho hs
  · exact h.balanced_other hq ho (fun fault he => ha ⟨fault, he⟩) hs

theorem run_balanced {as : List Action} (hr : run? {} as = some s) (hq : ∀ a ∈ as, a.On q)
    (j : Nat) : s.Balanced q (moments {} as) j ∧ s.Placed := by
  have hm : ∀ m ∈ moments {} as, m.action.On q := fun m hm => hq _ (action_mem_of_mem_moments hm)
  have start : (Balanced q [] j {} ∧ Placed {}) ∧ OneQueue ⟨q⟩ {} :=
    ⟨⟨balanced_start q j, placed_start⟩, oneQueue_start _⟩
  exact (run_induction
    (P := fun past u => (u.Balanced q past j ∧ u.Placed) ∧ u.OneQueue ⟨q⟩) start
    (fun _ _ _ _ hu ha h =>
      ⟨⟨h.balanced ha hu.2 hu.1.1, h.placed hu.1.2⟩, h.oneQueue ha hu.2⟩) hm hr).1

/-- Whoever is about to ask the store can do so. -/
theorem exists_step_of_query {x : Call} (hx : s.calls[j]? = some x) (hp : s.Placed)
    (hq : x.query?.isSome = true) : ∃ s', s.step? (.call j none) = some s' := by
  have hc := List.getElem?_eq_getElem (hp x (List.mem_of_getElem? hx))
  simp only [step?, hx, hc, Option.bind_eq_bind, Option.bind_some, Call.step?]
  cases hquery : x.query? with
  | none => simp [hquery] at hq
  | some query => cases query <;> exact ⟨_, rfl⟩

/-- **The loop of a caller cannot spin.**  In every run on one queue, whatever others do and however
time passes:

* A caller begins at most one round more than results are accepted for its id while it is there.
* It is told that its id is finished at most as often as such results are accepted, and at most
  once that its id is queued or in progress.
* So if no result of its id is accepted meanwhile, it never begins a second round.
* As long as it is in its loop, nothing keeps it from its next step. -/
theorem fetch_bounded {as : List Action} (hr : run? {} as = some s) (hq : ∀ a ∈ as, a.On q)
    (j : Nat) :
    turns (moments {} as) j ≤ payments (moments {} as) j + 1 ∧
      (outcomes (moments {} as) j).count .resolved ≤ payments (moments {} as) j ∧
      (outcomes (moments {} as) j).countP (· ≠ .resolved) ≤ 1 ∧
      (payments (moments {} as) j = 0 →
        turns (moments {} as) j ≤ 1 ∧ .resolved ∉ outcomes (moments {} as) j) ∧
      ∀ x, s.calls[j]? = some x → x.phase = .looking ∨ x.phase = .queueing →
        ∃ s', s.step? (.call j none) = some s' := by
  obtain ⟨hb, hplaced⟩ := run_balanced hr hq j
  have hpaid : turns (moments {} as) j ≤ payments (moments {} as) j + 1 ∧
      (outcomes (moments {} as) j).count .resolved ≤ payments (moments {} as) j ∧
      (outcomes (moments {} as) j).countP (· ≠ .resolved) ≤ 1 := by
    cases hx : s.calls[j]? with
    | none =>
        obtain ⟨ht, ho⟩ := hb.absent hx
        rw [ht, ho]
        exact ⟨Nat.zero_le _, Nat.zero_le _, Nat.zero_le _⟩
    | some x =>
        have h := hb.balanced x hx
        exact ⟨Nat.le_trans h.bounded (Nat.succ_le_succ h.paid), h.paid, h.once⟩
  obtain ⟨hturns, hresolved, honce⟩ := hpaid
  refine ⟨hturns, hresolved, honce, fun hzero => ⟨by omega, ?_⟩, fun x hx hp => ?_⟩
  · exact List.count_eq_zero.mp (by omega)
  · refine exists_step_of_query hx hplaced ?_
    rcases hp with hp | hp <;> simp [Call.query?, hp]

/-- The computation fails between the look and the question of a caller, and the failure expires
before it looks again. -/
def fleeting : List Action :=
  [.openCache { queue := "q" } false none, .get 0 "x" 0, .call 0 none,
    .complete ⟨"q"⟩ "x" (.failure "boom" ⟨3⟩) none, .call 0 none, .tick ⟨5⟩, .call 0 none,
    .call 0 none]

theorem fetch_bounded_fleeting :
    ∃ s, run? {} fleeting = some s ∧ (∀ a ∈ fleeting, a.On "q") ∧
      outcomes (moments {} fleeting) 0 = [.resolved, .queued] ∧
      turns (moments {} fleeting) 0 = 2 ∧ payments (moments {} fleeting) 0 = 1 ∧
      turns (moments {} fleeting) 0 ≤ payments (moments {} fleeting) 0 + 1 := by
  have hd : (run? {} fleeting).isSome = true := by decide +kernel
  obtain ⟨s, hs⟩ := Option.isSome_iff_exists.mp hd
  have hq : ∀ a ∈ fleeting, a.On "q" := by decide +kernel
  exact ⟨s, hs, hq, by decide +kernel, by decide +kernel, by decide +kernel,
    (fetch_bounded hs hq 0).1⟩

end System

end ReadThrough
