import ReadThrough.Proofs.Notifier.Signals

/-! # A reconciliation

After the empty message a notifier checks every id that somebody waits for.

* **Waiters** (`Notifier.Sole`, `Notifier.live`).  A waiter is registered once, and it has no signal
  yet.  Some of those that are registered for an id may have stopped listening; the others are live.
* **Meanwhile** (`Notifier.Meanwhile`).  Checks come in any order and are answered by any stores,
  or fail.  Between them callers may ask to be woken, tell that they gave up, and go on once they
  were woken.
* **Invariant** (`Notifier.Amid`).  What is registered, who was woken and what is still to be
  checked follows from which ids were checked, and not from their order (`Amid.check`,
  `Amid.others`).
* **Main statement** (`Notifier.reconciles_exactly`).  Which runs of checks are a reconciliation,
  and what it leaves. -/

namespace ReadThrough

namespace Notifier

/-! ### Waiters -/

/-- Every waiter is registered once, and has no signal yet. -/
structure Sole (n : Notifier) : Prop where
  apart : ∀ (id : Id) ws, n.watchers[id]? = some ws → ws.Nodup
  pends : ∀ id w, n.Registered id w → n.Pends id w

/-- The waiters of an id that listen. -/
def live (n : Notifier) (id : Id) : List Nat := (n.watchers.getD id []).filter n.listens

variable {n m m' : Notifier} {id j : Id} {w : Nat}

theorem Tidy.sole {owed : Id → Nat → Prop} (h : n.Tidy owed) : n.Sole :=
  ⟨h.apart, fun id w hr => h.pends id w (Or.inr hr)⟩

theorem mem_live : w ∈ n.live id ↔ n.Registered id w ∧ n.listens w = true := by
  unfold live
  rw [List.mem_filter]
  refine and_congr_left fun _ => ⟨registered_of_mem_getD, fun ⟨ws, hw, hm⟩ => ?_⟩
  rwa [Std.ExtTreeMap.getD_eq_getD_getElem?, hw]

theorem Sole.nodup_live (h : n.Sole) (id : Id) : (n.live id).Nodup := by
  unfold live
  refine List.Pairwise.filter _ ?_
  rw [Std.ExtTreeMap.getD_eq_getD_getElem?]
  cases hw : n.watchers[id]? with
  | none => exact List.nodup_nil
  | some ws => exact h.apart id ws hw

/-- A waiter is live for one id. -/
theorem Sole.eq_of_live (h : n.Sole) (hi : w ∈ n.live id) (hj : w ∈ n.live j) : id = j :=
  (h.pends id w (mem_live.mp hi).1).inj (h.pends j w (mem_live.mp hj).1)

theorem Sole.live (h : n.Sole) (hw : w ∈ n.live id) : n.Live w := by
  obtain ⟨hr, hl⟩ := mem_live.mp hw
  obtain ⟨y, hy, -, hs⟩ := h.pends id w hr
  rw [listens, hy] at hl
  exact ⟨y, hy, hl, hs⟩

/-- What stays registered when those that do not listen are forgotten. -/
theorem getElem?_prune (n : Notifier) (id : Id) :
    n.prune.watchers[id]? = if n.live id = [] then none else some (n.live id) := by
  unfold prune live
  rw [Std.ExtTreeMap.getD_eq_getD_getElem?]
  simp only [Std.ExtTreeMap.getElem?_filterMap]
  cases hw : n.watchers[id]? with
  | none => simp
  | some ws => cases hl : ws.filter n.listens <;> simp [hl]

/-! ### Meanwhile -/

/-- What happens while a notifier reconciles. -/
inductive Meanwhile where
  /-- The notifier checks an id. -/
  | check (id : Id) (s : Store) (now : Instant) (stopping : Bool) (fault : Option Error)
  /-- A caller asks to be woken for an id. -/
  | subscribe (id : Id)
  /-- A caller tells that it gave up waiting for an id. -/
  | release (id : Id)
  /-- A caller goes on if it was woken. -/
  | part (w : Nat)

/-- The id that is checked. -/
def Meanwhile.asked? : Meanwhile → Option Id
  | check id .. => some id
  | _ => none

/-- A check is answered as `answer` says. -/
def Meanwhile.Answers (k : Keys) (answer : Id → Except Error Bool) : Meanwhile → Prop
  | check id s now _ fault => (s.attempt fault (·.isFinished k id now)).1 = answer id
  | _ => True

/-- What comes of it, with the waiters to whom a signal is sent and what is reported. -/
def meet? (n : Notifier) : Meanwhile → Option (Notifier × List Nat × List Event)
  | .check id s now stopping fault =>
    (n.step? s now stopping fault (.check id)).map fun (m, _, events) =>
      (m, n.wakes s now fault (.check id), events)
  | .subscribe id => (n.subscribe? id).map fun (_, m) => (m, [], [])
  | .release id => some (n.release id, [], [])
  | .part w => some (if n.signal w = .woken then n.leave w else n, [], [])

/-- One thing after the other. -/
def meetAll? (n : Notifier) : List Meanwhile → Option (Notifier × List Nat × List Event)
  | [] => some (n, [], [])
  | a :: rest => do
    let (m, sent, events) ← n.meet? a
    let (m', sent', events') ← m.meetAll? rest
    some (m', sent ++ sent', events ++ events')

/-- The ids that are checked, in order. -/
def asked (acts : List Meanwhile) : List Id := acts.filterMap Meanwhile.asked?

/-- A whole reconciliation: the empty message is taken, and when all checks are done the notifier is
ready for the next message. -/
def reconcile? (n : Notifier) (s : Store) (now : Instant) (stopping : Bool)
    (acts : List Meanwhile) : Option (Notifier × List Nat × List Event) := do
  let (m, _, begun) ← n.step? s now stopping none .message
  let (m, sent, events) ← m.meetAll? acts
  let (m, _, concluded) ← m.step? s now stopping none .conclude
  some (m, sent, begun ++ events ++ concluded)

/-! ### The invariant -/

/-- How many of the ids are found finished. -/
def foundAmong (answer : Id → Except Error Bool) : List Id → Nat
  | [] => 0
  | id :: ids => found (answer id) + foundAmong answer ids

theorem foundAmong_append (answer : Id → Except Error Bool) (ids : List Id) (id : Id) :
    foundAmong answer (ids ++ [id]) = foundAmong answer ids + found (answer id) := by
  induction ids with
  | nil => simp [foundAmong]
  | cons j ids ih => simp only [List.cons_append, foundAmong, ih, Nat.add_assoc]

/-- The ids `done` were checked and those of `todo` are still to be checked; the waiters `sent` were
sent their signal. -/
structure Amid (n : Notifier) (answer : Id → Except Error Bool) (done todo : List Id)
    (sent : List Nat) (m : Notifier) : Prop where
  keys : m.keys = n.keys
  phase : m.phase = .reconciling todo (foundAmong answer done)
  size : m.watchers.size + foundAmong answer done = done.length + todo.length
  due : todo.Nodup ∧ ∀ id, id ∈ todo ↔ n.live id ≠ [] ∧ id ∉ done
  once : done.Nodup ∧ ∀ id ∈ done, n.live id ≠ []
  gone : ∀ id, n.live id = [] ∨ id ∈ done ∧ answer id = .ok true → m.watchers[id]? = none
  kept : ∀ id, n.live id ≠ [] → ¬ (id ∈ done ∧ answer id = .ok true) →
    m.watchers[id]? = some (n.live id)
  woken : ∀ id ∈ done, answer id = .ok true → ∀ w ∈ n.live id, m.signal w = .woken
  waiting : ∀ id, ¬ (id ∈ done ∧ answer id = .ok true) → ∀ w ∈ n.live id, m.Live w
  signals : sent.Nodup ∧ ∀ w, w ∈ sent ↔ ∃ id ∈ done, answer id = .ok true ∧ w ∈ n.live id

variable {answer : Id → Except Error Bool} {done todo : List Id} {sent : List Nat}

/-- The notifier that has taken the empty message. -/
def begun (n : Notifier) : Notifier :=
  { n.prune with phase := .reconciling n.prune.watchers.keys 0 }

theorem Sole.amid (h : n.Sole) : Amid n answer [] n.prune.watchers.keys [] n.begun where
  keys := rfl
  phase := rfl
  size := by simp [begun, foundAmong, Std.ExtTreeMap.length_keys]
  due := by
    refine ⟨Std.ExtTreeMap.nodup_keys, fun id => ?_⟩
    rw [Std.ExtTreeMap.mem_keys, Std.ExtTreeMap.mem_iff_isSome_getElem?, getElem?_prune]
    split <;> simp_all
  once := ⟨List.nodup_nil, nofun⟩
  gone := fun id hi => (getElem?_prune n id).trans (if_pos (hi.resolve_right nofun))
  kept := fun id hl _ => (getElem?_prune n id).trans (if_neg hl)
  woken := nofun
  waiting := fun id _ w hw => h.live hw
  signals := ⟨List.nodup_nil, fun w => ⟨nofun, nofun⟩⟩

/-- Others do something that changes nobody's mind. -/
theorem Amid.others (h : Amid n answer done todo sent m) (hd : m'.desk = m.desk)
    (hlive : ∀ w, m.Live w → m'.Live w) (hwoken : ∀ w, m.signal w = .woken → m'.signal w = .woken) :
    Amid n answer done todo sent m' := by
  have hw : m'.watchers = m.watchers := congrArg (·.2.2) hd
  have hp : m'.phase = m.phase := congrArg (·.2.1) hd
  have hk : m'.keys = m.keys := congrArg (·.1.1) hd
  exact ⟨hk.trans h.keys, hp.trans h.phase, hw ▸ h.size, h.due, h.once, hw ▸ h.gone, hw ▸ h.kept,
    fun id hi ha w hm => hwoken w (h.woken id hi ha w hm),
    fun id hi w hm => hlive w (h.waiting id hi w hm), h.signals⟩

section Steps

variable {s s' : Store} {now : Instant} {stopping : Bool} {fault : Option Error}
  {events : List Event}

/-- An id is crossed off. -/
theorem Amid.crossed (h : Amid n answer done todo sent m) (hi : id ∈ todo) :
    ((todo.erase id).Nodup ∧ ∀ j, j ∈ todo.erase id ↔ n.live j ≠ [] ∧ j ∉ done ++ [id]) ∧
      ((done ++ [id]).Nodup ∧ ∀ j ∈ done ++ [id], n.live j ≠ []) ∧
      (done ++ [id]).length + (todo.erase id).length = done.length + todo.length := by
  obtain ⟨hnd, hdue⟩ := h.due
  obtain ⟨hlive, hnew⟩ := (hdue id).mp hi
  refine ⟨⟨hnd.erase id, fun j => ?_⟩, ⟨?_, fun j hj => ?_⟩, ?_⟩
  · rw [hnd.mem_erase_iff, hdue, List.mem_append, List.mem_singleton, not_or]
    exact ⟨fun ⟨hne, hl, hd⟩ => ⟨hl, hd, hne⟩, fun ⟨hl, hd, hne⟩ => ⟨hne, hl, hd⟩⟩
  · refine List.nodup_append.mpr ⟨h.once.1, by simp, ?_⟩
    rintro a ha b hb rfl
    exact hnew (List.mem_singleton.mp hb ▸ ha)
  · rcases List.mem_append.mp hj with hj | hj
    · exact h.once.2 j hj
    · exact List.mem_singleton.mp hj ▸ hlive
  · have hpos := List.length_pos_of_mem hi
    rw [List.length_append, List.length_singleton, List.length_erase_of_mem hi]
    omega

/-- A check that does not find the id finished only crosses it off. -/
theorem Amid.unfinished (h : Amid n answer done todo sent m) (hi : id ∈ todo)
    (ha : answer id ≠ .ok true) (hf : m'.watchers = m.watchers) (hx : m'.waiters = m.waiters)
    (hk : m'.keys = m.keys)
    (hp : m'.phase = .reconciling (todo.erase id) (foundAmong answer done + found (answer id))) :
    Amid n answer (done ++ [id]) (todo.erase id) sent m' := by
  obtain ⟨hdue, honce, hlen⟩ := h.crossed hi
  have hzero : found (answer id) = 0 := by
    unfold found
    split
    · rename_i ht
      exact absurd ht ha
    · rfl
  -- the ids that were found finished are the same ones
  have hsame (j : Id) :
      j ∈ done ++ [id] ∧ answer j = .ok true ↔ j ∈ done ∧ answer j = .ok true := by
    rw [List.mem_append, List.mem_singleton]
    refine and_congr_left fun hj => or_iff_left ?_
    rintro rfl
    exact ha hj
  constructor
  · exact hk.trans h.keys
  · rw [hp, foundAmong_append]
  · rw [hf, foundAmong_append, hzero, hlen]
    exact h.size
  · exact hdue
  · exact honce
  · intro j hj
    rw [hf]
    exact h.gone j (hj.imp_right (hsame j).mp)
  · intro j hl hj
    rw [hf]
    exact h.kept j hl (mt (hsame j).mpr hj)
  · intro j hj ht w hw
    unfold signal
    rw [hx]
    exact h.woken j ((hsame j).mp ⟨hj, ht⟩).1 ht w hw
  · intro j hj w hw
    unfold Live
    rw [hx]
    exact h.waiting j (mt (hsame j).mpr hj) w hw
  · refine ⟨h.signals.1, fun w => (h.signals.2 w).trans ?_⟩
    simp only [← and_assoc, hsame]

/-- A check that finds the id finished wakes the waiters that are live. -/
theorem Amid.finished (h : Amid n answer done todo sent m) (hn : n.Sole) (hi : id ∈ todo)
    (ha : answer id = .ok true) (hf : m'.watchers = (m.wake id).1.watchers)
    (hx : m'.waiters = (m.wake id).1.waiters) (hk : m'.keys = m.keys)
    (hp : m'.phase = .reconciling (todo.erase id) (foundAmong answer done + found (answer id))) :
    Amid n answer (done ++ [id]) (todo.erase id) (sent ++ n.live id) m' := by
  obtain ⟨hdue, honce, hlen⟩ := h.crossed hi
  obtain ⟨hlive, hnew⟩ := (h.due.2 id).mp hi
  have hreg : m.watchers[id]? = some (n.live id) := h.kept id hlive fun hd => hnew hd.1
  have hone : found (answer id) = 1 := by rw [ha]; rfl
  have herase : m'.watchers = m.watchers.erase id := by
    rw [hf]
    unfold wake
    rw [hreg]
  have hmem (j : Id) : j ∈ done ++ [id] ∧ answer j = .ok true ↔
      (j ∈ done ∧ answer j = .ok true) ∨ j = id := by
    rw [List.mem_append, List.mem_singleton]
    refine ⟨fun ⟨hj, ht⟩ => hj.imp_left (⟨·, ht⟩), ?_⟩
    rintro (⟨hj, ht⟩ | rfl)
    · exact ⟨Or.inl hj, ht⟩
    · exact ⟨Or.inr rfl, ha⟩
  -- only the waiters of the id itself are touched
  have hother {j : Id} {w : Nat} (hw : w ∈ n.live j) (hj : j ≠ id) :
      m'.waiters[w]? = m.waiters[w]? := by
    rw [hx]
    rcases waiters_wake m id w with ⟨he, -⟩ | ⟨-, ws, hws, hm⟩
    · exact he
    · obtain rfl := Option.some.inj (hreg.symm.trans hws)
      exact absurd (hn.eq_of_live hw hm) hj
  have hmine {w : Nat} (hw : w ∈ n.live id) : m'.signal w = .woken := by
    obtain ⟨y, hy, hl, -⟩ := h.waiting id (fun hd => hnew hd.1) w hw
    unfold signal
    rw [hx]
    rcases waiters_wake m id w with ⟨-, hnr⟩ | ⟨he, -⟩
    · exact absurd ⟨_, hreg, hw⟩ hnr
    · simp only [he, hy, Option.map_some, Waiter.wake, hl, if_true]
  constructor
  · exact hk.trans h.keys
  · rw [hp, foundAmong_append]
  · have hin : id ∈ m.watchers := Std.ExtTreeMap.mem_iff_isSome_getElem?.mpr (by rw [hreg]; rfl)
    have hpos : 0 < m.watchers.size := by
      rw [← Std.ExtTreeMap.length_keys]
      exact List.length_pos_of_mem (Std.ExtTreeMap.mem_keys.mpr hin)
    have hsize := h.size
    rw [herase, Std.ExtTreeMap.size_erase, if_pos (Std.ExtTreeMap.contains_iff_mem.mpr hin),
      foundAmong_append, hone, hlen]
    omega
  · exact hdue
  · exact honce
  · intro j hj
    rw [herase]
    by_cases hji : j = id
    · exact hji ▸ Std.ExtTreeMap.getElem?_erase_self
    · have hgone := h.gone j (hj.imp_right fun hj => ((hmem j).mp hj).resolve_right hji)
      rw [Std.ExtTreeMap.getElem?_erase]
      split
      · rfl
      · exact hgone
  · intro j hl hj
    obtain ⟨hj, hji⟩ := not_or.mp (mt (hmem j).mpr hj)
    rw [herase, Std.ExtTreeMap.getElem?_erase, if_neg, h.kept j hl hj]
    exact fun he => hji (Std.LawfulEqCmp.eq_of_compare he).symm
  · intro j hj ht w hw
    by_cases hji : j = id
    · exact hmine (hji ▸ hw)
    · have hd := ((hmem j).mp ⟨hj, ht⟩).resolve_right hji
      unfold signal
      rw [hother hw hji]
      exact h.woken j hd.1 ht w hw
  · intro j hj w hw
    obtain ⟨hj, hji⟩ := not_or.mp (mt (hmem j).mpr hj)
    unfold Live
    rw [hother hw hji]
    exact h.waiting j hj w hw
  · constructor
    · refine List.nodup_append.mpr ⟨h.signals.1, hn.nodup_live id, ?_⟩
      rintro w hw v hv rfl
      obtain ⟨j, hj, -, hm⟩ := (h.signals.2 w).mp hw
      exact hnew (hn.eq_of_live hm hv ▸ hj)
    · intro w
      rw [List.mem_append, h.signals.2]
      constructor
      · rintro (⟨j, hj, ht, hw⟩ | hw)
        · exact ⟨j, List.mem_append_left _ hj, ht, hw⟩
        · exact ⟨id, by simp, ha, hw⟩
      · rintro ⟨j, hj, ht, hw⟩
        rcases (hmem j).mp ⟨hj, ht⟩ with hd | rfl
        · exact Or.inl ⟨j, hd.1, ht, hw⟩
        · exact Or.inr hw

/-- The notifier checks an id that was not checked yet. -/
theorem Amid.check (h : Amid n answer done todo sent m) (hn : n.Sole)
    (hs : Step m s now stopping fault (.check id) m' s' events)
    (ha : (s.attempt fault (·.isFinished n.keys id now)).1 = answer id) :
    id ∈ todo ∧ Amid n answer (done ++ [id]) (todo.erase id)
      (sent ++ m.wakes s now fault (.check id)) m' := by
  have hk : m'.keys = m.keys := congrArg (·.1) hs.wired_eq
  cases hs with
  | check hp ha' =>
      rw [h.phase] at hp
      cases hp
  | @recheck _ _ _ answer' _ hp hi ha' =>
      rw [h.phase] at hp
      obtain ⟨rfl, rfl⟩ := Phase.reconciling.inj hp
      obtain rfl : answer' = answer id := by rw [← ha, ← h.keys, ha']
      obtain ⟨hlive, hnew⟩ := (h.due.2 id).mp hi
      refine ⟨hi, ?_⟩
      unfold wakes
      rcases rouses?_check ha' with ⟨hr, ht⟩ | ⟨hr, he⟩
      · have hget : m.watchers.getD id [] = n.live id := by
          rw [Std.ExtTreeMap.getD_eq_getD_getElem?, h.kept id hlive fun hd => hnew hd.1]
          rfl
        rw [hr]
        show Amid n answer _ _ (sent ++ m.watchers.getD id []) _
        rw [hget]
        refine h.finished hn hi ht ?_ ?_ hk rfl <;> rw [ht] <;> rfl
      · rw [hr]
        show Amid n answer _ _ (sent ++ []) _
        rw [List.append_nil]
        refine h.unfinished hi (fun ht => ?_) (by rw [he]) (by rw [he]) hk rfl
        -- the id would not be registered any more
        have hsome := h.kept id hlive fun hd => hnew hd.1
        have hm : (m.wake id).1 = m := by
          have hc := he m
          rwa [ht] at hc
        rw [← hm] at hsome
        exact (wake_some hsome).2 rfl

/-- A check is possible if it is due, whatever the store answers. -/
theorem exists_step_check (hd : m.due id = true) :
    ∃ r, m.step? s now stopping fault (.check id) = some r := by
  simp only [step?, if_pos hd]
  cases fault <;> exact ⟨_, rfl⟩

end Steps

/-! ### One thing after the other -/

variable {a : Meanwhile} {acts : List Meanwhile} {newly : List Nat} {events : List Event}

theorem Spares.live (h : Spares w m m') (hl : m.Live w) : m'.Live w := by
  obtain ⟨y, hy, hrest⟩ := hl
  exact ⟨y, h.waiter y hy, hrest⟩

theorem Spares.woken (h : Spares w m m') (hs : m.signal w = .woken) : m'.signal w = .woken := by
  unfold signal at hs ⊢
  cases hy : m.waiters[w]? with
  | none => simp [hy] at hs
  | some y =>
      rw [h.waiter y hy]
      rwa [hy] at hs

/-- What happens meanwhile keeps the invariant, and crosses off what is checked. -/
theorem Amid.meet (h : Amid n answer done todo sent m) (hn : n.Sole) (ha : a.Answers n.keys answer)
    (hm : m.meet? a = some (m', newly, events)) :
    ∃ todo', Amid n answer (done ++ a.asked?.toList) todo' (sent ++ newly) m' := by
  cases a with
  | check id s now stopping fault =>
      obtain ⟨⟨k, t, es⟩, hk, he⟩ := Option.map_eq_some_iff.mp hm
      obtain ⟨rfl, rfl, -⟩ := by simpa using he
      exact ⟨_, (h.check hn (step_of hk) ha).2⟩
  | subscribe id =>
      obtain ⟨⟨v, k⟩, hk, he⟩ := Option.map_eq_some_iff.mp hm
      obtain ⟨rfl, rfl, -⟩ := by simpa using he
      have hspares := (attends_subscribe? hk).2.2
      have := h.others (desk_subscribe? hk) (fun w => (hspares w).live) fun w => (hspares w).woken
      exact ⟨todo, by simpa [Meanwhile.asked?] using this⟩
  | release id =>
      obtain ⟨rfl, rfl, -⟩ := by simpa [meet?] using hm
      have := h.others (desk_release m id) (fun w => (spares_release m id w).live) fun w =>
        (spares_release m id w).woken
      exact ⟨todo, by simpa [Meanwhile.asked?] using this⟩
  | part v =>
      obtain ⟨rfl, rfl, -⟩ := by simpa [meet?] using hm
      refine ⟨todo, ?_⟩
      rw [show (Meanwhile.part v).asked?.toList = [] from rfl, List.append_nil, List.append_nil]
      split
      · rename_i hv
        refine h.others rfl (fun w hl => ?_) fun w hw => (signal_leave m v w).trans hw
        refine (spares_leave m ?_).live hl
        -- a live waiter was not woken
        rintro rfl
        obtain ⟨y, hy, -, hs⟩ := hl
        simp [signal, hy, hs] at hv
      · exact h

/-- What happens meanwhile is possible if nothing is checked that is not due. -/
theorem Amid.exists_meet (h : Amid n answer done todo sent m)
    (ha : ∀ id ∈ a.asked?, id ∈ todo) : ∃ r, m.meet? a = some r := by
  cases a with
  | check id s now stopping fault =>
      have hd : m.due id = true := by
        unfold Notifier.due
        rw [h.phase]
        simpa using ha id rfl
      obtain ⟨⟨k, t, es⟩, hr⟩ : ∃ r, m.step? s now stopping fault (.check id) = some r :=
        exists_step_check hd
      exact ⟨_, Option.map_eq_some_iff.mpr ⟨_, hr, rfl⟩⟩
  | subscribe id =>
      have he : m.ended = false := by
        unfold ended
        rw [h.phase]
        rfl
      exact ⟨_, by simp [meet?, subscribe?, he]; rfl⟩
  | release id => exact ⟨_, rfl⟩
  | part v => exact ⟨_, rfl⟩

theorem asked_cons (a : Meanwhile) (acts : List Meanwhile) :
    asked (a :: acts) = a.asked?.toList ++ asked acts := by
  unfold asked
  cases a <;> rfl

/-- A run meanwhile keeps the invariant. -/
theorem Amid.meetAll (h : Amid n answer done todo sent m) (hn : n.Sole)
    (ha : ∀ a ∈ acts, a.Answers n.keys answer)
    (hm : m.meetAll? acts = some (m', newly, events)) :
    ∃ todo', Amid n answer (done ++ asked acts) todo' (sent ++ newly) m' := by
  induction acts generalizing m done todo sent newly events with
  | nil =>
      obtain ⟨rfl, rfl, -⟩ := by simpa [meetAll?] using hm
      exact ⟨todo, by simpa [asked] using h⟩
  | cons a acts ih =>
      obtain ⟨⟨k, ws, es⟩, hk, hm⟩ := Option.bind_eq_some_iff.mp hm
      obtain ⟨⟨l, vs, fs⟩, hl, he⟩ := Option.bind_eq_some_iff.mp hm
      obtain ⟨rfl, rfl, -⟩ := by simpa using he
      obtain ⟨todo₁, hk'⟩ := h.meet hn (ha a List.mem_cons_self) hk
      obtain ⟨todo₂, hl'⟩ := ih hk' (fun b hb => ha b (List.mem_cons_of_mem a hb)) hl
      rw [List.append_assoc, List.append_assoc, ← asked_cons] at hl'
      exact ⟨todo₂, hl'⟩

/-- A run meanwhile is possible if each of the checks is of another id that somebody waits for. -/
theorem Amid.exists_meetAll (h : Amid n answer done todo sent m) (hn : n.Sole)
    (ha : ∀ a ∈ acts, a.Answers n.keys answer) (hd : (done ++ asked acts).Nodup)
    (hl : ∀ id ∈ asked acts, n.live id ≠ []) : ∃ r, m.meetAll? acts = some r := by
  induction acts generalizing m done todo sent with
  | nil => exact ⟨_, rfl⟩
  | cons a acts ih =>
      rw [asked_cons] at hd hl
      have hdue : ∀ id ∈ a.asked?, id ∈ todo := by
        intro id hi
        have hi' : id ∈ a.asked?.toList := Option.mem_toList.mpr hi
        refine (h.due.2 id).mpr ⟨hl id (List.mem_append_left _ hi'), fun hm => ?_⟩
        exact (List.nodup_append.mp hd).2.2 id hm id (List.mem_append_left _ hi') rfl
      obtain ⟨⟨k, ws, es⟩, hk⟩ := h.exists_meet hdue
      obtain ⟨todo', hk'⟩ := h.meet hn (ha a List.mem_cons_self) hk
      rw [← List.append_assoc] at hd
      obtain ⟨r, hr⟩ := ih hk' (fun b hb => ha b (List.mem_cons_of_mem a hb)) hd
        fun id hi => hl id (List.mem_append_right _ hi)
      exact ⟨_, Option.bind_eq_some_iff.mpr ⟨_, hk, Option.bind_eq_some_iff.mpr ⟨r, hr, rfl⟩⟩⟩

/-! ### The whole reconciliation -/

/-- What a reconciliation leaves if the checks are answered as `answer` says. -/
structure Reconciled (n : Notifier) (answer : Id → Except Error Bool) (m : Notifier)
    (sent : List Nat) : Prop where
  /-- An id that was found finished is not watched any more, and its live waiters were woken. -/
  found : ∀ id, answer id = .ok true →
    m.watchers[id]? = none ∧ ∀ w ∈ n.live id, m.signal w = .woken
  /-- Any other id keeps its live waiters, in order, and they go on waiting. -/
  kept : ∀ id, answer id ≠ .ok true →
    m.watchers[id]? = (if n.live id = [] then none else some (n.live id)) ∧
      ∀ w ∈ n.live id, m.Live w
  /-- Nobody is registered who does not listen. -/
  listens : ∀ id w, m.Registered id w → m.listens w = true
  /-- One signal is sent to each live waiter of an id that was found finished, and to nobody
  else. -/
  sent : sent.Nodup ∧ ∀ w, w ∈ sent ↔ ∃ id, answer id = .ok true ∧ w ∈ n.live id

/-- What is left does not depend on how it came about. -/
theorem Reconciled.unique {sent' : List Nat} (h : n.Reconciled answer m sent)
    (h' : n.Reconciled answer m' sent') : m'.watchers = m.watchers ∧ sent'.Perm sent := by
  constructor
  · refine Std.ExtTreeMap.ext_getElem? fun id => ?_
    by_cases ha : answer id = .ok true
    · rw [(h.found id ha).1, (h'.found id ha).1]
    · rw [(h.kept id ha).1, (h'.kept id ha).1]
  · exact (List.perm_ext_iff_of_nodup h'.sent.1 h.sent.1).mpr fun w =>
      (h'.sent.2 w).trans (h.sent.2 w).symm

/-- When nothing is left to be checked, the notifier has reconciled. -/
theorem Amid.reconciled (h : Amid n answer done [] sent m) :
    (∀ id, id ∈ done ↔ n.live id ≠ []) ∧ n.Reconciled answer m.settle sent := by
  have hdone (id : Id) : id ∈ done ↔ n.live id ≠ [] := by
    refine ⟨h.once.2 id, fun hl => ?_⟩
    rcases Decidable.em (id ∈ done) with hd | hd
    · exact hd
    · exact absurd ((h.due.2 id).mpr ⟨hl, hd⟩) List.not_mem_nil
  have hmem {id : Id} {w : Nat} (hw : w ∈ n.live id) : id ∈ done :=
    (hdone id).mpr (List.ne_nil_of_mem hw)
  refine ⟨hdone, ?_, ?_, ?_, h.signals.1, fun w => (h.signals.2 w).trans ?_⟩
  · intro id ha
    refine ⟨h.gone id ?_, fun w hw => h.woken id (hmem hw) ha w hw⟩
    by_cases hl : n.live id = []
    · exact Or.inl hl
    · exact Or.inr ⟨(hdone id).mpr hl, ha⟩
  · intro id ha
    refine ⟨?_, fun w hw => h.waiting id (fun hd => ha hd.2) w hw⟩
    split
    · rename_i hl
      exact h.gone id (Or.inl hl)
    · rename_i hl
      exact h.kept id hl fun hd => ha hd.2
  · rintro id w ⟨ws, hws, hw⟩
    have hne : n.live id ≠ [] ∧ ¬ (id ∈ done ∧ answer id = .ok true) := by
      refine not_or.mp fun hor => ?_
      rw [show m.settle.watchers = m.watchers from rfl, h.gone id hor] at hws
      cases hws
    obtain rfl := Option.some.inj ((h.kept id hne.1 hne.2).symm.trans hws)
    exact (h.waiting id hne.2 w hw).listens
  · exact ⟨fun ⟨id, _, ha, hw⟩ => ⟨id, ha, hw⟩, fun ⟨id, ha, hw⟩ => ⟨id, hmem hw, ha, hw⟩⟩

section Whole

variable {s s' : Store} {now : Instant} {stopping : Bool}

theorem reconcile?_eq_some_iff (hp : n.phase = .idle) (hr : s.receive? n.feed = some ("", s')) :
    n.reconcile? s now stopping acts = some (m, sent, events) ↔
      ∃ k es count, n.begun.meetAll? acts = some (k, sent, es) ∧ k.phase = .reconciling [] count ∧
        m = k.settle ∧ events = .reconnected n.keys.name :: es ++
          [.reconciled k.keys.name (k.watchers.size + count) count] := by
  have hstep : n.step? s now stopping none .message =
      some (n.begun, s', [.reconnected n.keys.name]) := by
    simp [step?, hp, hr, receive, begun]
    rfl
  unfold reconcile?
  simp only [hstep, Option.bind_eq_bind, Option.bind_some]
  constructor
  · intro h
    obtain ⟨⟨k, ws, es⟩, hk, h⟩ := Option.bind_eq_some_iff.mp h
    obtain ⟨⟨l, t, fs⟩, hl, he⟩ := Option.bind_eq_some_iff.mp h
    obtain ⟨rfl, rfl, rfl⟩ := by simpa using he
    cases step_of hl with
    | conclude hp => exact ⟨k, es, _, hk, hp, rfl, rfl⟩
  · rintro ⟨k, es, count, hk, hp, rfl, rfl⟩
    refine Option.bind_eq_some_iff.mpr ⟨_, hk, Option.bind_eq_some_iff.mpr
      ⟨(k.settle, s, [.reconciled k.keys.name (k.watchers.size + count) count]), ?_, rfl⟩⟩
    simp only [step?, hp]

/-- **A reconciliation is exact.**  Take any notifier whose waiters are registered once and have no
signal yet, and any answers to its checks, true, false or failures; no waiter stops listening before
it was woken.

* The checks bring the reconciliation to its end if and only if they ask, in some order, once about
  each id for which somebody listens, and about no other id.
* Then the ids found finished are gone and each of their live waiters was sent one signal; all other
  ids keep exactly their live waiters; and the number of ids reported is the number of checks.
* The order of the checks does not matter for who is registered afterwards and who was woken. -/
theorem reconciles_exactly (hn : n.Sole) (hp : n.phase = .idle)
    (hr : s.receive? n.feed = some ("", s')) (ha : ∀ a ∈ acts, a.Answers n.keys answer) :
    ((n.reconcile? s now stopping acts).isSome = true ↔
      (asked acts).Nodup ∧ ∀ id, id ∈ asked acts ↔ n.live id ≠ []) ∧
    ∀ m sent events, n.reconcile? s now stopping acts = some (m, sent, events) →
      n.Reconciled answer m sent ∧
      events.getLast? = some (.reconciled n.keys.name (asked acts).length
        (foundAmong answer (asked acts))) ∧
      ∀ acts' m' sent' events', (∀ a ∈ acts', a.Answers n.keys answer) →
        n.reconcile? s now stopping acts' = some (m', sent', events') →
          m'.watchers = m.watchers ∧ sent'.Perm sent := by
  -- what the invariant says at the end of any run
  have finish {acts m sent events} (ha : ∀ a ∈ acts, a.Answers n.keys answer)
      (h : n.reconcile? s now stopping acts = some (m, sent, events)) :
      ∃ k, Amid n answer (asked acts) [] sent k ∧ m = k.settle ∧
        events.getLast? = some (.reconciled n.keys.name (asked acts).length
          (foundAmong answer (asked acts))) := by
    obtain ⟨k, es, count, hk, hphase, rfl, rfl⟩ := (reconcile?_eq_some_iff hp hr).mp h
    obtain ⟨todo, hamid⟩ := hn.amid.meetAll hn ha hk
    obtain ⟨rfl, rfl⟩ := Phase.reconciling.inj (hamid.phase.symm.trans hphase)
    refine ⟨k, hamid, rfl, ?_⟩
    have hsize := hamid.size
    rw [List.nil_append, List.length_nil, Nat.add_zero] at hsize
    rw [List.nil_append, hsize, hamid.keys]
    exact List.getLast?_concat
  constructor
  · constructor
    · intro h
      obtain ⟨⟨m, sent, events⟩, hr'⟩ := Option.isSome_iff_exists.mp h
      obtain ⟨k, hk, -⟩ := finish ha hr'
      exact ⟨hk.once.1, hk.reconciled.1⟩
    · rintro ⟨hd, hl⟩
      obtain ⟨⟨k, sent, es⟩, hk⟩ := hn.amid.exists_meetAll hn ha hd fun id hi => (hl id).mp hi
      obtain ⟨todo, hamid⟩ := hn.amid.meetAll hn ha hk
      obtain rfl : todo = [] := List.eq_nil_iff_forall_not_mem.mpr fun id hi =>
        ((hamid.due.2 id).mp hi).2 ((hl id).mpr ((hamid.due.2 id).mp hi).1)
      exact Option.isSome_iff_exists.mpr ⟨_, (reconcile?_eq_some_iff hp hr).mpr
        ⟨k, es, _, hk, hamid.phase, rfl, rfl⟩⟩
  · intro m sent events h
    obtain ⟨k, hk, rfl, hlast⟩ := finish ha h
    refine ⟨hk.reconciled.2, hlast, fun acts' m' sent' events' ha' h' => ?_⟩
    obtain ⟨k', hk', rfl, -⟩ := finish ha' h'
    exact hk.reconciled.2.unique hk'.reconciled.2

end Whole

/-! ### A reconciliation with three answers -/

/-- Waiters may be judged one by one. -/
theorem sole_of_toList (h : ∀ x ∈ n.watchers.toList, x.2.Nodup ∧
    ∀ w ∈ x.2, (n.waiters[w]?.any fun y => y.id == x.1 && y.signal == .pending) = true) :
    n.Sole := by
  have hmem {id : Id} {ws : List Nat} (hw : n.watchers[id]? = some ws) :
      (id, ws) ∈ n.watchers.toList := Std.ExtTreeMap.mem_toList_iff_getElem?_eq_some.mpr hw
  refine ⟨fun id ws hw => (h _ (hmem hw)).1, fun id w ⟨ws, hw, hm⟩ => ?_⟩
  obtain ⟨y, hy, hb⟩ := (Option.any_eq_true _ _).mp ((h _ (hmem hw)).2 w hm)
  exact ⟨y, hy, by simpa using hb⟩

/-- A notifier with four watched ids.  Nobody listens for `b`, and one of two waiters of `a` has
stopped listening. -/
def mixed : Notifier where
  keys := ⟨"q"⟩
  feed := 0
  waiters := [{ id := "a" }, { id := "a", listening := false }, { id := "b", listening := false },
    { id := "c" }, { id := "d" }]
  watchers := Std.ExtTreeMap.ofList [("a", [0, 1]), ("b", [2]), ("c", [3]), ("d", [4])]

/-- A store in which `a` is finished, with the empty message in the feed of the notifier. -/
def mixedStore : Store :=
  ((({} : Store).complete ⟨"q"⟩ "a" (.value []) 0).2.subscribe (Keys.channel ⟨"q"⟩)).2

/-- The answers to the checks: `a` is finished, `d` is not, and the check of `c` fails. -/
def mixedAnswer (id : Id) : Except Error Bool :=
  if id = "a" then .ok true else if id = "c" then .error (.other "down") else .ok false

/-- The failing check comes first, and then callers come and go between the others. -/
def mixedActs : List Meanwhile :=
  [.check "c" mixedStore 0 false (some (.other "down")), .check "a" mixedStore 0 false none,
    .part 0, .subscribe "b", .release "a", .check "d" mixedStore 0 true none]

/-- Of the four ids three are checked, and one is found finished. -/
theorem mixed_reconciles : ∃ m sent events,
    mixed.reconcile? mixedStore 0 false mixedActs = some (m, sent, events) ∧
      mixed.Reconciled mixedAnswer m sent ∧ events.getLast? = some (.reconciled "q" 3 1) := by
  have hsole : mixed.Sole := sole_of_toList (by decide +kernel)
  have hanswers : ∀ a ∈ mixedActs, a.Answers mixed.keys mixedAnswer := by
    simp only [mixedActs, List.forall_mem_cons]
    refine ⟨rfl, ?_, trivial, trivial, trivial, ?_, nofun⟩
    · exact congrArg Except.ok (by decide +kernel : mixedStore.finished ⟨"q"⟩ "a" 0 = true)
    · exact congrArg Except.ok (by decide +kernel : mixedStore.finished ⟨"q"⟩ "d" 0 = false)
  obtain ⟨s', hr⟩ : ∃ s', mixedStore.receive? mixed.feed = some ("", s') := ⟨_, rfl⟩
  have hsome : (mixed.reconcile? mixedStore 0 false mixedActs).isSome = true := by decide +kernel
  obtain ⟨⟨m, sent, events⟩, h⟩ := Option.isSome_iff_exists.mp hsome
  obtain ⟨hm, hlast, -⟩ := (reconciles_exactly hsole rfl hr hanswers).2 m sent events h
  exact ⟨m, sent, events, h, hm, hlast⟩

end Notifier

end ReadThrough
