import ReadThrough.Proofs.Store.Ledger
import ReadThrough.Proofs.Store.Requests

/-! # Expiry of failures

A failure that has expired stays in the store until some operation happens to remove it.  Which
operation that is, and when, makes no difference to anybody.

* **Purging** (`Store.purge`) removes all failures that have expired.  Stores that are equal once
  they are purged answer alike and stay so, whatever is done to them (`Visit.hears?_purge`,
  `Visit.purge_apply`).
* **Visits** (`Store.Visit`).  A request, a step of a wait for work, or the removal of a failure
  that has expired, of which nobody is told.  `Store.hearings` is what comes back in a history of
  visits (`hearings_of_purge`).
* **A failure on record** (`Entry.Bears`).  Until the next result of its id is accepted, a failure
  can only go by expiring (`Visit.Keeps.bears`).
* **Main statement** (`Store.invisible_expiry`).  Neither expired failures nor their removal are
  ever noticed, and a failure is seen from the moment it is written until it expires. -/

namespace ReadThrough

namespace Store

variable {s t : Store} {k : Keys} {id : Id} {now later : Instant}

/-! ### Purging -/

/-- The store without the failures that have expired. -/
def purge (s : Store) (now : Instant) : Store :=
  { s with failures := s.failures.filter fun _ f => now < f.expires }

@[simp] theorem queue_purge (s : Store) (k : Keys) (now : Instant) :
    (s.purge now).queue k = s.queue k := rfl

@[simp] theorem feeds_purge (s : Store) (now : Instant) : (s.purge now).feeds = s.feeds := rfl

@[simp] theorem connected_purge (s : Store) (now : Instant) :
    (s.purge now).connected = s.connected := rfl

@[simp] theorem signals_purge (s : Store) (now : Instant) :
    (s.purge now).signals = s.signals := rfl

theorem getElem?_purge (s : Store) (now : Instant) (key : String) :
    (s.purge now).failures[key]? = s.failure? now key :=
  Std.ExtTreeMap.getElem?_filter'

/-- A store whose live failures are changed for equal ones is the same once it is purged. -/
theorem purge_congr {failures : Std.ExtTreeMap String Failure}
    (hf : ∀ key, failures[key]?.filter (now < ·.expires) = s.failure? now key) :
    { s with failures }.purge now = s.purge now := by
  have he : failures.filter (fun _ f => now < f.expires) =
      s.failures.filter fun _ f => now < f.expires := by
    refine Std.ExtTreeMap.ext_getElem? fun key => ?_
    rw [Std.ExtTreeMap.getElem?_filter', Std.ExtTreeMap.getElem?_filter']
    exact hf key
  unfold purge
  dsimp only
  rw [he]

/-- What has expired stays so. -/
theorem failure?_purge (h : now ≤ later) (s : Store) (key : String) :
    (s.purge now).failure? later key = s.failure? later key := by
  unfold failure?
  rw [getElem?_purge, failure?, Option.filter_filter]
  congr 1
  funext f
  by_cases hl : later < f.expires
  · simp [hl, Nat.lt_of_le_of_lt h hl]
  · simp [hl]

theorem purge_purge (h : now ≤ later) (s : Store) : (s.purge now).purge later = s.purge later :=
  purge_congr fun key => failure?_purge h s key

/-- Stores that agree at some time agree ever after. -/
theorem purge_eq_of_le (h : now ≤ later) (hp : t.purge now = s.purge now) :
    t.purge later = s.purge later := by
  rw [← purge_purge h t, hp, purge_purge h s]

/-! ### Looking -/

/-- A failure that has expired is removed, if it is looked at. -/
theorem getElem?_forget (s : Store) (now : Instant) (key key' : String) :
    (s.forget now key).failures[key']? =
      if key' = key then s.failure? now key else s.failures[key']? := by
  unfold forget
  cases hf : s.failures[key]? with
  | none =>
      dsimp only
      split
      · rename_i he
        simp [he, failure?, hf]
      · rfl
  | some f =>
      dsimp only
      by_cases hx : f.expires ≤ now
      · rw [if_pos hx, Std.ExtTreeMap.getElem?_erase]
        by_cases he : key' = key
        · simp [he, failure?, hf, Option.filter_some, hx]
        · have hc : ¬ key = key' := fun e => he e.symm
          simp [he, hc]
      · rw [if_neg hx]
        split
        · rename_i he
          simp [he, failure?, hf, Option.filter_some, Nat.lt_of_not_le hx]
        · rfl

/-- The removal of an expired failure is not seen. -/
theorem purge_forget (s : Store) (now : Instant) (key : String) :
    (s.forget now key).purge now = s.purge now := by
  have hs : s.forget now key = { s with failures := (s.forget now key).failures } := by
    unfold forget
    split
    · split <;> rfl
    · rfl
  rw [hs]
  refine purge_congr fun key' => ?_
  rw [getElem?_forget]
  split
  · rename_i he
    simp [he, failure?]
  · rfl

theorem purge_afterFinished (s : Store) (k : Keys) (id : Id) (now : Instant) :
    (s.afterFinished k id now).purge now = s.purge now := by
  unfold afterFinished
  split
  · rfl
  · exact purge_forget s now _

/-- In a purged store an entry has a live failure or none. -/
theorem entry_purge (s : Store) (k : Keys) (id : Id) (now : Instant) :
    (s.purge now).entry k id = (s.entry k id).seen now := by
  simp only [entry, getElem?_purge]
  rfl

theorem finished_purge (s : Store) (k : Keys) (id : Id) (now : Instant) :
    (s.purge now).finished k id now = s.finished k id now := by
  rw [finished_eq, finished_eq, entry_purge, Entry.finished_seen]

/-! ### Operations -/

/-- What does not touch failures goes on alike in a purged store. -/
theorem purge_of_comm {f : Store → Store} (hf : ∀ u : Store, f (u.purge now) = (f u).purge now)
    (s : Store) : (f (s.purge now)).purge now = (f s).purge now := by
  rw [hf, purge_purge (Nat.le_refl now)]

/-- What nobody sees is not seen in a purged store either. -/
theorem purge_of_unseen {f : Store → Store} (hf : ∀ u : Store, (f u).purge now = u.purge now)
    (s : Store) : (f (s.purge now)).purge now = (f s).purge now := by
  rw [hf, hf, purge_purge (Nat.le_refl now)]

theorem purge_enqueue (s : Store) (k : Keys) (id : Id) (p : Priority) (now : Instant) :
    ((s.purge now).enqueue k id p now).2.purge now = (s.enqueue k id p now).2.purge now := by
  have ha : ((s.purge now).afterFinished k id now).purge now =
      (s.afterFinished k id now).purge now := by
    rw [purge_afterFinished, purge_purge (Nat.le_refl now), purge_afterFinished]
  have hq : ((s.purge now).afterFinished k id now).queue k =
      (s.afterFinished k id now).queue k := by
    rw [queue_afterFinished, queue_afterFinished, queue_purge]
  unfold enqueue
  rw [finished_purge, queue_purge]
  split
  · exact purge_purge (Nat.le_refl now) s
  · split
    · exact ha
    · dsimp only
      rw [hq]
      split
      · -- the id is queued in both stores alike
        exact congrArg (fun u : Store => { u.setQueue k _ with signals := u.signals + 1 }) ha
      · exact ha

theorem dequeue_purge (s : Store) (k : Keys) (now : Instant) :
    (s.purge now).dequeue k = ((s.dequeue k).1, (s.dequeue k).2.purge now) := by
  unfold dequeue
  rw [queue_purge]
  dsimp only
  split <;> rfl

theorem takeMarker_purge (s : Store) (k : Keys) (now : Instant) :
    (s.purge now).takeMarker k = (s.takeMarker k).map (·.purge now) := by
  unfold takeMarker
  rw [queue_purge]
  dsimp only
  split <;> rfl

theorem receive?_purge (s : Store) (feed : Nat) (now : Instant) :
    (s.purge now).receive? feed = (s.receive? feed).map fun x => (x.1, x.2.purge now) := by
  unfold receive?
  rw [feeds_purge]
  split
  · split <;> rfl
  · rfl

theorem purge_publish (s : Store) (channel message : String) (now : Instant) :
    (s.publish channel message).purge now = (s.purge now).publish channel message := by
  unfold publish
  rw [connected_purge]
  split <;> rfl

theorem purge_release (s : Store) (k : Keys) (id : Id) (now : Instant) :
    (s.release k id).purge now = (s.purge now).release k id := by
  unfold release
  rw [queue_purge]
  dsimp only
  split <;> rfl

theorem purge_complete (s : Store) (k : Keys) (id : Id) (c : Completion) (now : Instant) :
    ((s.purge now).complete k id c now).2.purge now = (s.complete k id c now).2.purge now := by
  -- once the records are written, nothing more is done to failures
  have announce {u v : Store} (h : u.purge now = v.purge now) :
      ((u.release k id).publish k.channel id).purge now =
        ((v.release k id).publish k.channel id).purge now := by
    rw [purge_publish, purge_release, h, ← purge_release, ← purge_publish]
  unfold complete
  cases c with
  | value bytes =>
      refine announce (purge_congr (s := { s with
        failures := s.failures.erase (k.failure id)
        values := s.values.insert (k.value id) bytes }) fun key => ?_)
      simp only [failure?, Std.ExtTreeMap.getElem?_erase, getElem?_purge]
      split
      · rfl
      · simp
  | failure message ttl =>
      dsimp only
      cases now.after? ttl with
      | none =>
          exact purge_of_comm (f := fun u => { u with values := u.values.erase (k.value id) })
            (fun _ => rfl) s
      | some expires =>
          refine announce (purge_congr (s := { s with
            values := s.values.erase (k.value id)
            failures := s.failures.insert (k.failure id) ⟨message, expires⟩ }) fun key => ?_)
          simp only [failure?, Std.ExtTreeMap.getElem?_insert, getElem?_purge]
          split
          · rfl
          · simp

/-- A purged store answers alike. -/
theorem Op.answer_purge (o : Op) (s : Store) (now : Instant) :
    o.answer (s.purge now) now = o.answer s now := by
  cases o with
  | enqueue k id p =>
      simp only [Op.answer, enqueue_answer, entry_purge, Entry.finished_seen]
      rfl
  | dequeue k => simp only [Op.answer, dequeue_purge]
  | complete k id c => simp only [Op.answer, complete_accepted]
  | lookup k id =>
      simp only [Op.answer, Store.lookup, record, failure?_purge (Nat.le_refl now)]
      rfl
  | isFinished k id => simp only [Op.answer, Store.isFinished, finished_purge]
  | takeMarker k => simp only [Op.answer, takeMarker_purge, Option.isSome_map]
  | receive feed =>
      simp only [Op.answer, receive?_purge, Option.map_map]
      rfl
  | _ => rfl

/-- The same becomes of a purged store. -/
theorem Op.purge_apply (o : Op) (s : Store) (now : Instant) :
    (o.apply (s.purge now) now).purge now = (o.apply s now).purge now := by
  cases o with
  | enqueue k id p => exact purge_enqueue s k id p now
  | dequeue k =>
      refine purge_of_comm (f := fun u => (u.dequeue k).2) (fun u => ?_) s
      rw [dequeue_purge]
  | complete k id c => exact purge_complete s k id c now
  | lookup k id =>
      exact purge_of_unseen (f := fun u => (u.lookup k id now).2) (fun u => purge_forget u now _) s
  | isFinished k id =>
      exact purge_of_unseen (f := fun u => u.afterFinished k id now)
        (fun u => purge_afterFinished u k id now) s
  | takeMarker k =>
      refine purge_of_comm (f := fun u => (u.takeMarker k).getD u) (fun u => ?_) s
      rw [takeMarker_purge, Option.getD_map]
  | receive feed =>
      refine purge_of_comm (f := fun u => ((u.receive? feed).map (·.2)).getD u) (fun u => ?_) s
      rw [receive?_purge]
      cases u.receive? feed <;> rfl
  | subscribe channel =>
      exact purge_of_comm (f := fun u => (u.subscribe channel).2) (fun _ => rfl) s
  | unsubscribe feed => exact purge_of_comm (f := fun u => u.unsubscribe feed) (fun _ => rfl) s
  | disconnect => exact purge_of_comm (f := Store.disconnect) (fun _ => rfl) s
  | reconnect => exact purge_of_comm (f := Store.reconnect) (fun _ => rfl) s
  | closeFeeds => exact purge_of_comm (f := Store.closeFeeds) (fun _ => rfl) s

/-- A step of a wait does not look at failures. -/
theorem step?_purge (w : Wait) (s : Store) (now : Instant) :
    w.step? (s.purge now) now = (w.step? s now).map fun x => (x.1, x.2.purge now) := by
  unfold Wait.step?
  rw [takeMarker_purge, signals_purge]
  split
  · rfl
  · cases s.takeMarker w.keys <;> rfl
  · split
    · rfl
    · split <;> rfl

/-! ### Visits -/

/-- What can happen to a store at one time. -/
inductive Visit where
  | request (request : Request)
  /-- A step of a wait for work that stands where `wait` says. -/
  | wait (wait : Wait)
  /-- The failure under a key is removed if it has expired. -/
  | sweep (key : String)

namespace Visit

/-- The store after a visit. -/
def apply (s : Store) (now : Instant) : Visit → Store
  | request r => r.apply s now
  | wait w => ((w.step? s now).map (·.2)).getD s
  | sweep key => s.forget now key

/-- What comes back: the answer to a request, or how far a step brings a wait if it is not asleep.
A sweep tells nobody anything. -/
def hears? (s : Store) (now : Instant) : Visit → Option (Answer ⊕ Option Wait.Progress)
  | request r => some (.inl (r.answer s now))
  | wait w => some (.inr ((w.step? s now).map (·.1)))
  | sweep _ => none

/-- Whether somebody uses the store. -/
def uses : Visit → Bool
  | sweep _ => false
  | _ => true

/-- The queue that a visit is about, if it is about one. -/
def queue? : Visit → Option Keys
  | request r => r.queue?
  | wait w => some w.keys
  | sweep _ => none

/-- A purged store answers alike. -/
theorem hears?_purge (v : Visit) (s : Store) (now : Instant) :
    v.hears? (s.purge now) now = v.hears? s now := by
  cases v with
  | request r =>
      cases r with
      | op o => simp only [hears?, Request.answer, Op.answer_purge]
      | _ => rfl
  | wait w =>
      simp only [hears?, step?_purge, Option.map_map]
      rfl
  | sweep key => rfl

/-- The same becomes of a purged store. -/
theorem purge_apply (v : Visit) (s : Store) (now : Instant) :
    (v.apply (s.purge now) now).purge now = (v.apply s now).purge now := by
  have same : ((s.purge now).purge now) = s.purge now := purge_purge (Nat.le_refl now) s
  cases v with
  | request r =>
      cases r with
      | op o => exact o.purge_apply s now
      | _ => exact same
  | wait w =>
      simp only [apply, step?_purge]
      cases w.step? s now with
      | none => exact same
      | some x => exact purge_purge (Nat.le_refl now) x.2
  | sweep key =>
      exact purge_of_unseen (f := fun u => u.forget now key) (fun u => purge_forget u now key) s

end Visit

/-- The store after a history of visits. -/
def visited (s : Store) (h : List (Instant × Visit)) : Store :=
  h.foldl (fun s x => x.2.apply s x.1) s

/-- What comes back in a history of visits. -/
def hearings (s : Store) : List (Instant × Visit) → List (Answer ⊕ Option Wait.Progress)
  | [] => []
  | (now, v) :: h => (v.hears? s now).toList ++ (v.apply s now).hearings h

/-- The visits of a history by somebody who uses the store. -/
def uses (h : List (Instant × Visit)) : List (Instant × Visit) := h.filter (·.2.uses)

/-- Stores that agree up to expired failures cannot be told apart, and they still agree at the end,
also if the sweeps are left out for one of them. -/
theorem hearings_of_purge {h : List (Instant × Visit)} (hp : t.purge now = s.purge now)
    (ht : (now :: h.map (·.1)).Pairwise (· ≤ ·)) :
    t.hearings h = s.hearings (uses h) ∧
      ∃ later, (t.visited h).purge later = (s.visited (uses h)).purge later := by
  induction h generalizing s t now with
  | nil => exact ⟨rfl, now, hp⟩
  | cons x h ih =>
      obtain ⟨u, v⟩ := x
      obtain ⟨hnow, ht⟩ := List.pairwise_cons.mp ht
      have hu : t.purge u = s.purge u := purge_eq_of_le (hnow u List.mem_cons_self) hp
      have hears : v.hears? t u = v.hears? s u := by
        rw [← v.hears?_purge t, hu, v.hears?_purge]
      have apply : (v.apply t u).purge u = (v.apply s u).purge u := by
        rw [← v.purge_apply t, hu, v.purge_apply]
      cases hv : v.uses with
      | true =>
          have huses : uses ((u, v) :: h) = (u, v) :: uses h := List.filter_cons_of_pos hv
          obtain ⟨hh, hend⟩ := ih apply ht
          rw [huses, hearings, hearings, hears, hh]
          exact ⟨rfl, hend⟩
      | false =>
          -- a sweep: the other store is left as it is
          have huses : uses ((u, v) :: h) = uses h :=
            List.filter_cons_of_neg (Bool.eq_false_iff.mp hv)
          cases v with
          | sweep key =>
              rw [huses]
              refine ih ?_ ht
              rw [apply]
              exact purge_forget s u key
          | _ => cases hv

end Store

/-! ### A failure on record -/

namespace Entry

/-- There is no value, and the failure is on record unless it has expired. -/
structure Bears (e : Entry) (f : Failure) (now : Instant) : Prop where
  bare : e.value = none
  kept : e.failure = some f ∨ e.failure = none ∧ f.expires ≤ now

variable {e e' : Entry} {f : Failure} {now later : Instant}

theorem Bears.mono (h : e.Bears f now) (hl : now ≤ later) : e.Bears f later :=
  ⟨h.bare, h.kept.imp_right fun ⟨hf, hx⟩ => ⟨hf, Nat.le_trans hx hl⟩⟩

/-- The failure is live until it expires. -/
theorem Bears.live?_eq (h : e.Bears f now) :
    e.live? now = if now < f.expires then some f else none := by
  unfold live?
  rcases h.kept with hf | ⟨hf, hx⟩
  · rw [hf, Option.filter_some]
    simp
  · rw [hf, if_neg (Nat.not_lt.mpr hx)]
    rfl

theorem Bears.finished_eq (h : e.Bears f now) : e.finished now = decide (now < f.expires) := by
  unfold finished
  rw [h.bare, h.live?_eq]
  split <;> simp [*]

/-- Looking at the records changes nothing about it. -/
theorem Bears.of_look (h : e.Bears f now) (hv : e'.value = e.value)
    (hf : e'.failure = e.failure ∨ e'.failure = e.live? now) : e'.Bears f now := by
  refine ⟨hv.trans h.bare, ?_⟩
  rcases hf with hf | hf
  · rw [hf]
    exact h.kept
  · rw [hf, h.live?_eq]
    split
    · exact Or.inl rfl
    · rename_i hx
      exact Or.inr ⟨rfl, Nat.le_of_not_lt hx⟩

theorem Bears.aged (h : e.Bears f now) (ha : Aged now e e') : e'.Bears f now := by
  refine h.of_look ha.value_eq ?_
  rcases ha with rfl | rfl
  · exact Or.inl rfl
  · exact Or.inr rfl

theorem Bears.asked (h : e.Bears f now) (p : Priority) : (e.asked p now).Bears f now := by
  refine h.of_look (asked_value e p now) ?_
  unfold Entry.asked
  split
  · exact Or.inl rfl
  · split
    · split
      · exact Or.inl rfl
      · exact Or.inr rfl
    · exact Or.inr rfl

/-- A result that is not accepted changes nothing about it. -/
theorem Bears.completed (h : e.Bears f now) {c : Completion} (hn : c.nameable now = false) :
    (e.completed c now).Bears f now := by
  cases c with
  | value bytes => cases hn
  | failure message ttl =>
      have ha : now.after? ttl = none := by simpa [Completion.nameable] using hn
      simp only [Entry.completed, ha]
      exact ⟨rfl, h.kept⟩

end Entry

namespace Store

variable {s : Store} {k : Keys} {id : Id} {f : Failure} {now later : Instant}

/-- The visit is about the queue `k` or about none, and it does not have a result of `id`
accepted. -/
structure Visit.Keeps (v : Visit) (k : Keys) (id : Id) (now : Instant) : Prop where
  own : ∀ l ∈ v.queue?, l = k
  unended : ∀ c, v = .request (.op (.complete k id c)) → c.nameable now = false

theorem bears_forget (h : (s.entry k id).Bears f now) (key : String) :
    ((s.forget now key).entry k id).Bears f now := by
  refine h.of_look ?_ ?_
  · show (s.forget now key).values[k.value id]? = _
    unfold forget
    split
    · split <;> rfl
    · rfl
  · show (s.forget now key).failures[k.failure id]? = _ ∨
      (s.forget now key).failures[k.failure id]? = _
    rw [getElem?_forget]
    split
    · rename_i he
      exact Or.inr (he ▸ rfl)
    · exact Or.inl rfl

theorem bears_op {o : Op} (hv : Visit.Keeps (.request (.op o)) k id now)
    (h : (s.entry k id).Bears f now) : ((o.apply s now).entry k id).Bears f now := by
  have quiet (hq : o.quiet = true) (hk : ∀ l ∈ o.keys?, l = k) :
      ((o.apply s now).entry k id).Bears f now := h.aged (quiet_apply hq hk s now id)
  cases o with
  | enqueue l j p =>
      obtain rfl := hv.own l rfl
      rw [show Op.apply s now (.enqueue l j p) = (s.enqueue l j p now).2 from rfl, entry_enqueue]
      split
      · rename_i hj
        subst hj
        exact h.asked p
      · exact h
  | dequeue l =>
      obtain rfl := hv.own l rfl
      simp only [Op.apply]
      cases hd : s.dequeue l with
      | mk answer t =>
          cases answer with
          | none =>
              rw [(dequeue_none hd).1]
              exact h
          | some task =>
              rw [(entry_of_dequeue hd).2]
              split
              · rename_i hj
                subst hj
                exact ⟨h.bare, h.kept⟩
              · exact h
  | complete l j c =>
      obtain rfl := hv.own l rfl
      rw [show Op.apply s now (.complete l j c) = (s.complete l j c now).2 from rfl, entry_complete]
      split
      · rename_i hj
        subst hj
        exact h.completed (hv.unended c rfl)
      · exact h
  | lookup l j => exact quiet rfl hv.own
  | isFinished l j => exact quiet rfl hv.own
  | takeMarker l => exact quiet rfl (fun _ hl => by cases hl)
  | _ => exact quiet rfl (fun _ hl => by cases hl)

/-- A failure stays on record until it expires or a result of its id is accepted. -/
theorem Visit.Keeps.bears {v : Visit} (hv : v.Keeps k id now) (h : (s.entry k id).Bears f now) :
    ((v.apply s now).entry k id).Bears f now := by
  cases v with
  | request r =>
      cases r with
      | op o => exact bears_op hv h
      | _ => exact h
  | wait w =>
      simp only [Visit.apply]
      cases hs : w.step? s now with
      | none => exact h
      | some x => exact h.aged (Wait.quiet_of_step hs k id)
  | sweep key => exact bears_forget h key

theorem bears_visited {h : List (Instant × Visit)} (hb : (s.entry k id).Bears f now)
    (ht : (now :: (h.map (·.1) ++ [later])).Pairwise (· ≤ ·))
    (hv : ∀ x ∈ h, x.2.Keeps k id x.1) : ((s.visited h).entry k id).Bears f later := by
  induction h generalizing s now with
  | nil => exact hb.mono (List.rel_of_pairwise_cons ht List.mem_cons_self)
  | cons x h ih =>
      obtain ⟨hnow, ht⟩ := List.pairwise_cons.mp ht
      have hx := (hv x List.mem_cons_self).bears (hb.mono (hnow x.1 List.mem_cons_self))
      exact ih hx ht fun y hy => hv y (List.mem_cons_of_mem x hy)

/-- A failure whose expiry the clock can name is on record when it is written. -/
theorem bears_complete (s : Store) (k : Keys) (id : Id) (message : String) {ttl : Duration}
    (ha : (now.after? ttl).isSome) :
    ((s.complete k id (.failure message ttl) now).2.entry k id).Bears
      ⟨message, now + ttl.nanos⟩ now := by
  obtain ⟨expires, he⟩ := Option.isSome_iff_exists.mp ha
  obtain rfl := Instant.eq_of_after? he
  rw [entry_complete, if_pos rfl]
  simp only [Entry.completed, he]
  exact ⟨rfl, Or.inl rfl⟩

/-! ### Expiry is invisible -/

/-- **Expiry is invisible.**  Take any store and any time.

* Whether the failures that have expired by then are removed at once or stay, and whichever other
  ones somebody removes later on when they have expired: in every history of requests and of steps
  of waits the same answers come back, and every feed gets the same.
* In a history on one queue, a failure that is written now is seen by whoever looks, asks whether
  the id is finished, or asks for the id while it is not claimed, from now on until it expires and
  no longer, unless a result of the id is accepted in between. -/
theorem invisible_expiry (s : Store) (now : Instant) :
    (∀ h h' : List (Instant × Visit), (now :: h.map (·.1)).Pairwise (· ≤ ·) →
      (now :: h'.map (·.1)).Pairwise (· ≤ ·) → uses h' = uses h →
      (s.purge now).hearings h' = s.hearings h ∧
        ((s.purge now).visited h').feeds = (s.visited h).feeds) ∧
    ∀ (k : Keys) (id : Id) (message : String) (ttl : Duration) (h : List (Instant × Visit))
      (later : Instant), (now.after? ttl).isSome →
      (now :: (h.map (·.1) ++ [later])).Pairwise (· ≤ ·) →
      (∀ x ∈ h, x.2.Keeps k id x.1) →
      let u := (s.complete k id (.failure message ttl) now).2.visited h
      (u.lookup k id later).1 =
          (if later < now + ttl.nanos then .failure message else .missing) ∧
        (u.isFinished k id later).1 = decide (later < now + ttl.nanos) ∧
        ∀ p, (u.enqueue k id p later).1 =
          if (u.queue k).claimed.contains id then .inProgress
          else if later < now + ttl.nanos then .resolved else .queued := by
  constructor
  · intro h h' ht ht' hu
    obtain ⟨hs, later, hend⟩ := hearings_of_purge (s := s) (t := s) rfl ht
    obtain ⟨hs', later', hend'⟩ := hearings_of_purge (purge_purge (Nat.le_refl now) s) ht'
    rw [hu] at hs' hend'
    refine ⟨hs'.trans hs.symm, ?_⟩
    exact (congrArg Store.feeds hend').trans (congrArg Store.feeds hend).symm
  · intro k id message ttl h later ha ht hv u
    have hb := bears_visited (bears_complete s k id message ha) ht hv
    have hf : u.finished k id later = decide (later < now + ttl.nanos) := by
      rw [finished_eq]
      exact hb.finished_eq
    refine ⟨?_, hf, fun p => ?_⟩
    · have hl : u.failure? later (k.failure id) = _ := hb.live?_eq
      have hm : u.values[k.value id]? = none := hb.bare
      simp only [Store.lookup, record, hl, hm]
      by_cases hx : later < now + ttl.nanos
      · simp [hx]
      · simp [hx]
    · rw [enqueue_answer, ← finished_eq, hf]
      simp only [decide_eq_true_eq]
      rfl

/-- A failure of `x` that has expired is swept away before a lookup or by it, and a marker is there
for whoever waits; a second failure is seen for the three units of time that it is kept. -/
theorem invisible_expiry_swept :
    let k : Keys := ⟨"q"⟩
    let s := (complete {} k "x" (.failure "boom" ⟨5⟩) 0).2
    let h : List (Instant × Visit) := [(7, .request (.op (.lookup k "x"))),
      (8, .request (.op (.enqueue k "x" 3))), (8, .wait ⟨k, 9, .looking 0⟩)]
    let h' := (7, .sweep (k.failure "x")) :: h
    let rest : List (Instant × Visit) :=
      [(8, .request (.op (.complete k "y" (.value [])))), (9, .sweep (k.failure "x"))]
    let u := (s.complete k "x" (.failure "late" ⟨3⟩) 7).2.visited rest
    (uses h' = uses h ∧ (s.purge 7).hearings h' = s.hearings h ∧ s.hearings h =
        [.inl (.record .missing), .inl (.enqueued .queued), .inr (some (.finished true))]) ∧
      (∀ x ∈ rest, x.2.Keeps k "x" x.1) ∧ (u.lookup k "x" 9).1 = .failure "late" ∧
      (u.lookup k "x" 10).1 = .missing := by
  intro k s h h' rest u
  obtain ⟨hsame, hseen⟩ := invisible_expiry s 7
  have hh : uses h' = uses h := rfl
  obtain ⟨he, -⟩ := hsame h h' (by decide) (by decide) hh
  have hk : ∀ x ∈ rest, x.2.Keeps k "x" x.1 := by
    intro x hx
    simp only [rest, List.mem_cons, List.not_mem_nil, or_false] at hx
    rcases hx with rfl | rfl
    · exact ⟨by simp [Visit.queue?, Request.queue?, Op.queue?, Op.keys?], by simp⟩
    · exact ⟨nofun, nofun⟩
  have seen := hseen k "x" "late" ⟨3⟩ rest
  have early := (seen 9 (by decide) (by decide) hk).1
  have late := (seen 10 (by decide) (by decide) hk).1
  exact ⟨⟨hh, he, by decide +kernel⟩, hk, early, late⟩

end Store

end ReadThrough
