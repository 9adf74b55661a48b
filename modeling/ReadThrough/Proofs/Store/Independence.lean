import ReadThrough.Proofs.Store.Completing
import ReadThrough.Proofs.Store.Markers
import ReadThrough.Proofs.Store.Ordering

/-! # Operations on different ids

All ids of a queue share one backlog, one set of claims and one number of markers, and all queues
share the maps of records, the signals and the feeds.  Still, operations on different ids of a queue
do not get in each other's way.

* **Operations on one id** (`Store.Op.About`).  To ask for an id, to write its result, to look it up
  and to ask whether it is finished.  Each changes the entry of that id and no other one
  (`Store.Op.About.entry_apply`), and answers from it alone (`Store.Op.About.answer_congr`).
* **What else they change.**  The state of a queue is written if and only if it changes
  (`Store.Op.About.queues_apply`), markers and signals are counted up together
  (`Store.Op.About.ledger`), both as the entry says (`Store.Op.About.raises_congr`); and feeds hear
  what is announced (`Store.Op.About.feeds_apply`).
* **Two operations** on different ids give the same entries in either order (`Store.entry_comm`),
  hence the same state of the queue (`Store.queue_comm`) and the same records
  (`Store.records_comm`).
* **Main statement** (`Store.independent_ops`).  Neither operation changes the entry or the answer
  of the other, and either order ends in the same store, with the announcements in that order. -/

namespace ReadThrough

namespace Feed

/-- The feed after some messages on a channel. -/
def hear (f : Feed) (channel : String) (messages : List String) : Feed :=
  if f.channel = channel ∧ f.live = true then { f with inbox := f.inbox ++ messages } else f

theorem hear_nil (f : Feed) (channel : String) : f.hear channel [] = f := by
  unfold hear
  split
  · rw [List.append_nil]
  · rfl

theorem hear_append (f : Feed) (channel : String) (xs ys : List String) :
    (f.hear channel xs).hear channel ys = f.hear channel (xs ++ ys) := by
  by_cases h : f.channel = channel ∧ f.live = true
  · have h' : (f.hear channel xs).channel = channel ∧ (f.hear channel xs).live = true := by
      unfold hear
      rw [if_pos h]
      exact h
    rw [hear, if_pos h', hear, if_pos h, hear, if_pos h, List.append_assoc]
  · have hx : f.hear channel xs = f := if_neg h
    rw [hx, hear, if_neg h, hear, if_neg h]

end Feed

namespace Store

variable {s t : Store} {k : Keys} {id a b : Id} {o o₁ o₂ : Op} {now : Instant}

/-- The operation is about one id of a queue, and no other one: it asks for the id, writes its
result, looks it up or asks whether it is finished. -/
inductive Op.About (k : Keys) (id : Id) : Op → Prop
  | enqueue (p : Priority) : About k id (.enqueue k id p)
  | complete (c : Completion) : About k id (.complete k id c)
  | lookup : About k id (.lookup k id)
  | isFinished : About k id (.isFinished k id)

/-- What becomes of the entry of the id that an operation is about. -/
def Op.treated (e : Entry) (now : Instant) : Op → Entry
  | enqueue _ _ p => e.asked p now
  | complete _ _ c => e.completed c now
  | lookup .. => e.seen now
  | isFinished .. => if e.value = none then e.seen now else e
  | _ => e

/-- An operation on an id changes the entry of that id and no other. -/
theorem Op.About.entry_apply (h : o.About k id) (s : Store) (now : Instant) (j : Id) :
    (o.apply s now).entry k j = if j = id then o.treated (s.entry k id) now else s.entry k j := by
  cases h with
  | enqueue p => exact entry_enqueue s k id j p now
  | complete c => exact entry_complete s k id j c now
  | lookup => exact entry_forget s k id j now
  | isFinished =>
      refine (entry_afterFinished s k id j now).trans ?_
      by_cases hj : j = id
      · simp [hj, Op.treated]
      · simp [hj]

/-- An operation answers from the entry of its id alone. -/
theorem Op.About.answer_congr (h : o.About k id) (he : t.entry k id = s.entry k id)
    (now : Instant) : o.answer t now = o.answer s now := by
  cases h with
  | enqueue p => simp only [Op.answer, enqueue_answer, he]
  | complete c => simp only [Op.answer, complete_accepted]
  | lookup =>
      have hv : t.values[k.value id]? = s.values[k.value id]? := congrArg Entry.value he
      have hf : t.failures[k.failure id]? = s.failures[k.failure id]? := congrArg Entry.failure he
      simp only [Op.answer, Store.lookup, record, failure?, hv, hf]
  | isFinished => simp only [Op.answer, Store.isFinished, finished_eq, he]

theorem Op.About.queue? (h : o.About k id) : o.queue? = some k := by
  cases h <;> rfl

/-! ### The state of the queue -/

theorem improves_iff {b : Backlog} {p : Priority} :
    b.improves id p = true ↔ ∀ old, b.priority? id = some old → p < old := by
  unfold Backlog.improves
  cases b.priority? id with
  | none => simp
  | some old => simp

theorem queues_afterFinished (s : Store) (k : Keys) (id : Id) (now : Instant) :
    (s.afterFinished k id now).queues = s.queues := by
  unfold afterFinished forget
  split
  · rfl
  · split
    · split <;> rfl
    · rfl

/-- Whether an operation on an id of the queue `k` changes the state of the queue. -/
def Op.stirs (s : Store) (now : Instant) (k : Keys) : Op → Bool
  | complete l id c => c.nameable now && (s.entry l id).claimed
  | o => o.raises s now k

theorem queues_enqueue (s : Store) (k : Keys) (id : Id) (p : Priority) (now : Instant) :
    (s.enqueue k id p now).2.queues =
      if (Op.enqueue k id p).raises s now k then
        s.queues.insert k.queue ((s.enqueue k id p now).2.queue k)
      else s.queues := by
  have hr := raises_enqueue s k id p now
  unfold enqueue
  by_cases hc : (s.queue k).claimed.contains id = true
  · rw [if_pos hc, if_neg fun h => Bool.false_ne_true ((hr.mp h).1.symm.trans hc)]
  · rw [if_neg hc]
    by_cases hf : s.finished k id now = true
    · rw [finished_eq] at hf
      have hn : ¬ (Op.enqueue k id p).raises s now k = true :=
        fun h => Bool.false_ne_true ((hr.mp h).2.1.symm.trans hf)
      rw [finished_eq, if_pos hf, if_neg hn]
      exact queues_afterFinished s k id now
    · rw [finished_eq] at hf ⊢
      have hi : ((s.afterFinished k id now).queue k).backlog.improves id p = true ↔
          (Op.enqueue k id p).raises s now k = true := by
        rw [queue_afterFinished, improves_iff, hr]
        exact ⟨fun h => ⟨Bool.eq_false_iff.mpr hc, Bool.eq_false_iff.mpr hf, h⟩, fun h => h.2.2⟩
      rw [if_neg hf]
      dsimp only
      by_cases hp : (Op.enqueue k id p).raises s now k = true
      · rw [if_pos (hi.mpr hp), if_pos hp]
        refine Eq.trans ?_ (congrArg _ (queue_setQueue _ k _).symm)
        simp only [setQueue, queues_afterFinished]
      · rw [if_neg fun h => hp (hi.mp h), if_neg hp]
        exact queues_afterFinished s k id now

theorem queues_release (s : Store) (k : Keys) (id : Id) :
    (s.release k id).queues =
      if (s.entry k id).claimed then s.queues.insert k.queue ((s.release k id).queue k)
      else s.queues := by
  unfold release
  by_cases hc : (s.queue k).claimed.contains id = true
  · have hc' : (s.entry k id).claimed = true := hc
    rw [if_pos hc, if_pos hc', queue_setQueue]
    rfl
  · have hc' : ¬ (s.entry k id).claimed = true := hc
    rw [if_neg hc, if_neg hc']

theorem queues_publish (s : Store) (channel message : String) :
    (s.publish channel message).queues = s.queues :=
  congrArg Prod.fst (stock_publish s channel message)

theorem queues_complete (s : Store) (k : Keys) (id : Id) (c : Completion) (now : Instant) :
    (s.complete k id c now).2.queues =
      if c.nameable now && (s.entry k id).claimed then
        s.queues.insert k.queue ((s.complete k id c now).2.queue k)
      else s.queues := by
  -- once the records are written, only the release of the claim is left
  have announce {t : Store} (hq : t.queues = s.queues) :
      ((t.release k id).publish k.channel id).queues =
        if (s.entry k id).claimed then
          s.queues.insert k.queue (((t.release k id).publish k.channel id).queue k)
        else s.queues := by
    have hc : (t.entry k id).claimed = (s.entry k id).claimed := by
      simp only [entry, queue, hq]
    have hk : ((t.release k id).publish k.channel id).queue k = (t.release k id).queue k := by
      simp only [queue, queues_publish]
    rw [queues_publish, queues_release, hc, hq, hk]
  cases hn : c.nameable now with
  | false => rw [complete_unnameable hn]; rfl
  | true =>
      cases c with
      | value bytes => exact announce rfl
      | failure message ttl =>
          obtain ⟨expires, he⟩ := Option.isSome_iff_exists.mp hn
          simp only [complete, he]
          exact announce rfl

/-- The state of a queue is written if and only if it changes. -/
theorem Op.About.queues_apply (h : o.About k id) (s : Store) (now : Instant) :
    (o.apply s now).queues =
      if o.stirs s now k then s.queues.insert k.queue ((o.apply s now).queue k) else s.queues := by
  cases h with
  | enqueue p => exact queues_enqueue s k id p now
  | complete c => exact queues_complete s k id c now
  | lookup =>
      show (s.forget now (k.failure id)).queues = s.queues
      unfold forget
      split
      · split <;> rfl
      · rfl
  | isFinished => exact queues_afterFinished s k id now

/-- What an operation does to its queue is determined by the entry of its id. -/
theorem Op.About.raises_congr (h : o.About k id) (he : t.entry k id = s.entry k id)
    (now : Instant) :
    o.raises t now k = o.raises s now k ∧ o.stirs t now k = o.stirs s now k := by
  have hr : o.raises t now k = o.raises s now k := by
    cases h with
    | enqueue p => rw [Bool.eq_iff_iff, raises_enqueue, raises_enqueue, he]
    | _ => rfl
  refine ⟨hr, ?_⟩
  cases h with
  | complete c => simp only [Op.stirs, he]
  | _ => exact hr

/-- An operation that raises its id leaves a marker and gives a signal, and no other one does. -/
theorem Op.About.ledger (h : o.About k id) (s : Store) (now : Instant) :
    ((o.apply s now).queue k).markers = (s.queue k).markers + (o.raises s now k).toNat ∧
      (o.apply s now).signals = s.signals + (o.raises s now k).toNat := by
  cases h with
  | enqueue p => exact ledger_of_enqueue s k id p now
  | _ =>
      refine Prod.mk.inj (ledger_of_idle ?_ ?_ s now k)
      · nofun
      · nofun

/-! ### Feeds -/

/-- An operation puts what it announces into the feeds of the channel, and does nothing else to
feeds. -/
theorem Op.About.feeds_apply (h : o.About k id) (s : Store) (now : Instant) :
    (o.apply s now).feeds = s.feeds.map (·.hear k.channel (o.announced s now)) ∧
      (o.apply s now).connected = s.connected := by
  have quiet {t : Store} (ht : t.wire = s.wire) :
      t.feeds = s.feeds.map (·.hear k.channel []) ∧ t.connected = s.connected := by
    obtain ⟨hf, hc⟩ := Prod.mk.inj ht
    simp [hf, hc, Feed.hear_nil]
  cases h with
  | enqueue p => exact quiet (wire_enqueue s k id p now)
  | lookup => exact quiet (wire_forget s now _)
  | isFinished => exact quiet (wire_afterFinished s k id now)
  | complete c =>
      have hw := wire_complete s k id c now
      simp only [Op.apply, Op.announced]
      cases hn : c.nameable now with
      | false => simpa using quiet (by simpa [hn] using hw)
      | true =>
          rw [hn, if_pos rfl] at hw
          obtain ⟨hf, hc⟩ := Prod.mk.inj hw
          refine ⟨?_, hc.trans ?_⟩
          · rw [hf, publish_feeds]
            refine List.map_congr_left fun f _ => ?_
            cases hs : s.connected with
            | false => simp [Feed.hear_nil]
            | true => simp [Feed.hear]
          · unfold publish
            split <;> rfl

/-! ### Two operations -/

/-- Feeds hear what both operations announce, in the order of the operations. -/
theorem feeds_twice (h₁ : o₁.About k a) (h₂ : o₂.About k b) (s : Store) (now : Instant) :
    (o₂.apply (o₁.apply s now) now).feeds =
        s.feeds.map (·.hear k.channel (o₁.announced s now ++ o₂.announced s now)) ∧
      (o₂.apply (o₁.apply s now) now).connected = s.connected := by
  obtain ⟨hf₁, hc₁⟩ := h₁.feeds_apply s now
  obtain ⟨hf₂, hc₂⟩ := h₂.feeds_apply (o₁.apply s now) now
  have ha : o₂.announced (o₁.apply s now) now = o₂.announced s now := by
    cases h₂ with
    | complete c => simp only [Op.announced, hc₁]
    | _ => rfl
  refine ⟨?_, hc₂.trans hc₁⟩
  rw [hf₂, ha, hf₁, List.map_map]
  exact List.map_congr_left fun f _ => f.hear_append _ _ _

section

variable (h₁ : o₁.About k a) (h₂ : o₂.About k b) (hab : a ≠ b) (s : Store) (now : Instant)
include h₁ h₂ hab

/-- After two operations on different ids, each of the two entries has been treated once. -/
theorem entry_twice (j : Id) :
    (o₂.apply (o₁.apply s now) now).entry k j =
      if j = b then o₂.treated (s.entry k b) now
      else if j = a then o₁.treated (s.entry k a) now else s.entry k j := by
  rw [h₂.entry_apply, h₁.entry_apply, h₁.entry_apply, if_neg (Ne.symm hab)]

theorem entry_comm (j : Id) :
    (o₂.apply (o₁.apply s now) now).entry k j = (o₁.apply (o₂.apply s now) now).entry k j := by
  rw [entry_twice h₁ h₂ hab, entry_twice h₂ h₁ (Ne.symm hab)]
  by_cases hb : j = b
  · have ha : ¬ j = a := fun e => hab (e.symm.trans hb)
    rw [if_pos hb, if_neg ha, if_pos hb]
  · rw [if_neg hb, if_neg hb]

/-- What the second operation does to the queue does not depend on the first one. -/
theorem raises_later :
    o₂.raises (o₁.apply s now) now k = o₂.raises s now k ∧
      o₂.stirs (o₁.apply s now) now k = o₂.stirs s now k := by
  refine h₂.raises_congr ?_ now
  rw [h₁.entry_apply, if_neg (Ne.symm hab)]

theorem signals_comm :
    (o₂.apply (o₁.apply s now) now).signals = (o₁.apply (o₂.apply s now) now).signals := by
  rw [(h₂.ledger _ now).2, (h₁.ledger s now).2, (h₁.ledger _ now).2, (h₂.ledger s now).2,
    (raises_later h₁ h₂ hab s now).1, (raises_later h₂ h₁ (Ne.symm hab) s now).1]
  omega

/-- The state of a queue is known by its entries and the number of its markers. -/
theorem queue_comm :
    (o₂.apply (o₁.apply s now) now).queue k = (o₁.apply (o₂.apply s now) now).queue k := by
  have he := entry_comm h₁ h₂ hab s now
  have hb : ((o₂.apply (o₁.apply s now) now).queue k).backlog =
      ((o₁.apply (o₂.apply s now) now).queue k).backlog :=
    Backlog.ext_priority? fun j => congrArg Entry.priority (he j)
  have hc : ((o₂.apply (o₁.apply s now) now).queue k).claimed =
      ((o₁.apply (o₂.apply s now) now).queue k).claimed :=
    Std.ExtTreeSet.ext_mem fun j => Bool.eq_iff_iff.mp (congrArg Entry.claimed (he j))
  have hm : ((o₂.apply (o₁.apply s now) now).queue k).markers =
      ((o₁.apply (o₂.apply s now) now).queue k).markers := by
    rw [(h₂.ledger _ now).1, (h₁.ledger s now).1, (h₁.ledger _ now).1, (h₂.ledger s now).1,
      (raises_later h₁ h₂ hab s now).1, (raises_later h₂ h₁ (Ne.symm hab) s now).1]
    omega
  cases hq : (o₂.apply (o₁.apply s now) now).queue k
  cases hq' : (o₁.apply (o₂.apply s now) now).queue k
  rw [hq, hq'] at hb hc hm
  congr

/-- The queues are as after the last of the two operations that writes the state of theirs. -/
theorem queues_twice :
    (o₂.apply (o₁.apply s now) now).queues =
      if o₁.stirs s now k || o₂.stirs s now k then
        s.queues.insert k.queue ((o₂.apply (o₁.apply s now) now).queue k)
      else s.queues := by
  have hq := h₂.queues_apply (o₁.apply s now) now
  rw [(raises_later h₁ h₂ hab s now).2] at hq
  rw [hq, h₁.queues_apply s now]
  cases hs₁ : o₁.stirs s now k with
  | false => simp
  | true =>
      cases hs₂ : o₂.stirs s now k with
      | true =>
          refine Std.ExtTreeMap.ext_getElem? fun key => ?_
          simp only [Bool.or_self, if_true, Std.ExtTreeMap.getElem?_insert]
          split <;> rfl
      | false =>
          -- the second operation leaves the queue as the first one made it
          rw [hs₂, if_neg Bool.false_ne_true] at hq
          have he : (o₂.apply (o₁.apply s now) now).queue k = (o₁.apply s now).queue k :=
            congrArg (·.getD k.queue {}) hq
          simp [he]

/-- Records under other keys are left alone, and those of the queue are known by the entries. -/
theorem records_comm :
    (o₂.apply (o₁.apply s now) now).values = (o₁.apply (o₂.apply s now) now).values ∧
      (o₂.apply (o₁.apply s now) now).failures = (o₁.apply (o₂.apply s now) now).failures := by
  have he := entry_comm h₁ h₂ hab s now
  have hw := (Op.within h₁.queue? s now).trans (Op.within h₂.queue? _ now)
  have hw' := (Op.within h₂.queue? s now).trans (Op.within h₁.queue? _ now)
  constructor
  · refine Std.ExtTreeMap.ext_getElem? fun key => ?_
    by_cases hk : ∃ j, key = k.value j
    · obtain ⟨j, rfl⟩ := hk
      exact congrArg Entry.value (he j)
    · have hn := not_exists.mp hk
      rw [hw.value key hn, hw'.value key hn]
  · refine Std.ExtTreeMap.ext_getElem? fun key => ?_
    by_cases hk : ∃ j, key = k.failure j
    · obtain ⟨j, rfl⟩ := hk
      exact congrArg Entry.failure (he j)
    · have hn := not_exists.mp hk
      rw [hw.failure key hn, hw'.failure key hn]

end

/-! ### Independence -/

/-- **Independence.**  Let there be two operations at one time, about different ids of a queue.
Neither operation changes the entry of the other id: the place in the queue, the claim, the value,
and the failure with its expiry.  In either order the two get the same answers, and the stores at
the end agree in everything but the feeds; each feed of the channel hears what the two announce, in
the order in which they come. -/
theorem independent_ops (hab : a ≠ b) (h₁ : o₁.About k a) (h₂ : o₂.About k b) (s : Store)
    (now : Instant) :
    let s₁ := o₁.apply s now
    let s₂ := o₂.apply s now
    let s₁₂ := o₂.apply s₁ now
    let s₂₁ := o₁.apply s₂ now
    s₁.entry k b = s.entry k b ∧ s₂.entry k a = s.entry k a ∧
      o₁.answer s₂ now = o₁.answer s now ∧ o₂.answer s₁ now = o₂.answer s now ∧
      { s₁₂ with feeds := [] } = { s₂₁ with feeds := [] } ∧
      s₁₂.feeds = s.feeds.map (·.hear k.channel (o₁.announced s now ++ o₂.announced s now)) ∧
      s₂₁.feeds = s.feeds.map (·.hear k.channel (o₂.announced s now ++ o₁.announced s now)) := by
  intro s₁ s₂ s₁₂ s₂₁
  have hba := Ne.symm hab
  have hb : s₁.entry k b = s.entry k b := by rw [h₁.entry_apply, if_neg hba]
  have ha : s₂.entry k a = s.entry k a := by rw [h₂.entry_apply, if_neg hab]
  obtain ⟨hf, hc⟩ := feeds_twice h₁ h₂ s now
  obtain ⟨hf', hc'⟩ := feeds_twice h₂ h₁ s now
  refine ⟨hb, ha, h₁.answer_congr ha now, h₂.answer_congr hb now, ?_, hf, hf'⟩
  have hq : s₁₂.queues = s₂₁.queues := by
    rw [queues_twice h₁ h₂ hab, queues_twice h₂ h₁ hba, Bool.or_comm, queue_comm h₁ h₂ hab]
  obtain ⟨hv, hr⟩ := records_comm h₁ h₂ hab s now
  rw [hq, hv, hr, hc.trans hc'.symm, signals_comm h₁ h₂ hab s now]

/-- Two results for ids of which one ends in the key of the other: a subscriber can tell only which
one was announced first. -/
theorem independent_ops_suffix :
    let k : Keys := ⟨"q"⟩
    let s := after {} [(0, .op (.subscribe k.channel)), (1, .op (.enqueue k "k:a" 3)),
      (2, .op (.dequeue k)), (3, .op (.enqueue k "a" 5))]
    let o₁ : Op := .complete k "k:a" (.failure "boom" ⟨1⟩)
    let o₂ : Op := .complete k "a" (.value [])
    ("k:a" ≠ "a" ∧ o₁.About k "k:a" ∧ o₂.About k "a") ∧
      (o₂.apply (o₁.apply s 4) 4).inbox 0 = ["", "k:a", "a"] ∧
      (o₁.apply (o₂.apply s 4) 4).inbox 0 = ["", "a", "k:a"] ∧
      ((o₁.apply s 4).entry k "a").priority = some 5 := by
  intro k s o₁ o₂
  have h₁ : o₁.About k "k:a" := .complete _
  have h₂ : o₂.About k "a" := .complete _
  have hab : "k:a" ≠ "a" := by decide
  obtain ⟨hb, -, -, -, -, hf, hf'⟩ := independent_ops hab h₁ h₂ s 4
  refine ⟨⟨hab, h₁, h₂⟩, ?_, ?_, (congrArg Entry.priority hb).trans ?_⟩
  · unfold inbox
    rw [hf]
    decide +kernel
  · unfold inbox
    rw [hf']
    decide +kernel
  · decide +kernel

end Store

end ReadThrough
