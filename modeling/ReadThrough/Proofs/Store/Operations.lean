import ReadThrough.Proofs.Store.Entries

/-! # The operations of the store

Everything that can happen to a store is one of the operations `Store.Op`, each a function of the
store and the time (`Store.Op.apply`).

* **Quiet operations** (`Store.Quiet`) ask, claim and complete nothing: they leave all entries of a
  queue as they are, up to the removal of expired failures (`Store.quiet_apply`).
* **Feeds.**  A feed that hears a channel (`Store.Hears`) keeps its messages and gets exactly what
  the operation announces (`Store.Op.announced`, `Store.feed_apply`), unless the operation takes
  messages out of the feed or ends it (`Store.Op.spares`).
* **Listening** (`Store.Heard`, `Store.heard_apply`).  What becomes finished while the store is
  connected is announced, and every new connection is. -/

namespace ReadThrough

namespace Store

/-- What is attempted is done, unless there is a fault. -/
theorem state_of_attempt {α : Type} {s s' : Store} {fault : Option Error} {f : Store → α × Store}
    {answer : Except Error α} (h : s.attempt fault f = (answer, s')) :
    s' = s ∧ fault ≠ none ∨ fault = none ∧ s' = (f s).2 := by
  cases fault with
  | some e => exact Or.inl ⟨(Prod.mk.inj h).2.symm, Option.some_ne_none e⟩
  | none => exact Or.inr ⟨rfl, (Prod.mk.inj h).2.symm⟩

/-- An operation of the store. -/
inductive Op where
  | enqueue (keys : Keys) (id : Id) (priority : Priority)
  | dequeue (keys : Keys)
  | complete (keys : Keys) (id : Id) (completion : Completion)
  | lookup (keys : Keys) (id : Id)
  | isFinished (keys : Keys) (id : Id)
  | takeMarker (keys : Keys)
  | subscribe (channel : String)
  | receive (feed : Nat)
  | unsubscribe (feed : Nat)
  | disconnect
  | reconnect
  | closeFeeds

namespace Op

/-- The store after an operation. -/
def apply (s : Store) (now : Instant) : Op → Store
  | enqueue k id p => (s.enqueue k id p now).2
  | dequeue k => (s.dequeue k).2
  | complete k id c => (s.complete k id c now).2
  | lookup k id => (s.lookup k id now).2
  | isFinished k id => (s.isFinished k id now).2
  | takeMarker k => (s.takeMarker k).getD s
  | subscribe channel => (s.subscribe channel).2
  | receive feed => ((s.receive? feed).map (·.2)).getD s
  | unsubscribe feed => s.unsubscribe feed
  | disconnect => s.disconnect
  | reconnect => s.reconnect
  | closeFeeds => s.closeFeeds

/-- The queue that an operation is about, if it is about one. -/
def keys? : Op → Option Keys
  | enqueue k _ _ => some k
  | dequeue k => some k
  | complete k _ _ => some k
  | lookup k _ => some k
  | isFinished k _ => some k
  | _ => none

/-- Whether an operation asks, claims and completes nothing. -/
def quiet : Op → Bool
  | enqueue .. => false
  | dequeue _ => false
  | complete .. => false
  | _ => true

/-- Whether an operation neither takes messages out of a feed nor ends it. -/
def spares (feed : Nat) : Op → Bool
  | receive f => f != feed
  | unsubscribe f => f != feed
  | closeFeeds => false
  | _ => true

/-- What an operation on one queue announces on the channel of that queue. -/
def announced (s : Store) (now : Instant) : Op → List String
  | complete _ id c => if s.connected && c.nameable now then [id] else []
  | reconnect => [""]
  | _ => []

end Op

/-! ### Entries -/

/-- The entries of a queue are as they were, except that expired failures may have been removed. -/
def Quiet (k : Keys) (now : Instant) (s s' : Store) : Prop :=
  ∀ id, Entry.Aged now (s.entry k id) (s'.entry k id)

theorem Quiet.refl (k : Keys) (now : Instant) (s : Store) : Quiet k now s s :=
  fun _ => Entry.Aged.refl now _

variable {s s' : Store} {k : Keys} {now : Instant}

theorem Quiet.of_entry_eq (h : ∀ id, s'.entry k id = s.entry k id) : Quiet k now s s' :=
  fun id => Or.inl (h id)

theorem quiet_forget (s : Store) (k : Keys) (id : Id) (now : Instant) :
    Quiet k now s (s.forget now (k.failure id)) := by
  intro j
  rw [entry_forget]
  by_cases hj : j = id
  · subst hj
    right
    simp
  · left
    simp [hj]

theorem quiet_afterFinished (s : Store) (k : Keys) (id : Id) (now : Instant) :
    Quiet k now s (s.afterFinished k id now) := by
  unfold afterFinished
  split
  · exact Quiet.refl k now s
  · exact quiet_forget s k id now

/-- A quiet operation on the queue `k`, or on none, changes no entry of `k`. -/
theorem quiet_apply {op : Op} (hq : op.quiet = true) (hk : ∀ l ∈ op.keys?, l = k) (s : Store)
    (now : Instant) : Quiet k now s (op.apply s now) := by
  cases op with
  | enqueue l id p => cases hq
  | dequeue l => cases hq
  | complete l id c => cases hq
  | lookup l id =>
      obtain rfl := hk l rfl
      exact quiet_forget s l id now
  | isFinished l id =>
      obtain rfl := hk l rfl
      exact quiet_afterFinished s l id now
  | takeMarker l =>
      simp only [Op.apply]
      cases ht : s.takeMarker l with
      | none => exact Quiet.refl k now s
      | some t => exact Quiet.of_entry_eq fun id => entry_takeMarker ht k id
  | receive feed =>
      refine Quiet.of_entry_eq fun id => ?_
      simp only [Op.apply]
      cases hr : s.receive? feed with
      | none => rfl
      | some x =>
          unfold receive? at hr
          split at hr
          · split at hr
            · cases hr
            · obtain rfl := Option.some.inj hr
              rfl
          · cases hr
  | subscribe channel => exact Quiet.of_entry_eq fun _ => rfl
  | unsubscribe feed => exact Quiet.of_entry_eq fun _ => rfl
  | disconnect => exact Quiet.of_entry_eq fun _ => rfl
  | reconnect => exact Quiet.of_entry_eq fun _ => rfl
  | closeFeeds => exact Quiet.of_entry_eq fun _ => rfl

/-! ### Feeds -/

/-- The feeds and whether messages are delivered. -/
def wire (s : Store) : List Feed × Bool := (s.feeds, s.connected)

@[simp] theorem wire_forget (s : Store) (now : Instant) (key : String) :
    (s.forget now key).wire = s.wire := by
  unfold forget
  split
  · split <;> rfl
  · rfl

@[simp] theorem wire_afterFinished (s : Store) (k : Keys) (id : Id) (now : Instant) :
    (s.afterFinished k id now).wire = s.wire := by
  unfold afterFinished
  split
  · rfl
  · exact wire_forget s now _

theorem wire_enqueue (s : Store) (k : Keys) (id : Id) (p : Priority) (now : Instant) :
    (s.enqueue k id p now).2.wire = s.wire := by
  unfold enqueue
  split
  · rfl
  · split
    · exact wire_afterFinished s k id now
    · dsimp only
      split
      · exact wire_afterFinished s k id now
      · exact wire_afterFinished s k id now

theorem wire_dequeue (s : Store) (k : Keys) : (s.dequeue k).2.wire = s.wire := by
  unfold dequeue
  dsimp only
  split <;> rfl

theorem wire_takeMarker (h : s.takeMarker k = some s') : s'.wire = s.wire := by
  unfold takeMarker at h
  dsimp only at h
  split at h
  · cases h
  · obtain rfl := Option.some.inj h
    rfl

theorem wire_release (s : Store) (k : Keys) (id : Id) : (s.release k id).wire = s.wire := by
  unfold release
  dsimp only
  split <;> rfl

/-- A result that is accepted is announced, and one that is not leaves the feeds alone. -/
theorem wire_complete (s : Store) (k : Keys) (id : Id) (c : Completion) (now : Instant) :
    (s.complete k id c now).2.wire =
      if c.nameable now then (s.publish k.channel id).wire else s.wire := by
  have hp : ∀ t : Store, t.wire = s.wire →
      (t.publish k.channel id).wire = (s.publish k.channel id).wire := by
    intro t ht
    obtain ⟨hf, hc⟩ := Prod.mk.inj ht
    unfold publish wire
    rw [hc]
    split <;> simp [hf, hc]
  unfold complete
  cases c with
  | value bytes => exact hp _ (wire_release _ k id)
  | failure message ttl =>
      cases ha : now.after? ttl with
      | none =>
          simp only [Completion.nameable, ha]
          rfl
      | some expires =>
          simp only [Completion.nameable, ha]
          exact hp _ (wire_release _ k id)

/-- The messages that wait in a feed. -/
def inbox (s : Store) (feed : Nat) : List String :=
  match s.feeds[feed]? with
  | some f => f.inbox
  | none => []

/-- What is announced on a channel reaches a feed, as long as the store is connected. -/
def Hears (s : Store) (feed : Nat) (channel : String) : Prop :=
  ∃ f, s.feeds[feed]? = some f ∧ f.live = true ∧ f.channel = channel

variable {feed : Nat} {channel : String}

/-- What a feed hears and holds does not depend on other feeds. -/
theorem feed_congr (channel : String) (hw : s'.feeds[feed]? = s.feeds[feed]?) :
    s'.inbox feed = s.inbox feed ∧ (s'.Hears feed channel ↔ s.Hears feed channel) := by
  unfold inbox Hears
  rw [hw]
  exact ⟨rfl, Iff.rfl⟩

theorem feeds_of_wire (feed : Nat) {t : Store} (h : t.wire = s.wire) :
    t.feeds[feed]? = s.feeds[feed]? := by
  obtain ⟨hf, -⟩ := Prod.mk.inj h
  rw [hf]

/-- A message put into a feed that hears it is its last one. -/
theorem inbox_of_deliver {f : Feed} {message : String} (hf : s.feeds[feed]? = some f)
    (hl : f.live = true) (hs : s'.feeds[feed]? = some (f.deliver message)) :
    s'.Hears feed f.channel ∧ s'.inbox feed = s.inbox feed ++ [message] := by
  have hd : f.deliver message = { f with inbox := f.inbox ++ [message] } := by
    unfold Feed.deliver
    rw [if_pos hl]
  rw [hd] at hs
  constructor
  · exact ⟨_, hs, hl, rfl⟩
  · simp [inbox, hf, hs]

theorem feed_publish (h : s.Hears feed channel) (message : String) :
    (s.publish channel message).Hears feed channel ∧
      (s.publish channel message).inbox feed =
        s.inbox feed ++ if s.connected then [message] else [] := by
  obtain ⟨f, hf, hl, rfl⟩ := h
  unfold publish
  split
  · refine inbox_of_deliver hf hl ?_
    simp [hf]
  · exact ⟨⟨f, hf, hl, rfl⟩, by simp⟩

theorem feed_reconnect (h : s.Hears feed channel) :
    s.reconnect.Hears feed channel ∧ s.reconnect.inbox feed = s.inbox feed ++ [""] := by
  obtain ⟨f, hf, hl, rfl⟩ := h
  refine inbox_of_deliver hf hl ?_
  simp [reconnect, hf]

/-- A feed that an operation spares hears what it heard, and gets what the operation announces. -/
theorem feed_apply {op : Op} (hs : op.spares feed = true)
    (hk : ∀ l ∈ op.keys?, l.channel = channel) (h : s.Hears feed channel) (now : Instant) :
    (op.apply s now).Hears feed channel ∧
      (op.apply s now).inbox feed = s.inbox feed ++ op.announced s now := by
  -- operations that leave the feed alone announce nothing
  have same : ∀ t : Store, t.feeds[feed]? = s.feeds[feed]? →
      t.Hears feed channel ∧ t.inbox feed = s.inbox feed ++ [] := by
    intro t ht
    obtain ⟨hi, hh⟩ := feed_congr channel ht
    exact ⟨hh.mpr h, by rw [hi, List.append_nil]⟩
  cases op with
  | enqueue l id p => exact same _ (feeds_of_wire feed (wire_enqueue s l id p now))
  | dequeue l => exact same _ (feeds_of_wire feed (wire_dequeue s l))
  | complete l id c =>
      have hw := wire_complete s l id c now
      simp only [Op.apply, Op.announced]
      cases hn : c.nameable now with
      | false =>
          rw [hn] at hw
          simpa using same _ (feeds_of_wire feed hw)
      | true =>
          rw [hn, if_pos rfl, hk l rfl] at hw
          obtain ⟨hi, hh⟩ := feed_congr channel (feeds_of_wire feed hw)
          obtain ⟨hp, hm⟩ := feed_publish h id
          refine ⟨hh.mpr hp, ?_⟩
          rw [hi, hm]
          simp
  | lookup l id => exact same _ (feeds_of_wire feed (wire_forget s now _))
  | isFinished l id => exact same _ (feeds_of_wire feed (wire_afterFinished s l id now))
  | takeMarker l =>
      simp only [Op.apply, Op.announced]
      cases ht : s.takeMarker l with
      | none => exact same s rfl
      | some t => exact same t (feeds_of_wire feed (wire_takeMarker ht))
  | subscribe ch =>
      obtain ⟨f, hf, -⟩ := h
      have hb := (List.getElem?_eq_some_iff.mp hf).1
      exact same _ (List.getElem?_append_left hb)
  | receive g =>
      have hg : g ≠ feed := by simpa [Op.spares] using hs
      simp only [Op.apply, Op.announced]
      cases hr : s.receive? g with
      | none => exact same s rfl
      | some x =>
          unfold receive? at hr
          split at hr
          · split at hr
            · cases hr
            · obtain rfl := Option.some.inj hr
              exact same _ (List.getElem?_set_ne hg)
          · cases hr
  | unsubscribe g =>
      have hg : g ≠ feed := by simpa [Op.spares] using hs
      refine same _ ?_
      simp [Op.apply, unsubscribe, hg]
  | disconnect => exact same _ rfl
  | reconnect => exact feed_reconnect h
  | closeFeeds => cases hs

/-- The first message of a feed is taken out of it, and nothing else changes. -/
theorem receive?_some {message : String} (h : s.receive? feed = some (message, s')) :
    s.inbox feed = message :: s'.inbox feed ∧
      (∀ channel, s.Hears feed channel → s'.Hears feed channel) ∧
      s'.connected = s.connected ∧ ∀ k id, s'.entry k id = s.entry k id := by
  unfold receive? at h
  split at h
  · rename_i f hf
    split at h
    · cases h
    · rename_i m rest hi
      obtain ⟨rfl, rfl⟩ := Prod.mk.inj (Option.some.inj h)
      have hb := (List.getElem?_eq_some_iff.mp hf).1
      have hg : (s.feeds.set feed { f with inbox := rest })[feed]? =
          some { f with inbox := rest } := by simp [hb]
      refine ⟨?_, ?_, rfl, fun _ _ => rfl⟩
      · simp only [inbox, hf, hg, hi]
      · rintro channel ⟨g, hg', hl, hc⟩
        obtain rfl := Option.some.inj (hf.symm.trans hg')
        exact ⟨_, hg, hl, hc⟩
  · cases h

theorem hears_subscribe (s : Store) (channel : String) :
    (s.subscribe channel).2.Hears s.feeds.length channel := by
  refine ⟨{ channel, inbox := if s.connected then [""] else [] }, ?_, rfl, rfl⟩
  simp [subscribe]

/-- Whether an operation adds a feed. -/
def Op.opens : Op → Bool
  | subscribe _ => true
  | _ => false

/-- A feed is added by subscribing only, and none is removed. -/
theorem length_feeds_apply (op : Op) (s : Store) (now : Instant) :
    (op.apply s now).feeds.length = s.feeds.length + op.opens.toNat := by
  have same : ∀ {t : Store}, t.wire = s.wire → t.feeds.length = s.feeds.length :=
    fun ht => congrArg (·.1.length) ht
  cases op with
  | enqueue l id p => exact same (wire_enqueue s l id p now)
  | dequeue l => exact same (wire_dequeue s l)
  | complete l id c =>
      have hw := wire_complete s l id c now
      split at hw
      · have hp : (s.publish l.channel id).feeds.length = s.feeds.length := by
          unfold publish
          split
          · exact List.length_map _
          · rfl
        exact (congrArg (·.1.length) hw).trans hp
      · exact same hw
  | lookup l id => exact same (wire_forget s now _)
  | isFinished l id => exact same (wire_afterFinished s l id now)
  | takeMarker l =>
      simp only [Op.apply]
      cases ht : s.takeMarker l with
      | none => rfl
      | some t => exact same (wire_takeMarker ht)
  | receive g =>
      simp only [Op.apply]
      cases hr : s.receive? g with
      | none => rfl
      | some x =>
          unfold receive? at hr
          split at hr
          · split at hr
            · cases hr
            · obtain rfl := Option.some.inj hr
              exact List.length_set
          · cases hr
  | subscribe channel => simp [Op.apply, subscribe, Op.opens]
  | unsubscribe g => simp [Op.apply, unsubscribe, Op.opens]
  | disconnect => rfl
  | reconnect => simp [Op.apply, reconnect, Op.opens]
  | closeFeeds => simp [Op.apply, closeFeeds, Op.opens]

/-- Feeds are added only. -/
theorem feeds_length_apply (op : Op) (s : Store) (now : Instant) :
    s.feeds.length ≤ (op.apply s now).feeds.length := by
  rw [length_feeds_apply]
  exact Nat.le_add_right _ _

/-! ### What a listener may miss -/

/-- An id becomes finished only by a result that is accepted for it. -/
theorem finished_apply {op : Op} (hk : ∀ l ∈ op.keys?, l = k) {id : Id}
    (hf : ((op.apply s now).entry k id).finished now = true) :
    (s.entry k id).finished now = true ∨ ∃ c, op = .complete k id c ∧ c.nameable now = true := by
  cases op with
  | enqueue l j p =>
      obtain rfl := hk l rfl
      left
      simp only [Op.apply, entry_enqueue] at hf
      split at hf
      · rename_i hj
        subst hj
        rwa [Entry.finished_asked] at hf
      · exact hf
  | dequeue l =>
      obtain rfl := hk l rfl
      left
      simp only [Op.apply] at hf
      cases hd : s.dequeue l with
      | mk answer t =>
          rw [hd] at hf
          cases answer with
          | none =>
              obtain ⟨rfl, -⟩ := dequeue_none hd
              exact hf
          | some task =>
              rw [(entry_of_dequeue hd).2] at hf
              split at hf
              · rename_i hj
                subst hj
                exact hf
              · exact hf
  | complete l j c =>
      obtain rfl := hk l rfl
      simp only [Op.apply, entry_complete] at hf
      split at hf
      · rename_i hj
        subst hj
        cases hn : c.nameable now with
        | true => exact Or.inr ⟨c, rfl, hn⟩
        | false =>
            left
            exact Entry.finished_of_completed hn hf
      · exact Or.inl hf
  | _ =>
      left
      rwa [(quiet_apply rfl hk s now id).finished_eq] at hf

/-- Only an outage and its end change whether messages are delivered. -/
theorem connected_apply {op : Op} (hd : op ≠ .disconnect) (hr : op ≠ .reconnect) (s : Store)
    (now : Instant) : (op.apply s now).connected = s.connected := by
  have same : ∀ {t : Store}, t.wire = s.wire → t.connected = s.connected :=
    fun hw => congrArg Prod.snd hw
  cases op with
  | enqueue l id p => exact same (wire_enqueue s l id p now)
  | dequeue l => exact same (wire_dequeue s l)
  | complete l id c =>
      have hw := wire_complete s l id c now
      split at hw
      · have hp : (s.publish l.channel id).connected = s.connected := by
          unfold publish
          split <;> rfl
        rw [← hp]
        exact congrArg Prod.snd hw
      · exact same hw
  | lookup l id => exact same (wire_forget s now _)
  | isFinished l id => exact same (wire_afterFinished s l id now)
  | takeMarker l =>
      simp only [Op.apply]
      cases ht : s.takeMarker l with
      | none => rfl
      | some t => exact same (wire_takeMarker ht)
  | receive g =>
      simp only [Op.apply]
      cases hr : s.receive? g with
      | none => rfl
      | some x =>
          obtain ⟨m, t⟩ := x
          exact (receive?_some hr).2.2.1
  | reconnect => exact absurd rfl hr
  | disconnect => exact absurd rfl hd
  | _ => rfl

/-- What a listener of the channel of `k` can rely on when the store changes: messages stay, a new
connection is announced, and so is every id that becomes finished while the store is connected. -/
structure Heard (k : Keys) (feed : Nat) (now : Instant) (s s' : Store) : Prop where
  hears : s.Hears feed k.channel → s'.Hears feed k.channel
  kept : ∀ m ∈ s.inbox feed, m ∈ s'.inbox feed
  back : s'.connected = true → s.connected = true ∨ "" ∈ s'.inbox feed
  news : ∀ id, (s'.entry k id).finished now = true →
    (s.entry k id).finished now = true ∨ s'.connected = false ∨ id ∈ s'.inbox feed

theorem Heard.refl (k : Keys) (feed : Nat) (now : Instant) (s : Store) : Heard k feed now s s :=
  ⟨id, fun _ h => h, Or.inl, fun _ => Or.inl⟩

/-- A listener can rely on every operation that spares its feed. -/
theorem heard_apply {op : Op} (hs : op.spares feed = true) (hk : ∀ l ∈ op.keys?, l = k)
    (h : s.Hears feed k.channel) (now : Instant) : Heard k feed now s (op.apply s now) := by
  obtain ⟨hh, hi⟩ := feed_apply hs (fun l hl => congrArg Keys.channel (hk l hl)) h now
  refine ⟨fun _ => hh, fun m hm => ?_, fun hc => ?_, fun id hf => ?_⟩
  · rw [hi]
    exact List.mem_append_left _ hm
  · by_cases hr : op = .reconnect
    · subst hr
      right
      rw [hi]
      exact List.mem_append_right _ List.mem_cons_self
    · left
      have hd : op ≠ .disconnect := by
        rintro rfl
        cases hc
      rwa [connected_apply hd hr] at hc
  · rcases finished_apply hk hf with hf | ⟨c, rfl, hn⟩
    · exact Or.inl hf
    · right
      cases hc : s.connected with
      | true =>
          right
          rw [hi]
          refine List.mem_append_right _ ?_
          simp [Op.announced, hc, hn]
      | false =>
          left
          have hd : Op.complete k id c ≠ .disconnect := nofun
          rw [connected_apply hd nofun, hc]

end Store

end ReadThrough
