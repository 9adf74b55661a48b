import ReadThrough.Proofs.Store.Entries

/-! # All or nothing when a result is written

Writing the result of a computation changes several places: one record is stored and the other one
deleted, the claim is released and the id announced.

* **Full effect** (`Store.TakesEffect`) says what becomes of each place, and that nothing else
  changes.  A result that is accepted takes full effect (`Store.takesEffect_complete`).
* **A rest.**  The expiry of a failure is computed after the value of the id was deleted.  If the
  clock cannot name it, nothing is written and the value is gone (`Store.complete_unnameable`).
* **Main statement** (`Store.complete_all_or_nothing_iff`).  A result takes full effect, or nothing
  at all is changed, if and only if the clock can name its expiry or there was no value. -/

namespace ReadThrough

/-- The value and the failure that are on record once a result is written. -/
def Completion.records (c : Completion) (now : Instant) : Option Bytes × Option Failure :=
  match c with
  | .value bytes => (some bytes, none)
  | .failure message ttl => (none, some ⟨message, now + ttl.nanos⟩)

namespace Store

variable {s s' t : Store} {k : Keys} {id : Id} {c : Completion} {now : Instant}

/-- The result `c` of `id` has been written, and nothing else has happened. -/
structure TakesEffect (s : Store) (k : Keys) (id : Id) (c : Completion) (now : Instant)
    (s' : Store) : Prop where
  /-- One record is stored and the other one deleted. -/
  record : (s'.values[k.value id]?, s'.failures[k.failure id]?) = c.records now
  values : ∀ key, key ≠ k.value id → s'.values[key]? = s.values[key]?
  failures : ∀ key, key ≠ k.failure id → s'.failures[key]? = s.failures[key]?
  /-- The claim is released, and no other one. -/
  released : ∀ j, j ∈ (s'.queue k).claimed ↔ j ∈ (s.queue k).claimed ∧ j ≠ id
  backlog : (s'.queue k).backlog = (s.queue k).backlog
  markers : (s'.queue k).markers = (s.queue k).markers
  queues : ∀ l, l ≠ k → s'.queue l = s.queue l
  /-- The id is announced once to everybody who listens to the channel. -/
  announced : s'.feeds = s.feeds.map fun f =>
    if s.connected ∧ f.channel = k.channel ∧ f.live then { f with inbox := f.inbox ++ [id] } else f
  connected : s'.connected = s.connected
  signals : s'.signals = s.signals

/-- Values, failures, claims and delivered messages are what they were. -/
structure Untouched (s s' : Store) : Prop where
  values : s'.values = s.values
  failures : s'.failures = s.failures
  claimed : ∀ l, (s'.queue l).claimed = (s.queue l).claimed
  feeds : s'.feeds = s.feeds

/-! ### A result that is accepted -/

theorem release_queue (s : Store) (k : Keys) (id : Id) :
    ((s.release k id).queue k).backlog = (s.queue k).backlog ∧
      ((s.release k id).queue k).markers = (s.queue k).markers ∧
      ∀ j, j ∈ ((s.release k id).queue k).claimed ↔ j ∈ (s.queue k).claimed ∧ j ≠ id := by
  unfold release
  by_cases hc : (s.queue k).claimed.contains id
  · rw [if_pos hc, queue_setQueue]
    refine ⟨rfl, rfl, fun j => ?_⟩
    have he : j ≠ id ↔ ¬ id = j := ne_comm
    simp [Std.ExtTreeSet.mem_erase, and_comm, he]
  · rw [if_neg hc]
    refine ⟨rfl, rfl, fun j => ⟨fun hj => ⟨hj, ?_⟩, And.left⟩⟩
    rintro rfl
    exact hc hj

theorem release_rest (s : Store) (k : Keys) (id : Id) :
    (s.release k id).values = s.values ∧ (s.release k id).failures = s.failures ∧
      (s.release k id).feeds = s.feeds ∧ (s.release k id).connected = s.connected ∧
      (s.release k id).signals = s.signals ∧
      ∀ l, l ≠ k → (s.release k id).queue l = s.queue l := by
  unfold release
  dsimp only
  split
  · exact ⟨rfl, rfl, rfl, rfl, rfl, fun l hl => queue_setQueue_ne s (Ne.symm hl) _⟩
  · exact ⟨rfl, rfl, rfl, rfl, rfl, fun _ _ => rfl⟩

theorem publish_feeds (s : Store) (channel message : String) :
    (s.publish channel message).feeds = s.feeds.map fun f =>
      if s.connected ∧ f.channel = channel ∧ f.live then { f with inbox := f.inbox ++ [message] }
      else f := by
  unfold publish
  split
  · rename_i hc
    refine List.map_congr_left fun f _ => ?_
    by_cases hf : f.channel = channel
    · simp [hc, hf, Feed.deliver]
    · simp [hf]
  · rename_i hc
    simp [hc]

/-- Once the records are written, releasing the claim and announcing the id does the rest. -/
theorem takesEffect_announce (hq : t.queues = s.queues) (hf : t.feeds = s.feeds)
    (hc : t.connected = s.connected) (hs : t.signals = s.signals)
    (hrecord : (t.values[k.value id]?, t.failures[k.failure id]?) = c.records now)
    (hvalues : ∀ key, key ≠ k.value id → t.values[key]? = s.values[key]?)
    (hfailures : ∀ key, key ≠ k.failure id → t.failures[key]? = s.failures[key]?) :
    TakesEffect s k id c now ((t.release k id).publish k.channel id) := by
  have hqueue (l : Keys) : t.queue l = s.queue l := by unfold queue; rw [hq]
  obtain ⟨hb, hm, hcl⟩ := release_queue t k id
  obtain ⟨hv, hfl, hfd, hcn, hsg, hql⟩ := release_rest t k id
  have hp : ((t.release k id).publish k.channel id).queues = (t.release k id).queues ∧
      ((t.release k id).publish k.channel id).values = t.values ∧
      ((t.release k id).publish k.channel id).failures = t.failures ∧
      ((t.release k id).publish k.channel id).connected = t.connected ∧
      ((t.release k id).publish k.channel id).signals = t.signals := by
    unfold publish
    split <;> exact ⟨rfl, hv, hfl, hcn, hsg⟩
  obtain ⟨hpq, hpv, hpf, hpc, hps⟩ := hp
  have hpqueue (l : Keys) :
      ((t.release k id).publish k.channel id).queue l = (t.release k id).queue l := by
    unfold queue
    rw [hpq]
  exact {
    record := by rw [hpv, hpf, hrecord]
    values := fun key hk => by rw [hpv, hvalues key hk]
    failures := fun key hk => by rw [hpf, hfailures key hk]
    released := fun j => by rw [hpqueue, hcl, hqueue]
    backlog := by rw [hpqueue, hb, hqueue]
    markers := by rw [hpqueue, hm, hqueue]
    queues := fun l hl => by rw [hpqueue, hql l hl, hqueue]
    announced := by rw [publish_feeds, hfd, hcn, hf, hc]
    connected := hpc.trans hc
    signals := hps.trans hs }

/-- A result that is accepted takes full effect. -/
theorem takesEffect_complete (h : c.nameable now = true) (s : Store) (k : Keys) (id : Id) :
    TakesEffect s k id c now (s.complete k id c now).2 := by
  cases c with
  | value bytes =>
      refine takesEffect_announce rfl rfl rfl rfl ?_ (fun key hk => ?_) (fun key hk => ?_)
      · simp [Completion.records]
      · simp [Std.ExtTreeMap.getElem?_insert, hk.symm]
      · simp [Std.ExtTreeMap.getElem?_erase, hk.symm]
  | failure message ttl =>
      obtain ⟨expires, he⟩ := Option.isSome_iff_exists.mp h
      obtain rfl := Instant.eq_of_after? he
      simp only [complete, he]
      refine takesEffect_announce rfl rfl rfl rfl ?_ (fun key hk => ?_) (fun key hk => ?_)
      · simp [Completion.records]
      · simp [Std.ExtTreeMap.getElem?_erase, hk.symm]
      · simp [Std.ExtTreeMap.getElem?_insert, hk.symm]

/-! ### A result that is not -/

/-- If the clock cannot name the expiry of a failure, the value of the id is gone, and nothing else
has happened. -/
theorem complete_unnameable (h : c.nameable now = false) (s : Store) (k : Keys) (id : Id) :
    (s.complete k id c now).2 = { s with values := s.values.erase (k.value id) } := by
  cases c with
  | value bytes => cases h
  | failure message ttl =>
      have ha : now.after? ttl = none := by simpa [Completion.nameable] using h
      simp only [complete, ha]

/-- Deleting what is not there changes nothing. -/
theorem erase_values_eq_self_iff {key : String} :
    s.values.erase key = s.values ↔ s.values[key]? = none := by
  constructor
  · intro h
    rw [← h]
    simp
  · intro h
    refine Std.ExtTreeMap.ext_getElem? fun key' => ?_
    rw [Std.ExtTreeMap.getElem?_erase]
    split
    · rename_i he
      rw [← Std.LawfulEqCmp.compare_eq_iff_eq.mp he, h]
    · rfl

/-- **All or nothing.**  Writing a result returns normally if and only if the clock can name its
expiry, and then it takes full effect.  If it does not return, the value of the id is deleted and
nothing else changes.  So all or nothing happens unless there was a value to lose. -/
theorem complete_all_or_nothing_iff (s : Store) (k : Keys) (id : Id) (c : Completion)
    (now : Instant) :
    (if (s.complete k id c now).1 then TakesEffect s k id c now (s.complete k id c now).2
        else (s.complete k id c now).2 = { s with values := s.values.erase (k.value id) }) ∧
      ((s.complete k id c now).1 = true ∧ TakesEffect s k id c now (s.complete k id c now).2 ∨
          (s.complete k id c now).1 = false ∧ Untouched s (s.complete k id c now).2 ↔
        c.nameable now = true ∨ s.values[k.value id]? = none) := by
  rw [complete_accepted]
  cases hn : c.nameable now with
  | true =>
      have ht := takesEffect_complete hn s k id
      exact ⟨ht, fun _ => Or.inl rfl, fun _ => Or.inl ⟨rfl, ht⟩⟩
  | false =>
      have hr := complete_unnameable hn s k id
      refine ⟨hr, ?_, ?_⟩
      · rintro (⟨hf, -⟩ | ⟨-, hu⟩)
        · cases hf
        · right
          rw [hr] at hu
          exact erase_values_eq_self_iff.mp hu.values
      · rintro (hf | hv)
        · cases hf
        · right
          rw [hr, erase_values_eq_self_iff.mpr hv]
          exact ⟨rfl, rfl, rfl, fun _ => rfl, rfl⟩

/-- A value is lost to a failure that is to be kept for longer than the clock can tell. -/
theorem complete_all_or_nothing_iff_lost :
    let k : Keys := ⟨"q"⟩
    let s := (complete {} k "x" (.value [118]) 0).2
    let c := Completion.failure "boom" (.ofSecs (UInt64.size - 1))
    (s.lookup k "x" 0).1 = .value [118] ∧ (s.complete k "x" c 0).1 = false ∧
      ((s.complete k "x" c 0).2.lookup k "x" 0).1 = .missing ∧
      ¬ Untouched s (s.complete k "x" c 0).2 := by
  intro k s c
  have hn : c.nameable 0 = false := by decide
  have ha := complete_accepted s k "x" c 0
  rw [hn] at ha
  refine ⟨by decide +kernel, ha, by decide +kernel, fun hu => ?_⟩
  have hi := (complete_all_or_nothing_iff s k "x" c 0).2.mp (Or.inr ⟨ha, hu⟩)
  rw [hn] at hi
  exact absurd hi (by decide +kernel)

end Store

end ReadThrough
