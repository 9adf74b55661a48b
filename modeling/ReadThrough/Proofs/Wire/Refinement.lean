import ReadThrough.Proofs.Wire.Keyspace
import ReadThrough.Proofs.Wire.Mirror
import ReadThrough.Wire.Remote

/-! # Operations as conversations

The operations that need no script, as conversations with a server, do what they do on a store.

* **Replies.**  What the server replies for the parts of a queue is read as what they are
  (`Reply.bytes?_elim`, `Reply.texts_bulks` and others).
* **Refinement** (`Server.Refines`).  A conversation has the result of an operation, publishes what
  the operation announces, and leaves a mirror of the store that the operation leaves.
* **Main statement** (`Server.refines_store`).  All of these conversations refine their operations,
  with every server that does what is documented. -/

namespace ReadThrough.Wire

/-! ### Replies -/

namespace Reply

theorem textOf_bytes (text : String) : textOf (Utf8.bytes text) = .ok text := by
  unfold textOf
  rw [Utf8.string?_bytes]

theorem bytes?_elim (b : Option Bytes) : (b.elim nothing bulk).bytes? = .ok b := by
  cases b <;> rfl

theorem text?_elim (t : Option String) :
    ((t.map Utf8.bytes).elim nothing bulk).text? = .ok t := by
  cases t with
  | none => rfl
  | some text =>
      show (textOf (Utf8.bytes text)).map some = _
      rw [textOf_bytes]
      rfl

theorem truth_ite (b : Bool) : (integer (if b then 1 else 0)).truth = .ok b := by
  cases b <;> rfl

theorem texts_bulks (ids : List String) :
    (list (ids.map fun id => bulk (Utf8.bytes id))).texts = .ok ids := by
  show (ids.map fun id => bulk (Utf8.bytes id)).mapM text = _
  induction ids with
  | nil => rfl
  | cons id ids ih =>
      rw [List.map_cons, List.mapM_cons, ih]
      show (textOf (Utf8.bytes id) >>= _) = _
      rw [textOf_bytes]
      rfl

theorem pair_ok {α β : Type} {f : Reply → Except Error α} {g : Reply → Except Error β} {a b : Reply}
    {x : α} {y : β} (hf : f a = .ok x) (hg : g b = .ok y) : (list [a, b]).pair f g = .ok (x, y) := by
  show (do let x ← f a; let y ← g b; Except.ok (x, y)) = _
  rw [hf, hg]
  rfl

theorem count_natCast {n : Nat} (h : n ≤ maxInteger) : (integer n).count = .ok n := by
  have hmax : maxInteger = 2 ^ 63 - 1 := rfl
  have hsize : UInt64.size = 2 ^ 64 := rfl
  show Except.ok ((n : Int) % (UInt64.size : Nat)).toNat = _
  rw [Int.emod_eq_of_lt (Int.natCast_nonneg n) (by omega), Int.toNat_natCast]

theorem refusal?_bulks {α : Type} (l : List α) (f : α → Bytes) :
    (list (l.map fun x => bulk (f x))).refusal? = none := by
  unfold refusal?
  refine refusalIn?_eq_none fun r hr => ?_
  obtain ⟨x, -, rfl⟩ := List.mem_map.mp hr
  rfl

theorem refusal?_elim (b : Option Bytes) : (b.elim nothing bulk).refusal? = none := by
  cases b <;> rfl

end Reply

namespace Server

variable {σ α : Type} {S : Server σ} {k : Keys} {now : Instant} {m m' : Store} {s s' : σ} {id : Id}

/-- A conversation with the server in the state `s` does what an operation does that leaves `m'` of
the store `m`: it has the same result, publishes what the operation announces (`said`, each message
behind its channel), and leaves a mirror of `m'`. -/
structure Refines (S : Server σ) (k : Keys) (now : Instant) (m : Store) (s : σ) (talk : Talk α)
    (result : α) (m' : Store) (said : List (String × String)) : Prop where
  result : (talk.run (S.answer now) s).1 = .ok result
  published : S.published (talk.run (S.answer now) s).2 =
    S.published s ++ said.map fun x => (Utf8.bytes x.1, Utf8.bytes x.2)
  announced : m'.feeds = (said.foldl (fun m x => m.publish x.1 x.2) m).feeds
  mirrors : S.Mirrors k now m' (talk.run (S.answer now) s).2

/-! ### Questions -/

/-- A conversation that only asks announces nothing, so its result is all there is to see. -/
theorem Refines.of_keeps {talk : Talk α} {result : α} (hr : talk.run (S.answer now) s = (.ok result, s'))
    (hs : S.Keeps now s s') (hm : S.Mirrors k now m' s) (hw : m'.wire = m.wire) :
    S.Refines k now m s talk result m' [] where
  result := congrArg Prod.fst hr
  published := by rw [hr, hs.published, List.map_nil, List.append_nil]
  announced := congrArg Prod.fst hw
  mirrors := by
    rw [hr]
    exact hm.keeps hs

/-- Two questions in one transaction. -/
theorem run_questions (hS : S.Documented) (read : Reply → Except Error α) {a b : Command}
    {ra rb : Reply} (ha : a.asks = true) (hb : b.asks = true) (hra : S.reply now s a = ra)
    (hrb : S.reply now (S.next now s a) b = rb) (hna : ra.refusal? = none)
    (hnb : rb.refusal? = none) :
    ∃ s', (Talk.atomic [a, b] read).run (S.answer now) s = (read (.list [ra, rb]), s') ∧
      S.Keeps now s s' := by
  have queues_of_asks {c : Command} (h : c.asks = true) : c.queues = true := by
    cases c <;> first | rfl | cases h
  refine ⟨_, ?_, (hS.asks now s a ha).trans (hS.asks now _ b hb)⟩
  subst hra hrb
  rw [run_atomic hS]
  · rfl
  · intro c hc
    rcases List.mem_pair.mp hc with rfl | rfl
    · exact queues_of_asks ha
    · exact queues_of_asks hb
  · intro r hr
    rcases List.mem_pair.mp hr with rfl | rfl
    · exact hna
    · exact hnb

theorem refines_lookup (hS : S.Documented) (h : S.Mirrors k now m s) (id : Id) :
    S.Refines k now m s (Remote.lookup k id) (m.lookup k id now).1 (m.lookup k id now).2 [] := by
  have h' := h.keeps (hS.asks now s (.get (k.value id)) rfl)
  have hv := hS.get now s (k.value id) _ (h.value id now le_rfl)
  have hf := hS.get now (S.next now s (.get (k.value id))) (k.failure id)
    (((m.failure? now (k.failure id)).map (·.message)).map Utf8.bytes) (by
      rw [h'.failure id now le_rfl, Option.map_map, Option.map_map]
      rfl)
  obtain ⟨s', hr, hk⟩ := run_questions hS Remote.readRecord rfl rfl hv hf
    (Reply.refusal?_elim _) (Reply.refusal?_elim _)
  refine .of_keeps (hr.trans (congrArg (·, s') ?_)) hk (h.forget _) (Store.wire_forget m now _)
  unfold Remote.readRecord
  rw [Reply.pair_ok (Reply.bytes?_elim _) (Reply.text?_elim _)]
  show Except.ok _ = _
  unfold Store.lookup Store.record
  cases m.failure? now (k.failure id) with
  | some f => rfl
  | none => cases m.values[k.value id]? <;> rfl

theorem refines_isFinished (hS : S.Documented) (h : S.Mirrors k now m s) (id : Id) :
    S.Refines k now m s (Remote.isFinished k id) (m.isFinished k id now).1
      (m.isFinished k id now).2 [] := by
  have h' := h.keeps (hS.asks now s (.has (k.value id)) rfl)
  have hv := hS.has now s (k.value id)
  rw [h.value id now le_rfl, Option.isSome_map] at hv
  have hf := hS.has now (S.next now s (.has (k.value id))) (k.failure id)
  rw [h'.failure id now le_rfl, Option.isSome_map] at hf
  obtain ⟨s', hr, hk⟩ := run_questions hS
    (fun r => (r.pair Reply.truth Reply.truth).map fun x => x.1 || x.2) rfl rfl hv hf rfl rfl
  have hm : S.Mirrors k now (m.isFinished k id now).2 s := by
    unfold Store.isFinished Store.afterFinished
    dsimp only
    split
    · exact h
    · exact h.forget _
  refine .of_keeps (hr.trans (congrArg (·, s') ?_)) hk hm (Store.wire_afterFinished m k id now)
  rw [Reply.pair_ok (Reply.truth_ite _) (Reply.truth_ite _)]
  show Except.ok _ = _
  unfold Store.isFinished Store.finished
  rw [Std.ExtTreeMap.contains_eq_isSome_getElem?]

/-- One question. -/
theorem run_question (hS : S.Documented) (read : Reply → Except Error α) {c : Command} {r : Reply}
    (hc : c.asks = true) (hr : S.reply now s c = r)
    (hn : r.refusal? = none) :
    ∃ s', (Talk.single c read).run (S.answer now) s = (read r, s') ∧ S.Keeps now s s' := by
  subst hr
  exact ⟨_, run_single hn, hS.asks now s c hc⟩

theorem refines_queued (hS : S.Documented) (h : S.Mirrors k now m s) (n : Nat) :
    S.Refines k now m s (Remote.queued k n) (m.queued k n) m [] := by
  unfold Remote.queued
  by_cases hn : n = 0
  · subst hn
    rw [if_pos rfl]
    exact .of_keeps rfl ⟨fun _ _ _ => rfl, rfl⟩ h rfl
  · rw [if_neg hn]
    obtain ⟨z, hz, hq⟩ := h.line_eq
    have hle : min n maxInteger - 1 ≤ maxInteger := (Nat.sub_le _ _).trans (Nat.min_le_right _ _)
    have hr := hS.range now s k.queue z 0 (min n maxInteger - 1) (hq now le_rfl) (Nat.zero_le _) hle
    -- the last rank that is asked for stands for the number of ids, or for more than there are
    have hline : ((z.line.take (min n maxInteger - 1 + 1)).drop 0).map (fun x => Reply.bulk x.1) =
        (m.queued k n).map fun id => .bulk (Utf8.bytes id) := by
      have hmax : 0 < maxInteger := by decide
      have htake : z.line.take (min n maxInteger) = z.line.take n := by
        rw [← List.take_take, List.take_of_length_le (i := maxInteger) z.countable]
      rw [Nat.sub_add_cancel (by omega), List.drop_zero, htake, hz]
      unfold Store.queued Backlog.ids Backlog.scored
      rw [← List.map_take, List.map_map, List.map_map]
      rfl
    rw [hline] at hr
    obtain ⟨s', hrun, hk⟩ := run_question hS Reply.texts rfl hr (Reply.refusal?_bulks _ _)
    exact .of_keeps (hrun.trans (congrArg (·, s') (Reply.texts_bulks _))) hk h rfl

/-- However the claimed ids were listed, in order they are the list of the store. -/
theorem sort_claimed {ids : List Id} (hn : ids.Nodup)
    (h : ∀ id, id ∈ ids ↔ id ∈ (m.queue k).claimed) :
    ids.mergeSort (fun a b => decide (a ≤ b)) = m.inProgress k := by
  have hsorted : (ids.mergeSort fun a b => decide (a ≤ b)).Pairwise (· ≤ ·) := by
    refine (List.pairwise_mergeSort (fun a b c hab hbc => ?_) (fun a b => ?_) ids).imp
      of_decide_eq_true
    · exact decide_eq_true (String.le_trans (of_decide_eq_true hab) (of_decide_eq_true hbc))
    · rw [Bool.or_eq_true, decide_eq_true_iff, decide_eq_true_iff]
      exact String.le_total a b
  have hlt : (m.inProgress k).Pairwise (· < ·) :=
    (m.queue k).claimed.ordered_toList.imp compareOfLessAndEq_eq_lt.mp
  have hperm : (ids.mergeSort fun a b => decide (a ≤ b)).Perm (m.inProgress k) := by
    refine (List.mergeSort_perm ids _).trans ((List.perm_ext_iff_of_nodup hn ?_).mpr fun id => ?_)
    · refine hlt.imp ?_
      rintro a _ hab rfl
      exact String.lt_irrefl a hab
    · rw [h, Store.inProgress, Std.ExtTreeSet.mem_toList]
  exact hperm.eq_of_pairwise (fun _ _ _ _ => String.le_antisymm) hsorted
    (hlt.imp fun hab => String.not_lt.mp (String.lt_asymm hab))

theorem refines_inProgress (hS : S.Documented) (h : S.Mirrors k now m s) :
    S.Refines k now m s (Remote.inProgress k) (m.inProgress k) m [] := by
  obtain ⟨l, hn, hl, hr⟩ := hS.members now s k.inProgress _ (h.inProgress now le_rfl)
  have hmem (x : Bytes) : x ∈ l ↔ ∃ id ∈ (m.queue k).claimed, Utf8.bytes id = x := by
    rw [← List.mem_toFinset, hl, Store.mem_claims]
  -- all members are bytes of texts
  obtain ⟨ids, rfl⟩ : ∃ ids : List Id, ids.map Utf8.bytes = l := by
    have hrange : l ∈ Set.range (List.map Utf8.bytes) := by
      rw [Set.range_list_map]
      exact fun x hx => ((hmem x).mp hx).imp fun _ => And.right
    exact hrange
  have hids (id : Id) : id ∈ ids ↔ id ∈ (m.queue k).claimed := by
    have hinj := hmem (Utf8.bytes id)
    simpa only [List.mem_map, Utf8.bytes_inj, exists_eq_right] using hinj
  rw [List.map_map] at hr
  obtain ⟨s', hrun, hk⟩ := run_question hS
    (fun r => r.texts.map fun ids => ids.mergeSort fun a b => decide (a ≤ b)) rfl hr
    (Reply.refusal?_bulks _ _)
  refine .of_keeps (hrun.trans (congrArg (·, s') ?_)) hk h rfl
  show (Reply.list (ids.map fun id => .bulk (Utf8.bytes id))).texts.map _ = _
  rw [Reply.texts_bulks]
  exact congrArg Except.ok (sort_claimed (hn.of_map) hids)

theorem refines_pending (hS : S.Documented) (h : S.Mirrors k now m s) :
    S.Refines k now m s (Remote.pending k) (m.pending k) m [] := by
  obtain ⟨z, hz, hq⟩ := h.line_eq
  have hr := hS.size now s k.queue z (hq now le_rfl)
  have hlen : z.line.length = m.pending k := by
    rw [hz, Backlog.scored, List.length_map, Backlog.length_ordered]
    rfl
  have hcount := Reply.count_natCast z.countable
  rw [hlen] at hr hcount
  obtain ⟨s', hrun, hk⟩ := run_question hS Reply.count rfl hr rfl
  exact .of_keeps (hrun.trans (congrArg (·, s') hcount)) hk h rfl

/-! ### Results -/

/-- A result that the server can keep: the expiry of a failure is a whole positive number of
milliseconds that its clock can name. -/
def Takes (S : Server σ) (now : Instant) : Completion → Prop
  | .value _ => True
  | .failure _ ttl => ∃ millis, 0 < millis ∧ ttl = .ofMillis millis ∧ S.Names now millis

/-- The clock of a store goes further than a clock that counts milliseconds. -/
theorem after?_ofMillis {now millis : ℕ} (h : Instant.millis now + millis ≤ maxInteger) :
    Instant.after? now (.ofMillis millis) = some (now + (Duration.ofMillis millis).nanos) := by
  have hmax : maxInteger = 2 ^ 63 - 1 := rfl
  unfold Instant.millis Duration.nanosPerMilli at h
  have hle : now + millis * 1000000 ≤ (2 ^ 63 - 1) * 1000000000 - 1 := by omega
  exact if_pos hle

theorem Takes.nameable {c : Completion} (h : S.Takes now c) : c.nameable now = true := by
  cases c with
  | value bytes => rfl
  | failure message ttl =>
      obtain ⟨millis, -, rfl, hn⟩ := h
      unfold Names at hn
      exact congrArg Option.isSome (after?_ofMillis (by omega))

theorem ttlMillis_ofMillis {millis : Nat} (hpos : 0 < millis) (hn : S.Names now millis) :
    Remote.ttlMillis (.ofMillis millis) = millis := by
  have hmax : maxInteger = 2 ^ 63 - 1 := rfl
  have hmillis : Remote.maxMillis = 2 ^ 64 - 1 := rfl
  have hm : (Duration.ofMillis millis).millis = millis :=
    Nat.mul_div_cancel millis (by decide)
  unfold Names at hn
  unfold Remote.ttlMillis
  rw [hm]
  omega

theorem Writes.held_key {p : Keys.Part} {content : Instant → Option Held}
    (h : S.Writes now (k.key p) content s s') {t : Instant} (ht : now ≤ t) (q : Keys.Part) :
    S.held s' t (Utf8.bytes (k.key q)) =
      if q = p then content t else S.held s t (Utf8.bytes (k.key q)) := by
  simp only [h.held t ht, Keys.bytes_key_inj]

/-- The state `s'` of the server is `s` after a result of `id` was written: `written` is what the
key `k.key p` holds now, and `k.key q` holds nothing. -/
structure Written (S : Server σ) (k : Keys) (id : Id) (now : Instant) (p q : Keys.Part)
    (written : Instant → Option Held) (s s' : σ) : Prop where
  held : ∀ t, now ≤ t → ∀ r : Keys.Part, S.held s' t (Utf8.bytes (k.key r)) =
    if r = .inProgress then (S.held s t (Utf8.bytes k.inProgress)).bind (Held.without (Utf8.bytes id))
    else if r = q then none
    else if r = p then written t
    else S.held s t (Utf8.bytes (k.key r))
  published : S.published s' = S.published s ++ [(Utf8.bytes k.channel, Utf8.bytes id)]

/-- A record is written and the other one deleted, the claim is released and the id announced. -/
theorem run_completing (hS : S.Documented) (h : S.Mirrors k now m s) (id : Id) {a b : Command}
    {p q : Keys.Part} {written : Instant → Option Held} (hqa : a.queues = true)
    (hqb : b.queues = true) (hra : (S.reply now s a).refusal? = none)
    (hwa : S.Writes now (k.key p) written s (S.next now s a))
    (hrb : (S.reply now (S.next now s a) b).refusal? = none)
    (hwb : S.Writes now (k.key q) (fun _ => none) (S.next now s a) (S.next now (S.next now s a) b))
    (hp : p ≠ .inProgress) (hq : q ≠ .inProgress) (read : Reply → Except Error α) {result : α}
    (hread : ∀ replies, read (.list replies) = .ok result) :
    ∃ s', (Talk.atomic [a, b, .removeMember k.inProgress id, .publish k.channel id] read).run
        (S.answer now) s = (.ok result, s') ∧
      S.Written k id now p q written s s' := by
  have hset (t : Instant) (ht : now ≤ t) :
      S.held (S.next now (S.next now s a) b) t (Utf8.bytes k.inProgress) =
        S.held s t (Utf8.bytes k.inProgress) := by
    have h1 := hwa.held_key ht .inProgress
    have h2 := hwb.held_key ht .inProgress
    rw [if_neg hp.symm] at h1
    rw [if_neg hq.symm] at h2
    exact h2.trans h1
  obtain ⟨hrc, hwc⟩ := hS.removeMember now _ k.inProgress id (m.claims k)
    ((hset now le_rfl).trans (h.inProgress now le_rfl))
  obtain ⟨⟨n, hrd⟩, hd, hpub⟩ := hS.publish now
    (S.next now (S.next now (S.next now s a) b) (.removeMember k.inProgress id)) k.channel id
  refine ⟨_, (run_atomic hS ?_ ?_).trans (congrArg (·, _) (hread _)), fun t ht r => ?_, ?_⟩
  · simp only [List.forall_mem_cons, hqa, hqb, true_and]
    exact ⟨rfl, rfl, List.forall_mem_nil _⟩
  · simp only [sequence, List.forall_mem_cons, hra, hrb, hrc, hrd, true_and]
    exact ⟨rfl, rfl, List.forall_mem_nil _⟩
  · show S.held (S.next now _ (.publish k.channel id)) t _ = _
    have hc := Writes.held_key (p := .inProgress) hwc ht r
    rw [hd t ht, hc, hset t ht, hwb.held_key ht r, hwa.held_key ht r]
  · show S.published (S.next now _ (.publish k.channel id)) = _
    rw [hpub, hwc.published, hwb.published, hwa.published]

/-- When a result has taken effect on the store, the server mirrors it if it holds the new records,
has released the claim and has left everything else. -/
theorem Mirrors.completed (h : S.Mirrors k now m s) {c : Completion}
    (hm : m.TakesEffect k id c now m')
    (hqueue : ∀ t, now ≤ t → S.held s' t (Utf8.bytes k.queue) = S.held s t (Utf8.bytes k.queue))
    (hclaims : ∀ t, now ≤ t → S.held s' t (Utf8.bytes k.inProgress) =
      (S.held s t (Utf8.bytes k.inProgress)).bind (Held.without (Utf8.bytes id)))
    (hvalue : ∀ j t, now ≤ t → S.held s' t (Utf8.bytes (k.value j)) =
      if j = id then (c.records now).1.map Held.string else S.held s t (Utf8.bytes (k.value j)))
    (hfailure : ∀ j t, now ≤ t → S.held s' t (Utf8.bytes (k.failure j)) =
      if j = id then
        ((c.records now).2.filter fun f => t < f.expires).map fun f =>
          Held.string (Utf8.bytes f.message)
      else S.held s t (Utf8.bytes (k.failure j))) :
    S.Mirrors k now m' s' := by
  have hrv : m'.values[k.value id]? = (c.records now).1 := congrArg Prod.fst hm.record
  have hrf : m'.failures[k.failure id]? = (c.records now).2 := congrArg Prod.snd hm.record
  constructor
  · rw [hm.backlog]
    exact h.exact
  · rw [hm.backlog]
    exact h.queue.imp fun z => .imp_right fun hz t ht => (hqueue t ht).trans (hz t ht)
  · intro t ht
    rw [hclaims t ht, h.inProgress t ht, Held.ofSet_bind_without, Store.claims_release hm.released]
  · intro j t ht
    rw [hvalue j t ht]
    by_cases hj : j = id
    · rw [if_pos hj, hj, hrv]
    · rw [if_neg hj, h.value j t ht, hm.values _ (Keys.value_inj.not.mpr hj)]
  · intro j t ht
    rw [hfailure j t ht]
    unfold Store.failure?
    by_cases hj : j = id
    · rw [if_pos hj, hj, hrf]
    · rw [if_neg hj, h.failure j t ht, Store.failure?,
        hm.failures _ (Keys.failure_inj.not.mpr hj)]

theorem refines_complete (hS : S.Documented) (h : S.Mirrors k now m s) (id : Id) {c : Completion}
    (hc : S.Takes now c) :
    S.Refines k now m s (Remote.complete k id c) () (m.complete k id c now).2 [(k.channel, id)] := by
  have hm := Store.takesEffect_complete hc.nameable m k id
  have announced : (m.complete k id c now).2.feeds = (m.publish k.channel id).feeds :=
    hm.announced.trans (Store.publish_feeds m k.channel id).symm
  -- what the two kinds of results have in common
  have finish {p q : Keys.Part} {written : Instant → Option Held} {s' : σ}
      (hr : (Remote.complete k id c).run (S.answer now) s = (.ok (), s'))
      (hw : S.Written k id now p q written s s')
      (hm' : S.Mirrors k now (m.complete k id c now).2 s') :
      S.Refines k now m s (Remote.complete k id c) () (m.complete k id c now).2
        [(k.channel, id)] :=
    ⟨congrArg Prod.fst hr, hr ▸ hw.published, announced, hr ▸ hm'⟩
  cases c with
  | value bytes =>
      obtain ⟨hra, hwa⟩ := hS.set now s (k.value id) bytes
      obtain ⟨hrb, hwb⟩ := hS.del now (S.next now s (.set (k.value id) bytes)) (k.failure id)
      obtain ⟨s', hr, hw⟩ := run_completing (p := .value id) (q := .failure id) hS h id
        rfl rfl (hra ▸ rfl) hwa (hrb ▸ rfl) hwb nofun nofun (fun _ => .ok ())
        fun _ => rfl
      refine finish hr hw (h.completed hm (fun t ht => ?_) (fun t ht => ?_) (fun j t ht => ?_)
        fun j t ht => ?_)
      · exact hw.held t ht .queue
      · exact hw.held t ht .inProgress
      · simpa [Keys.key, Completion.records] using hw.held t ht (.value j)
      · simpa [Keys.key, Completion.records] using hw.held t ht (.failure j)
  | failure message ttl =>
      obtain ⟨millis, hpos, rfl, hn⟩ := hc
      obtain ⟨hra, hwa⟩ := hS.setFor now s (k.failure id) millis message hpos hn
      obtain ⟨hrb, hwb⟩ := hS.del now
        (S.next now s (.setFor (k.failure id) millis message)) (k.value id)
      obtain ⟨s', hr, hw⟩ := run_completing (p := .failure id) (q := .value id) hS h id
        rfl rfl (hra ▸ rfl) hwa (hrb ▸ rfl) hwb nofun nofun (fun _ => .ok ())
        fun _ => rfl
      have hcomplete : Remote.complete k id (.failure message (.ofMillis millis)) =
          Talk.atomic [.setFor (k.failure id) millis message, .del (k.value id),
            .removeMember k.inProgress id, .publish k.channel id] fun _ => .ok () := by
        show Talk.atomic (.setFor (k.failure id) (Remote.ttlMillis (.ofMillis millis)) message :: _) _ =
          _
        rw [ttlMillis_ofMillis hpos hn]
        rfl
      refine finish (hcomplete ▸ hr) hw (h.completed hm (fun t ht => ?_) (fun t ht => ?_)
        (fun j t ht => ?_) fun j t ht => ?_)
      · exact hw.held t ht .queue
      · exact hw.held t ht .inProgress
      · simpa [Keys.key, Completion.records] using hw.held t ht (.value j)
      · simpa [Keys.key, Completion.records, Option.filter_some, apply_ite] using
          hw.held t ht (.failure j)

/-- **Conversations refine operations.**  Let a server do what is documented, and let it mirror a
store.  Then each conversation has the result of its operation, publishes what the operation
announces and leaves a mirror, for every result that the server can take, every id and every
number of queued ids that is asked for. -/
theorem refines_store (hS : S.Documented) (h : S.Mirrors k now m s) :
    (∀ id c, S.Takes now c → (m.complete k id c now).1 = true ∧
      S.Refines k now m s (Remote.complete k id c) () (m.complete k id c now).2
        [(k.channel, id)]) ∧
    (∀ id, S.Refines k now m s (Remote.lookup k id) (m.lookup k id now).1
      (m.lookup k id now).2 []) ∧
    (∀ id, S.Refines k now m s (Remote.isFinished k id) (m.isFinished k id now).1
      (m.isFinished k id now).2 []) ∧
    (∀ n, S.Refines k now m s (Remote.queued k n) (m.queued k n) m []) ∧
    S.Refines k now m s (Remote.inProgress k) (m.inProgress k) m [] ∧
    S.Refines k now m s (Remote.pending k) (m.pending k) m [] := by
  refine ⟨fun id c hc => ⟨?_, refines_complete hS h id hc⟩, refines_lookup hS h,
    refines_isFinished hS h, refines_queued hS h, refines_inProgress hS h, refines_pending hS h⟩
  rw [Store.complete_accepted, hc.nameable]

/-- A store with two queued ids of one priority, a claim, a value and a failure. -/
def stocked : Store :=
  let k : Keys := ⟨"q"⟩
  let m : Store := {}
  let m := (m.enqueue k "z" (-7) 0).2
  let m := (m.dequeue k).2
  let m := (m.enqueue k "é" 3 0).2
  let m := (m.enqueue k "b" 3 0).2
  let m := (m.complete k "v" (.value [118]) 0).2
  (m.complete k "f" (.failure "old" (.ofMillis 9)) 0).2

theorem ordered_stocked : (stocked.queue ⟨"q"⟩).backlog.ordered = [("b", 3), ("é", 3)] := by
  decide +kernel

/-- Two milliseconds later a keyspace that mirrors this store takes a failure for the claimed id and
answers for the others as the store does. -/
theorem refines_store_stocked :
    let k : Keys := ⟨"q"⟩
    let S := Keyspace.server 1700000000000
    let c : Completion := .failure "boom" (.ofMillis 5)
    ∃ s : Keyspace, S.Documented ∧ S.Mirrors k 2000000 stocked s ∧ S.Takes 2000000 c ∧
      ((Remote.complete k "z" c).run (S.answer 2000000) s).1 = .ok () ∧
      S.published ((Remote.complete k "z" c).run (S.answer 2000000) s).2 =
        [(Utf8.bytes "rc:q:ch", Utf8.bytes "z")] ∧
      ((Remote.lookup k "f").run (S.answer 2000000) s).1 = .ok (.failure "old") ∧
      ((Remote.isFinished k "v").run (S.answer 2000000) s).1 = .ok true ∧
      ((Remote.queued k 1).run (S.answer 2000000) s).1 = .ok ["b"] ∧
      ((Remote.inProgress k).run (S.answer 2000000) s).1 = .ok ["z"] ∧
      ((Remote.pending k).run (S.answer 2000000) s).1 = .ok 2 := by
  intro k S c
  have he : (stocked.queue k).backlog.Exact := by
    intro id p hp
    have hm := Backlog.mem_ordered.mpr hp
    rw [ordered_stocked] at hm
    obtain rfl : p = 3 := by
      rcases List.mem_pair.mp hm with he | he <;> exact (Prod.mk.inj he).2
    decide
  have hsize : (stocked.queue k).backlog.size ≤ maxInteger := by
    rw [← Backlog.length_ordered, ordered_stocked]
    decide
  have hS : S.Documented := Keyspace.documented _
  have hm := Keyspace.mirrors_ofStore 1700000000000 stocked k 2000000 he hsize
  have hc : S.Takes 2000000 c := ⟨5, by decide, rfl, by unfold Names; decide⟩
  obtain ⟨hcomplete, hlookup, hfinished, hqueued, hclaimed, hpending⟩ := refines_store hS hm
  refine ⟨_, hS, hm, hc, (hcomplete "z" c hc).2.result, (hcomplete "z" c hc).2.published, ?_, ?_, ?_,
    ?_, ?_⟩
  · rw [(hlookup "f").result]
    decide +kernel
  · rw [(hfinished "v").result]
    decide +kernel
  · rw [(hqueued 1).result]
    decide +kernel
  · rw [hclaimed.result]
    decide +kernel
  · rw [hpending.result]
    decide +kernel

end Server

end ReadThrough.Wire
