import ReadThrough.Proofs.Store.Requests

/-! # Isolation of queues

Queues of one store share the maps in which records are kept, and are told apart by their keys
alone.  A key is the name of the queue, a tag for the kind of record and the id, joined by colons.
A name may hold colons too, so two queues can have a record key in common.

* **Common keys** (`Keys.exists_value_eq_iff`, `Keys.exists_failure_eq_iff`).  Two queues have a
  record key in common if and only if the name of one of them goes on, after the name of the other,
  with the tag of that kind of record (`Keys.Shadows`).
* **Isolation** (`Store.Isolated`).  What happens on one queue has no influence on the answers of
  the other.
* **Main statement** (`Store.isolated_iff`).  Two queues are isolated if and only if neither name
  shadows the other. -/

namespace ReadThrough

/-! ### Keys -/

namespace Keys

/-- A name is followed by a tag `:w` and one more colon.  Two such texts, each with some id behind
it, can be equal only if one name goes on with that very tag after the other name. -/
theorem exists_tagged_eq_iff {w : List Char} (hw : ':' ∉ w) (a b : List Char) :
    (∃ i j, a ++ ':' :: w ++ ':' :: i = b ++ ':' :: w ++ ':' :: j) ↔
      a = b ∨ a ++ ':' :: w ++ [':'] <+: b ++ [':'] ∨ b ++ ':' :: w ++ [':'] <+: a ++ [':'] := by
  -- the case of the shorter name in front
  have follow (a c i j : List Char) (h : ':' :: w ++ ':' :: i = c ++ (':' :: w ++ ':' :: j)) :
      c = [] ∨ a ++ ':' :: w ++ [':'] <+: a ++ c ++ [':'] := by
    rcases List.append_eq_append_iff.mp h with ⟨d, rfl, hd⟩ | ⟨d, ht, hd⟩
    · right
      cases d with
      | nil => simp
      | cons x d =>
          obtain ⟨rfl, -⟩ := List.cons.inj hd
          exact ⟨d ++ [':'], by simp⟩
    · cases c with
      | nil => exact Or.inl rfl
      | cons x c =>
          right
          cases d with
          | nil => simp [ht]
          | cons y d =>
              -- the rest of the tag would hold a colon
              obtain ⟨-, rfl⟩ := List.cons.inj ht
              obtain ⟨rfl, -⟩ := List.cons.inj hd
              simp at hw
  constructor
  · rintro ⟨i, j, h⟩
    rw [List.append_assoc, List.append_assoc] at h
    rcases List.append_eq_append_iff.mp h with ⟨c, rfl, hc⟩ | ⟨c, rfl, hc⟩
    · rcases follow a c i j hc with rfl | hp
      · exact Or.inl (List.append_nil a).symm
      · exact Or.inr (Or.inl hp)
    · rcases follow b c j i hc with rfl | hp
      · exact Or.inl (List.append_nil b)
      · exact Or.inr (Or.inr hp)
  · have meet (a b : List Char) (h : a ++ ':' :: w ++ [':'] <+: b ++ [':']) :
        ∃ i j, a ++ ':' :: w ++ ':' :: i = b ++ ':' :: w ++ ':' :: j := by
      obtain ⟨r, hr⟩ := h
      refine ⟨r ++ w ++ [':'], [], ?_⟩
      have he := congrArg (· ++ (w ++ [':'])) hr
      simpa using he
    rintro (rfl | h | h)
    · exact ⟨[], [], rfl⟩
    · exact meet a b h
    · obtain ⟨i, j, he⟩ := meet b a h
      exact ⟨j, i, he.symm⟩

/-- After the name of `k`, the name of `l` goes on with the tag of values or of failures, and ends
there or goes on with a colon. -/
def Shadows (k l : Keys) : Prop :=
  ∃ tag ∈ [":k", ":er"], (k.name ++ tag ++ ":").toList <+: (l.name ++ ":").toList

instance (k l : Keys) : Decidable (k.Shadows l) := inferInstanceAs (Decidable (∃ _ ∈ _, _))

variable {k l : Keys}

/-- Keys with one tag are equal as their parts behind the common root are. -/
theorem exists_key_eq_iff {w : List Char} (hw : ':' ∉ w) (key : Keys → Id → String)
    (hkey : ∀ k i, (key k i).toList = root.toList ++ (k.name.toList ++ ':' :: w ++ ':' :: i.toList))
    (h : k ≠ l) :
    (∃ i j, key k i = key l j) ↔
      k.name.toList ++ ':' :: w ++ [':'] <+: l.name.toList ++ [':'] ∨
        l.name.toList ++ ':' :: w ++ [':'] <+: k.name.toList ++ [':'] := by
  have hn : k.name.toList ≠ l.name.toList := by
    intro he
    apply h
    cases k
    cases l
    simpa using String.toList_inj.mp he
  have ht := exists_tagged_eq_iff hw k.name.toList l.name.toList
  rw [or_iff_right hn] at ht
  rw [← ht]
  constructor
  · rintro ⟨i, j, he⟩
    have hl := congrArg String.toList he
    rw [hkey, hkey] at hl
    exact ⟨i.toList, j.toList, List.append_cancel_left hl⟩
  · rintro ⟨i, j, he⟩
    refine ⟨String.ofList i, String.ofList j, String.toList_inj.mp ?_⟩
    rw [hkey, hkey, String.toList_ofList, String.toList_ofList, he]

theorem exists_value_eq_iff (h : k ≠ l) :
    (∃ i j, k.value i = l.value j) ↔
      (k.name ++ ":k" ++ ":").toList <+: (l.name ++ ":").toList ∨
        (l.name ++ ":k" ++ ":").toList <+: (k.name ++ ":").toList := by
  have hk := exists_key_eq_iff (w := ['k']) (by decide) value
    (fun k i => by simp [value, queue]) h
  simpa using hk

theorem exists_failure_eq_iff (h : k ≠ l) :
    (∃ i j, k.failure i = l.failure j) ↔
      (k.name ++ ":er" ++ ":").toList <+: (l.name ++ ":").toList ∨
        (l.name ++ ":er" ++ ":").toList <+: (k.name ++ ":").toList := by
  have hk := exists_key_eq_iff (w := ['e', 'r']) (by decide) failure
    (fun k i => by simp [failure, queue]) h
  simpa using hk

/-- Queues of different names have a record key in common if and only if one name shadows the
other. -/
theorem shadows_iff (h : k ≠ l) :
    k.Shadows l ∨ l.Shadows k ↔
      (∃ i j, k.value i = l.value j) ∨ ∃ i j, k.failure i = l.failure j := by
  rw [exists_value_eq_iff h, exists_failure_eq_iff h]
  simp only [Shadows, List.mem_cons, List.not_mem_nil, or_false, exists_eq_or_imp, exists_eq_left]
  exact or_or_or_comm

end Keys

namespace Store

variable {s t s' : Store} {k l : Keys} {now : Instant}

/-! ### Stores that are alike to a queue -/

/-- Two stores hold the same of a queue. -/
structure Alike (k : Keys) (s t : Store) : Prop where
  queue : t.queue k = s.queue k
  value : ∀ id, t.values[k.value id]? = s.values[k.value id]?
  failure : ∀ id, t.failures[k.failure id]? = s.failures[k.failure id]?

theorem Alike.refl (k : Keys) (s : Store) : Alike k s s := ⟨rfl, fun _ => rfl, fun _ => rfl⟩

theorem Alike.setQueue (h : Alike k s t) (q : QueueState) :
    Alike k (s.setQueue k q) (t.setQueue k q) :=
  ⟨by rw [queue_setQueue, queue_setQueue], h.value, h.failure⟩

theorem Alike.failure?_eq (h : Alike k s t) (id : Id) (now : Instant) :
    t.failure? now (k.failure id) = s.failure? now (k.failure id) := by
  unfold failure?
  rw [h.failure id]

theorem Alike.contains_eq (h : Alike k s t) (id : Id) :
    t.values.contains (k.value id) = s.values.contains (k.value id) := by
  rw [Std.ExtTreeMap.contains_eq_isSome_getElem?, h.value id,
    Std.ExtTreeMap.contains_eq_isSome_getElem?]

theorem Alike.forget (h : Alike k s t) (id : Id) (now : Instant) :
    Alike k (s.forget now (k.failure id)) (t.forget now (k.failure id)) := by
  unfold Store.forget
  rw [h.failure id]
  split
  · split
    · refine ⟨h.queue, h.value, fun j => ?_⟩
      simp [Std.ExtTreeMap.getElem?_erase, h.failure j]
    · exact h
  · exact h

theorem Alike.afterFinished (h : Alike k s t) (id : Id) (now : Instant) :
    Alike k (s.afterFinished k id now) (t.afterFinished k id now) := by
  unfold Store.afterFinished
  rw [h.contains_eq]
  split
  · exact h
  · exact h.forget id now

theorem Alike.finished_eq (h : Alike k s t) (id : Id) (now : Instant) :
    t.finished k id now = s.finished k id now := by
  unfold Store.finished
  rw [h.contains_eq, h.failure?_eq]

theorem Alike.record_eq (h : Alike k s t) (id : Id) (now : Instant) :
    t.record k id now = s.record k id now := by
  unfold Store.record
  rw [h.failure?_eq, h.value]

theorem Alike.enqueue (h : Alike k s t) (id : Id) (p : Priority) (now : Instant) :
    (t.enqueue k id p now).1 = (s.enqueue k id p now).1 ∧
      Alike k (s.enqueue k id p now).2 (t.enqueue k id p now).2 := by
  have hf := h.afterFinished id now
  unfold Store.enqueue
  rw [h.queue, h.finished_eq]
  split
  · exact ⟨rfl, h⟩
  · split
    · exact ⟨rfl, hf⟩
    · dsimp only
      rw [hf.queue]
      split
      · have hs := hf.setQueue { (s.afterFinished k id now).queue k with
          backlog := ((s.afterFinished k id now).queue k).backlog.offer id p
          markers := ((s.afterFinished k id now).queue k).markers + 1 }
        exact ⟨rfl, hs.queue, hs.value, hs.failure⟩
      · exact ⟨rfl, hf⟩

theorem Alike.dequeue (h : Alike k s t) :
    (t.dequeue k).1 = (s.dequeue k).1 ∧ Alike k (s.dequeue k).2 (t.dequeue k).2 := by
  unfold Store.dequeue
  rw [h.queue]
  dsimp only
  split
  · exact ⟨rfl, h⟩
  · exact ⟨rfl, h.setQueue _⟩

theorem Alike.release (h : Alike k s t) (id : Id) : Alike k (s.release k id) (t.release k id) := by
  unfold Store.release
  rw [h.queue]
  dsimp only
  split
  · exact h.setQueue _
  · exact h

theorem Alike.of_stock (h : Alike k s t) (hs : s'.stock = t.stock) : Alike k s s' := by
  simp only [stock, Prod.mk.injEq] at hs
  obtain ⟨hq, hv, hf⟩ := hs
  refine ⟨?_, fun id => by rw [hv, h.value], fun id => by rw [hf, h.failure]⟩
  rw [← h.queue]
  unfold Store.queue
  rw [hq]

theorem Alike.symm (h : Alike k s t) : Alike k t s :=
  ⟨h.queue.symm, fun id => (h.value id).symm, fun id => (h.failure id).symm⟩

theorem Alike.publish (h : Alike k s t) (channel message : String) :
    Alike k (s.publish channel message) (t.publish channel message) :=
  (h.of_stock (stock_publish t _ _)).symm.of_stock (stock_publish s _ _) |>.symm

theorem Alike.complete (h : Alike k s t) (id : Id) (c : Completion) (now : Instant) :
    (t.complete k id c now).1 = (s.complete k id c now).1 ∧
      Alike k (s.complete k id c now).2 (t.complete k id c now).2 := by
  have announce (u v : Store) (hu : Alike k u v) :
      Alike k ((u.release k id).publish k.channel id) ((v.release k id).publish k.channel id) :=
    (hu.release id).publish _ _
  unfold Store.complete
  cases c with
  | value bytes =>
      refine ⟨rfl, announce _ _ ⟨h.queue, fun j => ?_, fun j => ?_⟩⟩
      · simp [Std.ExtTreeMap.getElem?_insert, h.value j]
      · simp [Std.ExtTreeMap.getElem?_erase, h.failure j]
  | failure message ttl =>
      dsimp only
      have hv (j : Id) : (t.values.erase (k.value id))[k.value j]? =
          (s.values.erase (k.value id))[k.value j]? := by
        simp [Std.ExtTreeMap.getElem?_erase, h.value j]
      cases now.after? ttl with
      | none => exact ⟨rfl, h.queue, hv, h.failure⟩
      | some expires =>
          refine ⟨rfl, announce _ _ ⟨h.queue, hv, fun j => ?_⟩⟩
          simp [Std.ExtTreeMap.getElem?_insert, h.failure j]

theorem Alike.takeMarker (h : Alike k s t) :
    (t.takeMarker k).isSome = (s.takeMarker k).isSome ∧
      Alike k ((s.takeMarker k).getD s) ((t.takeMarker k).getD t) := by
  unfold Store.takeMarker
  rw [h.queue]
  dsimp only
  split
  · exact ⟨rfl, h⟩
  · exact ⟨rfl, h.setQueue _⟩

theorem Alike.op (h : Alike k s t) {o : Op} (ho : o.queue? = some k) (now : Instant) :
    o.answer t now = o.answer s now ∧ Alike k (o.apply s now) (o.apply t now) := by
  cases o with
  | enqueue l id p =>
      obtain rfl := Option.some.inj ho
      obtain ⟨ha, hs⟩ := h.enqueue id p now
      exact ⟨congrArg Answer.enqueued ha, hs⟩
  | dequeue l =>
      obtain rfl := Option.some.inj ho
      obtain ⟨ha, hs⟩ := h.dequeue
      exact ⟨congrArg Answer.claim ha, hs⟩
  | complete l id c =>
      obtain rfl := Option.some.inj ho
      obtain ⟨ha, hs⟩ := h.complete id c now
      exact ⟨congrArg Answer.accepted ha, hs⟩
  | lookup l id =>
      obtain rfl := Option.some.inj ho
      exact ⟨congrArg Answer.record (h.record_eq id now), h.forget id now⟩
  | isFinished l id =>
      obtain rfl := Option.some.inj ho
      exact ⟨congrArg Answer.finished (h.finished_eq id now), h.afterFinished id now⟩
  | takeMarker l =>
      obtain rfl := Option.some.inj ho
      obtain ⟨ha, hs⟩ := h.takeMarker
      exact ⟨congrArg Answer.marker ha, hs⟩
  | _ => cases ho

/-- Stores that are alike to a queue answer requests about it alike, and stay alike. -/
theorem Alike.request (h : Alike k s t) {r : Request} (hr : r.queue? = some k) (now : Instant) :
    r.answer t now = r.answer s now ∧ Alike k (r.apply s now) (r.apply t now) := by
  cases r with
  | op o => exact h.op hr now
  | queued l n =>
      obtain rfl := Option.some.inj hr
      exact ⟨by simp only [Request.answer, Store.queued, h.queue], h⟩
  | inProgress l =>
      obtain rfl := Option.some.inj hr
      exact ⟨by simp only [Request.answer, Store.inProgress, h.queue], h⟩
  | pending l =>
      obtain rfl := Option.some.inj hr
      exact ⟨by simp only [Request.answer, Store.pending, h.queue], h⟩

/-- What happens within a queue leaves the store alike to a queue with other keys. -/
theorem Within.alike (h : Within k s s') (hl : l ≠ k) (hv : ∀ i j, k.value i ≠ l.value j)
    (hf : ∀ i j, k.failure i ≠ l.failure j) : Alike l s s' :=
  ⟨h.queue l hl, fun j => h.value _ fun i => (hv i j).symm,
    fun j => h.failure _ fun i => (hf i j).symm⟩

theorem Alike.trans (h : Alike k s t) (h' : Alike k t s') : Alike k s s' :=
  ⟨h'.queue.trans h.queue, fun id => (h'.value id).trans (h.value id),
    fun id => (h'.failure id).trans (h.failure id)⟩

/-! ### Isolation -/

/-- A store that some history of requests leads to. -/
def Reachable (s : Store) : Prop := ∃ h, s = after {} h

/-- From any reachable store on, whatever is asked of the two queues, the requests about `l` are
answered as if there were no requests about `k`. -/
def Isolated (k l : Keys) : Prop :=
  ∀ s, Reachable s → ∀ h : List (Instant × Request),
    (∀ x ∈ h, x.2.queue? = some k ∨ x.2.queue? = some l) →
    (s.transcript h).filter (fun e => e.request.queue? = some l) =
      s.transcript (h.filter fun x => x.2.queue? = some l)

/-- Without a common key, requests about one queue can be left out for the other. -/
theorem filter_transcript (hl : l ≠ k) (hv : ∀ i j, k.value i ≠ l.value j)
    (hf : ∀ i j, k.failure i ≠ l.failure j) {h : List (Instant × Request)}
    (hh : ∀ x ∈ h, x.2.queue? = some k ∨ x.2.queue? = some l) (hs : Alike l s t) :
    (t.transcript h).filter (fun e => e.request.queue? = some l) =
      s.transcript (h.filter fun x => x.2.queue? = some l) := by
  induction h generalizing s t with
  | nil => rfl
  | cons x h ih =>
      obtain ⟨now, r⟩ := x
      have hh' : ∀ x ∈ h, x.2.queue? = some k ∨ x.2.queue? = some l :=
        fun x hx => hh x (List.mem_cons_of_mem _ hx)
      by_cases hr : r.queue? = some l
      · obtain ⟨ha, hs'⟩ := hs.request hr now
        have he := ih hh' hs'
        simp [transcript, hr, ha, he]
      · have hk : r.queue? = some k := (hh _ List.mem_cons_self).resolve_right hr
        have he := ih hh' (hs.trans ((Request.within hk t now).alike hl hv hf))
        simp [transcript, hr, he]

/-- A result of one queue that is found on the other one shows that they are not isolated. -/
theorem not_isolated_of_found {i j : Id} {c : Completion} (hl : l ≠ k)
    (hc : (complete {} k i c 0).2.record l j 0 ≠ .missing) : ¬ Isolated k l := by
  intro hi
  have he := hi {} ⟨[], rfl⟩ [(0, .op (.complete k i c)), (0, .op (.lookup l j))]
    (by simp [Request.queue?, Op.queue?, Op.keys?])
  have hq := Ne.symm hl
  have hm : record {} l j 0 = .missing := by simp [record, failure?]
  simp [transcript, Request.queue?, Op.queue?, Op.keys?, hq, Request.answer, Request.apply,
    Op.answer, Op.apply, Store.lookup, hm] at he
  exact hc he

/-- **Isolation of queues.**  Two queues are isolated from each other if and only if the name of
neither goes on, after the name of the other, with the tag of a record. -/
theorem isolated_iff (h : k ≠ l) : Isolated k l ↔ ¬ k.Shadows l ∧ ¬ l.Shadows k := by
  rw [← not_or, Keys.shadows_iff h]
  constructor
  · rintro hi (⟨i, j, he⟩ | ⟨i, j, he⟩)
    · refine not_isolated_of_found (i := i) (j := j) (c := .value []) (Ne.symm h) ?_ hi
      simp [complete, release, publish, record, failure?, queue, ← he]
    · refine not_isolated_of_found (i := i) (j := j) (c := .failure "" ⟨1⟩) (Ne.symm h) ?_ hi
      have ha : Instant.after? 0 ⟨1⟩ = some 1 := by decide
      simp [complete, release, publish, record, failure?, queue, ← he, ha, Option.filter_some]
  · intro hn s _ history hh
    refine filter_transcript (Ne.symm h) (fun i j he => ?_) (fun i j he => ?_) hh (Alike.refl l s)
    · exact hn (Or.inl ⟨i, j, he⟩)
    · exact hn (Or.inr ⟨i, j, he⟩)

/-- A name that goes on with a whole tag shadows the other one, and a longer word does not. -/
theorem isolated_iff_nested :
    ((⟨"jobs"⟩ : Keys) ≠ ⟨"jobs:k"⟩ ∧ ¬ Isolated ⟨"jobs"⟩ ⟨"jobs:k"⟩) ∧
      (⟨"jobs"⟩ : Keys) ≠ ⟨"jobs:k1"⟩ ∧ Isolated ⟨"jobs"⟩ ⟨"jobs:k1"⟩ := by
  refine ⟨⟨by decide, fun hi => ?_⟩, by decide, (isolated_iff (by decide)).mpr (by decide)⟩
  exact absurd ((isolated_iff (by decide)).mp hi) (by decide)

end Store

end ReadThrough
