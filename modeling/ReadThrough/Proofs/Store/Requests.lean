import ReadThrough.Proofs.Store.Operations

/-! # Requests and answers

Whoever uses a store sends requests, each at some time, and sees what comes back.

* **Requests** (`Store.Request`).  An operation, or a report on a queue, which changes nothing.  To
  wait for work is to look for a marker again and again (`Store.Op.takeMarker`).
* **Transcripts** (`Store.transcript`).  The requests of a history with their answers, in order;
  `Store.after` is the store at its end.
* **Reach** (`Store.Within`, `Store.Request.within`).  A request about a queue changes the state of
  that queue and records under the keys of that queue, and nothing else of this kind.  A request
  about no queue changes none of it (`Store.Request.stock_eq`). -/

namespace ReadThrough

namespace Store

/-- What can be asked of a store. -/
inductive Request where
  | op (op : Op)
  | queued (keys : Keys) (max : Nat)
  | inProgress (keys : Keys)
  | pending (keys : Keys)

/-- What comes back. -/
inductive Answer where
  | enqueued (outcome : Enqueued)
  | claim (task : Option Claim)
  /-- Whether the result of a computation was accepted. -/
  | accepted (accepted : Bool)
  | record (record : Record)
  | finished (finished : Bool)
  /-- Whether a marker was taken. -/
  | marker (taken : Bool)
  | feed (feed : Nat)
  | message (message : Option String)
  | ids (ids : List Id)
  | count (n : Nat)
  | done
deriving DecidableEq

/-- What an operation answers. -/
def Op.answer (s : Store) (now : Instant) : Op → Answer
  | enqueue k id p => .enqueued (s.enqueue k id p now).1
  | dequeue k => .claim (s.dequeue k).1
  | complete k id c => .accepted (s.complete k id c now).1
  | lookup k id => .record (s.lookup k id now).1
  | isFinished k id => .finished (s.isFinished k id now).1
  | takeMarker k => .marker (s.takeMarker k).isSome
  | subscribe channel => .feed (s.subscribe channel).1
  | receive feed => .message ((s.receive? feed).map (·.1))
  | unsubscribe _ => .done
  | disconnect => .done
  | reconnect => .done
  | closeFeeds => .done

/-- The queue that an operation is about; whoever takes a marker takes it from a queue. -/
def Op.queue? : Op → Option Keys
  | takeMarker k => some k
  | op => op.keys?

namespace Request

/-- The queue that a request is about, if it is about one. -/
def queue? : Request → Option Keys
  | op o => o.queue?
  | queued k _ => some k
  | inProgress k => some k
  | pending k => some k

/-- The store after a request. -/
def apply (s : Store) (now : Instant) : Request → Store
  | op o => o.apply s now
  | _ => s

/-- What a request answers. -/
def answer (s : Store) (now : Instant) : Request → Answer
  | op o => o.answer s now
  | queued k n => .ids (s.queued k n)
  | inProgress k => .ids (s.inProgress k)
  | pending k => .count (s.pending k)

end Request

/-! ### Histories -/

/-- A request at some time, and what came back. -/
structure Exchange where
  time : Instant
  request : Request
  answer : Answer

/-- The store after a history of requests. -/
def after (s : Store) (h : List (Instant × Request)) : Store :=
  h.foldl (fun s x => x.2.apply s x.1) s

/-- The requests of a history with their answers. -/
def transcript (s : Store) : List (Instant × Request) → List Exchange
  | [] => []
  | (now, r) :: h => ⟨now, r, r.answer s now⟩ :: (r.apply s now).transcript h

variable {s s' t : Store} {k l : Keys} {now : Instant}

theorem after_concat (s : Store) (h : List (Instant × Request)) (now : Instant) (r : Request) :
    s.after (h ++ [(now, r)]) = r.apply (s.after h) now := by
  simp [after]

theorem transcript_concat (s : Store) (h : List (Instant × Request)) (now : Instant)
    (r : Request) :
    s.transcript (h ++ [(now, r)]) =
      s.transcript h ++ [⟨now, r, r.answer (s.after h) now⟩] := by
  induction h generalizing s with
  | nil => rfl
  | cons x h ih =>
      obtain ⟨u, q⟩ := x
      exact congrArg (_ :: ·) (ih (q.apply s u))

/-! ### What a request can reach -/

/-- The queues and the records of a store. -/
def stock (s : Store) : Std.ExtTreeMap String QueueState × Std.ExtTreeMap String Bytes ×
    Std.ExtTreeMap String Failure :=
  (s.queues, s.values, s.failures)

/-- Only the queue `k` and records under its keys are different. -/
structure Within (k : Keys) (s s' : Store) : Prop where
  queue : ∀ l, l ≠ k → s'.queue l = s.queue l
  value : ∀ key, (∀ id, key ≠ k.value id) → s'.values[key]? = s.values[key]?
  failure : ∀ key, (∀ id, key ≠ k.failure id) → s'.failures[key]? = s.failures[key]?

theorem Within.of_stock (k : Keys) (h : s'.stock = s.stock) : Within k s s' := by
  simp only [stock, Prod.mk.injEq] at h
  obtain ⟨hq, hv, hf⟩ := h
  exact ⟨fun l _ => by unfold Store.queue; rw [hq], fun _ _ => by rw [hv], fun _ _ => by rw [hf]⟩

theorem Within.refl (k : Keys) (s : Store) : Within k s s := .of_stock k rfl

theorem Within.trans (h : Within k s s') (h' : Within k s' t) : Within k s t :=
  ⟨fun l hl => (h'.queue l hl).trans (h.queue l hl),
    fun key hk => (h'.value key hk).trans (h.value key hk),
    fun key hk => (h'.failure key hk).trans (h.failure key hk)⟩

theorem within_setQueue (s : Store) (k : Keys) (q : QueueState) : Within k s (s.setQueue k q) :=
  ⟨fun _ hl => queue_setQueue_ne s (Ne.symm hl) q, fun _ _ => rfl, fun _ _ => rfl⟩

theorem within_forget (s : Store) (k : Keys) (id : Id) (now : Instant) :
    Within k s (s.forget now (k.failure id)) := by
  unfold forget
  split
  · split
    · refine ⟨fun _ _ => rfl, fun _ _ => rfl, fun key hk => ?_⟩
      simp [Std.ExtTreeMap.getElem?_erase, (hk id).symm]
    · exact Within.refl k s
  · exact Within.refl k s

theorem within_afterFinished (s : Store) (k : Keys) (id : Id) (now : Instant) :
    Within k s (s.afterFinished k id now) := by
  unfold afterFinished
  split
  · exact Within.refl k s
  · exact within_forget s k id now

theorem within_enqueue (s : Store) (k : Keys) (id : Id) (p : Priority) (now : Instant) :
    Within k s (s.enqueue k id p now).2 := by
  have hf := within_afterFinished s k id now
  unfold enqueue
  split
  · exact Within.refl k s
  · split
    · exact hf
    · dsimp only
      split
      · refine ⟨fun l hl => ?_, hf.value, hf.failure⟩
        exact (queue_setQueue_ne _ (Ne.symm hl) _).trans (hf.queue l hl)
      · exact hf

theorem within_dequeue (s : Store) (k : Keys) : Within k s (s.dequeue k).2 := by
  unfold dequeue
  dsimp only
  split
  · exact Within.refl k s
  · exact within_setQueue s k _

theorem within_takeMarker (h : s.takeMarker k = some s') : Within k s s' := by
  unfold takeMarker at h
  dsimp only at h
  split at h
  · cases h
  · obtain rfl := Option.some.inj h
    exact within_setQueue s k _

theorem within_release (s : Store) (k : Keys) (id : Id) : Within k s (s.release k id) := by
  unfold release
  dsimp only
  split
  · exact within_setQueue s k _
  · exact Within.refl k s

@[simp] theorem stock_publish (s : Store) (channel message : String) :
    (s.publish channel message).stock = s.stock := by
  unfold publish
  split <;> rfl

theorem within_complete (s : Store) (k : Keys) (id : Id) (c : Completion) (now : Instant) :
    Within k s (s.complete k id c now).2 := by
  -- once the records are written, the claim is released and the id announced
  have announce (t : Store) (ht : Within k s t) :
      Within k s ((t.release k id).publish k.channel id) :=
    (ht.trans (within_release t k id)).trans (.of_stock k (stock_publish _ _ _))
  unfold complete
  cases c with
  | value bytes =>
      refine announce _ ⟨fun _ _ => rfl, fun key hk => ?_, fun key hk => ?_⟩
      · simp [Std.ExtTreeMap.getElem?_insert, (hk id).symm]
      · simp [Std.ExtTreeMap.getElem?_erase, (hk id).symm]
  | failure message ttl =>
      dsimp only
      cases now.after? ttl with
      | none =>
          refine ⟨fun _ _ => rfl, fun key hk => ?_, fun _ _ => rfl⟩
          simp [Std.ExtTreeMap.getElem?_erase, (hk id).symm]
      | some expires =>
          refine announce _ ⟨fun _ _ => rfl, fun key hk => ?_, fun key hk => ?_⟩
          · simp [Std.ExtTreeMap.getElem?_erase, (hk id).symm]
          · simp [Std.ExtTreeMap.getElem?_insert, (hk id).symm]

theorem Op.within {o : Op} (h : o.queue? = some k) (s : Store) (now : Instant) :
    Within k s (o.apply s now) := by
  cases o with
  | enqueue l id p =>
      obtain rfl := Option.some.inj h
      exact within_enqueue s l id p now
  | dequeue l =>
      obtain rfl := Option.some.inj h
      exact within_dequeue s l
  | complete l id c =>
      obtain rfl := Option.some.inj h
      exact within_complete s l id c now
  | lookup l id =>
      obtain rfl := Option.some.inj h
      exact within_forget s l id now
  | isFinished l id =>
      obtain rfl := Option.some.inj h
      exact within_afterFinished s l id now
  | takeMarker l =>
      obtain rfl := Option.some.inj h
      simp only [Op.apply]
      cases ht : s.takeMarker l with
      | none => exact Within.refl l s
      | some t => exact within_takeMarker ht
  | _ => cases h

/-- A request about a queue changes that queue and its records only. -/
theorem Request.within {r : Request} (h : r.queue? = some k) (s : Store) (now : Instant) :
    Within k s (r.apply s now) := by
  cases r with
  | op o => exact Op.within h s now
  | _ => exact Within.refl k s

/-- A request about no queue changes no queue and no record. -/
theorem Request.stock_eq {r : Request} (h : r.queue? = none) (s : Store) (now : Instant) :
    (r.apply s now).stock = s.stock := by
  cases r with
  | op o =>
      cases o with
      | receive feed =>
          simp only [Request.apply, Op.apply]
          cases hr : s.receive? feed with
          | none => rfl
          | some x =>
              unfold receive? at hr
              split at hr
              · split at hr
                · cases hr
                · obtain rfl := Option.some.inj hr
                  rfl
              · cases hr
      | subscribe channel => rfl
      | unsubscribe feed => rfl
      | disconnect => rfl
      | reconnect => rfl
      | closeFeeds => rfl
      | _ => cases h
  | _ => cases h

/-- A request about another queue, or about none, leaves the queue alone. -/
theorem Request.queue_apply_of_ne {r : Request} (h : r.queue? ≠ some k) (s : Store)
    (now : Instant) : (r.apply s now).queue k = s.queue k := by
  cases hl : r.queue? with
  | none => exact congrArg (fun x => x.1.getD k.queue {}) (Request.stock_eq hl s now)
  | some l =>
      refine (Request.within hl s now).queue k fun hk => h ?_
      rw [hl, hk]

end Store

end ReadThrough
