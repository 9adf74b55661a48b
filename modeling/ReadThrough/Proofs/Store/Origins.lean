import ReadThrough.Proofs.Store.Completing
import ReadThrough.Proofs.Store.Isolation

/-! # Where records and announcements come from

What an operation leaves in a store was there before, or it comes from a result that the operation
accepts (`Store.Inherits`, `Store.inherits_apply`).  So if all records and all announced ids can be
vouched for by results that were accepted, they still can be afterwards (`Store.Vouched`).

An id that is found finished need not have been completed itself: the record that is found belongs
to it, or to an id of a queue whose name shadows that of its own queue, or is shadowed by it
(`Vouched.of_finished`).  An announcement comes from the queue itself (`Vouched.of_message`). -/

namespace ReadThrough

theorem Keys.channel_inj {k l : Keys} : k.channel = l.channel ↔ k = l := by
  cases k
  cases l
  simp [channel, queue]

namespace Store

/-- The operation accepts a result of an id. -/
def Op.Accepts (op : Op) (now : Instant) (k : Keys) (id : Id) : Prop :=
  ∃ c, op = .complete k id c ∧ c.nameable now = true

/-- Records, channels and messages of `s'` come from `s`, or from results of which `new` holds. -/
structure Inherits (new : Keys → Id → Prop) (s s' : Store) : Prop where
  values : ∀ key, key ∈ s'.values → key ∈ s.values ∨ ∃ k id, new k id ∧ k.value id = key
  failures : ∀ key, key ∈ s'.failures → key ∈ s.failures ∨ ∃ k id, new k id ∧ k.failure id = key
  channels : ∀ (j : Nat) f, s.feeds[j]? = some f →
    ∃ f', s'.feeds[j]? = some f' ∧ f'.channel = f.channel
  messages : ∀ f' ∈ s'.feeds, ∀ m ∈ f'.inbox, m = "" ∨
    (∃ f ∈ s.feeds, f.channel = f'.channel ∧ m ∈ f.inbox) ∨ ∃ k, new k m ∧ k.channel = f'.channel

variable {s s' : Store} {now : Instant} {k : Keys} {id : Id} {P new new' : Keys → Id → Prop}

theorem Inherits.mono (h : Inherits new s s') (hn : ∀ k id, new k id → new' k id) :
    Inherits new' s s' where
  values key hk := (h.values key hk).imp_right fun ⟨k, id, hp, he⟩ => ⟨k, id, hn k id hp, he⟩
  failures key hk := (h.failures key hk).imp_right fun ⟨k, id, hp, he⟩ => ⟨k, id, hn k id hp, he⟩
  channels := h.channels
  messages f hf m hm := (h.messages f hf m hm).imp_right (Or.imp_right fun ⟨k, hp, he⟩ =>
    ⟨k, hn k m hp, he⟩)

/-! ### Operations -/

theorem mem_failures_forget {key key' : String} (h : key ∈ (s.forget now key').failures) :
    key ∈ s.failures := by
  unfold forget at h
  split at h
  · split at h
    · exact (Std.ExtTreeMap.mem_erase.mp h).2
    · exact h
  · exact h

theorem values_forget (s : Store) (now : Instant) (key : String) :
    (s.forget now key).values = s.values := by
  unfold forget
  split
  · split <;> rfl
  · rfl

/-- No record is written and no message delivered. -/
theorem Inherits.of_wire (hv : s'.values = s.values)
    (hf : ∀ key, key ∈ s'.failures → key ∈ s.failures) (hw : s'.wire = s.wire) :
    Inherits new s s' := by
  have hfeeds : s'.feeds = s.feeds := congrArg Prod.fst hw
  refine ⟨fun key h => Or.inl (hv ▸ h), fun key h => Or.inl (hf key h), fun j f hj => ?_,
    fun f hm m hi => Or.inr (Or.inl ⟨f, hfeeds ▸ hm, rfl, hi⟩)⟩
  exact ⟨f, by rw [hfeeds, hj], rfl⟩

theorem inherits_forget (s : Store) (now : Instant) (key : String) :
    Inherits new s (s.forget now key) :=
  .of_wire (values_forget s now key) (fun _ => mem_failures_forget) (wire_forget s now key)

theorem inherits_afterFinished (s : Store) (k : Keys) (id : Id) (now : Instant) :
    Inherits new s (s.afterFinished k id now) := by
  unfold afterFinished
  split
  · exact .of_wire rfl (fun _ h => h) rfl
  · exact inherits_forget s now _

theorem inherits_enqueue (s : Store) (k : Keys) (id : Id) (p : Priority) (now : Instant) :
    Inherits new s (s.enqueue k id p now).2 := by
  have ha : Inherits new s (s.afterFinished k id now) := inherits_afterFinished s k id now
  unfold enqueue
  split
  · exact .of_wire rfl (fun _ h => h) rfl
  · split
    · exact ha
    · dsimp only
      split
      · exact ⟨ha.values, ha.failures, ha.channels, ha.messages⟩
      · exact ha

/-- The feeds change one by one and keep their channels, and no message comes but the empty one. -/
theorem Inherits.of_map {g : Feed → Feed} (hv : s'.values = s.values)
    (hf : s'.failures = s.failures) (hs : s'.feeds = s.feeds.map g)
    (hg : ∀ f, (g f).channel = f.channel ∧ ∀ m ∈ (g f).inbox, m = "" ∨ m ∈ f.inbox) :
    Inherits new s s' := by
  refine ⟨fun key h => Or.inl (hv ▸ h), fun key h => Or.inl (hf ▸ h), fun j f hj => ?_,
    fun f' hm m hi => ?_⟩
  · exact ⟨g f, by rw [hs, List.getElem?_map, hj]; rfl, (hg f).1⟩
  · rw [hs] at hm
    obtain ⟨f, hfm, rfl⟩ := List.mem_map.mp hm
    exact ((hg f).2 m hi).imp_right fun h => Or.inl ⟨f, hfm, (hg f).1.symm, h⟩

/-- One feed changes and keeps its channel, and no message comes. -/
theorem Inherits.of_set {j : Nat} {f g : Feed} (hv : s'.values = s.values)
    (hf : s'.failures = s.failures) (hj : s.feeds[j]? = some f) (hs : s'.feeds = s.feeds.set j g)
    (hc : g.channel = f.channel) (hi : ∀ m ∈ g.inbox, m ∈ f.inbox) : Inherits new s s' := by
  refine ⟨fun key h => Or.inl (hv ▸ h), fun key h => Or.inl (hf ▸ h), fun l f' hl => ?_,
    fun f' hm m hmi => ?_⟩
  · rw [hs]
    by_cases he : j = l
    · subst he
      obtain rfl := Option.some.inj (hj.symm.trans hl)
      exact ⟨g, List.getElem?_set_self (List.getElem?_eq_some_iff.mp hj).1, hc⟩
    · exact ⟨f', by rw [List.getElem?_set_ne he, hl], rfl⟩
  · rw [hs] at hm
    rcases List.mem_or_eq_of_mem_set hm with hm | rfl
    · exact Or.inr (Or.inl ⟨f', hm, rfl, hmi⟩)
    · exact Or.inr (Or.inl ⟨f, List.mem_of_getElem? hj, hc.symm, hi m hmi⟩)

theorem inherits_complete (s : Store) (k : Keys) (id : Id) (c : Completion) (now : Instant) :
    Inherits (Op.Accepts (.complete k id c) now) s (s.complete k id c now).2 := by
  cases hn : c.nameable now with
  | false =>
      rw [complete_unnameable hn]
      refine ⟨fun key h => Or.inl (Std.ExtTreeMap.mem_erase.mp h).2, fun key h => Or.inl h,
        fun j f hj => ⟨f, hj, rfl⟩, fun f hm m hi => Or.inr (Or.inl ⟨f, hm, rfl, hi⟩)⟩
  | true =>
      have he := takesEffect_complete hn s k id
      have hnew : Op.Accepts (.complete k id c) now k id := ⟨c, rfl, hn⟩
      refine ⟨fun key h => ?_, fun key h => ?_, fun j f hj => ?_, fun f' hm m hi => ?_⟩
      · by_cases hk : key = k.value id
        · exact Or.inr ⟨k, id, hnew, hk.symm⟩
        · rw [Std.ExtTreeMap.mem_iff_isSome_getElem?, he.values key hk] at h
          exact Or.inl (Std.ExtTreeMap.mem_iff_isSome_getElem?.mpr h)
      · by_cases hk : key = k.failure id
        · exact Or.inr ⟨k, id, hnew, hk.symm⟩
        · rw [Std.ExtTreeMap.mem_iff_isSome_getElem?, he.failures key hk] at h
          exact Or.inl (Std.ExtTreeMap.mem_iff_isSome_getElem?.mpr h)
      · refine ⟨_, by rw [he.announced, List.getElem?_map, hj]; rfl, ?_⟩
        dsimp only
        split <;> rfl
      · rw [he.announced] at hm
        obtain ⟨f, hfm, rfl⟩ := List.mem_map.mp hm
        split at hi
        · rename_i hf
          rcases List.mem_append.mp hi with hi | hi
          · exact Or.inr (Or.inl ⟨f, hfm, by rw [if_pos hf], hi⟩)
          · obtain rfl := List.mem_singleton.mp hi
            exact Or.inr (Or.inr ⟨k, hnew, by rw [if_pos hf]; exact hf.2.1.symm⟩)
        · rename_i hf
          exact Or.inr (Or.inl ⟨f, hfm, by rw [if_neg hf], hi⟩)

/-- Whatever is asked of a store, it holds what it held before and what is accepted. -/
theorem inherits_apply (op : Op) (s : Store) (now : Instant) :
    Inherits (op.Accepts now) s (op.apply s now) := by
  have refl : Inherits (op.Accepts now) s s := .of_wire rfl (fun _ h => h) rfl
  cases op with
  | enqueue k id p => exact inherits_enqueue s k id p now
  | dequeue k =>
      simp only [Op.apply, dequeue]
      split
      · exact refl
      · exact .of_wire rfl (fun _ h => h) rfl
  | complete k id c => exact inherits_complete s k id c now
  | lookup k id => exact inherits_forget s now _
  | isFinished k id => exact inherits_afterFinished s k id now
  | takeMarker k =>
      simp only [Op.apply]
      cases ht : s.takeMarker k with
      | none => exact refl
      | some t =>
          have hw := wire_takeMarker ht
          unfold takeMarker at ht
          dsimp only at ht
          split at ht
          · cases ht
          · obtain rfl := Option.some.inj ht
            exact .of_wire rfl (fun _ h => h) hw
  | receive j =>
      simp only [Op.apply]
      cases hr : s.receive? j with
      | none => exact refl
      | some x =>
          unfold receive? at hr
          split at hr
          · rename_i f hf
            split at hr
            · cases hr
            · rename_i m rest hi
              obtain rfl := Option.some.inj hr
              refine .of_set rfl rfl hf rfl rfl fun m hm => ?_
              rw [hi]
              exact List.mem_cons_of_mem _ hm
          · cases hr
  | subscribe channel =>
      refine ⟨fun key h => Or.inl h, fun key h => Or.inl h, fun j f hj => ⟨f, ?_, rfl⟩,
        fun f hm m hi => ?_⟩
      · exact (List.getElem?_append_left (List.getElem?_eq_some_iff.mp hj).1).trans hj
      · rcases List.mem_append.mp hm with hm | hm
        · exact Or.inr (Or.inl ⟨f, hm, rfl, hi⟩)
        · obtain rfl := List.mem_singleton.mp hm
          dsimp only at hi
          split at hi
          · exact Or.inl (List.mem_singleton.mp hi)
          · cases hi
  | unsubscribe j =>
      cases hf : s.feeds[j]? with
      | none =>
          have hs : s.unsubscribe j = s := by
            unfold unsubscribe
            rw [List.modify_eq_self (List.getElem?_eq_none_iff.mp hf)]
          simp only [Op.apply]
          rw [hs]
          exact refl
      | some f =>
          refine .of_set rfl rfl hf (g := { f with listening := false, inbox := [] }) ?_ rfl
            fun m hm => absurd hm List.not_mem_nil
          simp only [Op.apply, unsubscribe, List.modify_eq_set, hf, Option.getD_some]
  | disconnect => exact ⟨refl.values, refl.failures, refl.channels, refl.messages⟩
  | reconnect =>
      refine .of_map rfl rfl rfl fun f => ?_
      unfold Feed.deliver
      split
      · exact ⟨rfl, fun m hm => (List.mem_append.mp hm).symm.imp_left List.mem_singleton.mp⟩
      · exact ⟨rfl, fun m hm => Or.inr hm⟩
  | closeFeeds => exact .of_map rfl rfl rfl fun f => ⟨rfl, fun m hm => Or.inr hm⟩

/-! ### What can be vouched for -/

/-- Every record and every message comes from a result of which `P` holds. -/
structure Vouched (P : Keys → Id → Prop) (s : Store) : Prop where
  values : ∀ key, key ∈ s.values → ∃ k id, P k id ∧ k.value id = key
  failures : ∀ key, key ∈ s.failures → ∃ k id, P k id ∧ k.failure id = key
  messages : ∀ f ∈ s.feeds, ∀ m ∈ f.inbox, m ≠ "" → ∃ k, P k m ∧ k.channel = f.channel

theorem vouched_empty (P : Keys → Id → Prop) : Vouched P {} where
  values _ h := absurd h Std.ExtTreeMap.not_mem_empty
  failures _ h := absurd h Std.ExtTreeMap.not_mem_empty
  messages _ h := nomatch h

theorem Vouched.inherits (h : s.Vouched P) (hi : Inherits new s s') :
    s'.Vouched fun k id => P k id ∨ new k id := by
  constructor
  · intro key hk
    rcases hi.values key hk with hk | ⟨k, id, hn, he⟩
    · obtain ⟨k, id, hp, he⟩ := h.values key hk
      exact ⟨k, id, Or.inl hp, he⟩
    · exact ⟨k, id, Or.inr hn, he⟩
  · intro key hk
    rcases hi.failures key hk with hk | ⟨k, id, hn, he⟩
    · obtain ⟨k, id, hp, he⟩ := h.failures key hk
      exact ⟨k, id, Or.inl hp, he⟩
    · exact ⟨k, id, Or.inr hn, he⟩
  · intro f' hm m hmi hne
    rcases hi.messages f' hm m hmi with he | ⟨f, hm, hc, hmi⟩ | ⟨k, hn, hc⟩
    · exact absurd he hne
    · obtain ⟨k, hp, hk⟩ := h.messages f hm m hmi hne
      exact ⟨k, Or.inl hp, hk.trans hc⟩
    · exact ⟨k, Or.inr hn, hc⟩

theorem Vouched.mono {Q : Keys → Id → Prop} (h : s.Vouched P) (hpq : ∀ k id, P k id → Q k id) :
    s.Vouched Q where
  values key hk := (h.values key hk).imp fun k => .imp fun id => .imp_left (hpq k id)
  failures key hk := (h.failures key hk).imp fun k => .imp fun id => .imp_left (hpq k id)
  messages f hf m hm hne := (h.messages f hf m hm hne).imp fun k => .imp_left (hpq k m)

/-- An announced id was completed in the queue that uses the channel. -/
theorem Vouched.of_message (h : s.Vouched P) {j : Nat} {f : Feed} (hf : s.feeds[j]? = some f)
    (hc : f.channel = k.channel) (hm : id ∈ f.inbox) (hne : id ≠ "") : P k id := by
  obtain ⟨l, hp, hl⟩ := h.messages f (List.mem_of_getElem? hf) id hm hne
  obtain rfl := Keys.channel_inj.mp (hl.trans hc)
  exact hp

/-- If an id is finished, then it was completed, or an id of another queue was, the name of which
shadows that of the queue or is shadowed by it. -/
theorem Vouched.of_finished (h : s.Vouched P) (hf : s.finished k id now = true) :
    P k id ∨ ∃ l j, P l j ∧ l ≠ k ∧ (l.Shadows k ∨ k.Shadows l) := by
  unfold finished at hf
  rcases Bool.or_eq_true_iff.mp hf with hv | hl
  · obtain ⟨l, j, hp, he⟩ := h.values _ (Std.ExtTreeMap.contains_iff_mem.mp hv)
    by_cases hk : l = k
    · subst hk
      exact Or.inl (Keys.value_inj.mp he ▸ hp)
    · exact Or.inr ⟨l, j, hp, hk, (Keys.shadows_iff hk).mpr (Or.inl ⟨j, id, he⟩)⟩
  · have hm : k.failure id ∈ s.failures := by
      rw [Std.ExtTreeMap.mem_iff_isSome_getElem?]
      unfold failure? at hl
      cases hx : s.failures[k.failure id]? with
      | none => simp [hx] at hl
      | some x => rfl
    obtain ⟨l, j, hp, he⟩ := h.failures _ hm
    by_cases hk : l = k
    · subst hk
      exact Or.inl (Keys.failure_inj.mp he ▸ hp)
    · exact Or.inr ⟨l, j, hp, hk, (Keys.shadows_iff hk).mpr (Or.inr ⟨j, id, he⟩)⟩

end Store

end ReadThrough
