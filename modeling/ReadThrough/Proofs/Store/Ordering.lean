import ReadThrough.Proofs.Store.Entries

/-! # The order of a backlog

The entries of a backlog stand in one order: lower priorities first, equal ones by their ids.

* **The order** (`Backlog.Place.order_eq_lt_iff`).  The list of all entries is sorted by it
  (`Backlog.ordered_pairwise`).
* **What is listed** (`Backlog.mem_ordered`, `Backlog.mem_ids`).  Every queued id is listed once,
  under its priority.
* **What is taken** (`Backlog.pop?_first`, `Store.first_of_dequeue`) comes before everything else
  that is queued.  Any task can be taken from some store (`Store.exists_dequeue`). -/

namespace ReadThrough

namespace Backlog

theorem Place.order_eq_lt_iff {x y : Place} :
    Place.order x y = .lt ↔ x.1 < y.1 ∨ x.1 = y.1 ∧ x.2 < y.2 := by
  have hs : compare x.2 y.2 = .lt ↔ x.2 < y.2 := compareOfLessAndEq_eq_lt
  simp only [Place.order, compareLex, compareOn, Ordering.then_eq_lt,
    Std.LawfulEqCmp.compare_eq_iff_eq, Std.compare_eq_lt, hs]

theorem ordered_pairwise (b : Backlog) :
    b.ordered.Pairwise fun x y => x.2 < y.2 ∨ x.2 = y.2 ∧ x.1 < y.1 :=
  List.pairwise_map.mpr (b.line.ordered_toList.imp Place.order_eq_lt_iff.mp)

/-- An id is listed under its priority and no other one. -/
theorem mem_ordered {b : Backlog} {id : Id} {p : Priority} :
    (id, p) ∈ b.ordered ↔ b.priority? id = some p := by
  rw [ordered, List.mem_map]
  constructor
  · rintro ⟨⟨q, j⟩, hm, he⟩
    obtain ⟨rfl, rfl⟩ := Prod.mk.inj he
    exact (b.agree q j).mp (Std.ExtTreeSet.mem_toList.mp hm)
  · intro h
    exact ⟨(p, id), Std.ExtTreeSet.mem_toList.mpr ((b.agree p id).mpr h), rfl⟩

theorem length_ordered (b : Backlog) : b.ordered.length = b.size := by
  simp [ordered, size]

/-- No id is listed twice. -/
theorem nodup_ordered (b : Backlog) : (b.ordered.map (·.1)).Nodup := by
  rw [List.nodup_iff_pairwise_ne, List.pairwise_map]
  refine b.ordered_pairwise.imp_of_mem fun {x y} hx hy hlt he => ?_
  obtain ⟨id, p⟩ := x
  obtain ⟨j, q⟩ := y
  obtain rfl : id = j := he
  -- one id has one priority
  obtain rfl : p = q := Option.some.inj ((mem_ordered.mp hx).symm.trans (mem_ordered.mp hy))
  rcases hlt with hlt | ⟨-, hlt⟩
  · exact Int.lt_irrefl _ hlt
  · exact String.lt_irrefl _ hlt

/-- Only queued ids are listed among the first ones. -/
theorem queued_of_mem_ids {b : Backlog} {id : Id} {n : Nat} (h : id ∈ b.ids n) :
    ∃ p, b.priority? id = some p := by
  obtain ⟨⟨j, p⟩, hm, rfl⟩ := List.mem_map.mp h
  exact ⟨p, mem_ordered.mp (List.mem_of_mem_take hm)⟩

/-- Every queued id is listed among all of them. -/
theorem mem_ids {b : Backlog} {id : Id} {n : Nat} (hn : b.size ≤ n) :
    id ∈ b.ids n ↔ ∃ p, b.priority? id = some p := by
  refine ⟨queued_of_mem_ids, fun ⟨p, hp⟩ => ?_⟩
  rw [ids, List.take_of_length_le (by rwa [length_ordered])]
  exact List.mem_map.mpr ⟨(id, p), mem_ordered.mpr hp, rfl⟩

/-- What is taken off is the head of the list of all entries, and the others are left. -/
theorem claim_of_pop? (b : Backlog) :
    b.pop?.map (·.1) = b.ordered.head?.map fun x => ⟨x.1, x.2, b.size - 1⟩ := by
  cases hp : b.pop? with
  | none =>
      have hl := b.length_ordered
      rw [Store.pop?_none hp, List.length_eq_zero_iff] at hl
      rw [hl]
      rfl
  | some x =>
      obtain ⟨-, hs, hr, -⟩ := Store.pop?_some hp
      have hn : b.size - 1 = x.1.remaining := by omega
      rw [hn]
      unfold pop? at hp
      split at hp
      · cases hp
      · rename_i p id xs hl
        have hh : b.ordered.head? = some (id, p) := by
          rw [ordered, hl]
          rfl
        obtain rfl := Option.some.inj hp
        rw [hh]
        rfl

/-- A backlog is known by the priorities of the queued ids. -/
theorem ext_priority? {b c : Backlog} (h : ∀ id, b.priority? id = c.priority? id) : b = c := by
  have hs : b.scores = c.scores := Std.ExtTreeMap.ext_getElem? h
  have hl : b.line = c.line := by
    refine Std.ExtTreeSet.ext_mem fun ⟨p, id⟩ => ?_
    rw [b.agree, c.agree, hs]
  cases b
  cases c
  congr

/-- The entry that is taken off comes before all others. -/
theorem pop?_first {b rest : Backlog} {t : Claim} (h : b.pop? = some (t, rest)) {id : Id}
    {p : Priority} (hp : b.priority? id = some p) :
    t.priority < p ∨ t.priority = p ∧ t.id ≤ id := by
  have hh := b.claim_of_pop?
  rw [h, Option.map_some] at hh
  obtain ⟨⟨j, q⟩, hx, he⟩ := Option.map_eq_some_iff.mp hh.symm
  obtain rfl : _ = t := he
  obtain ⟨xs, hs⟩ := List.head?_eq_some_iff.mp hx
  have hsorted := b.ordered_pairwise
  have hm := mem_ordered.mpr hp
  rw [hs] at hsorted hm
  rcases List.mem_cons.mp hm with he | hm
  · obtain ⟨rfl, rfl⟩ := Prod.mk.inj he
    exact Or.inr ⟨rfl, String.le_refl _⟩
  · rcases (List.pairwise_cons.mp hsorted).1 _ hm with hlt | ⟨he, hlt⟩
    · exact Or.inl hlt
    · exact Or.inr ⟨he, String.not_lt.mp (String.lt_asymm hlt)⟩

theorem improves_of_new {b : Backlog} {x : Id} (hx : b.priority? x = none) (r : Priority) :
    b.improves x r = true := by
  unfold improves
  rw [hx]

theorem priority?_offer_new {b : Backlog} {x : Id} (hx : b.priority? x = none) (r : Priority)
    (id : Id) : (b.offer x r).priority? id = if id = x then some r else b.priority? id := by
  rw [priority?_offer, hx]

theorem size_offer_new {b : Backlog} {x : Id} (hx : b.priority? x = none) (r : Priority) :
    (b.offer x r).size = b.size + 1 := by
  have hn : b.line.contains (r, x) = false := by
    refine Bool.eq_false_iff.mpr fun hm => ?_
    rw [show b.priority? x = some r from (b.agree r x).mp hm] at hx
    cases hx
  unfold offer others size
  rw [if_pos (improves_of_new hx r)]
  simp only [hx, Std.ExtTreeSet.size_insert, hn, Bool.false_eq_true, if_false]

/-- There are backlogs of any size that have long ids of one priority only. -/
theorem exists_long (l n : Nat) (r : Priority) :
    ∃ b : Backlog, b.size = n ∧
      ∀ id p, b.priority? id = some p → p = r ∧ l < id.length ∧ id.length ≤ l + n := by
  induction n with
  | zero =>
      refine ⟨{}, rfl, fun id p h => ?_⟩
      simp [priority?] at h
  | succ n ih =>
      obtain ⟨b, hs, hb⟩ := ih
      let y : Id := String.ofList (List.replicate (l + n + 1) 'a')
      have hy : y.length = l + n + 1 := by simp [y]
      have hn : b.priority? y = none := by
        refine Option.eq_none_iff_forall_ne_some.mpr fun p hp => ?_
        have hle := (hb y p hp).2.2
        omega
      refine ⟨b.offer y r, by rw [size_offer_new hn, hs], fun id p h => ?_⟩
      rw [priority?_offer_new hn] at h
      split at h
      · rename_i he
        rw [he, hy]
        exact ⟨(Option.some.inj h).symm, by omega, by omega⟩
      · obtain ⟨he, hlt, hle⟩ := hb id p h
        exact ⟨he, hlt, by omega⟩

end Backlog

namespace Store

/-- Any task can be the first one of a backlog. -/
theorem exists_pop? (t : Claim) : ∃ b rest : Backlog, b.pop? = some (t, rest) := by
  obtain ⟨b, hs, hb⟩ := Backlog.exists_long t.id.length t.remaining (t.priority + 1)
  have hn : b.priority? t.id = none := by
    refine Option.eq_none_iff_forall_ne_some.mpr fun p hp => ?_
    exact Nat.lt_irrefl _ (hb t.id p hp).2.1
  let b' : Backlog := b.offer t.id t.priority
  have hsize : b'.size = t.remaining + 1 := by rw [Backlog.size_offer_new hn, hs]
  have hself : b'.priority? t.id = some t.priority := by
    rw [Backlog.priority?_offer_new hn, if_pos rfl]
  cases hp : b'.pop? with
  | none =>
      have h0 := pop?_none hp
      omega
  | some x =>
      obtain ⟨⟨uid, upriority, uremaining⟩, rest⟩ := x
      obtain ⟨hu, hrest, hrem, -⟩ := pop?_some hp
      dsimp only at hu hrem
      have hr : uremaining = t.remaining := by omega
      rw [Backlog.priority?_offer_new hn] at hu
      split at hu
      · rename_i he
        obtain rfl := Option.some.inj hu
        exact ⟨b', rest, by rw [hp, he, hr]⟩
      · -- everything else has a greater priority
        have hfirst := Backlog.pop?_first hp hself
        have hn : ¬ t.priority + 1 ≤ t.priority := Int.not_le.mpr (Int.lt_succ t.priority)
        rw [show upriority = t.priority + 1 from (hb _ _ hu).1] at hfirst
        rcases hfirst with hlt | ⟨he, -⟩
        · exact absurd (Int.le_of_lt hlt) hn
        · exact absurd (Int.le_of_eq he) hn

/-- Whatever the answer to a claim can be, some store gives it. -/
theorem exists_dequeue (k : Keys) (t : Claim) : ∃ s s', dequeue s k = (some t, s') := by
  obtain ⟨b, rest, hb⟩ := exists_pop? t
  let s : Store := setQueue {} k { backlog := b }
  have hq : s.queue k = { backlog := b } := queue_setQueue {} k _
  refine ⟨s, s.setQueue k { backlog := rest, claimed := {t.id} }, ?_⟩
  unfold dequeue
  simp only [hq, hb]
  rfl

end Store

end ReadThrough
