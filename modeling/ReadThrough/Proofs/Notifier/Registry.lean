import ReadThrough.Proofs.Notifier.Telling

/-! # The registry of waiters

A notifier lists a waiter as long as it may have to be woken: its watch is to be taken, or it is
registered for its id.  The lists are tidy (`Notifier.Tidy`):

* **Once.**  A waiter is listed once, for its own id, and it has no signal yet.
* **Swept.**  A waiter that stopped listening is listed only as long as its release is to come:
  as a request after its watch (`Notifier.Swept`), or from somebody who owes it.

Whatever the notifier does keeps the lists tidy (`Step.tidy`), and so does whatever callers do, as
long as a caller that stops listening before it was woken releases its id afterwards
(`Tidy.subscribe`, `Tidy.leave`, `Tidy.release`).  A waiter that was listed once does not come back
(`Step.listed_of`). -/

namespace ReadThrough

namespace Notifier

/-- The waiter of a request to watch. -/
def Request.waiter? : Request → Option Nat
  | .watch _ w => some w
  | .release _ => none

/-- The id of a waiter that has no signal yet. -/
def Pends (n : Notifier) (id : Id) (w : Nat) : Prop :=
  ∃ y, n.waiters[w]? = some y ∧ y.id = id ∧ y.signal = .pending

/-- The id is released after the last watch of a waiter. -/
def Swept (id : Id) (w : Nat) (rs : List Request) : Prop :=
  ∃ early late, rs = early ++ .release id :: late ∧ .watch id w ∉ late

/-- Waiters are listed in order, where `owed id w` says that somebody is about to release the id
because of the waiter. -/
structure Tidy (owed : Id → Nat → Prop) (n : Notifier) : Prop where
  once : (n.requests.filterMap Request.waiter?).Nodup
  apart : ∀ (id : Id) ws, n.watchers[id]? = some ws → ws.Nodup
  untaken : ∀ id j w, .watch id w ∈ n.requests → ¬ n.Registered j w
  pends : ∀ id w, n.Listed id w → n.Pends id w
  swept : ∀ id w, n.Listed id w → n.listens w = false → owed id w ∨ Swept id w n.requests
  ended : n.phase = .stopped → n.requests = [] ∧ n.watchers = ∅

variable {n n' : Notifier} {owed owed' : Id → Nat → Prop} {id j : Id} {w v : Nat}
  {r : Request} {rest : List Request}

/-! ### Lists -/

theorem Pends.inj (h : n.Pends id w) (h' : n.Pends j w) : id = j := by
  obtain ⟨y, hy, rfl, -⟩ := h
  obtain ⟨z, hz, rfl, -⟩ := h'
  rw [Option.some.inj (hy.symm.trans hz)]

theorem Pends.lt_length (h : n.Pends id w) : w < n.waiters.length := by
  obtain ⟨y, hy, -⟩ := h
  exact (List.getElem?_eq_some_iff.mp hy).1

/-- A waiter that has a signal does not pend. -/
theorem Pends.signal (h : n.Pends id w) : n.signal w = .pending := by
  obtain ⟨y, hy, -, hs⟩ := h
  rw [Notifier.signal, hy]
  exact hs

theorem swept_tail (h : Swept id w (r :: rest)) (hr : r ≠ .release id ∨ .watch id w ∈ rest) :
    Swept id w rest := by
  obtain ⟨early, late, he, hw⟩ := h
  cases early with
  | nil =>
      obtain ⟨rfl, rfl⟩ := List.cons.inj he
      exact hr.elim (fun hr => absurd rfl hr) fun hr => absurd hr hw
  | cons x early => exact ⟨early, late, (List.cons.inj he).2, hw⟩

theorem swept_concat (h : Swept id w rest) (hr : r ≠ .watch id w) : Swept id w (rest ++ [r]) := by
  obtain ⟨early, late, rfl, hw⟩ := h
  refine ⟨early, late ++ [r], by simp, fun hm => ?_⟩
  rcases List.mem_append.mp hm with hm | hm
  · exact hw hm
  · exact hr (List.mem_singleton.mp hm).symm

theorem waiter?_eq_some_iff : r.waiter? = some w ↔ ∃ id, r = .watch id w := by
  cases r <;> simp [Request.waiter?]

theorem mem_waiters_iff {rs : List Request} :
    w ∈ rs.filterMap Request.waiter? ↔ ∃ id, .watch id w ∈ rs := by
  simp only [List.mem_filterMap, waiter?_eq_some_iff]
  exact ⟨fun ⟨_, hr, id, he⟩ => ⟨id, he ▸ hr⟩, fun ⟨id, h⟩ => ⟨_, h, id, rfl⟩⟩

/-! ### Waiters that are left out -/

/-- No request is taken, and the lists of registered waiters get shorter at most. -/
structure Thins (n n' : Notifier) : Prop where
  requests : n'.requests = n.requests
  watchers : ∀ (id : Id) ws', n'.watchers[id]? = some ws' →
    ∃ ws, n.watchers[id]? = some ws ∧ ws'.Sublist ws

theorem Thins.registered (h : Thins n n') (hr : n'.Registered id w) : n.Registered id w := by
  obtain ⟨ws', hw', hm⟩ := hr
  obtain ⟨ws, hws, hs⟩ := h.watchers id ws' hw'
  exact ⟨ws, hws, hs.subset hm⟩

theorem Thins.listed (h : Thins n n') (hl : n'.Listed id w) : n.Listed id w :=
  hl.imp (h.requests ▸ ·) h.registered

theorem Thins.of_eq (hq : n'.requests = n.requests) (hw : n'.watchers = n.watchers) :
    Thins n n' :=
  ⟨hq, fun _ ws he => ⟨ws, hw ▸ he, .refl _⟩⟩

theorem getElem?_erase_some {ws : List Nat}
    (h : (n.watchers.erase id)[j]? = some ws) : j ≠ id ∧ n.watchers[j]? = some ws := by
  rw [Std.ExtTreeMap.getElem?_erase] at h
  split at h
  · cases h
  · rename_i hne
    refine ⟨?_, h⟩
    rintro rfl
    exact hne Std.ReflCmp.compare_self

/-- Who is registered after an id was woken. -/
theorem wake_some {ws : List Nat} (h : (n.wake id).1.watchers[j]? = some ws) :
    n.watchers[j]? = some ws ∧ j ≠ id := by
  unfold wake at h
  split at h
  · rename_i hn
    refine ⟨h, ?_⟩
    rintro rfl
    rw [hn] at h
    cases h
  · obtain ⟨hne, hj⟩ := getElem?_erase_some h
    exact ⟨hj, hne⟩

theorem thins_wake (n : Notifier) (id : Id) : Thins n (n.wake id).1 :=
  ⟨requests_wake n id, fun _ ws h => ⟨ws, (wake_some h).1, .refl _⟩⟩

theorem thins_checked (n : Notifier) (id : Id) (answer : Except Error Bool) :
    Thins n (n.checked id answer).1 := by
  unfold checked
  split
  · exact thins_wake n id
  · exact .of_eq rfl rfl
  · exact .of_eq rfl rfl

theorem thins_prune (n : Notifier) : Thins n n.prune := by
  refine ⟨rfl, fun j ws' h => ?_⟩
  unfold prune at h
  simp only [Std.ExtTreeMap.getElem?_filterMap] at h
  cases hw : n.watchers[j]? with
  | none => simp [hw] at h
  | some ws =>
      have he : ws' = ws.filter n.listens := by
        cases hl : ws.filter n.listens <;> simp_all
      exact ⟨ws, rfl, he ▸ List.filter_sublist⟩

/-- Who is registered after the waiters of an id that do not listen were forgotten. -/
theorem forget_some {ws' : List Nat} (h : (n.forget id).watchers[j]? = some ws') :
    ∃ ws, n.watchers[j]? = some ws ∧ ws' = if j = id then ws.filter n.listens else ws := by
  unfold forget at h
  split at h
  · rename_i hn
    refine ⟨ws', h, (if_neg ?_).symm⟩
    rintro rfl
    rw [hn] at h
    cases h
  · rename_i ws hw
    split at h
    · obtain ⟨hne, hj⟩ := getElem?_erase_some h
      exact ⟨ws', hj, (if_neg hne).symm⟩
    · rw [Std.ExtTreeMap.getElem?_insert] at h
      split at h
      · rename_i hne he
        obtain rfl := Std.LawfulEqCmp.eq_of_compare he
        exact ⟨ws, hw, by rw [if_pos rfl, Option.some.inj h]⟩
      · rename_i hne he
        refine ⟨ws', h, (if_neg ?_).symm⟩
        rintro rfl
        exact he Std.ReflCmp.compare_self

theorem thins_forget (n : Notifier) (id : Id) : Thins n (n.forget id) := by
  refine ⟨requests_forget n id, fun j ws' h => ?_⟩
  obtain ⟨ws, hw, rfl⟩ := forget_some h
  refine ⟨ws, hw, ?_⟩
  split
  · exact List.filter_sublist
  · exact .refl _

/-- Who is registered after a watch was taken. -/
theorem register_some {ws' : List Nat} (h : (n.register id w).watchers[j]? = some ws') :
    j = id ∧ ws' = (n.watchers.getD id []).filter n.listens ++ [w] ∨
      n.watchers[j]? = some ws' := by
  unfold register at h
  rw [Std.ExtTreeMap.getElem?_insert] at h
  split at h
  · rename_i he
    obtain rfl := Std.LawfulEqCmp.eq_of_compare he
    exact Or.inl ⟨rfl, (Option.some.inj h).symm⟩
  · exact Or.inr h

theorem registered_of_mem_getD (h : w ∈ n.watchers.getD id []) : n.Registered id w := by
  rw [Std.ExtTreeMap.getD_eq_getD_getElem?] at h
  cases hw : n.watchers[id]? with
  | none =>
      rw [hw] at h
      cases h
  | some ws =>
      rw [hw] at h
      exact ⟨ws, hw, h⟩

theorem registered_of_register (h : (n.register id w).Registered j v) :
    n.Registered j v ∨ j = id ∧ v = w := by
  obtain ⟨ws', hj, hm⟩ := h
  rcases register_some hj with ⟨rfl, rfl⟩ | hj
  · rcases List.mem_append.mp hm with hm | hm
    · exact Or.inl (registered_of_mem_getD (List.mem_filter.mp hm).1)
    · exact Or.inr ⟨rfl, List.mem_singleton.mp hm⟩
  · exact Or.inl ⟨ws', hj, hm⟩

theorem not_listed_stop (n : Notifier) (id : Id) (w : Nat) : ¬ n.stop.Listed id w := by
  rintro (hq | ⟨ws, hw, -⟩)
  · cases hq
  · simp [Notifier.stop] at hw

section Steps

variable {s s' : Store} {now : Instant} {stopping : Bool} {fault : Option Error} {m : Move}
  {events : List Event}

/-- The notifier lists nobody anew. -/
theorem Step.listed_of (hs : Step n s now stopping fault m n' s' events)
    (hl : n'.Listed id w) : n.Listed id w := by
  cases hs with
  | stop hp hs => exact absurd hl (not_listed_stop n id w)
  | hangUp hp he => exact absurd hl (not_listed_stop n id w)
  | watch hp hr =>
      rcases hl with hq | hreg
      · exact Or.inl (hr ▸ List.mem_cons_of_mem _ hq)
      · rcases registered_of_register hreg with hreg | ⟨rfl, rfl⟩
        · exact Or.inr hreg
        · exact Or.inl (hr ▸ List.mem_cons_self)
  | release hp hr =>
      exact ((thins_forget _ _).listed hl).imp_left fun hq => hr ▸ List.mem_cons_of_mem _ hq
  | announcement hp hr hi => exact (thins_wake n _).listed hl
  | sentinel hp hr => exact (thins_prune n).listed hl
  | check hp ha => exact (thins_checked n _ _).listed hl
  | recheck hp hi ha => exact (thins_checked n _ _).listed hl
  | conclude hp => exact hl

end Steps

/-! ### Tidy lists -/

/-- A debt may be forgotten if it is paid, or if nobody is listed because of it. -/
theorem Tidy.mono (h : n.Tidy owed)
    (ho : ∀ id w, n.Listed id w → n.listens w = false → owed id w →
      owed' id w ∨ Swept id w n.requests) : n.Tidy owed' where
  once := h.once
  apart := h.apart
  untaken := h.untaken
  pends := h.pends
  swept := fun id w hl hn => (h.swept id w hl hn).elim (ho id w hl hn) Or.inr
  ended := h.ended

/-- The lists get shorter, and nothing else happens to the waiters that stay. -/
theorem Tidy.thin (h : n.Tidy owed) (ht : Thins n n')
    (hx : ∀ id w, n'.Listed id w → n'.waiters[w]? = n.waiters[w]?)
    (hp : n'.phase = .stopped → n.phase = .stopped) : n'.Tidy owed := by
  constructor
  · rw [ht.requests]
    exact h.once
  · intro id ws' hw'
    obtain ⟨ws, hws, hs⟩ := ht.watchers id ws' hw'
    exact hs.nodup (h.apart id ws hws)
  · rw [ht.requests]
    exact fun id j w hm hr => h.untaken id j w hm (ht.registered hr)
  · intro id w hl
    unfold Pends
    rw [hx id w hl]
    exact h.pends id w (ht.listed hl)
  · intro id w hl hn
    rw [ht.requests]
    unfold listens at hn
    rw [hx id w hl] at hn
    exact h.swept id w (ht.listed hl) hn
  · intro he
    obtain ⟨hr, hws⟩ := h.ended (hp he)
    refine ⟨ht.requests.trans hr, Std.ExtTreeMap.ext_getElem? fun id => ?_⟩
    cases hw' : n'.watchers[id]? with
    | none => simp
    | some ws' =>
        obtain ⟨ws, hws', -⟩ := ht.watchers id ws' hw'
        simp [hws] at hws'

/-- Waking an id leaves the waiters of other ids where they are. -/
theorem Tidy.wake (h : n.Tidy owed) (id : Id) : (n.wake id).1.Tidy owed := by
  refine h.thin (thins_wake n id) (fun j v hl => ?_) fun hp => ?_
  · rcases waiters_wake n id v with ⟨he, -⟩ | ⟨-, hr⟩
    · exact he
    · -- whoever is woken is registered for this id only
      rcases hl with hq | ⟨ws, hj, hm⟩
      · rw [requests_wake] at hq
        exact absurd hr (h.untaken _ _ _ hq)
      · obtain ⟨hj, hne⟩ := wake_some hj
        have hv := h.pends j v (Or.inr ⟨ws, hj, hm⟩)
        exact absurd (hv.inj (h.pends id v (Or.inr hr))) hne
  · unfold Notifier.wake at hp
    split at hp <;> exact hp

theorem Tidy.checked (h : n.Tidy owed) (id : Id) (answer : Except Error Bool) :
    (n.checked id answer).1.Tidy owed := by
  unfold Notifier.checked
  split
  · exact h.wake id
  · exact h
  · exact h

theorem Tidy.prune (h : n.Tidy owed) : n.prune.Tidy owed :=
  h.thin (thins_prune n) (fun _ _ _ => rfl) id

theorem phase_forget (n : Notifier) (id : Id) : (n.forget id).phase = n.phase := by
  unfold forget
  split
  · rfl
  · split <;> rfl

theorem Tidy.forget (h : n.Tidy owed) (id : Id) : (n.forget id).Tidy owed :=
  h.thin (thins_forget n id) (fun _ w _ => by rw [waiters_forget]) fun hp => by
    rwa [phase_forget] at hp

/-! ### Requests that are taken -/

/-- A release is taken: what it is for is still to be done. -/
theorem Tidy.takeRelease (h : n.Tidy owed) (hr : n.requests = .release id :: rest) :
    ({ n with requests := rest } : Notifier).Tidy fun j w =>
      owed j w ∨ j = id ∧ n.Registered j w := by
  have hmem : ∀ {j w}, .watch j w ∈ rest → .watch j w ∈ n.requests := fun hm =>
    hr ▸ List.mem_cons_of_mem _ hm
  constructor
  · have ho := h.once
    rw [hr] at ho
    exact ho
  · exact h.apart
  · exact fun i j w hm hreg => h.untaken i j w (hmem hm) hreg
  · exact fun j w hl => h.pends j w (hl.imp_left hmem)
  · intro j w hl hn
    rcases h.swept j w (hl.imp_left hmem) hn with ho | hs
    · exact Or.inl (Or.inl ho)
    · rw [hr] at hs
      rcases hl with hq | hreg
      · exact Or.inr (swept_tail hs (Or.inr hq))
      · by_cases hj : j = id
        · exact Or.inl (Or.inr ⟨hj, hreg⟩)
        · exact Or.inr (swept_tail hs (Or.inl fun he => hj (Request.release.inj he).symm))
  · intro hp
    have he := (h.ended hp).1
    rw [hr] at he
    cases he

/-- A watch is taken. -/
theorem Tidy.takeWatch (h : n.Tidy owed) (hr : n.requests = .watch id w :: rest) :
    (({ n with requests := rest } : Notifier).register id w).Tidy owed := by
  have hmem : ∀ {j v}, .watch j v ∈ rest → .watch j v ∈ n.requests := fun hm =>
    hr ▸ List.mem_cons_of_mem _ hm
  have hhead : .watch id w ∈ n.requests := hr ▸ List.mem_cons_self
  have ho := h.once
  rw [hr] at ho
  obtain ⟨hfresh, hrest⟩ := List.nodup_cons.mp ho
  have hlist : ∀ {j v}, (({ n with requests := rest } : Notifier).register id w).Listed j v →
      n.Listed j v := by
    rintro j v (hq | hreg)
    · exact Or.inl (hmem hq)
    · rcases registered_of_register hreg with hreg | ⟨rfl, rfl⟩
      · exact Or.inr hreg
      · exact Or.inl hhead
  constructor
  · exact hrest
  · intro j ws' hj
    rcases register_some hj with ⟨rfl, rfl⟩ | hj
    · refine List.nodup_append.mpr ⟨?_, by simp, ?_⟩
      · rw [Std.ExtTreeMap.getD_eq_getD_getElem?]
        cases hw : n.watchers[j]? with
        | none => exact List.nodup_nil
        | some ws => exact (h.apart j ws hw).filter _
      · rintro v hv u hu rfl
        obtain rfl := List.mem_singleton.mp hu
        exact h.untaken _ _ _ hhead (registered_of_mem_getD (List.mem_filter.mp hv).1)
    · exact h.apart j ws' hj
  · intro i j v hm hr'
    rcases registered_of_register hr' with hr' | ⟨rfl, rfl⟩
    · exact h.untaken i j v (hmem hm) hr'
    · exact hfresh (mem_waiters_iff.mpr ⟨i, hm⟩)
  · exact fun j v hl => h.pends j v (hlist hl)
  · intro j v hl hn
    rcases h.swept j v (hlist hl) hn with ho | hs
    · exact Or.inl ho
    · rw [hr] at hs
      exact Or.inr (swept_tail hs (Or.inl nofun))
  · intro hp
    have he := (h.ended hp).1
    rw [hr] at he
    cases he

/-! ### The notifier -/

/-- The notifier gets ready for what comes next. -/
theorem Tidy.next (h : n.Tidy owed) (hq : n'.requests = n.requests)
    (hw : n'.watchers = n.watchers) (hx : n'.waiters = n.waiters) (hp : n'.phase ≠ .stopped) :
    n'.Tidy owed :=
  h.thin (.of_eq hq hw) (fun _ _ _ => by rw [hx]) fun he => absurd he hp

theorem tidy_stop (n : Notifier) : n.stop.Tidy owed where
  once := List.nodup_nil
  apart := fun id ws hw => by simp [Notifier.stop] at hw
  untaken := nofun
  pends := fun id w hl => absurd hl (not_listed_stop n id w)
  swept := fun id w hl => absurd hl (not_listed_stop n id w)
  ended := fun _ => ⟨rfl, rfl⟩

section Steps

variable {s s' : Store} {now : Instant} {stopping : Bool} {fault : Option Error} {m : Move}
  {events : List Event}

/-- Whatever the notifier does, its lists stay tidy. -/
theorem Step.tidy (hs : Step n s now stopping fault m n' s' events) (h : n.Tidy owed) :
    n'.Tidy owed := by
  cases hs with
  | stop hp hs => exact tidy_stop n
  | hangUp hp he => exact tidy_stop n
  | watch hp hr => exact (h.takeWatch hr).next rfl rfl rfl nofun
  | @release id rest hp hr =>
      refine (((h.takeRelease hr).forget id).mono ?_).next rfl rfl rfl nofun
      -- whoever does not listen is not registered any more
      rintro j w hl hn (ho | ⟨rfl, hreg⟩)
      · exact Or.inl ho
      · rcases hl with hq | ⟨ws', hw', hm⟩
        · rw [requests_forget] at hq
          exact absurd hreg (h.untaken _ _ _ (hr ▸ List.mem_cons_of_mem _ hq))
        · obtain ⟨ws, hw, rfl⟩ := forget_some hw'
          rw [if_pos rfl] at hm
          have hlisten := (List.mem_filter.mp hm).2
          unfold listens at hn hlisten
          rw [waiters_forget] at hn
          rw [hn] at hlisten
          cases hlisten
  | announcement hp hr hi => exact (h.wake _).next rfl rfl rfl nofun
  | sentinel hp hr => exact h.prune.next rfl rfl rfl nofun
  | check hp ha => exact (h.checked _ _).next rfl rfl rfl nofun
  | recheck hp hi ha => exact (h.checked _ _).next rfl rfl rfl nofun
  | conclude hp => exact h.next rfl rfl rfl nofun

end Steps

/-! ### What callers do -/

/-- A new waiter is listed, and listens. -/
theorem Tidy.subscribe (h : n.Tidy owed) (hn : n.ended = false) (id : Id) :
    ({ n with
      waiters := n.waiters ++ [{ id }]
      requests := n.requests ++ [.watch id n.waiters.length] } : Notifier).Tidy owed := by
  -- nobody was listed with the new number
  have hnew : ∀ j, ¬ n.Listed j n.waiters.length := fun j hl =>
    Nat.lt_irrefl _ (h.pends j _ hl).lt_length
  have hlist : ∀ {j v}, ({ n with
      waiters := n.waiters ++ [{ id }]
      requests := n.requests ++ [.watch id n.waiters.length] } : Notifier).Listed j v →
      n.Listed j v ∨ j = id ∧ v = n.waiters.length := by
    rintro j v (hq | hr)
    · rcases List.mem_append.mp hq with hq | hq
      · exact Or.inl (Or.inl hq)
      · obtain ⟨rfl, rfl⟩ := Request.watch.inj (List.mem_singleton.mp hq)
        exact Or.inr ⟨rfl, rfl⟩
    · exact Or.inl (Or.inr hr)
  have hold : ∀ {j v}, n.Listed j v → (n.waiters ++ [({ id } : Waiter)])[v]? = n.waiters[v]? :=
    fun hl => List.getElem?_append_left (h.pends _ _ hl).lt_length
  constructor
  · rw [List.filterMap_append]
    refine List.nodup_append.mpr ⟨h.once, ?_, ?_⟩
    · exact List.nodup_cons.mpr ⟨List.not_mem_nil, List.nodup_nil⟩
    rintro v hv u hu rfl
    obtain rfl := List.mem_singleton.mp hu
    obtain ⟨j, hj⟩ := mem_waiters_iff.mp hv
    exact hnew j (Or.inl hj)
  · exact h.apart
  · intro i j v hm hr
    rcases List.mem_append.mp hm with hm | hm
    · exact h.untaken i j v hm hr
    · obtain ⟨rfl, rfl⟩ := Request.watch.inj (List.mem_singleton.mp hm)
      exact hnew j (Or.inr hr)
  · intro j v hl
    rcases hlist hl with hl | ⟨rfl, rfl⟩
    · obtain ⟨y, hy, hrest⟩ := h.pends j v hl
      exact ⟨y, (hold hl).trans hy, hrest⟩
    · exact ⟨{ id := j }, by simp, rfl, rfl⟩
  · intro j v hl hlisten
    rcases hlist hl with hl | ⟨rfl, rfl⟩
    · unfold listens at hlisten
      rw [hold hl] at hlisten
      refine (h.swept j v hl hlisten).imp_right fun hs => swept_concat hs ?_
      intro he
      obtain ⟨rfl, rfl⟩ := Request.watch.inj he
      exact hnew id hl
    · simp [listens] at hlisten
  · intro hp
    simp [Notifier.ended, show n.phase = .stopped from hp] at hn

theorem listens_leave (n : Notifier) (v : Nat) (h : w ≠ v) :
    (n.leave v).listens w = n.listens w := by
  simp [listens, leave, Ne.symm h]

/-- A waiter stops listening that is not listed, or because of which somebody owes a release. -/
theorem Tidy.leave (h : n.Tidy owed) (ho : ∀ id, n.Listed id v → owed id v) :
    (n.leave v).Tidy owed where
  once := h.once
  apart := h.apart
  untaken := h.untaken
  pends := by
    intro id w hl
    obtain ⟨y, hy, hrest⟩ := h.pends id w hl
    by_cases hv : v = w
    · subst hv
      exact ⟨{ y with listening := false }, by simp [Notifier.leave, hy], hrest⟩
    · exact ⟨y, by simp [Notifier.leave, hv, hy], hrest⟩
  swept := by
    intro id w hl hn
    by_cases hv : w = v
    · subst hv
      exact Or.inl (ho id hl)
    · rw [listens_leave n v hv] at hn
      exact h.swept id w hl hn
  ended := h.ended

/-- A release pays all debts on its id. -/
theorem Tidy.release (h : n.Tidy owed) (id : Id)
    (ho : ∀ j w, owed j w → owed' j w ∨ j = id) : (n.release id).Tidy owed' := by
  unfold Notifier.release
  split
  · rename_i he
    obtain ⟨hq, hw⟩ := h.ended (by simpa [Notifier.ended] using he)
    refine h.mono fun j w hl => ?_
    rcases hl with hm | ⟨ws, hws, -⟩
    · rw [hq] at hm
      cases hm
    · simp [hw] at hws
  · rename_i he
    have hold : ∀ {j w}, .watch j w ∈ n.requests ++ [.release id] → .watch j w ∈ n.requests :=
      fun hm => by simpa using hm
    have hlist : ∀ {j w},
        ({ n with requests := n.requests ++ [.release id] } : Notifier).Listed j w →
          n.Listed j w := fun hl => hl.imp_left hold
    constructor
    · rw [List.filterMap_append, show [Request.release id].filterMap Request.waiter? = [] from rfl,
        List.append_nil]
      exact h.once
    · exact h.apart
    · exact fun i j w hm => h.untaken i j w (hold hm)
    · exact fun j w hl => h.pends j w (hlist hl)
    · intro j w hl hn
      rcases h.swept j w (hlist hl) hn with hd | hs
      · rcases ho j w hd with hd | rfl
        · exact Or.inl hd
        · exact Or.inr ⟨n.requests, [], rfl, List.not_mem_nil⟩
      · exact Or.inr (swept_concat hs (by simp))
    · intro hp
      exact absurd (by simpa [Notifier.ended] using hp) he

end Notifier

end ReadThrough
