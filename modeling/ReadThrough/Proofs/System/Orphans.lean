import ReadThrough.Proofs.Notifier.Telling
import ReadThrough.Proofs.System.Lapses

/-! # Callers that nobody will wake

A caller is orphaned if it waits for an id that is not open: nobody will compute the id or announce
it, and there is no record that a check could find.  The check after an outage does not rule this
out, since a failure that was announced during the outage may have expired by then.

`orphaned_iff` says that there is no other way: a caller whose notifier has nothing left to handle
is orphaned if and only if a failure of its id was overlooked (`System.Overlooked`).  It was written
after the caller had asked and was not announced to its waiter (`Moment.Unheard`), its notifier did
not check the id before the failure expired (`Moment.Checks`), and the id was not queued again.

* **Waiters** (`Step.fades`).  Nothing that happens brings a waiter to life.
* **Told** (`System.ToldAt`, `run_toldAt`).  A waiter that was told stays told, so whoever is still
  waiting at the end was told neither by an announcement nor by a check. -/

namespace ReadThrough

/-- An id that is announced at a moment is not announced to a waiter of cache `i`: there is no
connection, the announcement is the empty message, or the waiter does not await the id. -/
def Moment.Unheard (m : Moment) (i : Nat) (id : Id) (w : Nat) : Prop :=
  m.before.store.connected = false ∨ id = "" ∨
    ∀ c, m.before.caches[i]? = some c → ¬ c.notifier.Awaits id w

/-- The notifier of cache `i` checks an id that a waiter awaits. -/
def Moment.Checks (m : Moment) (i : Nat) (id : Id) (w : Nat) : Prop :=
  (∃ fault, m.action = .notifier i (.check id) fault) ∧
    ∃ c, m.before.caches[i]? = some c ∧ c.notifier.Awaits id w

namespace System

variable {s s' u : System} {a : Action} {q : String} {i j w : Nat} {id : Id} {expires : Instant}

/-- A failure of the id of a caller was overlooked by the waiter `w` that the caller waits with, and
nothing has happened to the id since then. -/
def Overlooked (q : String) (j : Nat) (x : Call) (w : Nat) (past : List Moment) (s : System) :
    Prop :=
  ∃ early m late o t expires, past = early ++ m :: late ∧ t.id = x.id ∧ m.Fails o t expires ∧
    m.before.HasAsked j ∧ m.Unheard x.cache x.id w ∧
    (∀ m' ∈ late, (m'.before.store.entry ⟨q⟩ x.id).priority = none ∧
      (m'.Checks x.cache x.id w → expires ≤ m'.before.now)) ∧
    (s.store.entry ⟨q⟩ x.id).priority = none ∧ expires ≤ s.now

/-! ### Waiters -/

/-- Nothing that happens brings a waiter to life. -/
theorem Step.fades (h : Step s a s') {c : Cache} (hc : s.caches[i]? = some c) :
    ∃ c', s'.caches[i]? = some c' ∧ c.notifier.Fades c'.notifier := by
  have set {k : Nat} {d d' : Cache} (hd : s.caches[k]? = some d)
      (hf : d.notifier.Fades d'.notifier) :
      ∃ c', (s.caches.set k d')[i]? = some c' ∧ c.notifier.Fades c'.notifier := by
    by_cases hk : k = i
    · subst hk
      obtain rfl := Option.some.inj (hc.symm.trans hd)
      exact ⟨d', List.getElem?_set_self (List.getElem?_eq_some_iff.mp hc).1, hf⟩
    · refine ⟨c, ?_, Notifier.Fades.refl _⟩
      rw [List.getElem?_set_ne hk]
      exact hc
  have more (d : Cache) :
      ∃ c', (s.caches ++ [d])[i]? = some c' ∧ c.notifier.Fades c'.notifier := by
    refine ⟨c, ?_, Notifier.Fades.refl _⟩
    rw [List.getElem?_append_left (List.getElem?_eq_some_iff.mp hc).1]
    exact hc
  cases h with
  | notifier hd hn => exact set hd hn.fades
  | loop hd hp hl => exact set hd (Notifier.Fades.refl _)
  | worker hd hp hw => exact set hd (Notifier.Fades.refl _)
  | call hx hd hx' => exact set hd hx'.fades
  | @cancel k x d hx hd => exact set hd (Call.fades_cancel x d.notifier)
  | closing hx hd hx' =>
      have hn := (Closing.step_keeps hx').2.1
      exact set hd (hn ▸ Notifier.Fades.refl _)
  | openCache hr => exact more _
  | openNotifier => exact more _
  | drop hd => exact set hd (Notifier.Fades.refl _)
  | watch hd hn => exact set hd (Notifier.fades_subscribe? hn)
  | leave hd => exact set hd (Notifier.fades_leave _ _)
  | release hd => exact set hd (Notifier.fades_release _ _)
  | _ => exact ⟨c, hc, Notifier.Fades.refl _⟩

/-! ### Told -/

/-- The waiter `w` of cache `i` is told of an id. -/
def ToldAt (i : Nat) (id : Id) (w : Nat) (s : System) : Prop :=
  ∃ c, s.caches[i]? = some c ∧ c.notifier.Told s.store id w

/-- A waiter stays told. -/
theorem Step.toldAt (h : Step s a s') (hm : Moment.Faultless q ⟨s, a⟩) (hs : s.Steady q)
    (ht : s.ToldAt i id w) : s'.ToldAt i id w := by
  obtain ⟨c, hc, ht⟩ := ht
  obtain ⟨c', hc', hf⟩ := h.fades hc
  refine ⟨c', hc', ?_⟩
  rcases h.notifier_cases hc' with
    ⟨d, hd, hdesk, ha⟩ | ⟨d, m, fault, events, rfl, hd, hn⟩ | ⟨k, hn, -⟩
  · obtain rfl := Option.some.inj (hc.symm.trans hd)
    have halert := hs.alert i c hc
    refine ht.others hf hdesk fun hwatch => ?_
    have hhears := halert.hears (halert.watching hwatch)
    exact (h.heard (hm.undisturbed i) hs.custody.1 hs.feeds hc ha hhears).kept
  · obtain rfl := Option.some.inj (hc.symm.trans hd)
    exact hn.told ht
  · -- a new notifier has no waiters
    have hlt := hf.lt_length ht.1
    rw [hn] at hlt
    exact absurd hlt (Nat.not_lt_zero w)

theorem run_toldAt {as : List Action} (hr : u.run? as = some s) (hu : u.Steady q)
    (hm : ∀ m ∈ u.moments as, m.Faultless q) (ht : u.ToldAt i id w) : s.ToldAt i id w := by
  have hi := run_induction (P := fun _ v => v.Steady q ∧ v.ToldAt i id w)
    (A := Moment.Faultless q) ⟨hu, ht⟩
    (fun _ v a v' hp hm h => ⟨h.steady hm hp.1, h.toldAt hm hp.1 hp.2⟩) hm hr
  exact hi.2

/-- A failure that is heard tells the waiter. -/
theorem Step.toldAt_of_fails (h : Step s a s') (hm : Moment.Faultless q ⟨s, a⟩)
    (hs : s.Steady q) {o : Nat × Nat} {t : Claim} (hf : Moment.Fails ⟨s, a⟩ o t expires)
    (hh : ¬ Moment.Unheard ⟨s, a⟩ i t.id w) : s'.ToldAt i t.id w := by
  simp only [Moment.Unheard, not_or, Bool.not_eq_false, Classical.not_forall,
    Classical.not_not] at hh
  obtain ⟨hcon, hid, c, hc, haw⟩ := hh
  obtain ⟨message, ttl, hw, ha⟩ := hf
  -- the notifier is left alone by the worker
  obtain ⟨rfl, hk⟩ := hw
  obtain ⟨d, p, p', store, events, hd, hp, -, -, hset, -⟩ := h.of_worker hk
  obtain ⟨c', hc', hn⟩ : ∃ c', s'.caches[i]? = some c' ∧ c'.notifier = c.notifier := by
    rw [hset]
    by_cases hi : o.1 = i
    · subst hi
      obtain rfl := Option.some.inj (hc.symm.trans hd)
      exact ⟨_, List.getElem?_set_self (List.getElem?_eq_some_iff.mp hc).1, rfl⟩
    · refine ⟨c, ?_, rfl⟩
      rw [List.getElem?_set_ne hi]
      exact hc
  refine ⟨c', hc', ?_⟩
  rw [hn]
  refine ⟨haw.live.lt_length, fun _ => ⟨hid, haw.registered, ?_⟩⟩
  -- and the announcement is put into its feed
  have halert := hs.alert i c hc
  have hspares :
      (Store.Op.complete ⟨q⟩ t.id (.failure message ttl)).spares c.notifier.feed = true := rfl
  have hfeed := (Store.feed_apply hspares (fun l hl => by obtain rfl := Option.some.inj hl; rfl)
    (halert.hears (halert.watching haw.registered.mem)) s.now).2
  simp only [Store.Op.apply] at hfeed
  rw [h.store_of_writes hs.custody.1 ⟨rfl, hk⟩, hfeed]
  refine List.mem_append_right _ ?_
  simp [Store.Op.announced, hcon, Completion.nameable, ha]

/-- A check of an id that is finished tells the waiter. -/
theorem Step.toldAt_of_checks (h : Step s a s') (hm : Moment.Faultless q ⟨s, a⟩)
    (hs : s.Steady q) (hc : Moment.Checks ⟨s, a⟩ i id w)
    (hf : (s.store.entry ⟨q⟩ id).finished s.now = true) : s'.ToldAt i id w := by
  obtain ⟨⟨fault, ha⟩, c, hc, haw⟩ := hc
  obtain rfl : a = _ := ha
  obtain rfl : fault = none := hm.answered
  obtain ⟨c', hc', hfades⟩ := h.fades hc
  refine ⟨c', hc', ?_⟩
  cases h with
  | notifier hd hn =>
      obtain rfl := Option.some.inj (hc.symm.trans hd)
      rw [← (hs.custody.1.of_getElem? hc).2] at hf
      rcases getElem?_set_cases hc' with ⟨-, rfl⟩ | ⟨hi, -⟩
      · exact Notifier.told_of_not_live (hfades.lt_length haw.live.lt_length)
          (hn.not_live_of_check haw.registered hf) _ _
      · exact absurd rfl hi
  | outside ho => cases ho
  | denied ho => cases ho

/-! ### Orphans -/

/-- A run without faults is steady before and after each of its moments. -/
theorem exists_cut {as : List Action} {past late : List Moment} {m : Moment}
    (hr : run? {} as = some s) (hm : ∀ m ∈ moments {} as, m.Faultless q)
    (he : moments {} as = past ++ m :: late) :
    ∃ u bs, Step m.before m.action u ∧ m.Faultless q ∧ m.before.Steady q ∧ u.Steady q ∧
      u.run? bs = some s ∧ u.moments bs = late ∧ ∀ m ∈ u.moments bs, m.Faultless q := by
  obtain ⟨bs, u, hb, rfl, hu, cs, -, hcs, rfl⟩ := exists_prefix hr he
  rw [he] at hm
  have hmid : m.Faultless q := hm m (by simp)
  have hsteady : m.before.Steady q := run_steady hb fun m' hm' => hm m' (by simp [hm'])
  have hstep := step_of hu
  exact ⟨u, cs, hstep, hmid, hsteady, hstep.steady hmid hsteady, hcs, rfl,
    fun m' hm' => hm m' (by simp [hm'])⟩

/-- Whoever is live when there are no messages left was not told before. -/
theorem not_toldAt {as : List Action} {c : Cache} (hr : u.run? as = some s) (hu : u.Steady q)
    (hm : ∀ m ∈ u.moments as, m.Faultless q) (hc : s.caches[i]? = some c)
    (hl : c.notifier.Live w) (he : s.store.inbox c.notifier.feed = []) : ¬ u.ToldAt i id w := by
  intro ht
  obtain ⟨d, hd, ht⟩ := run_toldAt hr hu hm ht
  obtain rfl := Option.some.inj (hc.symm.trans hd)
  exact ht.not_live he hl

/-- **Orphans are those whose failure was overlooked.**  In a run without faults, when the store is
connected and its notifier has nothing left to handle, a caller waits for an id that is neither
queued nor claimed nor finished if and only if a failure of the id was overlooked and has
expired. -/
theorem orphaned_iff {as : List Action} {x : Call} {c : Cache} (hr : run? {} as = some s)
    (hm : ∀ m ∈ moments {} as, m.Faultless q) (hx : s.calls[j]? = some x) (hw : x.Waits w)
    (hc : s.caches[x.cache]? = some c) (hs : c.notifier.Settled s.store)
    (hp : c.notifier.signal w = .pending) :
    ¬ (s.store.entry ⟨q⟩ x.id).Open s.now ↔ Overlooked q j x w (moments {} as) s := by
  have hattends := (run_steady hr hm).attended.attends x (List.mem_of_getElem? hx) c hc w hw
  constructor
  · intro hno
    rcases run_prospect hr hm hx (Or.inr ⟨w, hw⟩) with
      hsafe | ⟨early, m, late, o, t, expires, he, ht, hf, hasked, hlate, hl⟩
    · exact absurd (hsafe.open s.now) hno
    · have hexpired : expires ≤ s.now := by
        rcases hl.2 with hexpired | hf
        · exact hexpired
        · exact Nat.le_of_not_lt fun hlt => hno (Or.inr (Or.inr (hf.finished hlt)))
      refine ⟨early, m, late, o, t, expires, he, ht, hf, hasked, ?_, fun m' hm' =>
        ⟨(hlate m' hm').1, fun hch => ?_⟩, hl.1, hexpired⟩
      · by_contra hh
        obtain ⟨u, bs, hstep, hmid, hbefore, hu, hbs, -, hbm⟩ := exists_cut hr hm he
        rw [← ht] at hh
        exact not_toldAt hbs hu hbm hc (hattends.live hp) hs.empty
          (hstep.toldAt_of_fails hmid hbefore hf hh)
      · -- a check before the failure had expired would have told the waiter
        by_contra hn
        have hfin := ((hlate m' hm').2.resolve_left hn).finished (Nat.lt_of_not_le hn)
        obtain ⟨front, back, rfl⟩ := List.append_of_mem hm'
        have he' : moments {} as = (early ++ m :: front) ++ m' :: back := by simp [he]
        obtain ⟨u, bs, hstep, hmid, hbefore, hu, hbs, -, hbm⟩ := exists_cut hr hm he'
        exact not_toldAt hbs hu hbm hc (hattends.live hp) hs.empty
          (hstep.toldAt_of_checks hmid hbefore hch hfin)
  · rintro ⟨early, m, late, o, t, expires, he, ht, hf, -, -, hlate, hq, hexpired⟩
    obtain ⟨u, bs, hstep, hmid, hbefore, hu, hbs, rfl, hbm⟩ := exists_cut hr hm he
    have hspent := hstep.spent_of_fails hbefore.custody hf
    rw [ht] at hspent
    have hend := run_spent hbs hu.custody hbm hspent (fun m' hm' => (hlate m' hm').1) hq
    exact hend.not_open hexpired

/-- A computation fails during an outage, and the failure expires before the connection is back. -/
def unheard : List Action :=
  List.flatten [
    [.openCache { queue := "q", workers := 1, errorTtl := ⟨5⟩ } true none, .get 0 "x" 0,
      .notifier 0 .message none, .notifier 0 .conclude none],
    .replicate 4 (.loop 0 .advance none),
    [.worker 0 0 .advance none, .call 0 none, .call 0 none],
    .replicate 6 (.loop 0 .advance none),
    [.worker 0 0 .advance none, .worker 0 0 .advance none, .call 0 none, .notifier 0 .request none,
      .notifier 0 (.check "x") none, .disconnect, .worker 0 0 (.computed (.failed "boom")) none,
      .worker 0 0 .advance none, .tick ⟨5⟩, .reconnect, .notifier 0 .message none,
      .notifier 0 (.check "x") none, .notifier 0 .conclude none]]

theorem orphaned_iff_unheard :
    ∃ s x c, run? {} unheard = some s ∧ (∀ m ∈ moments {} unheard, m.Faultless "q") ∧
      s.calls[0]? = some x ∧ x.Waits 0 ∧ s.caches[x.cache]? = some c ∧
      c.notifier.Settled s.store ∧ c.notifier.signal 0 = .pending ∧
      ¬ (s.store.entry ⟨"q"⟩ x.id).Open s.now ∧ Overlooked "q" 0 x 0 (moments {} unheard) s := by
  have hm : ∀ m ∈ moments {} unheard, m.Faultless "q" := by decide +kernel
  have hd : (run? {} unheard).any (fun s => s.calls[0]?.any fun x => s.caches[x.cache]?.any fun c =>
      (x.phase = .waiting 0 (some 300000000000) && c.notifier.Settled s.store) &&
        (c.notifier.signal 0 = .pending && !decide ((s.store.entry ⟨"q"⟩ x.id).Open s.now))) =
      true := by
    decide +kernel
  obtain ⟨s, hr, hd⟩ := (Option.any_eq_true _ _).mp hd
  obtain ⟨x, hx, hd⟩ := (Option.any_eq_true _ _).mp hd
  obtain ⟨c, hc, hd⟩ := (Option.any_eq_true _ _).mp hd
  simp only [Bool.and_eq_true, Bool.not_eq_true', decide_eq_true_eq, decide_eq_false_iff_not] at hd
  obtain ⟨⟨hphase, hs⟩, hp, hno⟩ := hd
  have hw : x.Waits 0 := ⟨_, hphase⟩
  exact ⟨s, x, c, hr, hm, hx, hw, hc, hs, hp, hno, (orphaned_iff hr hm hx hw hc hs hp).mp hno⟩

end System

end ReadThrough
