import Mathlib.Data.List.Nodup
import ReadThrough.Proofs.Notifier.Alert
import ReadThrough.Proofs.Notifier.Waiters
import ReadThrough.Proofs.System.Runs

/-! # No wake-up is lost

A notifier whose checks are answered stays alert in every run (`run_alert`), whatever the callers,
the workers, other notifiers and the connection do.  So when it has nothing to do and the store is
connected, nobody waits for an id that is finished (`no_lost_wakeup`).

* **Feeds** (`FeedsApart`, `Step.feedsApart`).  No two notifiers have the same feed.
* **Who moves a notifier** (`Step.notifier_cases`).  A step leaves the desk of a notifier alone, is
  a step of that notifier, or has just started it. -/

namespace ReadThrough

/-- The notifier that takes a step, if one does. -/
def Action.notifier? : Action → Option Nat
  | notifier i _ _ => some i
  | _ => none

theorem Action.notifier?_of_op? {a : Action} {op : Store.Op} (ho : a.op? = some op) :
    a.notifier? = none := by
  cases a <;> first | rfl | cases ho

/-- Nobody disturbs the notifier of cache `i`: there is one queue, its checks are answered, and
nobody else takes messages out of its feed or closes it. -/
structure Moment.Undisturbed (q : String) (i : Nat) (m : Moment) : Prop where
  on : m.action.On q
  answered : m.action.notifier? = some i → m.action.fault? = none
  own : ∀ c ∈ m.before.caches[i]?, ∀ op ∈ m.action.op?, op.spares c.notifier.feed = true

instance (q : String) (i : Nat) (m : Moment) : Decidable (m.Undisturbed q i) :=
  decidable_of_iff (m.action.On q ∧ (m.action.notifier? = some i → m.action.fault? = none) ∧
      ∀ c ∈ m.before.caches[i]?, ∀ op ∈ m.action.op?, op.spares c.notifier.feed = true)
    ⟨fun h => ⟨h.1, h.2.1, h.2.2⟩, fun h => ⟨h.on, h.answered, h.own⟩⟩

namespace Notifier

/-- The store is connected, and the notifier has no request and no message left to handle. -/
structure Settled (n : Notifier) (s : Store) : Prop where
  connected : s.connected = true
  idle : n.phase = .idle
  unasked : n.requests = []
  empty : s.inbox n.feed = []

instance (n : Notifier) (s : Store) : Decidable (n.Settled s) :=
  decidable_of_iff (s.connected = true ∧ n.phase = .idle ∧ n.requests = [] ∧ s.inbox n.feed = [])
    ⟨fun ⟨hc, hi, hr, he⟩ => ⟨hc, hi, hr, he⟩, fun h => ⟨h.connected, h.idle, h.unasked, h.empty⟩⟩

/-- An alert notifier with nothing left to do watches no finished id. -/
theorem Alert.not_finished {k : Keys} {n : Notifier} {s : Store} {now : Instant} {id : Id}
    (h : Alert k n s now) (hs : n.Settled s) (hw : id ∈ n.watchers) :
    s.finished k id now = false := by
  rw [Store.finished_eq]
  cases hf : (s.entry k id).finished now with
  | false => rfl
  | true =>
      rcases (h.minds id hw hf).of_idle (due_of_idle hs.idle id) with hc | hi | hi
      · rw [hs.connected] at hc
        cases hc
      · rw [hs.empty] at hi
        cases hi
      · rw [hs.empty] at hi
        cases hi

end Notifier

namespace System

variable {s s' : System} {a : Action} {i : Nat}

/-! ### Feeds -/

/-- The feeds of the notifiers. -/
def feedNumbers (s : System) : List Nat := s.caches.map fun c => c.notifier.feed

/-- No two notifiers have the same feed, and all feeds exist. -/
structure FeedsApart (s : System) : Prop where
  nodup : s.feedNumbers.Nodup
  exist : ∀ f ∈ s.feedNumbers, f < s.store.feeds.length

theorem feedsApart_start : FeedsApart {} := ⟨List.nodup_nil, fun _ h => (List.not_mem_nil h).elim⟩

theorem FeedsApart.inj (h : s.FeedsApart) {j : Nat} {c d : Cache} (hc : s.caches[i]? = some c)
    (hd : s.caches[j]? = some d) (hf : c.notifier.feed = d.notifier.feed) : i = j := by
  have hi := (List.getElem?_eq_some_iff.mp hc).1
  refine (List.getElem?_inj (l := s.feedNumbers) (by simpa [feedNumbers] using hi) h.nodup).mp ?_
  simp [feedNumbers, hc, hd, hf]

/-- A cache whose notifier keeps its feed does not change the list of feeds. -/
theorem map_feed_set {c c' : Cache} (hc : s.caches[i]? = some c)
    (hd : c'.notifier.wired = c.notifier.wired) :
    (s.caches.set i c').map (fun c => c.notifier.feed) = s.feedNumbers := by
  have hf : c'.notifier.feed = c.notifier.feed := congrArg Prod.snd hd
  have hg : s.feedNumbers[i]? = some c'.notifier.feed := by simp [feedNumbers, hc, hf]
  obtain ⟨hi, he⟩ := List.getElem?_eq_some_iff.mp hg
  rw [List.map_set, ← he]
  exact List.set_getElem_self hi

theorem FeedsApart.keep (h : s.FeedsApart) (hn : s'.feedNumbers = s.feedNumbers)
    (hl : s.store.feeds.length ≤ s'.store.feeds.length) : s'.FeedsApart :=
  ⟨hn ▸ h.nodup, fun f hf => Nat.lt_of_lt_of_le (h.exist f (hn ▸ hf)) hl⟩

theorem FeedsApart.open (h : s.FeedsApart) (channel : String)
    (hn : s'.feedNumbers = s.feedNumbers ++ [s.store.feeds.length])
    (hs : s'.store = (s.store.subscribe channel).2) : s'.FeedsApart := by
  have hl : s'.store.feeds.length = s.store.feeds.length + 1 := by
    rw [hs]
    simp [Store.subscribe]
  constructor
  · rw [hn, List.nodup_append]
    refine ⟨h.nodup, List.nodup_singleton _, fun f hf g hg he => ?_⟩
    obtain rfl := List.mem_singleton.mp hg
    exact Nat.lt_irrefl _ (he ▸ h.exist f hf)
  · intro f hf
    rw [hn] at hf
    rw [hl]
    rcases List.mem_append.mp hf with hf | hf
    · exact Nat.lt_succ_of_lt (h.exist f hf)
    · obtain rfl := List.mem_singleton.mp hf
      exact Nat.lt_succ_self _

/-- Feeds are added only. -/
theorem Step.feeds_length (h : Step s a s') : s.store.feeds.length ≤ s'.store.feeds.length := by
  rcases h.does with hd | ⟨op, -, hd⟩
  · exact Nat.le_of_eq (congrArg (·.feeds.length) hd.symm)
  · rw [hd]
    exact Store.feeds_length_apply op s.store s.now

theorem Step.feedsApart (h : Step s a s') (hf : s.FeedsApart) : s'.FeedsApart := by
  have hl := h.feeds_length
  cases h with
  | notifier hc hn => exact hf.keep (map_feed_set hc hn.wired_eq) hl
  | loop hc hp hl' => exact hf.keep (map_feed_set hc rfl) hl
  | worker hc hp hw => exact hf.keep (map_feed_set hc rfl) hl
  | call hx hc hx' => exact hf.keep (map_feed_set hc (congrArg Prod.fst hx'.desk_eq)) hl
  | cancel hx hc => exact hf.keep (map_feed_set hc (congrArg Prod.fst (Call.desk_cancel _ _))) hl
  | closing hx hc hx' =>
      have hn := (Closing.step_keeps hx').2.1
      exact hf.keep (map_feed_set hc (congrArg Notifier.wired hn)) hl
  | @openCache settings computes events hr =>
      exact hf.open settings.keys.channel (by simp [feedNumbers, note, Cache.fresh]) rfl
  | @openNotifier k => exact hf.open k.channel (by simp [feedNumbers, Cache.fresh]) rfl
  | drop hc => exact hf.keep (map_feed_set hc rfl) hl
  | watch hc hn =>
      exact hf.keep (map_feed_set hc (congrArg Prod.fst (Notifier.desk_subscribe? hn))) hl
  | leave hc => exact hf.keep (map_feed_set hc rfl) hl
  | release hc => exact hf.keep (map_feed_set hc (congrArg Prod.fst (Notifier.desk_release _ _))) hl
  | _ => exact hf.keep rfl hl

/-! ### Who moves a notifier -/

/-- A step leaves the desk of a notifier alone, is a step of that notifier, or has started it. -/
theorem Step.notifier_cases (h : Step s a s') {c' : Cache} (hc' : s'.caches[i]? = some c') :
    (∃ c, s.caches[i]? = some c ∧ c'.notifier.desk = c.notifier.desk ∧ a.notifier? ≠ some i) ∨
    (∃ c m fault events, a = .notifier i m fault ∧ s.caches[i]? = some c ∧
      c.notifier.Step s.store s.now c.stopping fault m c'.notifier s'.store events) ∨
    ∃ k, c'.notifier = { keys := k, feed := s.store.feeds.length } ∧
      s'.store = (s.store.subscribe k.channel).2 := by
  -- steps that put a cache with the same desk into its place
  have set {j : Nat} {c d : Cache} (hj : s.caches[j]? = some c)
      (hs : (s.caches.set j d)[i]? = some c') (hd : d.notifier.desk = c.notifier.desk)
      (ha : a.notifier? ≠ some i) :
      ∃ c, s.caches[i]? = some c ∧ c'.notifier.desk = c.notifier.desk ∧ a.notifier? ≠ some i := by
    rcases getElem?_set_cases hs with ⟨rfl, rfl⟩ | ⟨-, hs⟩
    · exact ⟨c, hj, hd, ha⟩
    · exact ⟨c', hs, rfl, ha⟩
  -- steps that start a cache
  have start {d : Cache} {k : Keys} (hd : d.notifier = { keys := k, feed := s.store.feeds.length })
      (ha : a.notifier? ≠ some i) (hs : (s.caches ++ [d])[i]? = some c') :
      (∃ c, s.caches[i]? = some c ∧ c'.notifier.desk = c.notifier.desk ∧ a.notifier? ≠ some i) ∨
        c'.notifier = { keys := k, feed := s.store.feeds.length } := by
    rcases Nat.lt_or_ge i s.caches.length with hi | hi
    · rw [List.getElem?_append_left hi] at hs
      exact Or.inl ⟨c', hs, rfl, ha⟩
    · rw [List.getElem?_append_right hi] at hs
      obtain rfl := List.mem_singleton.mp (List.mem_of_getElem? hs)
      exact Or.inr hd
  cases h with
  | @notifier j m fault c n store events hc hn =>
      rcases getElem?_set_cases hc' with ⟨rfl, rfl⟩ | ⟨hi, hs⟩
      · exact Or.inr (Or.inl ⟨c, m, fault, events, rfl, hc, hn⟩)
      · exact Or.inl ⟨c', hs, rfl, fun he => hi (Option.some.inj he).symm⟩
  | loop hc hp hl => exact Or.inl (set hc hc' rfl nofun)
  | worker hc hp hw => exact Or.inl (set hc hc' rfl nofun)
  | call hx hc hx' => exact Or.inl (set hc hc' hx'.desk_eq nofun)
  | cancel hx hc => exact Or.inl (set hc hc' (Call.desk_cancel _ _) nofun)
  | closing hx hc hx' =>
      have hn := (Closing.step_keeps hx').2.1
      exact Or.inl (set hc hc' (congrArg Notifier.desk hn) nofun)
  | openCache hr =>
      rcases start rfl nofun hc' with hs | hs
      · exact Or.inl hs
      · exact Or.inr (Or.inr ⟨_, hs, rfl⟩)
  | openNotifier =>
      rcases start rfl nofun hc' with hs | hs
      · exact Or.inl hs
      · exact Or.inr (Or.inr ⟨_, hs, rfl⟩)
  | drop hc => exact Or.inl (set hc hc' rfl nofun)
  | watch hc hn => exact Or.inl (set hc hc' (Notifier.desk_subscribe? hn) nofun)
  | leave hc => exact Or.inl (set hc hc' rfl nofun)
  | release hc => exact Or.inl (set hc hc' (Notifier.desk_release _ _) nofun)
  | outside ho hf =>
      have ha : a.notifier? ≠ some i := by
        rw [Action.notifier?_of_op? ho]
        nofun
      exact Or.inl ⟨c', hc', rfl, ha⟩
  | denied ho hf =>
      have ha : a.notifier? ≠ some i := by
        rw [Action.notifier?_of_op? ho]
        nofun
      exact Or.inl ⟨c', hc', rfl, ha⟩
  | _ => exact Or.inl ⟨c', hc', rfl, nofun⟩

/-- Others spare the feed of a notifier. -/
theorem Asks.spares {op : Store.Op} (h : Asks s a op) (hf : s.FeedsApart) {c : Cache}
    (hc : s.caches[i]? = some c) (ha : a.notifier? ≠ some i)
    (ho : ∀ op ∈ a.op?, op.spares c.notifier.feed = true) : op.spares c.notifier.feed = true := by
  -- another notifier has another feed
  have apart {j : Nat} {d : Cache} (hd : s.caches[j]? = some d) (hj : j ≠ i) :
      (d.notifier.feed != c.notifier.feed) = true :=
    bne_iff_ne.mpr fun he => hj (hf.inj hd hc he)
  cases h with
  | receive hd => exact apart hd fun he => ha (congrArg some he)
  | unsubscribe hd => exact apart hd fun he => ha (congrArg some he)
  | outside ho' _ => exact ho _ ho'
  | _ => rfl

/-- A notifier can rely on what others do to the store. -/
theorem Step.heard {q : String} (h : Step s a s') (hu : Moment.Undisturbed q i ⟨s, a⟩)
    (hk : s.OneQueue ⟨q⟩) (hf : s.FeedsApart) {c : Cache} (hc : s.caches[i]? = some c)
    (ha : a.notifier? ≠ some i) (hh : s.store.Hears c.notifier.feed (Keys.channel ⟨q⟩)) :
    Store.Heard ⟨q⟩ c.notifier.feed s.now s.store s'.store := by
  rcases h.does with he | ⟨op, ho, he⟩
  · rw [he]
    exact Store.Heard.refl _ _ _ _
  · rw [he]
    exact Store.heard_apply (ho.spares hf hc ha (hu.own c hc)) (ho.keys_eq hk hu.on) hh s.now

/-! ### No wake-up is lost -/

/-- The notifier of cache `i`, if there is one by now, is alert. -/
def AlertAt (q : String) (i : Nat) (s : System) : Prop :=
  ∀ c ∈ s.caches[i]?, c.notifier.Alert ⟨q⟩ s.store s.now

theorem alertAt_start (q : String) (i : Nat) : AlertAt q i {} := by
  intro c hc
  simp at hc

theorem Step.alertAt {q : String} (h : Step s a s') (hu : Moment.Undisturbed q i ⟨s, a⟩)
    (hk : s.OneQueue ⟨q⟩) (hf : s.FeedsApart) (hs : s.AlertAt q i) : s'.AlertAt q i := by
  intro c' hc'
  refine Notifier.Alert.later ?_ h.now_le
  rcases h.notifier_cases hc' with
    ⟨c, hc, hd, ha⟩ | ⟨c, m, fault, events, rfl, hc, hn⟩ | ⟨k, hn, hst⟩
  · exact (hs c hc).heard hd (h.heard hu hk hf hc ha)
  · obtain rfl : fault = none := hu.answered rfl
    exact hn.alert (hs c hc)
  · have hkey : c'.notifier.keys = ⟨q⟩ := ((h.oneQueue hu.on hk).of_getElem? hc').2
    rw [hn] at hkey ⊢
    rw [hst, show k = ⟨q⟩ from hkey]
    exact Notifier.alert_subscribe _ s.store s.now

theorem run_alert {q : String} {as : List Action} (hr : run? {} as = some s)
    (hu : ∀ m ∈ moments {} as, m.Undisturbed q i) : s.AlertAt q i := by
  have hi := run_induction (s := {})
    (P := fun _ s => s.OneQueue ⟨q⟩ ∧ s.FeedsApart ∧ s.AlertAt q i)
    ⟨oneQueue_start _, feedsApart_start, alertAt_start q i⟩
    (fun _ u a u' hp hm h =>
      ⟨h.oneQueue hm.on hp.1, h.feedsApart hp.2.1, h.alertAt hm hp.1 hp.2.1 hp.2.2⟩) hu hr
  exact hi.2.2

/-- **No wake-up is lost.**  When the store is connected and an undisturbed notifier has nothing
left to handle, nobody who is registered there waits for an id that is finished. -/
theorem no_lost_wakeup {q : String} {as : List Action} {c : Cache} (hr : run? {} as = some s)
    (hu : ∀ m ∈ moments {} as, m.Undisturbed q i) (hc : s.caches[i]? = some c)
    (hs : c.notifier.Settled s.store) :
    ∀ id w, c.notifier.Awaits id w → s.store.finished ⟨q⟩ id s.now = false :=
  fun _ _ hw => (run_alert hr hu c hc).not_finished hs hw.registered.mem

/-- Two ids are watched, one of them is finished while the store is disconnected, and the notifier
finds that out when the connection is back. -/
def missed : List Action :=
  [.openNotifier ⟨"q"⟩ none, .notifier 0 .message none, .notifier 0 .conclude none,
    .watch 0 "x", .watch 0 "y", .notifier 0 .request none, .notifier 0 (.check "x") none,
    .notifier 0 .request none, .notifier 0 (.check "y") none, .disconnect,
    .complete ⟨"q"⟩ "x" (.value []) none, .reconnect, .notifier 0 .message none,
    .notifier 0 (.check "y") none, .notifier 0 (.check "x") none, .notifier 0 .conclude none]

theorem no_lost_wakeup_missed :
    ∃ s c, run? {} missed = some s ∧ (∀ m ∈ moments {} missed, m.Undisturbed "q" 0) ∧
      s.caches[0]? = some c ∧ c.notifier.Settled s.store ∧ c.notifier.Awaits "y" 1 ∧
      c.notifier.signal 0 = .woken ∧ s.store.finished ⟨"q"⟩ "x" s.now = true ∧
      s.store.finished ⟨"q"⟩ "y" s.now = false := by
  have hu : ∀ m ∈ moments {} missed, m.Undisturbed "q" 0 := by decide +kernel
  have hd : (run? {} missed).any (fun s => s.caches[0]?.any fun c =>
      (s.store.finished ⟨"q"⟩ "x" s.now && c.notifier.Settled s.store) &&
        (c.notifier.watchers["y"]? = some [1] &&
          c.notifier.waiters = [⟨"x", true, .woken⟩, ⟨"y", true, .pending⟩])) = true := by
    decide +kernel
  obtain ⟨s, hr, hd⟩ := (Option.any_eq_true _ _).mp hd
  obtain ⟨c, hc, hd⟩ := (Option.any_eq_true _ _).mp hd
  simp only [Bool.and_eq_true, decide_eq_true_eq] at hd
  obtain ⟨⟨hx, hs⟩, hy, hw⟩ := hd
  have ha : c.notifier.Awaits "y" 1 :=
    ⟨⟨[1], hy, List.mem_singleton_self 1⟩, ⟨"y", true, .pending⟩, by rw [hw]; rfl, rfl, rfl⟩
  have hsignal : c.notifier.signal 0 = .woken := by
    unfold Notifier.signal
    rw [hw]
    rfl
  exact ⟨s, c, hr, hu, hc, hs, ha, hsignal, hx, no_lost_wakeup hr hu hc hs "y" 1 ha⟩

end System

end ReadThrough
