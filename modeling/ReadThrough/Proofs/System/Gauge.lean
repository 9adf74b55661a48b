import ReadThrough.Proofs.System.Touching

/-! # The number of watched ids that is shown

A notifier shows how many ids it watches.  It brings the number up to date whenever it gets ready
for the next request or message (`Notifier.Gauged`), and not any more when it ends: what is shown
from then on is the number of ids that it watched in the moment in which it ended
(`Moment.Ends`, `System.frozen_gauge`). -/

namespace ReadThrough

namespace Notifier

/-- Every watched id has a waiter, and between two requests or messages the number of watched ids is
shown. -/
structure Gauged (n : Notifier) : Prop where
  filled : ∀ id : Id, n.watchers[id]? ≠ some []
  shown : n.phase = .idle → n.watching = n.watchers.size

variable {n n' : Notifier}

/-! ### No id without a waiter -/

theorem filled_register (h : ∀ id : Id, n.watchers[id]? ≠ some []) (id : Id) (w : Nat) (j : Id) :
    (n.register id w).watchers[j]? ≠ some [] := by
  unfold register
  rw [Std.ExtTreeMap.getElem?_insert]
  split
  · simp
  · exact h j

theorem filled_forget (h : ∀ id : Id, n.watchers[id]? ≠ some []) (id j : Id) :
    (n.forget id).watchers[j]? ≠ some [] := by
  unfold forget
  split
  · exact h j
  · split
    · rw [Std.ExtTreeMap.getElem?_erase]
      split
      · exact nofun
      · exact h j
    · rename_i hne
      rw [Std.ExtTreeMap.getElem?_insert]
      split
      · exact fun he => hne (Option.some.inj he)
      · exact h j

theorem filled_prune (n : Notifier) (j : Id) : n.prune.watchers[j]? ≠ some [] := by
  unfold prune
  simp only [Std.ExtTreeMap.getElem?_filterMap]
  cases n.watchers[j]? with
  | none => exact nofun
  | some ws =>
      cases hl : ws.filter n.listens with
      | nil => simp [hl]
      | cons w live => simp [hl]

theorem filled_wake (h : ∀ id : Id, n.watchers[id]? ≠ some []) (id j : Id) :
    (n.wake id).1.watchers[j]? ≠ some [] := by
  unfold wake
  split
  · exact h j
  · dsimp only
    rw [Std.ExtTreeMap.getElem?_erase]
    split
    · exact nofun
    · exact h j

theorem filled_checked (h : ∀ id : Id, n.watchers[id]? ≠ some []) (id : Id)
    (answer : Except Error Bool) (j : Id) : (n.checked id answer).1.watchers[j]? ≠ some [] := by
  unfold checked
  split
  · exact filled_wake h id j
  · exact h j
  · exact h j

/-! ### Steps -/

section Steps

variable {s s' : Store} {now : Instant} {stopping : Bool} {fault : Option Error} {m : Move}
  {events : List Event}

theorem Step.gauged (hs : Step n s now stopping fault m n' s' events) (h : n.Gauged) :
    n'.Gauged := by
  cases hs with
  | stop hp hs => exact ⟨by simp [Notifier.stop], nofun⟩
  | hangUp hp he => exact ⟨by simp [Notifier.stop], nofun⟩
  | @watch id w rest hp hr =>
      exact ⟨filled_register (n := { n with requests := rest }) h.1 id w, nofun⟩
  | @release id rest hp hr =>
      exact ⟨filled_forget (n := { n with requests := rest }) h.1 id, fun _ => rfl⟩
  | announcement hp hr hi => exact ⟨filled_wake h.1 _, fun _ => rfl⟩
  | sentinel hp hr => exact ⟨filled_prune n, nofun⟩
  | check hp ha => exact ⟨filled_checked h.1 _ _, fun _ => rfl⟩
  | recheck hp hi ha => exact ⟨filled_checked h.1 _ _, nofun⟩
  | conclude hp => exact ⟨h.1, fun _ => rfl⟩

/-- A notifier ends by seeing the stop signal or the end of its channel, and leaves the shown number
as it is. -/
theorem Step.ends (h : Step n s now stopping fault m n' s' events) (he : n'.ended = true) :
    (m = .stop ∨ m = .hangUp) ∧ n.phase = .idle ∧ n'.watching = n.watching := by
  cases h with
  | stop hp hs => exact ⟨Or.inl rfl, hp, rfl⟩
  | hangUp hp hf => exact ⟨Or.inr rfl, hp, rfl⟩
  | _ => cases he

end Steps

theorem ended_of_board_eq (h : n'.board = n.board) : n'.ended = n.ended :=
  ended_of_desk_eq (congrArg Prod.fst h)

theorem Gauged.of_board_eq (h : n.Gauged) (hb : n'.board = n.board) : n'.Gauged := by
  have hp : n'.phase = n.phase := congrArg (·.1.2.1) hb
  have hw : n'.watchers = n.watchers := congrArg (·.1.2.2) hb
  have hs : n'.watching = n.watching := congrArg Prod.snd hb
  refine ⟨fun id => hw ▸ h.filled id, fun hi => ?_⟩
  rw [hs, hw]
  exact h.shown (hp ▸ hi)

/-- A notifier watches as many ids as have a waiter. -/
theorem Gauged.size_eq_zero_iff (h : n.Gauged) :
    n.watchers.size = 0 ↔ ∀ id w, ¬ n.Registered id w := by
  constructor
  · rintro hz id w ⟨ws, hw, -⟩
    rw [Std.ExtTreeMap.eq_empty_iff_size_eq_zero.mpr hz] at hw
    simp at hw
  · intro hn
    refine Std.ExtTreeMap.eq_empty_iff_size_eq_zero.mp (Std.ExtTreeMap.ext_getElem? fun id => ?_)
    rw [Std.ExtTreeMap.getElem?_empty]
    cases hw : n.watchers[id]? with
    | none => rfl
    | some ws =>
        cases ws with
        | nil => exact absurd hw (h.filled id)
        | cons w rest => exact absurd ⟨_, hw, List.mem_cons_self⟩ (hn id w)

end Notifier

/-- The notifier of cache `i` ends. -/
def Moment.Ends (m : Moment) (i : Nat) : Prop :=
  ∃ move fault, m.action = .notifier i move fault ∧ (move = .stop ∨ move = .hangUp)

namespace System

variable {s s' : System} {a : Action} {i : Nat}

/-- Cache `i` had a notifier `d` with nothing to do when that notifier ended. -/
def EndedWith (past : List Moment) (i : Nat) (d : Cache) : Prop :=
  ∃ early m late, past = early ++ m :: late ∧ m.Ends i ∧ m.before.caches[i]? = some d ∧
    d.notifier.phase = .idle

theorem EndedWith.concat {past : List Moment} {d : Cache} (h : EndedWith past i d) (m : Moment) :
    EndedWith (past ++ [m]) i d := by
  obtain ⟨early, m', late, rfl, hm⟩ := h
  exact ⟨early, m', late ++ [m], by simp, hm⟩

/-- The number that the notifier of cache `i` shows: what it watches while it runs, and what it
watched when it ended. -/
def GaugeAt (past : List Moment) (i : Nat) (s : System) : Prop :=
  ∀ c ∈ s.caches[i]?, c.notifier.Gauged ∧ (c.notifier.ended = true →
    ∃ d, EndedWith past i d ∧ d.notifier.Gauged ∧ c.notifier.watching = d.notifier.watchers.size)

theorem Step.gaugeAt {past : List Moment} (h : Step s a s') (hs : s.GaugeAt past i) :
    s'.GaugeAt (past ++ [⟨s, a⟩]) i := by
  intro c' hc'
  rcases h.touches hc' with ⟨c, hc, -, ht⟩ | ⟨-, -, -, k, hn, -⟩
  · obtain ⟨hg, hend⟩ := hs c hc
    rcases ht.moves_or_board_eq with ⟨m, fault, events, rfl, hn⟩ | hb
    · refine ⟨hn.gauged hg, fun he => ?_⟩
      obtain ⟨hm, hp, hw⟩ := hn.ends he
      refine ⟨c, ⟨past, _, [], rfl, ⟨m, fault, rfl, hm⟩, hc, hp⟩, hg, ?_⟩
      rw [hw, hg.shown hp]
    · refine ⟨hg.of_board_eq hb, fun he => ?_⟩
      rw [Notifier.ended_of_board_eq hb] at he
      obtain ⟨d, hd, hdg, hw⟩ := hend he
      exact ⟨d, hd.concat _, hdg, (congrArg Prod.snd hb).trans hw⟩
  · rw [hn]
    exact ⟨⟨by simp, fun _ => rfl⟩, nofun⟩

theorem run_gaugeAt {as : List Action} (hr : run? {} as = some s) (i : Nat) :
    s.GaugeAt (moments {} as) i :=
  run_induction (P := fun past s => s.GaugeAt past i) (A := fun _ => True)
    (fun c hc => by simp at hc) (fun _ _ _ _ hs _ h => h.gaugeAt hs) (fun _ _ => trivial) hr

/-- **A notifier that has ended goes on showing what it watched then.**  In every run, once the
notifier of a cache has ended, the number of watched ids that the cache shows is the number of ids
that the notifier watched in the moment in which it ended; it is zero if and only if nobody was
registered in that moment, whatever has become of the callers since. -/
theorem frozen_gauge {as : List Action} {c : Cache} (hr : run? {} as = some s)
    (hc : s.caches[i]? = some c) (he : c.notifier.ended = true) :
    ∃ d, EndedWith (moments {} as) i d ∧ c.notifier.watching = d.notifier.watchers.size ∧
      (c.notifier.watching = 0 ↔ ∀ id w, ¬ d.notifier.Registered id w) := by
  obtain ⟨d, hd, hg, hw⟩ := (run_gaugeAt hr i c hc).2 he
  exact ⟨d, hd, hw, hw ▸ hg.size_eq_zero_iff⟩

/-- A caller waits when its cache is shut down, and is told so. -/
def forsaken : List Action :=
  [.openCache { queue := "q" } false none, .get 0 "x" 0, .call 0 none, .call 0 none, .call 0 none,
    .notifier 0 .request none, .notifier 0 (.check "x") none, .shutdown 0, .closing 0, .closing 0,
    .notifier 0 .stop none, .closing 0, .closing 0, .call 0 none, .call 0 none]

theorem frozen_gauge_forsaken :
    ∃ s x c d, run? {} forsaken = some s ∧ s.calls = [x] ∧ x.result? = some (.error .shutdown) ∧
      s.caches[0]? = some c ∧ c.notifier.ended = true ∧ c.notifier.watching = 1 ∧
      EndedWith (moments {} forsaken) 0 d ∧ d.notifier.watchers.size = 1 := by
  have hd : (run? {} forsaken).any (fun s => s.caches[0]?.any fun c =>
      decide (s.calls.map (·.result?) = [some (.error .shutdown)]) &&
        (c.notifier.ended && decide (c.notifier.watching = 1))) = true := by
    decide +kernel
  obtain ⟨s, hr, hd⟩ := (Option.any_eq_true _ _).mp hd
  obtain ⟨c, hc, hd⟩ := (Option.any_eq_true _ _).mp hd
  simp only [Bool.and_eq_true, decide_eq_true_eq] at hd
  obtain ⟨hx, he, hw⟩ := hd
  obtain ⟨x, hcalls, hx⟩ := List.map_eq_singleton_iff.mp hx
  obtain ⟨d, hd, hsize, -⟩ := frozen_gauge hr hc he
  exact ⟨s, x, c, d, hr, hcalls, hx, hc, he, hw, hd, hsize ▸ hw⟩

end System

end ReadThrough
