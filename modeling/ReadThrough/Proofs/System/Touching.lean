import ReadThrough.Proofs.System.Wakeup

/-! # Who touches a notifier

A step does one of four things to the notifier of a cache (`System.Touches`, `Step.touches`): the
notifier takes a step itself, a caller of its cache goes on or is dropped, somebody who is no caller
uses it, or nothing.  Only its own steps change what it watches and what it shows outside
(`Notifier.board`, `Touches.moves_or_board_eq`). -/

namespace ReadThrough

namespace Notifier

/-- What a notifier watches and does, and the number of watched ids that it shows. -/
def board (n : Notifier) : ((Keys × Nat) × Phase × Std.ExtTreeMap Id (List Nat)) × Nat :=
  (n.desk, n.watching)

variable {n n' : Notifier}

theorem board_release (n : Notifier) (id : Id) : (n.release id).board = n.board := by
  unfold release
  split <;> rfl

theorem board_subscribe? {id : Id} {w : Nat} (h : n.subscribe? id = some (w, n')) :
    n'.board = n.board := by
  unfold subscribe? at h
  split at h
  · cases h
  · obtain ⟨-, rfl⟩ := Prod.mk.inj (Option.some.inj h)
    rfl

end Notifier

namespace Call

variable {x x' : Call} {settings : Settings} {now : Instant} {fault : Option Error}
  {n n' : Notifier} {s s' : Store} {events : List Event}

theorem board_wakeRelease (wake : Wake) (n : Notifier) (id : Id) :
    (wake.release n id).board = n.board := by
  unfold Wake.release
  split
  · rfl
  · exact Notifier.board_release n id

theorem Step.board_eq (h : Step x settings now fault n s x' n' s' events) :
    n'.board = n.board := by
  cases h with
  | @reread w wake _ _ _ _ _ _ _ _ => exact board_wakeRelease wake n x.id
  | _ => rfl

theorem board_cancel (x : Call) (n : Notifier) : (x.cancel n).2.board = n.board := by
  unfold cancel
  dsimp only
  split
  · exact Notifier.board_release _ _
  · exact board_wakeRelease _ _ _
  · rfl

end Call

namespace System

/-- `Touches s s' i c a n`: in the step `a` from `s` to `s'`, the notifier of the cache `c` at place
`i` becomes `n`.  All callers of the cache stay as they are, but for the one that takes the step. -/
inductive Touches (s s' : System) (i : Nat) (c : Cache) : Action → Notifier → Prop
  | spares {a : Action} (ha : a.notifier? ≠ some i)
      (hk : ∀ (j : Nat) (x : Call), s.calls[j]? = some x → x.cache = i → s'.calls[j]? = some x) :
      Touches s s' i c a c.notifier
  | moves {m : Notifier.Move} {fault : Option Error} {n : Notifier} {events : List Event}
      (hk : s'.calls = s.calls)
      (hn : c.notifier.Step s.store s.now c.stopping fault m n s'.store events) :
      Touches s s' i c (.notifier i m fault) n
  | serves {j : Nat} {fault : Option Error} {x x' : Call} {n : Notifier} {events : List Event}
      (hx : s.calls[j]? = some x) (hi : x.cache = i) (hx' : s'.calls = s.calls.set j x')
      (hs : x.Step c.settings s.now fault c.notifier s.store x' n s'.store events) :
      Touches s s' i c (.call j fault) n
  | loses {j : Nat} {x : Call} (hx : s.calls[j]? = some x) (hi : x.cache = i)
      (hx' : s'.calls = s.calls.set j (x.cancel c.notifier).1) :
      Touches s s' i c (.cancel j) (x.cancel c.notifier).2
  | watch {id : Id} {w : Nat} {n : Notifier} (hn : c.notifier.subscribe? id = some (w, n)) :
      Touches s s' i c (.watch i id) n
  | leave {w : Nat} : Touches s s' i c (.leave i w) (c.notifier.leave w)
  | release {id : Id} : Touches s s' i c (.release i id) (c.notifier.release id)

variable {s s' : System} {a : Action} {i : Nat}

/-- A cache was there before the step, or the step has just started it. -/
theorem Step.touches (h : Step s a s') {c' : Cache} (hc' : s'.caches[i]? = some c') :
    (∃ c, s.caches[i]? = some c ∧ c'.settings = c.settings ∧ Touches s s' i c a c'.notifier) ∨
    (i = s.caches.length ∧ a.notifier? ≠ some i ∧ s'.calls = s.calls ∧ ∃ k,
      c'.notifier = { keys := k, feed := s.store.feeds.length } ∧
        s'.store = (s.store.subscribe k.channel).2) := by
  -- nothing happens to the cache at this place
  have same (hs : s.caches[i]? = some c') (ha : a.notifier? ≠ some i)
      (hk : ∀ (j : Nat) (x : Call), s.calls[j]? = some x → x.cache = i → s'.calls[j]? = some x) :
      ∃ c, s.caches[i]? = some c ∧ c'.settings = c.settings ∧ Touches s s' i c a c'.notifier :=
    ⟨c', hs, rfl, .spares ha hk⟩
  have kept (hx : s'.calls = s.calls) (j : Nat) (x : Call) (hj : s.calls[j]? = some x)
      (_ : x.cache = i) : s'.calls[j]? = some x := by rw [hx, hj]
  -- a caller of another cache goes on
  have other {j : Nat} {x x' : Call} (hx : s.calls[j]? = some x) (hi : x.cache ≠ i)
      (hx' : s'.calls = s.calls.set j x') (l : Nat) (y : Call) (hy : s.calls[l]? = some y)
      (hyi : y.cache = i) : s'.calls[l]? = some y := by
    have hl : j ≠ l := by
      rintro rfl
      exact hi (Option.some.inj (hx.symm.trans hy) ▸ hyi)
    rw [hx', List.getElem?_set_ne hl, hy]
  -- a cache is put into its place
  have set {j : Nat} {c d : Cache} (hj : s.caches[j]? = some c)
      (hs : (s.caches.set j d)[i]? = some c') (hd : d.settings = c.settings)
      (ha : j ≠ i → a.notifier? ≠ some i ∧
        ∀ (j : Nat) (x : Call), s.calls[j]? = some x → x.cache = i → s'.calls[j]? = some x)
      (ht : j = i → Touches s s' i c a d.notifier) :
      ∃ c, s.caches[i]? = some c ∧ c'.settings = c.settings ∧ Touches s s' i c a c'.notifier := by
    rcases getElem?_set_cases hs with ⟨rfl, rfl⟩ | ⟨hi, hs⟩
    · exact ⟨c, hj, hd, ht rfl⟩
    · obtain ⟨ha, hk⟩ := ha (Ne.symm hi)
      exact same hs ha hk
  -- a cache is started
  have start {d : Cache} {k : Keys} (hd : d.notifier = { keys := k, feed := s.store.feeds.length })
      (hst : s'.store = (s.store.subscribe k.channel).2) (ha : a.notifier? ≠ some i)
      (hx : s'.calls = s.calls) (hs : (s.caches ++ [d])[i]? = some c') :
      (∃ c, s.caches[i]? = some c ∧ c'.settings = c.settings ∧ Touches s s' i c a c'.notifier) ∨
      (i = s.caches.length ∧ a.notifier? ≠ some i ∧ s'.calls = s.calls ∧ ∃ k,
        c'.notifier = { keys := k, feed := s.store.feeds.length } ∧
          s'.store = (s.store.subscribe k.channel).2) := by
    rcases Nat.lt_trichotomy i s.caches.length with hi | rfl | hi
    · rw [List.getElem?_append_left hi] at hs
      exact Or.inl (same hs ha (kept hx))
    · rw [List.getElem?_append_right (Nat.le_refl _)] at hs
      obtain rfl := List.mem_singleton.mp (List.mem_of_getElem? hs)
      exact Or.inr ⟨rfl, ha, hx, k, hd, hst⟩
    · have hl := (List.getElem?_eq_some_iff.mp hs).1
      simp only [List.length_append, List.length_singleton] at hl
      omega
  cases h with
  | notifier hc hn =>
      exact Or.inl (set hc hc' rfl (fun hi => ⟨fun he => hi (Option.some.inj he), kept rfl⟩)
        fun hi => by subst hi; exact .moves rfl hn)
  | loop hc hp hl =>
      exact Or.inl (set hc hc' rfl (fun _ => ⟨nofun, kept rfl⟩) fun _ => .spares nofun (kept rfl))
  | worker hc hp hw =>
      exact Or.inl (set hc hc' rfl (fun _ => ⟨nofun, kept rfl⟩) fun _ => .spares nofun (kept rfl))
  | call hx hc hs =>
      exact Or.inl (set hc hc' rfl (fun hi => ⟨nofun, other hx hi rfl⟩)
        fun hi => .serves hx hi rfl hs)
  | cancel hx hc =>
      exact Or.inl (set hc hc' rfl (fun hi => ⟨nofun, other hx hi rfl⟩) fun hi => .loses hx hi rfl)
  | closing hx hc hs =>
      obtain ⟨hset, hn, -⟩ := Closing.step_keeps hs
      exact Or.inl (set hc hc' hset (fun _ => ⟨nofun, kept rfl⟩)
        fun _ => hn ▸ .spares nofun (kept rfl))
  | openCache hr => exact start rfl rfl nofun rfl hc'
  | openNotifier => exact start rfl rfl nofun rfl hc'
  | drop hc =>
      exact Or.inl (set hc hc' rfl (fun _ => ⟨nofun, kept rfl⟩) fun _ => .spares nofun (kept rfl))
  | get hi =>
      refine Or.inl (same hc' nofun fun j x hx _ => ?_)
      exact (List.getElem?_append_left (List.getElem?_eq_some_iff.mp hx).1).trans hx
  | watch hc hn =>
      exact Or.inl (set hc hc' rfl (fun _ => ⟨nofun, kept rfl⟩)
        fun hi => by subst hi; exact .watch hn)
  | leave hc =>
      exact Or.inl (set hc hc' rfl (fun _ => ⟨nofun, kept rfl⟩) fun hi => by subst hi; exact .leave)
  | release hc =>
      exact Or.inl (set hc hc' rfl (fun _ => ⟨nofun, kept rfl⟩)
        fun hi => by subst hi; exact .release)
  | outside ho hf =>
      exact Or.inl (same hc' (by rw [Action.notifier?_of_op? ho]; nofun) (kept rfl))
  | denied ho hf =>
      exact Or.inl (same hc' (by rw [Action.notifier?_of_op? ho]; nofun) (kept rfl))
  | _ => exact Or.inl (same hc' nofun (kept rfl))

/-- The notifier takes a step itself, or is left alone with what it watches and shows. -/
theorem Touches.moves_or_board_eq {c : Cache} {n : Notifier} (h : Touches s s' i c a n) :
    (∃ m fault events, a = .notifier i m fault ∧
      c.notifier.Step s.store s.now c.stopping fault m n s'.store events) ∨
    n.board = c.notifier.board := by
  cases h with
  | spares _ _ => exact Or.inr rfl
  | moves _ hn => exact Or.inl ⟨_, _, _, rfl, hn⟩
  | serves hx hi hx' hs => exact Or.inr hs.board_eq
  | loses hx hi hx' => exact Or.inr (Call.board_cancel _ _)
  | watch hn => exact Or.inr (Notifier.board_subscribe? hn)
  | leave => exact Or.inr rfl
  | release => exact Or.inr (Notifier.board_release _ _)

end System

end ReadThrough
