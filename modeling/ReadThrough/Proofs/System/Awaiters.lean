import ReadThrough.Proofs.Pool.Running
import ReadThrough.Proofs.System.Steps

/-! # Waits in the system

Somebody outside of the caches and the loops of all pools may wait for markers at the same time, of
any queues (`Awaiter`).

* **Turns** (`Wait.Turn`).  Whoever waits begins a wait or goes on with it; otherwise the markers
  and signals stay as they are (`Seeker.turn`, `Pool.LoopStep.turn`).
* **Posts** (`System.post?`).  Who waits, for what and for how long.  A step leaves a wait alone,
  drops it, begins it, or is a step of the wait itself (`Step.next`), and whose step it is can be
  told from the action (`Action.awaiter?`, `Action.dropped?`). -/

namespace ReadThrough

/-- The wait that is on after a step. -/
def Wait.Progress.wait? : Wait.Progress → Option Wait
  | waiting w => some w
  | finished _ => none

/-- `Turn k timeout now s x x' s'`: whoever waits for work of the queue `k` takes a step over the
store `s`.  Without a wait, it begins one or leaves the markers and signals alone. -/
inductive Wait.Turn (k : Keys) (timeout : Duration) (now : Instant) (s : Store) :
    Option Wait → Option Wait → Store → Prop
  | away {s' : Store} (hs : ∀ l, (s'.ledger l).2 = (s.ledger l).2) :
      Turn k timeout now s none none s'
  | start {w : Wait} (hw : Wait.start? k timeout now = some w) :
      Turn k timeout now s none (some w) s
  | step {w : Wait} {progress : Wait.Progress} {s' : Store}
      (hw : w.step? s now = some (progress, s')) :
      Turn k timeout now s (some w) progress.wait? s'

namespace Wait

variable {k : Keys} {timeout : Duration} {now : Instant} {s s' : Store} {w : Wait}
  {x : Option Wait}

theorem Turn.of_some (h : Turn k timeout now s (some w) x s') :
    ∃ progress, w.step? s now = some (progress, s') ∧ x = progress.wait? := by
  cases h with
  | step hw => exact ⟨_, hw, rfl⟩

theorem Turn.of_none (h : Turn k timeout now s none x s') :
    (∀ l, (s'.ledger l).2 = (s.ledger l).2) ∧ ∀ w, x = some w → start? k timeout now = some w := by
  cases h with
  | away hs => exact ⟨hs, nofun⟩
  | start hw =>
      refine ⟨fun _ => rfl, fun w he => ?_⟩
      obtain rfl := Option.some.inj he
      exact hw

end Wait

/-- What somebody waits for, how long, and the wait that is on. -/
structure Post where
  keys : Keys
  timeout : Duration
  wait? : Option Wait

/-- The wait of a loop. -/
def Pool.wait? (p : Pool) : Option Wait :=
  match p.loop with
  | .waiting w => some w
  | _ => none

/-- The wait of somebody outside. -/
def Seeker.wait? (x : Seeker) : Option Wait :=
  match x.phase with
  | .waiting w => some w
  | _ => none

theorem Pool.wait?_eq_some {p : Pool} {w : Wait} : p.wait? = some w ↔ p.loop = .waiting w := by
  unfold Pool.wait?
  cases p.loop <;> simp

theorem Seeker.wait?_eq_some {x : Seeker} {w : Wait} :
    x.wait? = some w ↔ x.phase = .waiting w := by
  unfold Seeker.wait?
  cases x.phase <;> simp

def Cache.post (c : Cache) : Post :=
  ⟨c.settings.keys, c.settings.pollTimeout, c.pool.bind Pool.wait?⟩

def Seeker.post (x : Seeker) : Post := ⟨x.keys, x.timeout, x.wait?⟩

/-- Who waits for work: somebody outside, or the loop of a cache. -/
inductive Awaiter where
  | seeker (j : Nat)
  | loop (i : Nat)
deriving DecidableEq, Repr

/-- The step of whoever waits. -/
def Awaiter.step : Awaiter → Action
  | seeker j => .seeker j none
  | loop i => .loop i .advance none

/-- Who waits and takes a step with an action. -/
def Action.awaiter? : Action → Option Awaiter
  | seeker j _ => some (.seeker j)
  | loop i .advance _ => some (.loop i)
  | _ => none

/-- Whose wait is dropped with an action. -/
def Action.dropped? : Action → Option Awaiter
  | cancelSeeker j => some (.seeker j)
  | loop i .stop _ => some (.loop i)
  | _ => none

/-- Whoever takes a step is not dropped. -/
theorem Action.dropped?_of_awaiter? {a : Action} {who : Awaiter} (ha : a.awaiter? = some who) :
    a.dropped? = none := by
  cases a with
  | loop i m fault => cases m <;> first | rfl | cases ha
  | seeker => rfl
  | _ => cases ha

/-- Whether an action neither asks the store for anything from outside nor waits for work. -/
def Action.idle : Action → Bool
  | call .. => false
  | loop .. => false
  | seeker .. => false
  | a => a.op?.isNone

theorem Action.awaiter?_of_op? {a : Action} {op : Store.Op} (ho : a.op? = some op) :
    a.awaiter? = none := by
  cases a <;> first | rfl | cases ho

/-! ### The steps of those who wait -/

section

variable {s s' : Store} {now : Instant}

theorem Seeker.turn {x x' : Seeker} {fault : Option Error}
    (h : x.step? now fault s = some (x', s')) :
    x'.keys = x.keys ∧ x'.timeout = x.timeout ∧
      Wait.Turn x.keys x.timeout now s x.wait? x'.wait? s' := by
  unfold step? at h
  split at h
  · rename_i hp
    have hw : x.wait? = none := by simp [Seeker.wait?, hp]
    rw [hw]
    split at h
    · obtain ⟨rfl, rfl⟩ := Prod.mk.inj (Option.some.inj h)
      exact ⟨rfl, rfl, .away fun _ => rfl⟩
    · split at h
      · rename_i w hs
        obtain ⟨rfl, rfl⟩ := Prod.mk.inj (Option.some.inj h)
        exact ⟨rfl, rfl, .start hs⟩
      · obtain ⟨rfl, rfl⟩ := Prod.mk.inj (Option.some.inj h)
        exact ⟨rfl, rfl, .away fun _ => rfl⟩
  · rename_i w hp
    have hw : x.wait? = some w := Seeker.wait?_eq_some.mpr hp
    rw [hw]
    obtain ⟨⟨progress, t⟩, hs, he⟩ := Option.map_eq_some_iff.mp h
    have hturn : Wait.Turn x.keys x.timeout now s (some w) progress.wait? t := .step hs
    cases progress with
    | waiting w' =>
        obtain ⟨rfl, rfl⟩ := Prod.mk.inj he
        exact ⟨rfl, rfl, hturn⟩
    | finished work =>
        obtain ⟨rfl, rfl⟩ := Prod.mk.inj he
        exact ⟨rfl, rfl, hturn⟩
  · cases h

variable {c : Pool.Context} {p p' : Pool} {events : List Event}

theorem Pool.LoopStep.turn (h : LoopStep c p s .advance p' s' events) :
    Wait.Turn c.settings.keys c.settings.pollTimeout c.now s p.wait? p'.wait? s' := by
  -- a loop that does not wait and begins no wait
  have away {phase phase' : LoopPhase} (hl : p.loop = phase) (hl' : p'.loop = phase')
      (hp : ∀ w, phase ≠ .waiting w) (hp' : ∀ w, phase' ≠ .waiting w)
      (hs : ∀ l, (s'.ledger l).2 = (s.ledger l).2) :
      Wait.Turn c.settings.keys c.settings.pollTimeout c.now s p.wait? p'.wait? s' := by
    have none_of {r : Pool} {phase : LoopPhase} (hl : r.loop = phase)
        (hp : ∀ w, phase ≠ .waiting w) : r.wait? = none := by
      unfold Pool.wait?
      rw [hl]
      cases phase <;> first | rfl | exact absurd rfl (hp _)
    rw [none_of hl hp, none_of hl' hp']
    exact .away hs
  have claimed {answer : Option Claim} (hd : s.dequeue c.settings.keys = (answer, s')) (l : Keys) :
      (s'.ledger l).2 = (s.ledger l).2 := by
    obtain rfl : s' = (Store.Op.dequeue c.settings.keys).apply s c.now :=
      (congrArg Prod.snd hd).symm
    refine Store.ledger_of_idle ?_ ?_ s c.now l <;> nofun
  cases h with
  | acquire hl hp => exact away hl rfl nofun nofun fun _ => rfl
  | skip hl hm => exact away hl rfl nofun nofun fun _ => rfl
  | failWait hl hm hf => exact away hl rfl nofun nofun fun _ => rfl
  | startWait hl hm hf hw =>
      have hn : p.wait? = none := by simp [Pool.wait?, hl]
      rw [hn]
      exact .start hw
  | crash hl hm hf hw => exact away hl rfl nofun nofun fun _ => rfl
  | @wait w _ _ hl hw =>
      have hp : p.wait? = some w := Pool.wait?_eq_some.mpr hl
      rw [hp]
      exact .step hw
  | @waited w _ _ hl hw =>
      have hp : p.wait? = some w := Pool.wait?_eq_some.mpr hl
      rw [hp]
      exact .step hw
  | resume hl ht => exact away hl rfl nofun nofun fun _ => rfl
  | quit hl hs => exact away hl rfl nofun nofun fun _ => rfl
  | proceed hl hs => exact away hl rfl nofun nofun fun _ => rfl
  | failClaim hl hf => exact away hl rfl nofun nofun fun _ => rfl
  | claimNothing hl hf hd => exact away hl rfl nofun nofun (claimed hd)
  | claim hl hf hd => exact away hl rfl nofun nofun (claimed hd)
  | strand hl he => exact away hl rfl nofun nofun fun _ => rfl
  | send hl he hc => exact away hl rfl nofun nofun fun _ => rfl

end

/-! ### Waits of the system -/

/-- What is written at one place looks the same to `f` if it did before. -/
theorem map_set_of_eq {α β : Type} {l : List α} {i : Nat} {x y : α} {f : α → β}
    (hx : l[i]? = some x) (hf : f y = f x) (j : Nat) :
    (l.set i y)[j]?.map f = l[j]?.map f := by
  by_cases hij : i = j
  · subst hij
    rw [List.getElem?_set_self (List.getElem?_eq_some_iff.mp hx).1, hx]
    exact congrArg some hf
  · rw [List.getElem?_set_ne hij]

/-- What comes last is new. -/
theorem map_append_cases {α β : Type} (l : List α) (x : α) (f : α → β) (j : Nat) :
    (l ++ [x])[j]?.map f = l[j]?.map f ∨
      l[j]?.map f = none ∧ (l ++ [x])[j]?.map f = some (f x) := by
  rcases Nat.lt_trichotomy j l.length with hj | rfl | hj
  · exact Or.inl (by rw [List.getElem?_append_left hj])
  · exact Or.inr (by simp)
  · left
    rw [List.getElem?_eq_none_iff.mpr (Nat.le_of_lt hj), List.getElem?_eq_none_iff.mpr]
    rw [List.length_append]
    exact hj

namespace System

/-- What somebody waits for. -/
def post? (s : System) : Awaiter → Option Post
  | .seeker j => s.seekers[j]?.map Seeker.post
  | .loop i => s.caches[i]?.map Cache.post

/-- The wait of somebody. -/
def wait? (s : System) (who : Awaiter) : Option Wait := (s.post? who).bind Post.wait?

variable {s s' : System} {a : Action} {who : Awaiter}

/-- `Next s a s' who x x'`: with the action `a` from `s` to `s'`, what `who` waits for goes from `x`
to `x'`. -/
inductive Next (s : System) (a : Action) (s' : System) (who : Awaiter) :
    Option Post → Option Post → Prop
  | rests {x : Option Post} (ha : a.awaiter? ≠ some who) : Next s a s' who x x
  | comes {k : Keys} {timeout : Duration} (ha : a.awaiter? ≠ some who) :
      Next s a s' who none (some ⟨k, timeout, none⟩)
  | dropped {x : Post} (ha : a.dropped? = some who) (hs : s'.store = s.store) :
      Next s a s' who (some x) (some { x with wait? := none })
  | turn {x : Post} {w : Option Wait} (ha : a.awaiter? = some who)
      (hw : Wait.Turn x.keys x.timeout s.now s.store x.wait? w s'.store) :
      Next s a s' who (some x) (some { x with wait? := w })

theorem Step.next_seeker (h : Step s a s') (j : Nat) :
    Next s a s' (.seeker j) (s.post? (.seeker j)) (s'.post? (.seeker j)) := by
  cases h with
  | @seeker l fault x x' store hx hs =>
      by_cases hl : l = j
      · subst hl
        obtain ⟨hk, ht, hturn⟩ := Seeker.turn hs
        have hpost : x'.post = { x.post with wait? := x'.wait? } := by simp [Seeker.post, hk, ht]
        have hl := (List.getElem?_eq_some_iff.mp hx).1
        simp only [post?, hx, List.getElem?_set_self hl, Option.map_some, hpost]
        exact .turn rfl hturn
      · have hne : (s.seekers.set l x')[j]? = s.seekers[j]? := List.getElem?_set_ne hl
        simp only [post?, hne]
        exact .rests (by simpa [Action.awaiter?] using hl)
  | @cancelSeeker l x hx =>
      by_cases hl : l = j
      · subst hl
        have hpost : (if x.ended then x else { x with phase := .cancelled }).post =
            { x.post with wait? := none } := by
          cases hp : x.phase <;> simp [Seeker.ended, Seeker.post, Seeker.wait?, hp]
        have hl := (List.getElem?_eq_some_iff.mp hx).1
        simp only [post?, hx, List.getElem?_set_self hl, Option.map_some, hpost]
        exact .dropped rfl rfl
      · have hne := List.getElem?_set_ne (l := s.seekers) hl
          (a := if x.ended then x else { x with phase := .cancelled })
        simp only [post?, hne]
        exact .rests nofun
  | @seek k timeout =>
      rcases map_append_cases s.seekers { keys := k, timeout } Seeker.post j with he | ⟨hn, he⟩
      · simp only [post?, he]
        exact .rests nofun
      · simp only [post?, hn, he]
        exact .comes nofun
  | loop => exact .rests (by cases ‹Pool.LoopMove› <;> simp [Action.awaiter?])
  | outside ho hf => exact .rests (by simp [Action.awaiter?_of_op? ho])
  | denied ho hf => exact .rests (by simp [Action.awaiter?_of_op? ho])
  | _ => exact .rests nofun

theorem Step.next_loop (h : Step s a s') (i : Nat) :
    Next s a s' (.loop i) (s.post? (.loop i)) (s'.post? (.loop i)) := by
  have set {l : Nat} {c c' : Cache} (ha : a.awaiter? ≠ some (.loop i))
      (hc : s.caches[l]? = some c) (hs : s'.caches = s.caches.set l c') (hp : c'.post = c.post) :
      Next s a s' (.loop i) (s.post? (.loop i)) (s'.post? (.loop i)) := by
    simp only [post?, hs, map_set_of_eq hc hp]
    exact .rests ha
  have append {c : Cache} (ha : a.awaiter? ≠ some (.loop i)) (hs : s'.caches = s.caches ++ [c])
      (hw : c.pool.bind Pool.wait? = none) :
      Next s a s' (.loop i) (s.post? (.loop i)) (s'.post? (.loop i)) := by
    have hpost : c.post = ⟨c.settings.keys, c.settings.pollTimeout, none⟩ := by
      simp [Cache.post, hw]
    rcases map_append_cases s.caches c Cache.post i with he | ⟨hn, he⟩
    · simp only [post?, hs, he]
      exact .rests ha
    · simp only [post?, hs, hn, he, hpost]
      exact .comes ha
  cases h with
  | @loop l m fault c p p' store events hc hp hl =>
      by_cases hli : l = i
      · subst hli
        have hlt := (List.getElem?_eq_some_iff.mp hc).1
        have hw : c.post.wait? = p.wait? := by simp [Cache.post, hp]
        change Next s _ _ _ (s.caches[l]?.map Cache.post)
          ((s.caches.set l { c with pool := some p' })[l]?.map Cache.post)
        rw [hc, List.getElem?_set_self hlt]
        cases m with
        | stop =>
            cases hl with
            | stop hs hl => exact .dropped (x := c.post) rfl rfl
        | advance => exact .turn (x := c.post) rfl (hw ▸ hl.turn)
      · have hne : (s.caches.set l { c with pool := some p' })[i]? = s.caches[i]? :=
          List.getElem?_set_ne hli
        change Next s _ _ _ (s.caches[i]?.map Cache.post)
          ((s.caches.set l { c with pool := some p' })[i]?.map Cache.post)
        rw [hne]
        exact .rests (by cases m <;> simp [Action.awaiter?, hli])
  | worker hc hp hw =>
      refine set nofun hc rfl ?_
      simp [Cache.post, hp, Pool.wait?, hw.loop_eq]
  | closing hx hc hx' =>
      obtain ⟨hs, -, hp⟩ := Closing.step_keeps hx'
      exact set nofun hc rfl (by simp [Cache.post, hs, hp])
  | notifier hc => exact set nofun hc rfl rfl
  | call hx hc => exact set nofun hc rfl rfl
  | cancel hx hc => exact set nofun hc rfl rfl
  | drop hc => exact set nofun hc rfl rfl
  | watch hc => exact set nofun hc rfl rfl
  | leave hc => exact set nofun hc rfl rfl
  | release hc => exact set nofun hc rfl rfl
  | @openCache settings computes => exact append nofun rfl (by cases computes <;> rfl)
  | openNotifier => exact append nofun rfl rfl
  | outside ho hf => exact .rests (by simp [Action.awaiter?_of_op? ho])
  | denied ho hf => exact .rests (by simp [Action.awaiter?_of_op? ho])
  | seeker => exact .rests (by simp [Action.awaiter?])
  | _ => exact .rests nofun

/-- **What a step does to those who wait.** -/
theorem Step.next (h : Step s a s') (who : Awaiter) :
    Next s a s' who (s.post? who) (s'.post? who) := by
  cases who with
  | seeker j => exact h.next_seeker j
  | loop i => exact h.next_loop i

/-- Whoever waits takes a step of its own. -/
theorem Step.turn (h : Step s a s') (ha : a.awaiter? = some who) :
    ∃ x w, s.post? who = some x ∧ s'.post? who = some { x with wait? := w } ∧
      Wait.Turn x.keys x.timeout s.now s.store x.wait? w s'.store := by
  have hn := h.next who
  generalize s.post? who = x, s'.post? who = x' at hn ⊢
  cases hn with
  | rests hne => exact absurd ha hne
  | comes hne => exact absurd ha hne
  | dropped hd =>
      rw [Action.dropped?_of_awaiter? ha] at hd
      cases hd
  | turn _ hw => exact ⟨_, _, rfl, rfl, hw⟩

end System

end ReadThrough
