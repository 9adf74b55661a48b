import ReadThrough.Proofs.Store.Origins
import ReadThrough.Proofs.System.LifeCycle
import ReadThrough.Proofs.System.Registry

/-! # Who was woken, and why

The signals that a notifier has sent in a run are those of its moments (`Moment.wakes`,
`System.sent`).

* **Once.**  Whoever was sent a signal is not listed any more, so nobody is sent a second one
  (`SentAt`, `Step.sentAt`).
* **For a reason.**  All records and all announced ids come from results that were accepted before
  (`Moment.Accepts`, `run_vouched`), and each notifier listens to the channel of its queue.

Together with what is registered this describes the waiters of a notifier completely
(`registry_exact`).  A waiter is woken for a result of its own id, except that the record of an id
of another queue can be taken for one, if the names of the queues are nested. -/

namespace ReadThrough

/-- The moment accepts a result of an id. -/
def Moment.Accepts (m : Moment) (k : Keys) (id : Id) : Prop :=
  ∃ c, m.completion? = some (id, c) ∧ System.Asks m.before m.action (.complete k id c) ∧
    c.nameable m.before.now = true

/-- The waiters to whom the notifier of cache `i` sends their signal. -/
def Moment.wakes (m : Moment) (i : Nat) : List Nat :=
  match m.action with
  | .notifier j move fault =>
    if j = i then
      match m.before.caches[i]? with
      | some c => c.notifier.wakes m.before.store m.before.now fault move
      | none => []
    else []
  | _ => []

namespace Notifier

/-- Nobody is woken, and only new waiters are listed. -/
structure Aside (n n' : Notifier) : Prop where
  length : n.waiters.length ≤ n'.waiters.length
  signal : ∀ w, n'.signal w = .woken → n.signal w = .woken
  listed : ∀ id w, n'.Listed id w → n.Listed id w ∨ n.waiters.length ≤ w

variable {n n' : Notifier}

theorem Aside.refl (n : Notifier) : Aside n n := ⟨Nat.le_refl _, fun _ h => h, fun _ _ => Or.inl⟩

theorem Aside.trans {n₁ n₂ n₃ : Notifier} (h : Aside n₁ n₂) (h' : Aside n₂ n₃) : Aside n₁ n₃ :=
  ⟨Nat.le_trans h.length h'.length, fun w hw => h.signal w (h'.signal w hw), fun id w hl =>
    (h'.listed id w hl).elim (h.listed id w) fun hw => Or.inr (Nat.le_trans h.length hw)⟩

theorem aside_release (n : Notifier) (id : Id) : Aside n (n.release id) := by
  have hw := waiters_release n id
  refine ⟨Nat.le_of_eq (congrArg List.length hw.symm), fun w h => ?_, fun j w hl => Or.inl ?_⟩
  · unfold signal at h ⊢
    rwa [hw] at h
  · unfold release at hl
    split at hl
    · exact hl
    · exact hl.imp_left fun hq => by simpa using hq

theorem aside_leave (n : Notifier) (v : Nat) : Aside n (n.leave v) := by
  refine ⟨by simp [leave], fun w h => ?_, fun j w hl => Or.inl hl⟩
  unfold signal leave at h
  unfold signal
  rw [List.getElem?_modify] at h
  cases hy : n.waiters[w]? with
  | none => simp [hy] at h
  | some y => by_cases hv : v = w <;> simpa [hy, hv] using h

theorem aside_push (n : Notifier) (id : Id) :
    Aside n { n with
      waiters := n.waiters ++ [{ id }]
      requests := n.requests ++ [.watch id n.waiters.length] } := by
  refine ⟨by simp, fun w h => ?_, fun j w hl => ?_⟩
  · unfold signal at h ⊢
    rcases Nat.lt_trichotomy w n.waiters.length with hw | rfl | hw
    · rwa [List.getElem?_append_left hw] at h
    · simp at h
    · rw [List.getElem?_eq_none (by simpa using hw)] at h
      cases h
  · rcases hl with hq | hr
    · rcases List.mem_append.mp hq with hq | hq
      · exact Or.inl (Or.inl hq)
      · obtain ⟨-, rfl⟩ := Request.watch.inj (List.mem_singleton.mp hq)
        exact Or.inr (Nat.le_refl _)
    · exact Or.inl (Or.inr hr)

theorem aside_subscribe? {id : Id} {w : Nat} (h : n.subscribe? id = some (w, n')) :
    Aside n n' := by
  unfold subscribe? at h
  split at h
  · cases h
  · obtain ⟨-, rfl⟩ := Prod.mk.inj (Option.some.inj h)
    exact aside_push n id

/-- The notifier forgets no waiter. -/
theorem Step.length_le {s s' : Store} {now : Instant} {stopping : Bool} {fault : Option Error}
    {m : Move} {events : List Event} (h : Step n s now stopping fault m n' s' events) :
    n.waiters.length ≤ n'.waiters.length := by
  rcases Nat.lt_or_ge n'.waiters.length n.waiters.length with hl | hl
  · exact absurd (h.fades.lt_length hl) (Nat.lt_irrefl _)
  · exact hl

end Notifier

namespace Call

variable {x x' : Call} {settings : Settings} {now : Instant} {fault : Option Error}
  {n n' : Notifier} {s s' : Store} {events : List Event}

theorem aside_wakeRelease (wake : Wake) (n : Notifier) (id : Id) :
    Notifier.Aside n (wake.release n id) := by
  unfold Wake.release
  split
  · exact .refl n
  · exact Notifier.aside_release n id

theorem Step.aside (h : Step x settings now fault n s x' n' s' events) : Notifier.Aside n n' := by
  cases h with
  | reread hp ha hr hb => exact aside_wakeRelease _ n x.id
  | subscribe hp hn => exact Notifier.aside_push n x.id
  | woken hp hs => exact Notifier.aside_leave n _
  | lost hp hs => exact Notifier.aside_leave n _
  | timedOut hp hs hl ht => exact Notifier.aside_leave n _
  | _ => exact .refl n

theorem aside_cancel (x : Call) (n : Notifier) : Notifier.Aside n (x.cancel n).2 := by
  unfold cancel
  dsimp only
  split
  · exact (Notifier.aside_leave n _).trans (Notifier.aside_release _ _)
  · exact aside_wakeRelease _ n x.id
  · exact .refl n

end Call

namespace System

variable {s s' : System} {a : Action} {i : Nat}

/-- The notifier takes a step itself, or nobody is woken. -/
theorem Touches.moves_or_aside {c : Cache} {n : Notifier} (h : Touches s s' i c a n) :
    (∃ m fault events, a = .notifier i m fault ∧
      c.notifier.Step s.store s.now c.stopping fault m n s'.store events) ∨
    c.notifier.Aside n ∧ a.notifier? ≠ some i := by
  cases h with
  | spares ha _ => exact Or.inr ⟨.refl _, ha⟩
  | moves _ hn => exact Or.inl ⟨_, _, _, rfl, hn⟩
  | serves hx hi hx' hs => exact Or.inr ⟨hs.aside, nofun⟩
  | loses hx hi hx' => exact Or.inr ⟨Call.aside_cancel _ _, nofun⟩
  | watch hn => exact Or.inr ⟨Notifier.aside_subscribe? hn, nofun⟩
  | leave => exact Or.inr ⟨Notifier.aside_leave _ _, nofun⟩
  | release => exact Or.inr ⟨Notifier.aside_release _ _, nofun⟩

/-! ### Nobody is woken twice -/

/-- The waiters to whom the notifier of cache `i` has sent their signal, in order. -/
def sent (past : List Moment) (i : Nat) : List Nat := past.flatMap (·.wakes i)

theorem sent_concat (past : List Moment) (m : Moment) (i : Nat) :
    sent (past ++ [m]) i = sent past i ++ m.wakes i := by
  simp [sent]

theorem wakes_of_notifier {c : Cache} (hc : s.caches[i]? = some c) (m : Notifier.Move)
    (fault : Option Error) :
    Moment.wakes ⟨s, .notifier i m fault⟩ i = c.notifier.wakes s.store s.now fault m := by
  simp [Moment.wakes, hc]

theorem mem_wakes {m : Moment} {w : Nat} : w ∈ m.wakes i ↔
    ∃ c move fault, m.action = .notifier i move fault ∧ m.before.caches[i]? = some c ∧
      w ∈ c.notifier.wakes m.before.store m.before.now fault move := by
  obtain ⟨s, a⟩ := m
  constructor
  · intro hw
    cases a with
    | notifier j move fault =>
        by_cases hj : j = i
        · subst hj
          cases hc : s.caches[j]? with
          | none => simp [Moment.wakes, hc] at hw
          | some c =>
              rw [wakes_of_notifier hc] at hw
              exact ⟨c, move, fault, rfl, rfl, hw⟩
        · simp [Moment.wakes, hj] at hw
    | _ => cases hw
  · rintro ⟨c, move, fault, rfl, hc, hw⟩
    simpa [Moment.wakes, hc] using hw

theorem wakes_eq_nil (h : a.notifier? ≠ some i ∨ s.caches[i]? = none) :
    Moment.wakes ⟨s, a⟩ i = [] := by
  refine List.eq_nil_iff_forall_not_mem.mpr fun w hw => ?_
  obtain ⟨c, move, fault, rfl, hc, -⟩ := mem_wakes.mp hw
  rcases h with h | h
  · exact h rfl
  · rw [h] at hc
    cases hc

/-- Every signal was sent once, to somebody who is not listed any more, and nobody has a signal that
was not sent. -/
structure SentAt (past : List Moment) (i : Nat) (s : System) : Prop where
  once : (sent past i).Nodup
  spent : ∀ w ∈ sent past i, ∃ c, s.caches[i]? = some c ∧ w < c.notifier.waiters.length ∧
    ∀ id, ¬ c.notifier.Listed id w
  woken : ∀ c, s.caches[i]? = some c → ∀ w, c.notifier.signal w = .woken → w ∈ sent past i

theorem sentAt_start (i : Nat) : SentAt [] i {} where
  once := List.nodup_nil
  spent _ h := nomatch h
  woken _ h := by simp at h

/-- Nobody is woken as long as the notifier does nothing. -/
theorem SentAt.idle {past : List Moment} {m : Moment} (hs : s.SentAt past i)
    (hm : m.wakes i = []) (hspent : ∀ c, s.caches[i]? = some c → ∃ c', s'.caches[i]? = some c' ∧
      c.notifier.Aside c'.notifier)
    (hwoken : ∀ c', s'.caches[i]? = some c' → ∀ w, c'.notifier.signal w = .woken →
      ∃ c, s.caches[i]? = some c ∧ c.notifier.signal w = .woken) :
    s'.SentAt (past ++ [m]) i := by
  have hsent : sent (past ++ [m]) i = sent past i := by rw [sent_concat, hm, List.append_nil]
  constructor
  · rw [hsent]
    exact hs.once
  · intro w hw
    rw [hsent] at hw
    obtain ⟨c, hc, hlt, hn⟩ := hs.spent w hw
    obtain ⟨c', hc', ha⟩ := hspent c hc
    refine ⟨c', hc', Nat.lt_of_lt_of_le hlt ha.length, fun id hl => ?_⟩
    rcases ha.listed id w hl with hl | hle
    · exact hn id hl
    · exact absurd hlt (Nat.not_lt_of_le hle)
  · intro c' hc' w hw
    obtain ⟨c, hc, hw⟩ := hwoken c' hc' w hw
    rw [hsent]
    exact hs.woken c hc w hw

theorem Step.sentAt {past : List Moment} (h : Step s a s') (hr : s.RegistryAt i)
    (hs : s.SentAt past i) : s'.SentAt (past ++ [⟨s, a⟩]) i := by
  cases hc' : s'.caches[i]? with
  | none =>
      have hc : s.caches[i]? = none := by
        rw [List.getElem?_eq_none_iff] at hc' ⊢
        exact Nat.le_trans h.caches_length_le hc'
      exact hs.idle (wakes_eq_nil (Or.inr hc)) (fun c he => by simp [hc] at he)
        fun c' he => by simp [hc'] at he
  | some c' =>
      rcases h.touches hc' with ⟨c, hc, -, ht⟩ | ⟨hi, ha, -, k, hn, -⟩
      · rcases ht.moves_or_aside with ⟨m, fault, events, rfl, hn⟩ | ⟨haside, ha⟩
        · have htidy := (hr.2 c hc).tidy
          have hsent : sent (past ++ [⟨s, .notifier i m fault⟩]) i =
              sent past i ++ c.notifier.wakes s.store s.now fault m := by
            rw [sent_concat, wakes_of_notifier hc]
          -- whoever was sent a signal is not listed
          have hspent : ∀ w ∈ sent past i, w < c.notifier.waiters.length ∧
              ∀ id, ¬ c.notifier.Listed id w := by
            intro w hw
            obtain ⟨d, hd, hrest⟩ := hs.spent w hw
            obtain rfl := Option.some.inj (hc.symm.trans hd)
            exact hrest
          constructor
          · rw [hsent]
            refine List.nodup_append.mpr ⟨hs.once, htidy.nodup_wakes, ?_⟩
            rintro w hw v hv rfl
            obtain ⟨id, -, hreg⟩ := Notifier.mem_wakes.mp hv
            exact (hspent w hw).2 id (Or.inr hreg)
          · intro w hw
            rw [hsent] at hw
            rcases List.mem_append.mp hw with hw | hw
            · obtain ⟨hlt, hl⟩ := hspent w hw
              exact ⟨c', hc', Nat.lt_of_lt_of_le hlt hn.length_le,
                fun id hl' => hl id (hn.listed_of hl')⟩
            · obtain ⟨id, -, hreg⟩ := Notifier.mem_wakes.mp hw
              have hlt := (htidy.pends id w (Or.inr hreg)).lt_length
              exact ⟨c', hc', Nat.lt_of_lt_of_le hlt hn.length_le,
                fun _ => hn.not_listed_of_wakes htidy hw⟩
          · intro d hd w hw
            obtain rfl := Option.some.inj (hc'.symm.trans hd)
            rw [hsent]
            rcases hn.woken hw with hw | hw
            · exact List.mem_append_left _ (hs.woken c hc w hw)
            · exact List.mem_append_right _ hw
        · refine hs.idle (wakes_eq_nil (Or.inl ha)) (fun d hd => ?_) fun d hd w hw => ?_
          · obtain rfl := Option.some.inj (hc.symm.trans hd)
            exact ⟨c', hc', haside⟩
          · obtain rfl := Option.some.inj (hc'.symm.trans hd)
            exact ⟨c, hc, haside.signal w hw⟩
      · refine hs.idle (wakes_eq_nil (Or.inl ha)) (fun d hd => ?_) fun d hd w hw => ?_
        · exact absurd (List.getElem?_eq_some_iff.mp hd).1 (by omega)
        · obtain rfl := Option.some.inj (hc'.symm.trans hd)
          simp [hn, Notifier.signal] at hw

/-! ### Results that were accepted -/

/-- Whatever a step leaves in the store was there before, or is accepted in the step. -/
theorem Step.inherits (h : Step s a s') :
    s.store.Inherits (Moment.Accepts ⟨s, a⟩) s'.store := by
  obtain ⟨cause, hb, hc⟩ := h.brings
  cases cause with
  | none =>
      rw [hb.1]
      exact .of_wire rfl (fun _ h => h) rfl
  | some op =>
      obtain ⟨hasks, hstore, -⟩ := hb
      rw [hstore]
      refine (Store.inherits_apply op s.store s.now).mono ?_
      rintro k id ⟨c, rfl, hn⟩
      exact ⟨c, hc k id c rfl, hasks, hn⟩

/-- All records and announcements come from results that were accepted, and every notifier has a
feed of its channel. -/
structure VouchedFor (past : List Moment) (s : System) : Prop where
  store : s.store.Vouched fun k id => ∃ m ∈ past, m.Accepts k id
  tuned : ∀ c ∈ s.caches, ∃ f, s.store.feeds[c.notifier.feed]? = some f ∧
    f.channel = c.notifier.keys.channel

theorem vouchedFor_start : VouchedFor [] {} :=
  ⟨Store.vouched_empty _, fun _ h => nomatch h⟩

theorem Step.vouchedFor {past : List Moment} (h : Step s a s') (hs : s.VouchedFor past) :
    s'.VouchedFor (past ++ [⟨s, a⟩]) := by
  have hin := h.inherits
  refine ⟨(hs.store.inherits hin).mono ?_, fun c' hm => ?_⟩
  · rintro k id (⟨m, hm, ha⟩ | ha)
    · exact ⟨m, List.mem_append_left _ hm, ha⟩
    · exact ⟨_, List.mem_append_right _ List.mem_cons_self, ha⟩
  · obtain ⟨i, hc'⟩ := List.mem_iff_getElem?.mp hm
    rcases h.touches hc' with ⟨c, hc, -, ht⟩ | ⟨-, -, -, k, hn, hst⟩
    · have hwired : c'.notifier.wired = c.notifier.wired := by
        rcases ht.moves_or_board_eq with ⟨m, fault, events, rfl, hn⟩ | hb
        · exact hn.wired_eq
        · exact congrArg (·.1.1) hb
      obtain ⟨hkeys, hfeed⟩ := Prod.mk.inj hwired
      obtain ⟨f, hf, hch⟩ := hs.tuned c (List.mem_of_getElem? hc)
      obtain ⟨f', hf', hch'⟩ := hin.channels _ f hf
      exact ⟨f', by rw [hfeed, hf'], by rw [hkeys, hch', hch]⟩
    · rw [hn, hst]
      exact ⟨_, List.getElem?_concat_length, rfl⟩

theorem run_vouchedFor {as : List Action} (hr : run? {} as = some s) :
    s.VouchedFor (moments {} as) :=
  run_induction (P := fun past s => s.VouchedFor past) (A := fun _ => True) vouchedFor_start
    (fun _ _ _ _ hs _ h => h.vouchedFor hs) (fun _ _ => trivial) hr

/-- A notifier wakes an id only if a result of the id was accepted, or a result in a queue the name
of which is nested with that of its own. -/
theorem VouchedFor.of_rouses {past : List Moment} (h : s.VouchedFor past) {c : Cache}
    (hc : c ∈ s.caches) {m : Notifier.Move} {fault : Option Error} {id : Id}
    (hr : c.notifier.rouses? s.store s.now fault m = some id) :
    (∃ m ∈ past, m.Accepts c.notifier.keys id) ∨
      ∃ k j, (∃ m ∈ past, m.Accepts k j) ∧ k ≠ c.notifier.keys ∧
        (k.Shadows c.notifier.keys ∨ c.notifier.keys.Shadows k) := by
  cases m with
  | message =>
      left
      obtain ⟨hm, hne⟩ := Option.filter_eq_some_iff.mp hr
      obtain ⟨⟨id', t⟩, hrec, rfl⟩ := Option.map_eq_some_iff.mp hm
      obtain ⟨f, hf, hch⟩ := h.tuned c hc
      have hbox : f.inbox = s.store.inbox c.notifier.feed := by rw [Store.inbox, hf]
      refine h.store.of_message hf hch (?_ : id' ∈ f.inbox) (by simpa using hne)
      rw [hbox, (Store.receive?_some hrec).1]
      exact List.mem_cons_self
  | check j =>
      obtain ⟨⟨-, hf⟩, rfl⟩ := by simpa [Notifier.rouses?] using hr
      exact h.store.of_finished hf
  | _ => cases hr

/-! ### The waiters of a notifier -/

/-- **The registry is exact.**  In every run in which only callers use the notifier of a cache:

* Whenever it has handled its requests, and no caller that was not woken is between the end of its
  wait and the release, it has registered for each id the waiters of the callers that are blocked on
  it, each once and no other ones; there is no id without a waiter, each caller has a waiter of its
  own, and the number that is shown is the number of ids on which somebody is blocked.
* It sends a signal at most once to each waiter, and nobody is woken without one.
* It sends a signal to a waiter only after a result of its id was accepted in the queue, or a result
  in another queue, the name of which is nested with that of its own. -/
theorem registry_exact {as : List Action} {c : Cache} (hr : run? {} as = some s)
    (ha : ∀ a ∈ as, a.direct = false) (hc : s.caches[i]? = some c) :
    (s.Handled i c.notifier →
      (∀ id w, c.notifier.Registered id w ↔ s.Blocked i id w) ∧
      (∀ (id : Id) ws, c.notifier.watchers[id]? = some ws → ws ≠ [] ∧ ws.Nodup) ∧
      (∀ (j k : Nat) (x y : Call) (w : Nat), s.calls[j]? = some x → s.calls[k]? = some y →
        x.cache = i → y.cache = i → x.Waits w → y.Waits w → j = k) ∧
      c.notifier.watching = {id | ∃ w, s.Blocked i id w}.ncard) ∧
    ((sent (moments {} as) i).Nodup ∧
      ∀ w, c.notifier.signal w = .woken → w ∈ sent (moments {} as) i) ∧
    ∀ early m late, moments {} as = early ++ m :: late → ∀ w ∈ m.wakes i,
      ∃ d ∈ m.before.caches[i]?, ∃ id, d.notifier.Registered id w ∧
        ((∃ m' ∈ early, m'.Accepts d.notifier.keys id) ∨
          ∃ k j, (∃ m' ∈ early, m'.Accepts k j) ∧ k ≠ d.notifier.keys ∧
            (k.Shadows d.notifier.keys ∨ d.notifier.keys.Shadows k)) := by
  have hreg := run_registryAt hr ha i
  have hsent : s.RegistryAt i ∧ s.SentAt (moments {} as) i :=
    run_induction (P := fun past s => s.RegistryAt i ∧ s.SentAt past i)
      (A := fun m => m.action.direct = false) ⟨registryAt_start i, sentAt_start i⟩
      (fun _ _ _ _ hs ha h => ⟨h.registryAt ha hs.1, h.sentAt hs.1 hs.2⟩)
      (fun m hm => ha _ (action_mem_of_mem_moments hm)) hr
  have hgauge := (run_gaugeAt hr i c hc).1
  refine ⟨fun hh => ⟨hreg.registered_iff hc hh, fun id ws hw => ⟨?_, ?_⟩, ?_, ?_⟩,
    ⟨hsent.2.once, hsent.2.woken c hc⟩, ?_⟩
  · rintro rfl
    exact hgauge.filled id hw
  · exact (hreg.2 c hc).tidy.apart id ws hw
  · intro j k x y w hx hy hi hi' hw hw'
    exact hreg.1.apart j k x y w hx hy (hi.trans hi'.symm) hw hw'
  · exact hreg.watching_eq hc hgauge hh
  · intro early m late he w hw
    obtain ⟨d, move, fault, -, hd, hw⟩ := mem_wakes.mp hw
    obtain ⟨id, hrouse, hregistered⟩ := Notifier.mem_wakes.mp hw
    obtain ⟨bs, u, hb, hbm, -⟩ := exists_prefix hr he
    have hv := run_vouchedFor hb
    rw [hbm] at hv
    exact ⟨d, hd, id, hregistered, hv.of_rouses (List.mem_of_getElem? hd) hrouse⟩

/-- A caller waits for `c` and another one for `y`.  A result of `k:c` in the queue `a` is stored
under the key of the value of `c` in the queue `a:k`, and found when the connection comes back. -/
def mistaken : List Action :=
  [.openCache { queue := "a:k", waitTimeout := none } false none, .get 0 "c" 0, .call 0 none,
    .call 0 none, .call 0 none, .get 0 "y" 0, .call 1 none, .call 1 none, .call 1 none,
    .notifier 0 .message none, .notifier 0 .conclude none, .notifier 0 .request none,
    .notifier 0 (.check "c") none, .notifier 0 .request none, .notifier 0 (.check "y") none,
    .complete ⟨"a"⟩ "k:c" (.value [118]) none, .disconnect, .reconnect, .notifier 0 .message none,
    .notifier 0 (.check "c") none, .notifier 0 (.check "y") none, .notifier 0 .conclude none]

theorem registry_exact_mistaken :
    ∃ s c, run? {} mistaken = some s ∧ (∀ a ∈ mistaken, a.direct = false) ∧
      s.caches[0]? = some c ∧ s.Handled 0 c.notifier ∧
      s.calls = [⟨0, "c", 0, .waiting 0 none⟩, ⟨0, "y", 0, .waiting 1 none⟩] ∧
      c.notifier.watching = 1 ∧ {id | ∃ w, s.Blocked 0 id w}.ncard = 1 ∧
      (sent (moments {} mistaken) 0).Nodup ∧ 0 ∈ sent (moments {} mistaken) 0 := by
  have hdirect : ∀ a ∈ mistaken, a.direct = false := by decide
  have hd : (run? {} mistaken).any (fun s => s.caches[0]?.any fun c =>
      decide (s.calls = [⟨0, "c", 0, .waiting 0 none⟩, ⟨0, "y", 0, .waiting 1 none⟩]) &&
      decide (c.notifier.phase = .idle ∧ c.notifier.requests = [] ∧ c.notifier.watching = 1 ∧
        c.notifier.signal 0 = .woken)) = true := by
    decide +kernel
  obtain ⟨s, hr, hd⟩ := (Option.any_eq_true _ _).mp hd
  obtain ⟨c, hc, hd⟩ := (Option.any_eq_true _ _).mp hd
  simp only [Bool.and_eq_true, decide_eq_true_eq] at hd
  obtain ⟨hcalls, hp, hq, hw, hs⟩ := hd
  have hh : s.Handled 0 c.notifier := by
    refine ⟨hp, hq, fun x hx _ w ⟨wake, he, _⟩ => ?_⟩
    rw [hcalls] at hx
    rcases List.mem_cons.mp hx with rfl | hx
    · cases he
    · obtain rfl := List.mem_singleton.mp hx
      cases he
  obtain ⟨hexact, ⟨honce, hwoken⟩, -⟩ := registry_exact hr hdirect hc
  exact ⟨s, c, hr, hdirect, hc, hh, hcalls, hw, (hexact hh).2.2.2 ▸ hw, honce, hwoken 0 hs⟩

end System

end ReadThrough
