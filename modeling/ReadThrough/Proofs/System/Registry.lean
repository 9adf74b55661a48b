import Mathlib.Data.Set.Card
import ReadThrough.Proofs.Notifier.Reconciling
import ReadThrough.Proofs.System.Gauge
import ReadThrough.Proofs.System.Waiting

/-! # What a running notifier has registered

As long as only callers use a notifier (`Action.direct`), its lists are tidy, and whoever listens
belongs to a caller that waits (`System.Registry`, `Step.registryAt`).  A release is owed by the
callers that went on without having been woken and did not tell yet (`Call.Owes`).

When all requests are handled and nobody owes a release, the notifier has registered exactly the
waiters of the callers that are blocked (`System.Blocked`, `RegistryAt.registered_iff`), and shows
the number of ids for which there are such callers (`RegistryAt.watching_eq`). -/

namespace ReadThrough

/-- Whether somebody who is no caller uses a notifier. -/
def Action.direct : Action → Bool
  | watch .. => true
  | leave .. => true
  | release .. => true
  | _ => false

namespace Notifier

variable {n n' : Notifier} {w : Nat}

theorem listens_congr (h : n'.waiters[w]? = n.waiters[w]?) : n'.listens w = n.listens w := by
  unfold listens
  rw [h]

theorem waiters_release (n : Notifier) (id : Id) : (n.release id).waiters = n.waiters := by
  unfold release
  split <;> rfl

theorem not_listens_leave (n : Notifier) (w : Nat) : (n.leave w).listens w = false := by
  unfold listens leave
  cases hy : n.waiters[w]? <;> simp [hy]

/-- The notifier leaves it to the waiters whether they listen. -/
theorem Step.listens_eq {s s' : Store} {now : Instant} {stopping : Bool} {fault : Option Error}
    {m : Move} {events : List Event} (h : Step n s now stopping fault m n' s' events) (w : Nat) :
    n'.listens w = n.listens w := by
  rcases h.roused with ⟨id, -, hx, -, -⟩ | ⟨-, hx | rfl⟩
  · rcases waiters_wake n id w with ⟨he, -⟩ | ⟨he, -⟩
    · exact listens_congr (by rw [hx, he])
    · unfold listens
      rw [hx, he]
      cases n.waiters[w]? with
      | none => rfl
      | some y => exact y.follows_wake.1
  · exact listens_congr (by rw [hx])
  · unfold listens
    rw [waiters_stop]
    cases n.waiters[w]? with
    | none => rfl
    | some y =>
        simp only [Option.map_some]
        split <;> rfl

end Notifier

namespace Call

/-- The caller stopped waiting without having been woken, and is about to tell the notifier. -/
def Owes (x : Call) (w : Nat) : Prop := ∃ wake, x.phase = .rereading w wake ∧ wake ≠ .woken

variable {x x' : Call} {settings : Settings} {now : Instant} {fault : Option Error}
  {n n' : Notifier} {s s' : Store} {events : List Event} {w : Nat} {owed owed' : Id → Nat → Prop}

theorem not_owes (hp : ∀ w wake, x.phase ≠ .rereading w wake) : ¬ x.Owes w :=
  fun ⟨wake, h, _⟩ => hp w wake h

/-- The end of a wait pays what the caller owes. -/
theorem tidy_wakeRelease {wake : Wake} (hp : x.phase = .rereading w wake) (h : n.Tidy owed)
    (hk : ∀ id v, owed id v → owed' id v ∨ x.id = id ∧ x.Owes v) :
    (wake.release n x.id).Tidy owed' := by
  unfold Wake.release
  split
  · rename_i hw
    refine h.mono fun id v _ _ ho => (hk id v ho).imp_right ?_
    rintro ⟨-, wake', hp', hw'⟩
    obtain ⟨-, rfl⟩ := Phase.rereading.inj (hp.symm.trans hp')
    exact absurd hw hw'
  · exact h.release x.id fun j v ho => (hk j v ho).imp_right fun hx => hx.1.symm

/-- A caller that goes on keeps the lists tidy. -/
theorem Step.tidy (hs : Step x settings now fault n s x' n' s' events) (h : n.Tidy owed)
    (hk : ∀ id v, owed id v → owed' id v ∨ x.id = id ∧ x.Owes v)
    (hnew : ∀ v, x'.Owes v → owed' x.id v)
    (hmine : ∀ v, x.Waits v → n.signal v = .pending → n.Pends x.id v) : n'.Tidy owed' := by
  -- a caller that owes nothing
  have stay (hp : ∀ v wake, x.phase ≠ .rereading v wake) : n.Tidy owed' :=
    h.mono fun id v _ _ ho => (hk id v ho).imp_right fun hx => absurd hx.2 (not_owes hp)
  have silent {v : Nat} (hp : ∀ v wake, x.phase ≠ .rereading v wake)
      (hs : n.signal v ≠ .pending) : (n.leave v).Tidy owed' :=
    (stay hp).leave fun id hl => absurd (h.pends id v hl).signal hs
  cases hs with
  | settled hp ha hv => exact stay (by simp [hp])
  | missed hp ha => exact stay (by simp [hp])
  | reread hp ha hr hb => exact tidy_wakeRelease hp h hk
  | refused hp ha => exact stay (by simp [hp])
  | again hp ha => exact stay (by simp [hp])
  | queued hp ha ho => exact stay (by simp [hp])
  | gone hp hn => exact stay (by simp [hp])
  | subscribe hp hn => exact (stay (by simp [hp])).subscribe hn x.id
  | woken hp hs => exact silent (by simp [hp]) (by simp [hs])
  | lost hp hs => exact silent (by simp [hp]) (by simp [hs])
  | timedOut hp hs hl ht =>
      refine (stay (by simp [hp])).leave fun id hlist => ?_
      -- the waiter is listed for the id of the caller
      obtain rfl := (h.pends id _ hlist).inj (hmine _ ⟨_, hp⟩ hs)
      exact hnew _ ⟨_, rfl, nofun⟩

/-- A caller that is dropped keeps the lists tidy. -/
theorem tidy_cancel (h : n.Tidy owed)
    (hk : ∀ id v, owed id v → owed' id v ∨ x.id = id ∧ x.Owes v)
    (hmine : ∀ v, x.Waits v → n.signal v = .pending → n.Pends x.id v) :
    (x.cancel n).2.Tidy owed' := by
  unfold cancel
  dsimp only
  split
  · rename_i v deadline hp
    -- until the release, the dropped caller owes it
    have hl : (n.leave v).Tidy fun id u => owed id u ∨ x.id = id := by
      refine Notifier.Tidy.leave (h.mono fun _ _ _ _ ho => Or.inl (Or.inl ho)) fun id hlist => ?_
      have hpend := h.pends id v hlist
      exact Or.inr ((hmine v ⟨_, hp⟩ hpend.signal).inj hpend)
    refine hl.release x.id fun j u ho => ?_
    rcases ho with ho | rfl
    · exact (hk j u ho).imp_right fun hx => hx.1.symm
    · exact Or.inr rfl
  · rename_i v wake hp
    exact tidy_wakeRelease hp h hk
  · rename_i hp
    exact h.mono fun id v _ _ ho => (hk id v ho).imp_right fun hx =>
      absurd hx.2 (not_owes fun u wake he => hp u wake he)

theorem waiters_wakeRelease (wake : Wake) (n : Notifier) (id : Id) :
    (wake.release n id).waiters = n.waiters := by
  unfold Wake.release
  split
  · rfl
  · exact Notifier.waiters_release n id

theorem not_waits (hp : ∀ v deadline, x.phase ≠ .waiting v deadline) : ¬ x.Waits w :=
  fun ⟨deadline, h⟩ => hp w deadline h

/-- Whoever listens after a caller left listened before, and is not the waiter of the caller. -/
theorem listens_of_leave {v : Nat} {deadline : Option Instant} (hp : x.phase = .waiting v deadline)
    (hl : (n.leave v).listens w = true) : n.listens w = true ∧ ¬ x.Waits w := by
  have hv : w ≠ v := by
    rintro rfl
    rw [Notifier.not_listens_leave] at hl
    cases hl
  rw [Notifier.listens_leave n v hv] at hl
  exact ⟨hl, fun hw => hv (hw.inj ⟨deadline, hp⟩)⟩

/-- Whoever listens after a caller went on is the waiter of the caller, or of somebody else. -/
theorem Step.listens (hs : Step x settings now fault n s x' n' s' events)
    (hl : n'.listens w = true) : x'.Waits w ∨ n.listens w = true ∧ ¬ x.Waits w := by
  cases hs with
  | subscribe hp hn =>
      rcases Nat.lt_trichotomy w n.waiters.length with hw | rfl | hw
      · refine Or.inr ⟨?_, not_waits (by simp [hp])⟩
        exact (Notifier.listens_congr (List.getElem?_append_left hw).symm).trans hl
      · exact Or.inl ⟨_, rfl⟩
      · rw [Notifier.listens, List.getElem?_eq_none (by simpa using hw)] at hl
        cases hl
  | @reread v wake _ _ _ _ hp ha hr hb =>
      refine Or.inr ⟨?_, not_waits (by simp [hp])⟩
      exact (Notifier.listens_congr (by rw [waiters_wakeRelease])).symm.trans hl
  | woken hp hs => exact Or.inr (listens_of_leave hp hl)
  | lost hp hs => exact Or.inr (listens_of_leave hp hl)
  | timedOut hp hs hl' ht => exact Or.inr (listens_of_leave hp hl)
  | settled hp ha hv => exact Or.inr ⟨hl, not_waits (by simp [hp])⟩
  | missed hp ha => exact Or.inr ⟨hl, not_waits (by simp [hp])⟩
  | refused hp ha => exact Or.inr ⟨hl, not_waits (by simp [hp])⟩
  | again hp ha => exact Or.inr ⟨hl, not_waits (by simp [hp])⟩
  | queued hp ha ho => exact Or.inr ⟨hl, not_waits (by simp [hp])⟩
  | gone hp hn => exact Or.inr ⟨hl, not_waits (by simp [hp])⟩

theorem listens_cancel (hl : (x.cancel n).2.listens w = true) :
    n.listens w = true ∧ ¬ x.Waits w := by
  unfold cancel at hl
  dsimp only at hl
  split at hl
  · rename_i v deadline hp
    refine listens_of_leave hp ((Notifier.listens_congr ?_).symm.trans hl)
    rw [Notifier.waiters_release]
  · rename_i v wake hp
    refine ⟨(Notifier.listens_congr ?_).symm.trans hl, not_waits (by simp [hp])⟩
    rw [waiters_wakeRelease]
  · rename_i hp _
    exact ⟨hl, not_waits hp⟩

end Call

namespace System

variable {s s' : System} {a : Action} {i : Nat}

/-- Some caller of cache `i` owes a release of the id because of a waiter. -/
def Owed (s : System) (i : Nat) (id : Id) (w : Nat) : Prop :=
  ∃ x ∈ s.calls, x.cache = i ∧ x.id = id ∧ x.Owes w

/-- The lists of the notifier of cache `i` are tidy, and whoever listens belongs to a caller. -/
structure Registry (s : System) (i : Nat) (n : Notifier) : Prop where
  tidy : n.Tidy (s.Owed i)
  owned : ∀ w, n.listens w = true → ∃ x ∈ s.calls, x.cache = i ∧ x.Waits w

/-- The notifier of cache `i`, if there is one, is in this order. -/
def RegistryAt (i : Nat) (s : System) : Prop :=
  s.Attended ∧ ∀ c ∈ s.caches[i]?, s.Registry i c.notifier

theorem registryAt_start (i : Nat) : RegistryAt i {} :=
  ⟨attended_start, fun c hc => by simp at hc⟩

theorem Action.leaves_of_direct (ha : a.direct = false) : a.leaves = false := by
  cases a <;> first | rfl | cases ha

theorem tidy_fresh (k : Keys) (feed : Nat) (owed : Id → Nat → Prop) :
    Notifier.Tidy owed { keys := k, feed } := by
  have hnone : ∀ (id : Id) w, ¬ Notifier.Listed { keys := k, feed } id w := by
    rintro id w (hq | ⟨ws, hw, -⟩)
    · cases hq
    · simp at hw
  exact {
    once := List.nodup_nil
    apart := fun id ws hw => by simp at hw
    untaken := nofun
    pends := fun id w hl => absurd hl (hnone id w)
    swept := fun id w hl => absurd hl (hnone id w)
    ended := nofun }

/-- The waiter of a caller that is not told yet pends for the id of the caller. -/
theorem RegistryAt.pends (h : s.RegistryAt i) {c : Cache} (hc : s.caches[i]? = some c) {x : Call}
    (hx : x ∈ s.calls) (hi : x.cache = i) {w : Nat} (hw : x.Waits w)
    (hs : c.notifier.signal w = .pending) : c.notifier.Pends x.id w :=
  (h.2 c hc).tidy.pends _ _ ((h.1.attends x hx c (hi ▸ hc) w hw).listed hs)

theorem Step.registryAt (h : Step s a s') (ha : a.direct = false) (hs : s.RegistryAt i) :
    s'.RegistryAt i := by
  refine ⟨h.attended (Action.leaves_of_direct ha) hs.1, fun c' hc' => ?_⟩
  rcases h.touches hc' with ⟨c, hc, -, ht⟩ | ⟨-, -, hx, k, hn, -⟩
  · have hreg := hs.2 c hc
    generalize c'.notifier = n at ht ⊢
    -- the callers of the cache stay
    have keep (hk : ∀ (j : Nat) (x : Call), s.calls[j]? = some x → x.cache = i →
        s'.calls[j]? = some x) {x : Call} (hx : x ∈ s.calls) (hi : x.cache = i) : x ∈ s'.calls := by
      obtain ⟨j, hj⟩ := List.mem_iff_getElem?.mp hx
      exact List.mem_of_getElem? (hk j x hj hi)
    cases ht with
    | spares _ hk =>
        refine ⟨hreg.tidy.mono fun id w _ _ ⟨x, hx, hi, hrest⟩ => ?_, fun w hw => ?_⟩
        · exact Or.inl ⟨x, keep hk hx hi, hi, hrest⟩
        · obtain ⟨x, hx, hi, hwait⟩ := hreg.owned w hw
          exact ⟨x, keep hk hx hi, hi, hwait⟩
    | moves hk hn =>
        have hcalls : s'.calls = s.calls := hk
        refine ⟨(hn.tidy hreg.tidy).mono fun id w _ _ ho => Or.inl ?_, fun w hw => ?_⟩
        · unfold Owed
          rwa [hcalls]
        · rw [hn.listens_eq] at hw
          rw [hcalls]
          exact hreg.owned w hw
    | @serves j _ x x' _ _ hx hi hx' hstep =>
        have hmem := List.mem_of_getElem? hx
        have hnew : x' ∈ s'.calls := hx' ▸ List.mem_set (List.getElem?_eq_some_iff.mp hx).1 x'
        refine ⟨hstep.tidy hreg.tidy (fun id v ⟨y, hy, hrest⟩ => ?_) (fun v hv => ?_)
          fun v hv hp => hs.pends hc hmem hi hv hp, fun w hw => ?_⟩
        · rcases eq_or_mem_set hx hy with rfl | hy
          · exact Or.inr hrest.2
          · exact Or.inl ⟨y, hx' ▸ hy, hrest⟩
        · exact ⟨x', hnew, hstep.same.1.trans hi, hstep.same.2, hv⟩
        · rcases hstep.listens hw with hw | ⟨hw, hn⟩
          · exact ⟨x', hnew, hstep.same.1.trans hi, hw⟩
          · obtain ⟨y, hy, hyi, hwait⟩ := hreg.owned w hw
            rcases eq_or_mem_set hx hy with rfl | hy
            · exact absurd hwait hn
            · exact ⟨y, hx' ▸ hy, hyi, hwait⟩
    | @loses j x hx hi hx' =>
        have hmem := List.mem_of_getElem? hx
        refine ⟨Call.tidy_cancel hreg.tidy (fun id v ⟨y, hy, hrest⟩ => ?_)
          fun v hv hp => hs.pends hc hmem hi hv hp, fun w hw => ?_⟩
        · rcases eq_or_mem_set hx hy with rfl | hy
          · exact Or.inr hrest.2
          · exact Or.inl ⟨y, hx' ▸ hy, hrest⟩
        · obtain ⟨hw, hn⟩ := Call.listens_cancel hw
          obtain ⟨y, hy, hyi, hwait⟩ := hreg.owned w hw
          rcases eq_or_mem_set hx hy with rfl | hy
          · exact absurd hwait hn
          · exact ⟨y, hx' ▸ hy, hyi, hwait⟩
    | watch hn => cases ha
    | leave => cases ha
    | release => cases ha
  · rw [hn]
    exact ⟨tidy_fresh k _ _, fun w hw => by simp [Notifier.listens] at hw⟩

theorem run_registryAt {as : List Action} (hr : run? {} as = some s)
    (ha : ∀ a ∈ as, a.direct = false) (i : Nat) : s.RegistryAt i :=
  run_invariant (A := fun a => a.direct = false) (registryAt_start i)
    (fun _ _ _ hs ha h => h.registryAt ha hs) ha hr

/-- Whenever such a notifier reconciles, its waiters are registered once and have no signal yet. -/
theorem run_sole {as : List Action} (hr : run? {} as = some s) (ha : ∀ a ∈ as, a.direct = false)
    {c : Cache} (hc : s.caches[i]? = some c) : c.notifier.Sole :=
  ((run_registryAt hr ha i).2 c hc).tidy.sole

/-! ### Who is registered -/

/-- A caller of cache `i` is blocked on the id: it waits with a waiter that was told nothing. -/
def Blocked (s : System) (i : Nat) (id : Id) (w : Nat) : Prop :=
  ∃ x ∈ s.calls, x.cache = i ∧ x.id = id ∧ x.Waits w ∧
    ∃ c ∈ s.caches[i]?, c.notifier.signal w = .pending

/-- The notifier of cache `i` has handled all requests, and no caller of the cache that was not
woken is between the end of its wait and the release. -/
structure Handled (s : System) (i : Nat) (n : Notifier) : Prop where
  idle : n.phase = .idle
  taken : n.requests = []
  paid : ∀ x ∈ s.calls, x.cache = i → ∀ w, ¬ x.Owes w

/-- Then the notifier has registered who is blocked, and nobody else. -/
theorem RegistryAt.registered_iff (h : s.RegistryAt i) {c : Cache} (hc : s.caches[i]? = some c)
    (hh : s.Handled i c.notifier) (id : Id) (w : Nat) :
    c.notifier.Registered id w ↔ s.Blocked i id w := by
  have htidy := (h.2 c hc).tidy
  constructor
  · intro hr
    have hpend := htidy.pends id w (Or.inr hr)
    have hl : c.notifier.listens w = true := by
      by_contra hl
      rcases htidy.swept id w (Or.inr hr) (by simpa using hl) with ⟨x, hx, hi, -, ho⟩ | hs
      · exact hh.paid x hx hi w ho
      · obtain ⟨early, late, he, -⟩ := hs
        rw [hh.taken] at he
        simp at he
    obtain ⟨x, hx, hi, hw⟩ := (h.2 c hc).owned w hl
    have hid := (h.pends hc hx hi hw hpend.signal).inj hpend
    exact ⟨x, hx, hi, hid, hw, c, hc, hpend.signal⟩
  · rintro ⟨x, hx, hi, rfl, hw, c', hc', hs⟩
    obtain rfl := Option.some.inj (hc.symm.trans hc')
    refine ((h.1.attends x hx c (hi ▸ hc) w hw).listed hs).resolve_left fun hq => ?_
    rw [hh.taken] at hq
    cases hq

/-- And the notifier shows the number of ids on which somebody is blocked. -/
theorem RegistryAt.watching_eq (h : s.RegistryAt i) {c : Cache} (hc : s.caches[i]? = some c)
    (hg : c.notifier.Gauged) (hh : s.Handled i c.notifier) :
    c.notifier.watching = {id | ∃ w, s.Blocked i id w}.ncard := by
  have hset : {id | ∃ w, s.Blocked i id w} = (c.notifier.watchers.keys.toFinset : Set Id) := by
    ext id
    simp only [Set.mem_ofPred_eq, List.coe_toFinset, Std.ExtTreeMap.mem_keys]
    constructor
    · rintro ⟨w, hw⟩
      exact ((h.registered_iff hc hh id w).mpr hw).mem
    · intro hm
      obtain ⟨ws, hw⟩ := Option.isSome_iff_exists.mp (Std.ExtTreeMap.mem_iff_isSome_getElem?.mp hm)
      cases ws with
      | nil => exact absurd hw (hg.filled id)
      | cons w rest =>
          exact ⟨w, (h.registered_iff hc hh id w).mp ⟨_, hw, List.mem_cons_self⟩⟩
  rw [hg.shown hh.idle, hset, Set.ncard_coe_finset,
    List.toFinset_card_of_nodup Std.ExtTreeMap.nodup_keys, Std.ExtTreeMap.length_keys]

end System

end ReadThrough
