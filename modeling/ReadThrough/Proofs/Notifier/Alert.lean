import ReadThrough.Proofs.Notifier.Steps
import ReadThrough.Proofs.Store.Operations

/-! # What a notifier still has in mind

A notifier that watches a finished id has a reason to look at it (`Notifier.Minds`): the store is
disconnected, and will announce that it is back; or the id, or the empty message, waits in its
feed; or the check of the id is due.

* **Alert** (`Notifier.Alert`).  Every watched id that is finished is minded.
* **Preservation.**  The notifier stays alert when the store changes and its feed is spared
  (`Alert.heard`), when time passes (`Alert.later`), and by its own steps as long as its checks are
  answered (`Step.alert`). -/

namespace ReadThrough

namespace Notifier

/-- Why a notifier will still look at an id. -/
def Minds (n : Notifier) (s : Store) (id : Id) : Prop :=
  s.connected = false ∨ id ∈ s.inbox n.feed ∨ "" ∈ s.inbox n.feed ∨ n.due id = true

/-- A notifier of the queue `k` that has ended watches nothing; one that has not hears its channel,
and minds every watched id that is finished. -/
structure Alert (k : Keys) (n : Notifier) (s : Store) (now : Instant) : Prop where
  keys : n.keys = k
  ended : n.phase = .stopped → n.watchers = ∅
  hears : n.phase ≠ .stopped → s.Hears n.feed k.channel
  minds : ∀ id ∈ n.watchers, (s.entry k id).finished now = true → n.Minds s id

variable {k : Keys} {n n' : Notifier} {s s' : Store} {now : Instant}

/-! ### Watched ids -/

theorem mem_register {id j : Id} {w : Nat} (h : j ∈ (n.register id w).watchers) :
    j = id ∨ j ∈ n.watchers := by
  have hm := Std.ExtTreeMap.mem_insert.mp h
  rcases hm with he | hm
  · exact Or.inl (Std.LawfulEqCmp.eq_of_compare he).symm
  · exact Or.inr hm

theorem mem_forget {id j : Id} (h : j ∈ (n.forget id).watchers) : j ∈ n.watchers := by
  unfold forget at h
  split at h
  · exact h
  · rename_i ws hw
    split at h
    · exact (Std.ExtTreeMap.mem_erase.mp h).2
    · rcases Std.ExtTreeMap.mem_insert.mp h with he | hm
      · obtain rfl := Std.LawfulEqCmp.eq_of_compare he
        exact Std.ExtTreeMap.mem_iff_isSome_getElem?.mpr (by rw [hw]; rfl)
      · exact hm

theorem mem_wake {id j : Id} (h : j ∈ (n.wake id).1.watchers) : j ∈ n.watchers ∧ j ≠ id := by
  unfold wake at h
  split at h
  · rename_i hw
    refine ⟨h, fun he => ?_⟩
    subst he
    have hs := Std.ExtTreeMap.mem_iff_isSome_getElem?.mp h
    rw [hw] at hs
    cases hs
  · obtain ⟨hne, hm⟩ := Std.ExtTreeMap.mem_erase.mp h
    refine ⟨hm, fun he => hne ?_⟩
    rw [he]
    exact Std.ReflCmp.compare_self

/-- A notifier that watches an id has not ended. -/
theorem Alert.watching {id : Id} (h : Alert k n s now) (hm : id ∈ n.watchers) :
    n.phase ≠ .stopped := by
  intro he
  rw [h.ended he] at hm
  exact Std.ExtTreeMap.not_mem_empty hm

/-! ### What others do -/

theorem due_congr (hp : n'.phase = n.phase) (id : Id) : n'.due id = n.due id := by
  unfold due
  rw [hp]

/-- A new notifier watches nothing. -/
theorem alert_subscribe (k : Keys) (s : Store) (now : Instant) :
    Alert k { keys := k, feed := s.feeds.length } (s.subscribe k.channel).2 now where
  keys := rfl
  ended := nofun
  hears := fun _ => Store.hears_subscribe s k.channel
  minds := fun _ hm => absurd hm Std.ExtTreeMap.not_mem_empty

/-- A notifier stays alert when the store changes, its feed is spared and its desk is left alone. -/
theorem Alert.heard (h : Alert k n s now) (hd : n'.desk = n.desk)
    (hs : s.Hears n.feed k.channel → Store.Heard k n.feed now s s') : Alert k n' s' now := by
  obtain ⟨hwired, hpw⟩ := Prod.mk.inj hd
  obtain ⟨hk, hf⟩ := Prod.mk.inj hwired
  obtain ⟨hp, hw⟩ := Prod.mk.inj hpw
  constructor
  · rw [hk, h.keys]
  · intro he
    rw [hp] at he
    rw [hw, h.ended he]
  · intro he
    rw [hp] at he
    rw [hf]
    exact (hs (h.hears he)).hears (h.hears he)
  · intro id hm hfin
    rw [hw] at hm
    obtain ⟨-, hkept, hback, hnews⟩ := hs (h.hears (h.watching hm))
    unfold Minds
    rw [hf, due_congr hp]
    rcases hnews id hfin with hfin | hc | hi
    · rcases h.minds id hm hfin with hc | hi | hi | hd
      · cases hc' : s'.connected with
        | false => exact Or.inl rfl
        | true =>
            rcases hback hc' with hc' | hi
            · rw [hc] at hc'
              cases hc'
            · exact Or.inr (Or.inr (Or.inl hi))
      · exact Or.inr (Or.inl (hkept _ hi))
      · exact Or.inr (Or.inr (Or.inl (hkept _ hi)))
      · exact Or.inr (Or.inr (Or.inr hd))
    · exact Or.inl hc
    · exact Or.inr (Or.inl hi)

/-- Time only ends the life of failures. -/
theorem Alert.later (h : Alert k n s now) {later : Instant} (hl : now ≤ later) :
    Alert k n s later :=
  ⟨h.keys, h.ended, h.hears, fun id hm hf => h.minds id hm (Entry.finished_mono hl hf)⟩

/-! ### What the notifier does itself -/

/-- A notifier that is ready for the next message minds an id because of the store only. -/
theorem Minds.of_idle {id : Id} (h : n.Minds s id) (hd : n.due id = false) :
    s.connected = false ∨ id ∈ s.inbox n.feed ∨ "" ∈ s.inbox n.feed := by
  rcases h with h | h | h | h
  · exact Or.inl h
  · exact Or.inr (Or.inl h)
  · exact Or.inr (Or.inr h)
  · rw [hd] at h
    cases h

theorem due_of_idle (hp : n.phase = .idle) (id : Id) : n.due id = false := by
  unfold due
  rw [hp]

/-- A notifier that ends has nothing to mind. -/
theorem alert_stop (h : n.keys = k) (s : Store) : Alert k n.stop s now where
  keys := h
  ended := fun _ => rfl
  hears := fun he => absurd rfl he
  minds := fun _ hm => absurd hm Std.ExtTreeMap.not_mem_empty

/-- What remains watched after an answered check was not found finished. -/
theorem mem_checked {id j : Id} {b : Bool} (h : j ∈ (n.checked id (.ok b)).1.watchers) :
    j ∈ n.watchers ∧ (b = true → j ≠ id) := by
  cases b with
  | true =>
      obtain ⟨hm, hn⟩ := mem_wake h
      exact ⟨hm, fun _ => hn⟩
  | false => exact ⟨h, nofun⟩

/-- A check of the store leaves its feeds alone and does not change what is finished. -/
theorem check_answered {id : Id} {answer : Except Error Bool}
    (ha : s.attempt none (·.isFinished k id now) = (answer, s')) :
    answer = .ok ((s.entry k id).finished now) ∧ s'.wire = s.wire ∧
      ∀ j, (s'.entry k j).finished now = (s.entry k j).finished now := by
  obtain ⟨rfl, rfl⟩ := Prod.mk.inj ha
  refine ⟨?_, Store.wire_afterFinished s k id now, fun j => ?_⟩
  · rw [← Store.finished_eq]
  · exact (Store.quiet_afterFinished s k id now j).finished_eq

/-- A notifier stays alert when a check is answered, if all other checks that were due still are. -/
theorem Alert.answered {id : Id} {answer : Except Error Bool} (h : Alert k n s now)
    (hp : n.phase ≠ .stopped)
    (ha : s.attempt none (·.isFinished n.keys id now) = (answer, s')) (hwired : n'.wired = n.wired)
    (hwatch : n'.watchers = (n.checked id answer).1.watchers) (hp' : n'.phase ≠ .stopped)
    (hd : ∀ j, j ≠ id → n.due j = true → n'.due j = true) : Alert k n' s' now := by
  rw [h.keys] at ha
  obtain ⟨rfl, hwire, hfinished⟩ := check_answered ha
  obtain ⟨hkeys, hfeed⟩ := Prod.mk.inj hwired
  obtain ⟨hbox, hears⟩ := Store.feed_congr k.channel (Store.feeds_of_wire n.feed hwire)
  have hcon : s'.connected = s.connected := congrArg Prod.snd hwire
  have hh : s'.Hears n'.feed k.channel := by
    rw [hfeed]
    exact hears.mpr (h.hears hp)
  refine ⟨hkeys.trans h.keys, fun he => absurd he hp', fun _ => hh, fun j hm hfin => ?_⟩
  rw [hwatch] at hm
  obtain ⟨hm, hne⟩ := mem_checked hm
  rw [hfinished] at hfin
  -- the checked id is not watched any more if it is finished
  have hj : j ≠ id := fun he => hne (he ▸ hfin) he
  unfold Minds
  rw [hfeed, hbox, hcon]
  rcases h.minds j hm hfin with hc | hi | hi | hdue
  · exact Or.inl hc
  · exact Or.inr (Or.inl hi)
  · exact Or.inr (Or.inr (Or.inl hi))
  · exact Or.inr (Or.inr (Or.inr (hd j hj hdue)))

/-- A notifier whose checks are answered stays alert. -/
theorem Step.alert {stopping : Bool} {m : Move} {events : List Event}
    (hs : Step n s now stopping none m n' s' events) (h : Alert k n s now) : Alert k n' s' now := by
  have hk := h.keys
  obtain ⟨hkeys, hfeed⟩ := Prod.mk.inj hs.wired_eq
  rw [hk] at hkeys
  -- between two messages, what is finished is minded because of the store
  have idle (hp : n.phase = .idle) : s.Hears n.feed k.channel ∧
      ∀ j ∈ n.watchers, (s.entry k j).finished now = true →
        s.connected = false ∨ j ∈ s.inbox n.feed ∨ "" ∈ s.inbox n.feed :=
    ⟨h.hears (by rw [hp]; nofun), fun j hm hf => (h.minds j hm hf).of_idle (due_of_idle hp j)⟩
  cases hs with
  | stop hp hs => exact alert_stop hk _
  | hangUp hp he => exact alert_stop hk _
  | @watch id w rest hp hr =>
      obtain ⟨hh, hmind⟩ := idle hp
      refine ⟨hkeys, nofun, fun _ => hh, fun j hm hfin => ?_⟩
      rcases mem_register hm with rfl | hm
      · exact Or.inr (Or.inr (Or.inr (by simp [due])))
      · exact (hmind j hm hfin).imp_right (Or.imp_right Or.inl)
  | release hp hr =>
      obtain ⟨hh, hmind⟩ := idle hp
      refine ⟨hkeys, nofun, fun _ => by rw [hfeed]; exact hh, fun j hm hfin => ?_⟩
      have hm := mem_forget hm
      unfold Minds
      rw [hfeed]
      exact (hmind j hm hfin).imp_right (Or.imp_right Or.inl)
  | @announcement id s' hp hr hi =>
      obtain ⟨hh, hmind⟩ := idle hp
      obtain ⟨hbox, hears, hcon, hent⟩ := Store.receive?_some hr
      refine ⟨hkeys, nofun, fun _ => by rw [hfeed]; exact hears _ hh, fun j hm hfin => ?_⟩
      obtain ⟨hm, hne⟩ := mem_wake hm
      rw [hent] at hfin
      unfold Minds
      rw [hfeed, hcon]
      -- the message taken is neither the id nor the empty one
      rcases hmind j hm hfin with hc | hj | he
      · exact Or.inl hc
      · rw [hbox] at hj
        exact Or.inr (Or.inl ((List.mem_cons.mp hj).resolve_left hne))
      · rw [hbox] at he
        exact Or.inr (Or.inr (Or.inl ((List.mem_cons.mp he).resolve_left hi.symm)))
  | sentinel hp hr =>
      obtain ⟨hh, hmind⟩ := idle hp
      obtain ⟨hbox, hears, hcon, hent⟩ := Store.receive?_some hr
      refine ⟨hkeys, nofun, fun _ => hears _ hh, fun j hm hfin => ?_⟩
      have hj : j ∈ n.prune.watchers.keys := Std.ExtTreeMap.mem_keys.mpr hm
      exact Or.inr (Or.inr (Or.inr (List.contains_iff_mem.mpr hj)))
  | check hp ha =>
      refine h.answered (by rw [hp]; nofun) ha (wired_checked _ _ _) rfl nofun fun j hj hd => ?_
      simp only [due, hp, beq_iff_eq] at hd
      exact absurd hd.symm hj
  | recheck hp hi ha =>
      refine h.answered (by rw [hp]; nofun) ha (wired_checked _ _ _) rfl nofun fun j hj hd => ?_
      -- it is still to be checked
      have hmem := by simpa [due, hp] using hd
      exact List.contains_iff_mem.mpr ((List.mem_erase_of_ne hj).mpr hmem)
  | conclude hp =>
      have hh := h.hears (by rw [hp]; nofun)
      refine ⟨hkeys, nofun, fun _ => hh, fun j hm hfin => ?_⟩
      have hdue : n.due j = false := by simp [due, hp]
      exact ((h.minds j hm hfin).of_idle hdue).imp_right (Or.imp_right Or.inl)

end Notifier

end ReadThrough
