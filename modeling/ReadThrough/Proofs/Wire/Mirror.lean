import ReadThrough.Proofs.Store.Ordering
import ReadThrough.Proofs.Store.Origins
import ReadThrough.Proofs.Text.Utf8
import ReadThrough.Proofs.Wire.Keyspace

/-! # A queue on a server

How the keys of a queue hold what a store knows about it.

* **Keys** (`Keys.Part`).  All keys of a queue live in one keyspace, and no two parts of the queue
  have the same key there (`Keys.bytes_key_inj`).
* **Mirrors** (`Server.Mirrors`).  The sorted set has the queued ids with the scores of their
  priorities, which are exact, the set has the claimed ids, and the strings are the values and the
  failures that have not expired.
* **Order** (`Server.Mirrors.line_eq`).  The server lists the queue in the order of the backlog.
* **Existence** (`Keyspace.mirrors_ofStore`).  Every store has a mirror. -/

namespace ReadThrough

/-! ### Keys -/

namespace Keys

/-- The parts of a queue that have a key of their own. -/
inductive Part where
  | queue
  | workReady
  | inProgress
  | channel
  | value (id : Id)
  | failure (id : Id)
deriving DecidableEq

/-- The key of a part. -/
def key (k : Keys) : Part → String
  | .queue => k.queue
  | .workReady => k.workReady
  | .inProgress => k.inProgress
  | .channel => k.channel
  | .value id => k.value id
  | .failure id => k.failure id

/-- What a key has behind the name of its queue. -/
def Part.suffix : Part → String
  | queue => ""
  | workReady => ":wr"
  | inProgress => ":inp"
  | channel => ":ch"
  | value id => ":k:" ++ id
  | failure id => ":er:" ++ id

/-- The part that a suffix stands for. -/
def Part.ofSuffix? : List Char → Option Part
  | [] => some queue
  | [':', 'w', 'r'] => some workReady
  | [':', 'i', 'n', 'p'] => some inProgress
  | [':', 'c', 'h'] => some channel
  | ':' :: 'k' :: ':' :: id => some (value (String.ofList id))
  | ':' :: 'e' :: 'r' :: ':' :: id => some (failure (String.ofList id))
  | _ => none

/-- The part that has a key, given in bytes. -/
def part? (k : Keys) (key : Bytes) : Option Part := do
  let text ← Utf8.string? key
  let suffix ← k.queue.toList.isPrefixOf? text.toList
  Part.ofSuffix? suffix

variable {k : Keys} {p q : Part}

theorem toList_key (k : Keys) (p : Part) :
    (k.key p).toList = k.queue.toList ++ p.suffix.toList := by
  cases p <;> simp [key, Part.suffix, workReady, inProgress, channel, value, failure]

theorem Part.ofSuffix?_suffix (p : Part) : ofSuffix? p.suffix.toList = some p := by
  cases p with
  | value id => simp [suffix, ofSuffix?]
  | failure id => simp [suffix, ofSuffix?]
  | _ => decide

/-- The part of a queue is read off its key. -/
theorem part?_key (k : Keys) (p : Part) : k.part? (Utf8.bytes (k.key p)) = some p := by
  have hp : k.queue.toList.isPrefixOf? (k.key p).toList = some p.suffix.toList :=
    List.isPrefixOf?_eq_some_iff_append_eq.mpr (toList_key k p).symm
  simp only [part?, Utf8.string?_bytes, hp, Option.bind_eq_bind, Option.bind_some,
    Part.ofSuffix?_suffix]

/-- Two parts of a queue do not have the same key. -/
theorem bytes_key_inj : Utf8.bytes (k.key p) = Utf8.bytes (k.key q) ↔ p = q := by
  refine ⟨fun h => ?_, fun h => by rw [h]⟩
  have hp := part?_key k p
  rw [h, part?_key] at hp
  exact (Option.some.inj hp).symm

end Keys

/-! ### Queues -/

namespace Backlog

open Wire

/-- The queued ids in bytes, with the scores of their priorities, in order. -/
def scored (b : Backlog) : List (Bytes × Binary) :=
  b.ordered.map fun x => (Utf8.bytes x.1, Binary.double.ofInt x.2)

/-- Every priority has a score of its own. -/
def Exact (b : Backlog) : Prop :=
  ∀ id p, b.priority? id = some p → p.natAbs ≤ Priority.maxExact

theorem scored_ordered {b : Backlog} (h : b.Exact) : b.scored.Pairwise Before := by
  refine List.pairwise_map.mpr (b.ordered_pairwise.imp_of_mem fun {x y} hx hy hxy => ?_)
  have hrx := Binary.rank_ofInt (h x.1 x.2 (mem_ordered.mp hx))
  have hry := Binary.rank_ofInt (h y.1 y.2 (mem_ordered.mp hy))
  unfold Before
  rw [hrx, hry, Utf8.bytes_lt_bytes_iff]
  rcases hxy with hlt | ⟨he, hlt⟩
  · left
    exact_mod_cast hlt
  · exact Or.inr ⟨by rw [he], hlt⟩

/-- No id is there twice. -/
theorem distinct_scored (b : Backlog) : (b.scored.map (·.1)).Nodup := by
  have hn := b.nodup_ordered.map (f := Utf8.bytes) fun _ _ => Utf8.bytes_inj.mp
  rw [List.map_map] at hn
  rw [scored, List.map_map]
  exact hn

end Backlog

namespace Wire

theorem Before.asymm {x y : Bytes × Binary} (h : Before x y) : ¬ Before y x := by
  rintro (h' | ⟨he, h'⟩)
  · rcases h with h | ⟨he, -⟩
    · exact lt_asymm h h'
    · exact h'.ne he.symm
  · rcases h with h | ⟨-, h⟩
    · exact h.ne he.symm
    · exact List.lt_asymm h h'

/-- A backlog as a sorted set. -/
def Ranking.ofBacklog (b : Backlog) (he : b.Exact) (hs : b.size ≤ maxInteger) : Ranking where
  line := b.scored
  ordered := Backlog.scored_ordered he
  distinct := b.distinct_scored
  countable := by rwa [Backlog.scored, List.length_map, Backlog.length_ordered]

/-- A sorted set that has the members of a backlog with their scores lists them in its order. -/
theorem Ranking.line_eq {z : Ranking} {b : Backlog} (hb : b.Exact)
    (h : ∀ x, x ∈ z.line ↔ x ∈ b.scored) : z.line = b.scored := by
  have hn : z.line.Nodup := List.Nodup.of_map Prod.fst z.distinct
  have hnb : b.scored.Nodup := List.Nodup.of_map Prod.fst b.distinct_scored
  exact ((List.perm_ext_iff_of_nodup hn hnb).mpr h).eq_of_pairwise
    (fun x y _ _ hxy hyx => absurd hyx hxy.asymm) z.ordered (Backlog.scored_ordered hb)

end Wire

namespace Store

/-- The claimed ids of a queue in bytes. -/
def claims (m : Store) (k : Keys) : Finset Bytes := ((m.inProgress k).map Utf8.bytes).toFinset

variable {m m' : Store} {k : Keys} {id : Id}

theorem mem_claims {x : Bytes} :
    x ∈ m.claims k ↔ ∃ id ∈ (m.queue k).claimed, Utf8.bytes id = x := by
  simp [claims, inProgress, Std.ExtTreeSet.mem_toList]

theorem claims_release
    (h : ∀ j, j ∈ (m'.queue k).claimed ↔ j ∈ (m.queue k).claimed ∧ j ≠ id) :
    m'.claims k = (m.claims k).erase (Utf8.bytes id) := by
  ext x
  rw [Finset.mem_erase, mem_claims, mem_claims]
  constructor
  · rintro ⟨j, hj, rfl⟩
    obtain ⟨hm, hne⟩ := (h j).mp hj
    exact ⟨fun he => hne (Utf8.bytes_inj.mp he), j, hm, rfl⟩
  · rintro ⟨hne, j, hj, rfl⟩
    exact ⟨j, (h j).mpr ⟨hj, fun he => hne (congrArg Utf8.bytes he)⟩, rfl⟩

theorem queue_forget (m : Store) (now : Instant) (key : String) :
    (m.forget now key).queue k = m.queue k := by
  unfold forget
  split
  · split <;> rfl
  · rfl

/-- Removing what has expired makes no difference from then on. -/
theorem failure?_forget {now t : Instant} (ht : now ≤ t) (key other : String) :
    (m.forget now key).failure? t other = m.failure? t other := by
  unfold forget
  split
  · rename_i f hf
    split
    · rename_i he
      unfold failure?
      by_cases hk : key = other
      · subst hk
        have hn : ¬ t < f.expires := not_lt.mpr (le_trans he ht)
        simp [hf, hn, Option.filter_some]
      · simp [Std.ExtTreeMap.getElem?_erase, hk]
    · rfl
  · rfl

end Store

/-! ### Mirrors -/

namespace Wire.Server

variable {σ : Type}

/-- From now on the server holds in the state `s` what the store `m` knows of a queue. -/
structure Mirrors (S : Server σ) (k : Keys) (now : Instant) (m : Store) (s : σ) : Prop where
  /-- Every priority has a score of its own. -/
  exact : (m.queue k).backlog.Exact
  queue : ∃ z : Ranking, (∀ x, x ∈ z.line ↔ x ∈ (m.queue k).backlog.scored) ∧
    ∀ t, now ≤ t → S.held s t (Utf8.bytes k.queue) = Held.ofRanking z
  inProgress : ∀ t, now ≤ t →
    S.held s t (Utf8.bytes k.inProgress) = Held.ofSet (m.claims k)
  value : ∀ id t, now ≤ t →
    S.held s t (Utf8.bytes (k.value id)) = m.values[k.value id]?.map Held.string
  failure : ∀ id t, now ≤ t →
    S.held s t (Utf8.bytes (k.failure id)) =
      (m.failure? t (k.failure id)).map fun f => Held.string (Utf8.bytes f.message)

variable {S : Server σ} {k : Keys} {now : Instant} {m m' : Store} {s s' : σ}

/-- The server lists the queue in the order of the backlog. -/
theorem Mirrors.line_eq (h : S.Mirrors k now m s) :
    ∃ z : Ranking, z.line = (m.queue k).backlog.scored ∧
      ∀ t, now ≤ t → S.held s t (Utf8.bytes k.queue) = Held.ofRanking z :=
  h.queue.imp fun _ => .imp_left (Ranking.line_eq h.exact)

/-- Nothing is different later on. -/
theorem Mirrors.later (h : S.Mirrors k now m s) {later : Instant} (hl : now ≤ later) :
    S.Mirrors k later m s where
  exact := h.exact
  queue := h.queue.imp fun _ => .imp_right fun hz t ht => hz t (hl.trans ht)
  inProgress t ht := h.inProgress t (hl.trans ht)
  value id t ht := h.value id t (hl.trans ht)
  failure id t ht := h.failure id t (hl.trans ht)

/-- A question to the server leaves everything as it is. -/
theorem Mirrors.keeps (h : S.Mirrors k now m s) (hs : S.Keeps now s s') :
    S.Mirrors k now m s' where
  exact := h.exact
  queue := h.queue.imp fun _ => .imp_right fun hz t ht => (hs.held t ht _).trans (hz t ht)
  inProgress t ht := (hs.held t ht _).trans (h.inProgress t ht)
  value id t ht := (hs.held t ht _).trans (h.value id t ht)
  failure id t ht := (hs.held t ht _).trans (h.failure id t ht)

/-- What has expired need not be there. -/
theorem Mirrors.forget (h : S.Mirrors k now m s) (key : String) :
    S.Mirrors k now (m.forget now key) s := by
  constructor
  · rw [Store.queue_forget]
    exact h.exact
  · rw [Store.queue_forget]
    exact h.queue
  · unfold Store.claims Store.inProgress
    rw [Store.queue_forget]
    exact h.inProgress
  · rw [Store.values_forget]
    exact h.value
  · intro id t ht
    rw [Store.failure?_forget ht]
    exact h.failure id t ht

end Wire.Server

/-! ### A mirror of every store -/

namespace Wire.Keyspace

/-- What a store knows of a part of a queue at some time; `z` is the queue as a sorted set. -/
def content (m : Store) (k : Keys) (z : Ranking) (t : Instant) : Keys.Part → Option Held
  | .queue => Held.ofRanking z
  | .inProgress => Held.ofSet (m.claims k)
  | .value id => m.values[k.value id]?.map Held.string
  | .failure id =>
    (m.failure? t (k.failure id)).map fun f => Held.string (Utf8.bytes f.message)
  | _ => none

/-- The keyspace that holds what a store knows of a queue. -/
def ofStore (m : Store) (k : Keys) (z : Ranking) : Keyspace where
  held t key := (k.part? key).bind (content m k z t)

/-- Every store with exact priorities has a mirror. -/
theorem mirrors_ofStore (epoch : Nat) (m : Store) (k : Keys) (now : Instant)
    (he : (m.queue k).backlog.Exact) (hs : (m.queue k).backlog.size ≤ maxInteger) :
    (server epoch).Mirrors k now m
      (ofStore m k (Ranking.ofBacklog (m.queue k).backlog he hs)) := by
  have hheld (z : Ranking) (t : Instant) (p : Keys.Part) :
      (ofStore m k z).held t (Utf8.bytes (k.key p)) = content m k z t p := by
    unfold ofStore
    dsimp only
    rw [Keys.part?_key, Option.bind_some]
  exact {
    exact := he
    queue := ⟨_, fun _ => Iff.rfl, fun t _ => hheld _ t .queue⟩
    inProgress := fun t _ => hheld _ t .inProgress
    value := fun id t _ => hheld _ t (.value id)
    failure := fun id t _ => hheld _ t (.failure id) }

end Wire.Keyspace

end ReadThrough
