import Std.Data.ExtTreeMap.Lemmas
import Std.Data.ExtTreeSet.Lemmas
import ReadThrough.Task

/-! # The backlog of a queue

The queued ids of one queue, each with one priority.  They are kept twice: in line, as pairs of a
priority and an id, and as a table from the ids to their priorities.  Both say the same
(`Backlog.agree`).

* **Offering** (`Backlog.offer`).  A new id is added; an id that is queued already keeps the better
  of its two priorities, for which its old pair leaves the line.  `Backlog.improves` says whether
  anything changes.
* **Order** (`Backlog.Place.order`).  Lower priorities come first, equal ones in the order of their
  ids.
* **Taking** (`Backlog.pop?`).  The first pair is taken off, and its id out of the table. -/

namespace ReadThrough

namespace Backlog

/-- Where an id stands in line. -/
abbrev Place := Priority × Id

/-- Places are ordered by their priorities first. -/
def Place.order : Place → Place → Ordering := compareLex (compareOn (·.1)) (compareOn (·.2))

instance : Std.TransCmp Place.order := by
  unfold Place.order
  infer_instance

instance : Std.LawfulEqCmp Place.order where
  eq_of_compare {x y} h := by
    simp only [Place.order, compareLex_eq_eq, compareOn] at h
    exact Prod.ext (Std.LawfulEqOrd.eq_of_compare h.1) (Std.LawfulEqOrd.eq_of_compare h.2)

theorem Place.order_eq_iff {x y : Place} : Place.order x y = .eq ↔ x = y :=
  Std.LawfulEqCmp.compare_eq_iff_eq

/-- A line and a table say the same. -/
def Agree (line : Std.ExtTreeSet Place Place.order) (scores : Std.ExtTreeMap Id Priority) : Prop :=
  ∀ p id, (p, id) ∈ line ↔ scores[id]? = some p

variable {line : Std.ExtTreeSet Place Place.order} {scores : Std.ExtTreeMap Id Priority}
  {p : Priority} {id : Id}

theorem Agree.empty : Agree ∅ ∅ := by
  simp [Agree]

theorem Agree.erase (h : Agree line scores) (hp : (p, id) ∈ line) :
    Agree (line.erase (p, id)) (scores.erase id) := by
  have hs : scores[id]? = some p := (h p id).mp hp
  intro q j
  rw [Std.ExtTreeSet.mem_erase, Ne, Place.order_eq_iff, h, Std.ExtTreeMap.getElem?_erase]
  by_cases hj : id = j
  · subst hj
    simp [hs]
  · simp [hj]

/-- The line of a table that has a new id. -/
theorem Agree.insert (h : Agree line (scores.erase id)) (p : Priority) :
    Agree (line.insert (p, id)) (scores.insert id p) := by
  intro q j
  rw [Std.ExtTreeSet.mem_insert, Place.order_eq_iff, h, Std.ExtTreeMap.getElem?_insert,
    Std.ExtTreeMap.getElem?_erase]
  by_cases hj : id = j
  · subst hj
    simp
  · simp [hj]

end Backlog

/-- Queued ids and their priorities. -/
structure Backlog where
  /-- The queued ids behind their priorities, the next one to be taken first. -/
  line : Std.ExtTreeSet Backlog.Place Backlog.Place.order := ∅
  /-- The priority of every queued id. -/
  scores : Std.ExtTreeMap Id Priority := ∅
  agree : Backlog.Agree line scores := by exact Backlog.Agree.empty
deriving DecidableEq

namespace Backlog

instance : Inhabited Backlog := ⟨{}⟩

/-- The priority under which an id is queued. -/
def priority? (b : Backlog) (id : Id) : Option Priority := b.scores[id]?

/-- Whether asking for `id` at priority `p` changes the backlog. -/
def improves (b : Backlog) (id : Id) (p : Priority) : Bool :=
  match b.priority? id with
  | some old => p < old
  | none => true

/-- The line without the place of an id. -/
def others (b : Backlog) (id : Id) : Std.ExtTreeSet Place Place.order :=
  match b.priority? id with
  | some old => b.line.erase (old, id)
  | none => b.line

theorem agree_others (b : Backlog) (id : Id) : Agree (b.others id) (b.scores.erase id) := by
  unfold others priority?
  cases hs : b.scores[id]? with
  | some old => exact b.agree.erase ((b.agree old id).mpr hs)
  | none =>
      intro q j
      rw [b.agree, Std.ExtTreeMap.getElem?_erase]
      by_cases hj : id = j
      · subst hj
        simp [hs]
      · simp [hj]

/-- Ask for `id` at priority `p`. -/
def offer (b : Backlog) (id : Id) (p : Priority) : Backlog :=
  if b.improves id p then
    { line := (b.others id).insert (p, id)
      scores := b.scores.insert id p
      agree := (b.agree_others id).insert p }
  else b

/-- The number of queued ids. -/
def size (b : Backlog) : Nat := b.line.size

/-- The entries, the next one to be taken first. -/
def ordered (b : Backlog) : List (Id × Priority) := b.line.toList.map Prod.swap

/-- The first `n` ids. -/
def ids (b : Backlog) (n : Nat) : List Id := (b.ordered.take n).map (·.1)

theorem mem_of_toList {b : Backlog} {x : Place} {xs : List Place} (h : b.line.toList = x :: xs) :
    x ∈ b.line :=
  Std.ExtTreeSet.mem_toList.mp (h ▸ List.mem_cons_self)

/-- Take the first entry off. -/
def pop? (b : Backlog) : Option (Claim × Backlog) :=
  match h : b.line.toList with
  | [] => none
  | (p, id) :: _ =>
    let rest : Backlog :=
      { line := b.line.erase (p, id)
        scores := b.scores.erase id
        agree := b.agree.erase (mem_of_toList h) }
    some (⟨id, p, rest.size⟩, rest)

/-- Asking again keeps the better priority. -/
theorem priority?_offer (b : Backlog) (id j : Id) (p : Priority) :
    (b.offer id p).priority? j =
      if j = id then some (match b.priority? id with | some old => min old p | none => p)
      else b.priority? j := by
  unfold offer improves priority?
  grind

end Backlog

end ReadThrough
