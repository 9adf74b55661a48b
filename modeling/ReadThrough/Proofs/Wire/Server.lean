import Mathlib.Data.Finset.Dedup
import ReadThrough.Proofs.Binary.Order
import ReadThrough.Wire.Talk

/-! # A store server

What the documentation of a store server promises about the commands that need no script.

* **Contents** (`Held`).  All keys live in one keyspace, and a key holds a string, a set or a sorted
  set.  What it holds can depend on the time, since a string can be set to disappear.
* **Servers** (`Server`).  A server has states and answers commands.  Of a state only what its keys
  hold from now on and what was published so far can be told.
* **Promises** (`Server.Documented`), one for each command.  A question changes nothing
  (`Server.Keeps`), a write changes one key (`Server.Writes`).
* **Conversations.**  One command gets its reply (`Server.run_single`), and a transaction gets the
  replies that its commands get one after the other (`Server.run_atomic`). -/

namespace ReadThrough.Wire

/-! ### Contents -/

/-- The greatest integer that a server can count to. -/
def maxInteger : Nat := Int64.maxValue.toNatClampNeg

/-- One member of a sorted set comes before another: its score is less, or equal and its bytes come
first. -/
def Before (x y : Bytes × Binary) : Prop :=
  x.2.rank < y.2.rank ∨ x.2.rank = y.2.rank ∧ x.1 < y.1

/-- A sorted set. -/
structure Ranking where
  /-- The members with their scores, in order. -/
  line : List (Bytes × Binary)
  ordered : line.Pairwise Before
  /-- No member is there twice. -/
  distinct : (line.map (·.1)).Nodup
  countable : line.length ≤ maxInteger

/-- What a key can hold. -/
inductive Held where
  | string (bytes : Bytes)
  | set (members : Finset Bytes)
  | ranked (ranking : Ranking)
  /-- Something of another kind. -/
  | other

namespace Held

/-- What is held for a set: nothing if it has no members. -/
def ofSet (members : Finset Bytes) : Option Held :=
  if members = ∅ then none else some (set members)

/-- What is held for a sorted set: nothing if it has no members. -/
def ofRanking (z : Ranking) : Option Held :=
  if z.line = [] then none else some (ranked z)

/-- What is left when a member is removed from a set. -/
def without (member : Bytes) : Held → Option Held
  | set members => ofSet (members.erase member)
  | held => some held

theorem ofSet_cases (m : Finset Bytes) :
    m = ∅ ∧ ofSet m = none ∨ ofSet m = some (set m) := by
  unfold ofSet
  by_cases h : m = ∅
  · exact Or.inl ⟨h, if_pos h⟩
  · exact Or.inr (if_neg h)

theorem ofRanking_cases (z : Ranking) :
    z.line = [] ∧ ofRanking z = none ∨ ofRanking z = some (ranked z) := by
  unfold ofRanking
  by_cases h : z.line = []
  · exact Or.inl ⟨h, if_pos h⟩
  · exact Or.inr (if_neg h)

theorem ofSet_bind_without (m : Finset Bytes) (member : Bytes) :
    (ofSet m).bind (without member) = ofSet (m.erase member) := by
  rcases ofSet_cases m with ⟨rfl, h⟩ | h <;> rw [h] <;> rfl

end Held

namespace Command

/-- Commands that only look at a key. -/
def asks : Command → Bool
  | get _ => true
  | has _ => true
  | members _ => true
  | range .. => true
  | size _ => true
  | _ => false

/-- Commands that do in a transaction what they do alone. -/
def queues : Command → Bool
  | multi => false
  | exec => false
  | takeFirst .. => false
  | subscribe _ => false
  | _ => true

end Command

/-- Replies that are no refusals have none among them. -/
theorem Reply.refusalIn?_eq_none {l : List Reply} (h : ∀ r ∈ l, r.refusal? = none) :
    refusalIn? l = none := by
  induction l with
  | nil => rfl
  | cons r l ih =>
      rw [refusalIn?, h r List.mem_cons_self, ih fun q hq => h q (List.mem_cons_of_mem r hq)]
      rfl

/-! ### Servers -/

/-- A store server with states `σ`, as far as its clients can tell. -/
structure Server (σ : Type) where
  /-- What a key holds at some time if nothing happens until then. -/
  held : σ → Instant → Bytes → Option Held
  /-- The messages that were published so far, each behind its channel. -/
  published : σ → List (Bytes × Bytes)
  /-- The milliseconds that the clock of the server shows at the start of the run. -/
  epoch : Nat
  /-- The reply to the last one of some commands that are sent together. -/
  answer : Instant → σ → List Command → Reply × σ

namespace Server

variable {σ : Type} (S : Server σ)

/-- The clock of the server can name the moment that comes some milliseconds from now. -/
def Names (now : Instant) (millis : Nat) : Prop := S.epoch + now.millis + millis ≤ maxInteger

/-- The reply to one command. -/
def reply (now : Instant) (s : σ) (c : Command) : Reply := (S.answer now s [c]).1

/-- The state after one command. -/
def next (now : Instant) (s : σ) (c : Command) : σ := (S.answer now s [c]).2

/-- The replies to commands that come one after the other, and the state after them. -/
def sequence (now : Instant) (s : σ) : List Command → List Reply × σ
  | [] => ([], s)
  | c :: cs =>
    let (replies, s') := sequence now (S.next now s c) cs
    (S.reply now s c :: replies, s')

/-- Nothing has happened that clients could tell. -/
structure Keeps (now : Instant) (s s' : σ) : Prop where
  held : ∀ t, now ≤ t → ∀ key, S.held s' t key = S.held s t key
  published : S.published s' = S.published s

/-- From now on a key holds `content`, and nothing else has happened. -/
structure Writes (now : Instant) (key : String) (content : Instant → Option Held)
    (s s' : σ) : Prop where
  held : ∀ t, now ≤ t → ∀ other,
    S.held s' t other = if other = Utf8.bytes key then content t else S.held s t other
  published : S.published s' = S.published s

/-- What is documented about the commands of a server. -/
structure Documented : Prop where
  /-- Questions change nothing. -/
  asks (now : Instant) (s : σ) (c : Command) :
    c.asks = true → S.Keeps now s (S.next now s c)
  /-- `GET` replies with a string, or with nothing if there is none. -/
  get (now : Instant) (s : σ) (key : String) (bytes : Option Bytes) :
    S.held s now (Utf8.bytes key) = bytes.map Held.string →
      S.reply now s (.get key) = bytes.elim .nothing .bulk
  /-- `EXISTS` replies with the number of keys that hold something. -/
  has (now : Instant) (s : σ) (key : String) :
    S.reply now s (.has key) =
      .integer (if (S.held s now (Utf8.bytes key)).isSome then 1 else 0)
  /-- `SMEMBERS` lists the members of a set, in any order. -/
  members (now : Instant) (s : σ) (key : String) (m : Finset Bytes) :
    S.held s now (Utf8.bytes key) = Held.ofSet m →
      ∃ l : List Bytes, l.Nodup ∧ l.toFinset = m ∧
        S.reply now s (.members key) = .list (l.map .bulk)
  /-- `ZRANGE` lists the members of a sorted set in order, from one rank to another one, both of
  them included, as far as there are any. -/
  range (now : Instant) (s : σ) (key : String) (z : Ranking) (first last : Nat) :
    S.held s now (Utf8.bytes key) = Held.ofRanking z → first ≤ maxInteger → last ≤ maxInteger →
      S.reply now s (.range key first last) =
        .list (((z.line.take (last + 1)).drop first).map fun x => .bulk x.1)
  /-- `ZCARD` replies with the number of members of a sorted set. -/
  size (now : Instant) (s : σ) (key : String) (z : Ranking) :
    S.held s now (Utf8.bytes key) = Held.ofRanking z →
      S.reply now s (.size key) = .integer z.line.length
  /-- `SET` writes a string that stays. -/
  set (now : Instant) (s : σ) (key : String) (bytes : Bytes) :
    S.reply now s (.set key bytes) = .status "OK" ∧
      S.Writes now key (fun _ => some (.string bytes)) s (S.next now s (.set key bytes))
  /-- `PSETEX` writes a string that is gone from some milliseconds on. -/
  setFor (now : Instant) (s : σ) (key : String) (millis : Nat) (text : String) :
    0 < millis → S.Names now millis →
      S.reply now s (.setFor key millis text) = .status "OK" ∧
        S.Writes now key
          (fun t => if t < now + (Duration.ofMillis millis).nanos then some (.string (Utf8.bytes text))
            else none)
          s (S.next now s (.setFor key millis text))
  /-- `DEL` leaves nothing under a key, and replies with the number of keys that held something. -/
  del (now : Instant) (s : σ) (key : String) :
    S.reply now s (.del key) =
        .integer (if (S.held s now (Utf8.bytes key)).isSome then 1 else 0) ∧
      S.Writes now key (fun _ => none) s (S.next now s (.del key))
  /-- `SREM` removes a member from a set, and replies with the number of members removed. -/
  removeMember (now : Instant) (s : σ) (key member : String) (m : Finset Bytes) :
    S.held s now (Utf8.bytes key) = Held.ofSet m →
      S.reply now s (.removeMember key member) =
          .integer (if Utf8.bytes member ∈ m then 1 else 0) ∧
        S.Writes now key
          (fun t => (S.held s t (Utf8.bytes key)).bind (Held.without (Utf8.bytes member)))
          s (S.next now s (.removeMember key member))
  /-- `PUBLISH` sends a message to a channel, and replies with the number of those who get it. -/
  publish (now : Instant) (s : σ) (channel message : String) :
    (∃ n : Nat, S.reply now s (.publish channel message) = .integer n) ∧
      (∀ t, now ≤ t → ∀ key,
        S.held (S.next now s (.publish channel message)) t key = S.held s t key) ∧
      S.published (S.next now s (.publish channel message)) =
        S.published s ++ [(Utf8.bytes channel, Utf8.bytes message)]
  /-- The commands between `MULTI` and `EXEC` run one after the other, and the reply to `EXEC` is the
  list of their replies. -/
  transaction (now : Instant) (s : σ) (cs : List Command) :
    (∀ c ∈ cs, c.queues = true) →
      S.answer now s (Command.atomic cs) =
        (.list (S.sequence now s cs).1, (S.sequence now s cs).2)

/-! ### Conversations -/

variable {S} {now : Instant} {s s' t : σ} {α : Type}

theorem Keeps.trans (h : S.Keeps now s s') (h' : S.Keeps now s' t) : S.Keeps now s t :=
  ⟨fun u hu key => (h'.held u hu key).trans (h.held u hu key), h'.published.trans h.published⟩

/-- A command that is not refused is read by its reply. -/
theorem run_single {c : Command} {read : Reply → Except Error α}
    (hr : (S.reply now s c).refusal? = none) :
    (Talk.single c read).run (S.answer now) s = (read (S.reply now s c), S.next now s c) := by
  unfold reply at hr
  simp only [Talk.single, Talk.exchange, Talk.run, hr, reply, next]

/-- Commands of a transaction that are not refused are read by the list of their replies. -/
theorem run_atomic (hS : S.Documented) {cs : List Command} {read : Reply → Except Error α}
    (hq : ∀ c ∈ cs, c.queues = true)
    (hr : ∀ r ∈ (S.sequence now s cs).1, r.refusal? = none) :
    (Talk.atomic cs read).run (S.answer now) s =
      (read (.list (S.sequence now s cs).1), (S.sequence now s cs).2) := by
  have hn : (Reply.list (S.sequence now s cs).1).refusal? = none := by
    unfold Reply.refusal?
    exact Reply.refusalIn?_eq_none hr
  simp only [Talk.atomic, Talk.exchange, Talk.run, hS.transaction now s cs hq, hn,
    Talk.transactionReply]

end Server

end ReadThrough.Wire
