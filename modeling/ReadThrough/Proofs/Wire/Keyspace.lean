import Mathlib.Data.Finset.Sort
import ReadThrough.Proofs.Wire.Server

/-! # A keyspace

A small server that does what is documented: its state says what every key holds at any time, and
what was published.

* **Commands** (`Keyspace.perform`).  Each of the commands that need no script is performed; a key
  of the wrong kind and an expiry beyond the clock are refused, and nothing is changed then.
* **Main statement** (`Keyspace.documented`).  The server keeps all promises of
  `Server.Documented`. -/

namespace ReadThrough.Wire

/-- What every key holds at any time, and what was published. -/
structure Keyspace where
  held : Instant → Bytes → Option Held := fun _ _ => none
  published : List (Bytes × Bytes) := []

namespace Keyspace

/-- Let a key hold something from now on. -/
def put (s : Keyspace) (key : String) (content : Instant → Option Held) : Keyspace :=
  { s with held := fun t other => if other = Utf8.bytes key then content t else s.held t other }

/-- The refusal of a command that is about another kind of content. -/
def wrongKind : Reply :=
  .refusal ⟨"WRONGTYPE", some "Operation against a key holding the wrong kind of value"⟩

/-- The refusal of an expiry that the clock cannot name. -/
def wrongExpiry : Reply := .refusal ⟨"ERR", some "invalid expire time in 'psetex' command"⟩

/-- The refusal of everything else. -/
def unknown : Reply := .refusal ⟨"ERR", some "unknown command"⟩

/-- Perform one command, at a server with the clock `epoch`. -/
def perform (epoch : Nat) (now : Instant) (s : Keyspace) (c : Command) : Reply × Keyspace :=
  let held (key : String) := s.held now (Utf8.bytes key)
  match c with
  | .get key =>
    match held key with
    | none => (.nothing, s)
    | some (.string bytes) => (.bulk bytes, s)
    | some _ => (wrongKind, s)
  | .has key => (.integer (if (held key).isSome then 1 else 0), s)
  | .members key =>
    match held key with
    | none => (.list [], s)
    | some (.set m) => (.list ((m.sort fun x y => x ≤ y).map .bulk), s)
    | some _ => (wrongKind, s)
  | .range key first last =>
    match held key with
    | none => (.list [], s)
    | some (.ranked z) => (.list (((z.line.take (last + 1)).drop first).map fun x => .bulk x.1), s)
    | some _ => (wrongKind, s)
  | .size key =>
    match held key with
    | none => (.integer 0, s)
    | some (.ranked z) => (.integer z.line.length, s)
    | some _ => (wrongKind, s)
  | .set key bytes => (.status "OK", s.put key fun _ => some (.string bytes))
  | .setFor key millis text =>
    if 0 < millis ∧ epoch + now.millis + millis ≤ maxInteger then
      (.status "OK", s.put key fun t =>
        if t < now + (Duration.ofMillis millis).nanos then some (.string (Utf8.bytes text)) else none)
    else (wrongExpiry, s)
  | .del key => (.integer (if (held key).isSome then 1 else 0), s.put key fun _ => none)
  | .removeMember key member =>
    let left := s.put key fun t =>
      (s.held t (Utf8.bytes key)).bind (Held.without (Utf8.bytes member))
    match held key with
    | none => (.integer 0, left)
    | some (.set m) => (.integer (if Utf8.bytes member ∈ m then 1 else 0), left)
    | some _ => (wrongKind, s)
  | .publish channel message =>
    (.integer 0, { s with published := s.published ++ [(Utf8.bytes channel, Utf8.bytes message)] })
  | .ping => (.status "PONG", s)
  | _ => (unknown, s)

/-- Perform commands one after the other. -/
def performAll (epoch : Nat) (now : Instant) (s : Keyspace) : List Command → List Reply × Keyspace
  | [] => ([], s)
  | c :: cs =>
    let (reply, s) := s.perform epoch now c
    let (replies, s) := s.performAll epoch now cs
    (reply :: replies, s)

/-- The reply to the last one of some commands: a transaction, or commands on their own. -/
def answer (epoch : Nat) (now : Instant) (s : Keyspace) (cs : List Command) : Reply × Keyspace :=
  match cs with
  | .multi :: rest =>
    let (replies, s) := s.performAll epoch now rest.dropLast
    (.list replies, s)
  | cs =>
    let (replies, s) := s.performAll epoch now cs
    (replies.getLast?.getD .nothing, s)

/-- The keyspace as a server. -/
def server (epoch : Nat) : Server Keyspace where
  held := held
  published := published
  epoch
  answer now s cs := s.answer epoch now cs

variable {epoch : Nat} {now : Instant} {s : Keyspace}

@[simp] theorem server_held : (server epoch).held = held := rfl

/-- One command that starts no transaction is performed. -/
theorem answer_one {c : Command} (hc : c ≠ .multi) :
    (server epoch).answer now s [c] = s.perform epoch now c := by
  cases c
  case multi => exact absurd rfl hc
  all_goals rfl

theorem reply_eq {c : Command} (hc : c ≠ .multi) :
    (server epoch).reply now s c = (s.perform epoch now c).1 :=
  congrArg Prod.fst (answer_one hc)

theorem next_eq {c : Command} (hc : c ≠ .multi) :
    (server epoch).next now s c = (s.perform epoch now c).2 :=
  congrArg Prod.snd (answer_one hc)

theorem sequence_eq {cs : List Command} (h : ∀ c ∈ cs, c.queues = true) :
    (server epoch).sequence now s cs = s.performAll epoch now cs := by
  induction cs generalizing s with
  | nil => rfl
  | cons c cs ih =>
      have hc : c ≠ .multi := by
        rintro rfl
        exact absurd (h _ List.mem_cons_self) Bool.false_ne_true
      have hrest : (server epoch).sequence now (s.perform epoch now c).2 cs =
          (s.perform epoch now c).2.performAll epoch now cs :=
        ih fun d hd => h d (List.mem_cons_of_mem c hd)
      simp only [Server.sequence, performAll, reply_eq hc, next_eq hc, hrest]

/-- A question changes nothing. -/
theorem perform_asks {c : Command} (h : c.asks = true) : (s.perform epoch now c).2 = s := by
  cases c with
  | has key => rfl
  | get key | members key | range key | size key =>
      unfold perform
      dsimp only
      split <;> rfl
  | _ => cases h

theorem reply_of_perform {c : Command} {r : Reply} (hc : c ≠ .multi)
    (h : (s.perform epoch now c).1 = r) : (server epoch).reply now s c = r :=
  (reply_eq hc).trans h

/-- What it means for the server that a command puts something under a key. -/
theorem writes_of_put {c : Command} {r : Reply} {key : String} {content : Instant → Option Held}
    (hc : c ≠ .multi) (h : s.perform epoch now c = (r, s.put key content)) :
    (server epoch).reply now s c = r ∧
      (server epoch).Writes now key content s ((server epoch).next now s c) := by
  rw [reply_eq hc, next_eq hc, h]
  exact ⟨rfl, fun _ _ _ => rfl, rfl⟩

/-- **The keyspace does what is documented.** -/
theorem documented (epoch : Nat) : (server epoch).Documented where
  asks now s c h := by
    have hc : c ≠ .multi := by
      rintro rfl
      cases h
    rw [next_eq hc, perform_asks h]
    exact ⟨fun _ _ _ => rfl, rfl⟩
  get now s key bytes h := by
    rw [server_held] at h
    refine reply_of_perform nofun ?_
    cases bytes <;> simp [perform, h]
  has now s key := rfl
  members now s key m h := by
    rw [server_held] at h
    refine ⟨m.sort fun x y => x ≤ y, m.sort_nodup _, m.sort_toFinset _, reply_of_perform nofun ?_⟩
    rcases Held.ofSet_cases m with ⟨rfl, hm⟩ | hm <;> simp [perform, h, hm]
  range now s key z first last h _ _ := by
    rw [server_held] at h
    refine reply_of_perform nofun ?_
    rcases Held.ofRanking_cases z with ⟨hz, hr⟩ | hr
    · simp [perform, h, hr, hz]
    · simp [perform, h, hr]
  size now s key z h := by
    rw [server_held] at h
    refine reply_of_perform nofun ?_
    rcases Held.ofRanking_cases z with ⟨hz, hr⟩ | hr
    · simp [perform, h, hr, hz]
    · simp [perform, h, hr]
  set now s key bytes := writes_of_put nofun rfl
  setFor now s key millis text hpos hnames := writes_of_put nofun (if_pos ⟨hpos, hnames⟩)
  del now s key := writes_of_put nofun rfl
  removeMember now s key member m h := by
    rw [server_held] at h
    refine writes_of_put nofun ?_
    rcases Held.ofSet_cases m with ⟨rfl, hm⟩ | hm <;> simp [perform, h, hm]
  publish now s channel message := ⟨⟨0, rfl⟩, fun _ _ _ => rfl, rfl⟩
  transaction now s cs h := by
    rw [sequence_eq h]
    unfold server Command.atomic answer
    simp only [List.dropLast_concat]

end Keyspace

end ReadThrough.Wire
