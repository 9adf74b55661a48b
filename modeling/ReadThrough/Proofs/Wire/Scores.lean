import ReadThrough.Proofs.Binary.Integers
import ReadThrough.Proofs.Text.Utf8
import ReadThrough.Wire.Remote

/-! # Priorities and scores

A claim is answered with an id, a score and the number of entries left, all of them as texts.

* **Replies.**  A reply that reads as texts refuses nothing (`Reply.refusal?_of_texts`), and a claim
  gets the reply to its script, also if the script had to be loaded first (`Talk.Called`,
  `Talk.run_script`).
* **Scores** (`Remote.readBack`).  The priority that comes back from the decimal text of a priority
  (`Remote.readClaim_texts`).  Reading back keeps the order, does not leave the range of priorities,
  and changes nothing up to `Priority.maxExact`.
* **Main statement** (`Remote.priorities_survive`).  What a claim reads, for all priorities, ids and
  numbers of entries. -/

namespace ReadThrough.Wire

/-! ### Replies -/

namespace Reply

theorem refusal?_of_text {r : Reply} {s : String} (h : r.text = .ok s) : r.refusal? = none := by
  cases r with
  | refusal reason => cases h
  | list items => cases h
  | _ => rfl

theorem refusalIn?_of_texts {items : List Reply} {ss : List String}
    (h : items.mapM text = .ok ss) : refusalIn? items = none := by
  induction items generalizing ss with
  | nil => rfl
  | cons r items ih =>
      rw [List.mapM_cons] at h
      cases hr : r.text with
      | error e => rw [hr] at h; cases h
      | ok s =>
          cases hs : items.mapM text with
          | error e => rw [hr, hs] at h; cases h
          | ok ss => rw [refusalIn?, refusal?_of_text hr, ih hs]; rfl

/-- A reply that reads as texts refuses nothing. -/
theorem refusal?_of_texts {r : Reply} {ss : List String} (h : r.texts = .ok ss) :
    r.refusal? = none := by
  cases r with
  | refusal reason => cases h
  | list items => exact refusalIn?_of_texts h
  | _ => rfl

end Reply

namespace Talk

variable {σ α : Type} (answer : σ → List Command → Reply × σ) (sc : Script)
  (keys args : List String)

/-- The reply to the call of a script.  A server that does not know the script is sent its text, and
then the call once more. -/
inductive Called (s : σ) : Reply → σ → Prop
  | known {reply : Reply} {s' : σ} (call : answer s [.run sc keys args] = (reply, s')) :
      Called s reply s'
  | unknown {first loaded reply : Reply} {r : Refusal} {s₁ s₂ s₃ : σ}
      (call : answer s [.run sc keys args] = (first, s₁)) (refused : first.refusal? = some r)
      (unknown : r.isUnknownScript = true) (load : answer s₁ [.load sc] = (loaded, s₂))
      (taken : loaded.refusal? = none)
      (again : answer s₂ [.run sc keys args] = (reply, s₃)) : Called s reply s₃

variable {answer sc keys args} {s s' : σ} {reply : Reply}

/-- A script brings what the reply to its call is read as. -/
theorem run_script (h : Called answer sc keys args s reply s') (hr : reply.refusal? = none)
    (read : Reply → Except Error α) :
    (script sc keys args read).run answer s = (read reply, s') := by
  cases h with
  | known call => simp only [script, run, call, hr]
  | unknown call refused unknown load taken again =>
      simp only [script, run, call, refused, unknown, single, exchange, bind, onEnd, load, taken,
        again, hr, if_true]

end Talk

namespace Remote

/-! ### Scores -/

/-- The priority that the score of a priority is read back as. -/
def readBack (p : Int64) : Int64 :=
  Int64.ofInt ((Binary.double.ofInt p.toInt).truncate priorityRange.1 priorityRange.2)

theorem ofInt_ne_nan (p : ℤ) : Binary.double.ofInt p ≠ .nan :=
  Binary.Format.round_ne_nan Binary.Format.double_regular _ Nat.one_pos

theorem mem_priorityRange (p : Int64) :
    priorityRange.1 ≤ p.toInt ∧ p.toInt ≤ priorityRange.2 :=
  ⟨p.minValue_le_toInt, p.toInt_le⟩

theorem toInt_readBack (p : Int64) :
    (readBack p).toInt =
      (Binary.double.ofInt p.toInt).truncate priorityRange.1 priorityRange.2 := by
  obtain ⟨hlo, hhi⟩ := Binary.truncate_mem (ofInt_ne_nan p.toInt)
    (show priorityRange.1 ≤ priorityRange.2 by decide)
  exact Int64.toInt_ofInt_of_le hlo (Int.lt_add_one_of_le hhi)

/-- A greater priority is not read back as a lesser one. -/
theorem readBack_mono {p q : Int64} (h : p ≤ q) : readBack p ≤ readBack q := by
  rw [Int64.le_iff_toInt_le, toInt_readBack, toInt_readBack]
  exact Binary.truncate_mono (ofInt_ne_nan _) (ofInt_ne_nan _) (by decide)
    (Binary.rank_ofInt_mono Binary.Format.double_regular (Int64.le_iff_toInt_le.mp h))

/-- A priority that a double can hold in full is read back as it is. -/
theorem readBack_exact {p : Int64} (hp : p.toInt.natAbs ≤ Priority.maxExact) : readBack p = p := by
  obtain ⟨hlo, hhi⟩ := mem_priorityRange p
  rw [← Int64.toInt_inj, toInt_readBack]
  exact Binary.truncate_of_rank_intCast (Binary.rank_ofInt hp) hlo hhi

theorem readBack_minValue : readBack Int64.minValue = Int64.minValue := by decide +kernel

theorem readBack_maxValue : readBack Int64.maxValue = Int64.maxValue := by decide +kernel

/-- No priority is read back as one far away from it. -/
theorem abs_readBack_sub_le (p : Int64) : |(readBack p).toInt - p.toInt| ≤ 512 := by
  obtain ⟨hlo, hhi⟩ := mem_priorityRange p
  rcases eq_or_ne p Int64.minValue with rfl | hmin
  · rw [readBack_minValue, sub_self]
    decide
  · have hlt : p.toInt.natAbs < 2 ^ 63 := by
      have hne : p.toInt ≠ Int64.minValue.toInt := fun h => hmin (Int64.toInt_inj.mp h)
      have hmv : Int64.minValue.toInt = -2 ^ 63 := rfl
      have h1 := p.le_toInt
      have h2 := p.toInt_lt
      omega
    obtain ⟨x, hx, hclose⟩ := Binary.exists_rank_ofInt hlt
    rw [toInt_readBack]
    exact Binary.abs_truncate_sub_le hx (by exact_mod_cast hclose) hlo hhi

/-! ### Claims -/

theorem readPriority_decimal (id : Id) (p : Int64) :
    readPriority id (Text.decimalText p.toInt) = .ok (readBack p).toInt := by
  have hlen : (Nat.toDigits 10 p.toInt.natAbs).length ≤ 20 := by
    rw [Nat.length_toDigits_le_iff (by decide) (by decide)]
    have h1 := p.le_toInt
    have h2 := p.toInt_lt
    omega
  unfold readPriority
  rw [Text.decimalText, String.toList_ofList,
    Binary.Format.ofText_decimal _ (hlen.trans (by decide)), toInt_readBack]

theorem readRemaining_decimal (n : UInt64) :
    readRemaining (Text.decimalText n.toNat) = .ok n.toNat := by
  have hn : n.toNat ≤ UInt64.size - 1 := Nat.le_pred_of_lt n.toNat_lt
  unfold readRemaining
  rw [Text.decimalText, String.toList_ofList, Text.readNat_decimal hn]

/-- A reply of an id, a priority and a number of entries is read as a claim of them. -/
theorem readClaim_texts {reply : Reply} {id : Id} {p : Int64} {n : UInt64}
    (h : reply.texts = .ok [id, Text.decimalText p.toInt, Text.decimalText n.toNat]) :
    readClaim reply = .ok (some ⟨id, (readBack p).toInt, n.toNat⟩) := by
  unfold readClaim
  rw [h]
  show (readPriority id _ >>= _) = _
  rw [readPriority_decimal]
  show (readRemaining _ >>= _) = _
  rw [readRemaining_decimal]
  rfl

/-- **Priorities survive their scores.**  Whatever the id and the number of entries are, a claim
reads the decimal text of a priority as a priority.  It is the same one up to
`Priority.maxExact`.  Over the whole range the order is kept, both ends stay where they are, and no
priority is moved by more than 512, half the distance of the doubles near the ends. -/
theorem priorities_survive :
    ∃ read : Int64 → Int64,
      (∀ {σ : Type} (answer : σ → List Command → Reply × σ) (k : Keys) (s s' : σ) (reply : Reply)
          (id : Id) (p : Int64) (n : UInt64),
        Talk.Called answer .dequeue [k.queue, k.inProgress] [] s reply s' →
        reply.texts = .ok [id, Text.decimalText p.toInt, Text.decimalText n.toNat] →
        (dequeue k).run answer s = (.ok (some ⟨id, (read p).toInt, n.toNat⟩), s')) ∧
      (∀ p : Int64, p.toInt.natAbs ≤ Priority.maxExact → read p = p) ∧
      (∀ p q : Int64, p ≤ q → read p ≤ read q) ∧
      read Int64.minValue = Int64.minValue ∧ read Int64.maxValue = Int64.maxValue ∧
      ∀ p : Int64, |(read p).toInt - p.toInt| ≤ 512 := by
  refine ⟨readBack, ?_, fun p => readBack_exact, fun p q => readBack_mono, readBack_minValue,
    readBack_maxValue, abs_readBack_sub_le⟩
  intro σ answer k s s' reply id p n hcall htexts
  unfold dequeue
  rw [Talk.run_script hcall (Reply.refusal?_of_texts htexts), readClaim_texts htexts]

/-- A server that is sent the script first and then answers each call with one score. -/
def oneScore (score : String) (known : Bool) : List Command → Reply × Bool
  | [.load _] => (.status "OK", true)
  | _ =>
    if known then (.list (["x", score, "3"].map fun s => .bulk (Utf8.bytes s)), true)
    else (.refusal ⟨"NOSCRIPT", none⟩, false)

/-- The greatest priority that is safe comes back, and the greatest one of all as one that is not
less. -/
theorem greatest_priorities_survive :
    (dequeue ⟨"q"⟩).run (oneScore "9007199254740992") false =
        (.ok (some ⟨"x", 9007199254740992, 3⟩), true) ∧
      ∃ v : Int64, 9007199254740992 ≤ v.toInt ∧
        (dequeue ⟨"q"⟩).run (oneScore "9223372036854775807") true =
          (.ok (some ⟨"x", v.toInt, 3⟩), true) := by
  obtain ⟨read, hread, hexact, hmono, -⟩ := priorities_survive
  have hsafe : read 9007199254740992 = 9007199254740992 := hexact _ (by decide)
  refine ⟨?_, read Int64.maxValue, ?_, ?_⟩
  · have h := hread (oneScore "9007199254740992") ⟨"q"⟩ false true _ "x" 9007199254740992 3
      (.unknown rfl rfl (by decide) rfl rfl rfl) (by decide +kernel)
    rwa [hsafe] at h
  · have h := hmono 9007199254740992 Int64.maxValue (by decide)
    rwa [hsafe, Int64.le_iff_toInt_le] at h
  · exact hread (oneScore "9223372036854775807") ⟨"q"⟩ true true _ "x" Int64.maxValue 3
      (.known rfl) (by decide +kernel)

end Remote

end ReadThrough.Wire
