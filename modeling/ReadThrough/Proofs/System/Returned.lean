import ReadThrough.Proofs.Codec
import ReadThrough.Proofs.System.Agreement
import ReadThrough.Proofs.System.Lapses

/-! # Returned values

What becomes of a value that a computation returned and a worker wrote (`returned_values`).  Its
bytes are stored for ever, so whoever asks for the id gets what these bytes are decoded to, whether
that is the value or not:

* **Numbers.**  A number that is not finite is stored all the same, and its id answers every caller
  with an error from then on.  A finite number is answered with the number that is reread.
* **Values of JSON.**  The same holds for a value that is deeper than the reader goes.  Any other
  value is answered with its numbers as they are reread.

In runs in which only the worker pools complete nothing replaces a value (`Step.stored`), so there
is no way back. -/

namespace ReadThrough.System

open Json

variable {s : System} {q : String} {id : Id} {α : Type}

/-- A value is stored for the id, and decoding it gives `r`, for every caller who got it too. -/
structure Presents (q : String) (id : Id) (c : Codec α) (r : Except Error α) (s : System) :
    Prop where
  stored : ∃ bytes, s.Stored q id bytes ∧ c.decode bytes = r
  served : ∀ x ∈ s.calls, x.id = id → ∀ bytes, x.result? = some (.ok bytes) → c.decode bytes = r

theorem presents_of_stored {c : Codec α} {bytes : Bytes} (h : s.Truthful q)
    (hs : s.Stored q id bytes) : s.Presents q id c (c.decode bytes) := by
  refine ⟨⟨bytes, hs, rfl⟩, fun x hx hid b hb => ?_⟩
  have hv := h x hx b (Call.served_of_result? hb)
  rw [hid] at hv
  rw [Option.some.inj (hv.symm.trans hs)]

/-- A value that is written stays. -/
theorem stored_of_writes {as : List Action} (hr : run? {} as = some s)
    (ht : ∀ a ∈ as, Tended q a) {m : Moment} (hm : m ∈ moments {} as) {o : Nat × Nat} {t : Claim}
    {bytes : Bytes} (hw : m.Writes o t (.value bytes)) : s.Stored q t.id bytes := by
  obtain ⟨past, late, he⟩ := List.append_of_mem hm
  obtain ⟨bs, u, hb, -, hu, cs, rfl, hcs, -⟩ := exists_prefix hr he
  obtain ⟨hbs, ha⟩ := List.forall_mem_append.mp ht
  obtain ⟨ha, htail⟩ := List.forall_mem_cons.mp ha
  have hbefore := (run_kept hb hbs).1
  have hstored : u.Stored q t.id bytes := by
    unfold Stored
    rw [(step_of hu).store_of_writes hbefore.2.1 hw, Store.entry_complete, if_pos rfl]
    rfl
  exact (run_stored hcs htail ((step_of hu).kept ha hbefore) hstored).2

/-- Whatever is returned and encoded, callers get it read back. -/
theorem presents_of_returned {as : List Action} (hr : run? {} as = some s)
    (ht : ∀ a ∈ as, Tended q a) {m : Moment} (hm : m ∈ moments {} as) {o : Nat × Nat} {t : Claim}
    {ttl : Duration} (c : Codec α) {v : α} {bytes : Bytes} (hv : c.encode v = .ok bytes)
    (hw : m.Writes o t ((Computed.ofReturned c.encode v).completion ttl)) :
    s.Presents q t.id c (c.readBack v) := by
  have hread : c.readBack v = c.decode bytes := by
    unfold Codec.readBack
    rw [hv]
    rfl
  have hcompletion : (Computed.ofReturned c.encode v).completion ttl = .value bytes := by
    unfold Computed.ofReturned
    rw [hv]
    rfl
  rw [hcompletion] at hw
  rw [hread]
  exact presents_of_stored (run_kept hr ht).2.1 (stored_of_writes hr ht hm hw)

/-- **Returned values.**  Once a worker has written a returned number, callers get it as it is
reread: a number if and only if it was finite, and the number itself if its decimal is short.  Once
a worker has written a returned value of JSON, callers get it as it comes back: a value if and only
if it is no deeper than the reader goes, and the value itself if its numbers are short. -/
theorem returned_values {as : List Action} (hr : run? {} as = some s)
    (ht : ∀ a ∈ as, Tended q a) {m : Moment} (hm : m ∈ moments {} as) {o : Nat × Nat} {t : Claim}
    {ttl : Duration} :
    (∀ b, Binary.double.Has b →
      m.Writes o t ((Computed.ofReturned (Codec.json .double).encode b).completion ttl) →
      s.Presents q t.id (Codec.json .double) (Codec.ofRead (reread b)) ∧
        ((reread b).isSome = true ↔ b.isFinite = true) ∧ (Short b → reread b = some b)) ∧
    ∀ v : Json, v.Over Number.Valid →
      m.Writes o t ((Computed.ofReturned (Codec.json .any).encode v).completion ttl) →
      s.Presents q t.id (Codec.json .any)
          (Codec.ofRead (if v.depth ≤ maxDepth then some v.afresh else none)) ∧
        (v.Over (fun n => n.Valid ∧ n.Short) → v.afresh = v) := by
  refine ⟨fun b hb hw => ⟨?_, isSome_reread_iff hb, reread_of_short hb⟩,
    fun v hv hw => ⟨?_, afresh_eq fun _ => Number.afresh_of_short⟩⟩
  · rw [← Codec.readBack_double hb]
    exact presents_of_returned hr ht hm _ rfl hw
  · rw [← Codec.readBack_any hv]
    exact presents_of_returned hr ht hm _ rfl hw

/-- An id is wanted from a cache with a worker, and its computation ends with the given result. -/
def computedOnce (r : Computed) : List Action :=
  List.flatten [
    [.openCache { queue := "q", workers := 1 } true none, .get 0 "x" 0],
    .replicate 3 (.call 0 none), .replicate 7 (.loop 0 .advance none),
    .replicate 3 (.worker 0 0 .advance none), [.worker 0 0 (.computed r) none]]

/-- The result is written, and the id is wanted again. -/
def wantedTwice (r : Computed) : List Action :=
  computedOnce r ++ [.worker 0 0 .advance none, .get 0 "x" 0, .call 1 none]

/-- A number that is not finite. -/
def unwritten : Computed := .ofReturned (Codec.json .double).encode .nan

/-- An array within an array and so on. -/
def nest : ℕ → Json
  | 0 => .array []
  | n + 1 => .array [nest n]

theorem over_nest (P : Number → Prop) (n : ℕ) : (nest n).Over P := by
  induction n with
  | zero => exact .array fun _ h => (nomatch h)
  | succ n ih => exact .array fun v hv => List.mem_singleton.mp hv ▸ ih

/-- A value that is one level too deep. -/
def tooDeep : Computed := .ofReturned (Codec.json .any).encode (nest 127)

/-- The result of a computation is written in such a run. -/
theorem writes_wantedTwice {r : Computed}
    (hd : ((run? {} (wantedTwice r)).isSome &&
      decide ((run? {} (computedOnce r)).bind (·.worker? (0, 0)) =
        some (.writing ⟨"x", 0, 0⟩ (r.completion ⟨0⟩)))) = true) :
    ∃ s m, run? {} (wantedTwice r) = some s ∧ m ∈ moments {} (wantedTwice r) ∧
      m.Writes (0, 0) ⟨"x", 0, 0⟩ (r.completion ⟨0⟩) := by
  obtain ⟨hs, hw⟩ := Bool.and_eq_true_iff.mp hd
  obtain ⟨s, hs⟩ := Option.isSome_iff_exists.mp hs
  obtain ⟨u, hu, hw⟩ := Option.bind_eq_some_iff.mp (of_decide_eq_true hw)
  obtain ⟨u', v, hu', -, -, hm⟩ := moments_cut hs
  obtain rfl := Option.some.inj (hu.symm.trans hu')
  refine ⟨s, ⟨u, .worker 0 0 .advance none⟩, hs, ?_, rfl, hw⟩
  rw [wantedTwice, hm]
  exact List.mem_append_right _ List.mem_cons_self

theorem returned_values_unread :
    (∃ s m, run? {} (wantedTwice unwritten) = some s ∧
      (∀ a ∈ wantedTwice unwritten, Tended "q" a) ∧ m ∈ moments {} (wantedTwice unwritten) ∧
      m.Writes (0, 0) ⟨"x", 0, 0⟩ (unwritten.completion ⟨0⟩) ∧
      s.Presents "q" "x" (Codec.json .double) (.error Codec.malformed)) ∧
    ∃ s m, run? {} (wantedTwice tooDeep) = some s ∧
      (∀ a ∈ wantedTwice tooDeep, Tended "q" a) ∧ m ∈ moments {} (wantedTwice tooDeep) ∧
      m.Writes (0, 0) ⟨"x", 0, 0⟩ (tooDeep.completion ⟨0⟩) ∧
      s.Presents "q" "x" (Codec.json .any) (.error Codec.malformed) := by
  constructor
  · obtain ⟨s, m, hr, hm, hw⟩ := writes_wantedTwice (r := unwritten) (by decide +kernel)
    have ht : ∀ a ∈ wantedTwice unwritten, Tended "q" a := by decide +kernel
    exact ⟨s, m, hr, ht, hm, hw, ((returned_values hr ht hm).1 .nan trivial hw).1⟩
  · obtain ⟨s, m, hr, hm, hw⟩ := writes_wantedTwice (r := tooDeep) (by decide +kernel)
    have ht : ∀ a ∈ wantedTwice tooDeep, Tended "q" a := by decide +kernel
    have hdeep : ¬ (nest 127).depth ≤ maxDepth := by decide +kernel
    have hread := ((returned_values hr ht hm).2 _ (over_nest _ 127) hw).1
    rw [if_neg hdeep] at hread
    exact ⟨s, m, hr, ht, hm, hw, hread⟩

end ReadThrough.System
