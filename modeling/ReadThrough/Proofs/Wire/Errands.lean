import ReadThrough.Proofs.Store.Requests
import ReadThrough.Proofs.Wire.Refinement

/-! # Many conversations

What conversations one after the other come to.

* **Errands** (`Errand`).  An operation that needs no script, as a request to a store and as a
  conversation with a server.  Each errand refines its request (`Server.refines_errand`).
* **Main statement** (`Server.refines_transcript`).  Errands at later and later times bring the
  transcript of their requests, publish what the requests announce, and leave a mirror. -/

namespace ReadThrough.Wire

variable {σ α β : Type}

namespace Talk

/-- What comes of going on with the result of a conversation. -/
theorem run_bind (answer : σ → List Command → Reply × σ) (t : Talk α) (f : α → Talk β) (s : σ) :
    (t.bind f).run answer s =
      match t.run answer s with
      | (.ok v, s') => (f v).run answer s'
      | (.error e, s') => (.error e, s') := by
  induction t generalizing s with
  | result r => cases r <;> rfl
  | ask commands next ih => exact ih (answer s commands).1 (answer s commands).2

end Talk

/-- An operation that needs no script. -/
inductive Errand where
  | complete (id : Id) (c : Completion)
  | lookup (id : Id)
  | isFinished (id : Id)
  | queued (n : Nat)
  | inProgress
  | pending

namespace Errand

/-- An errand as a request to a store. -/
def request (k : Keys) : Errand → Store.Request
  | complete id c => .op (.complete k id c)
  | lookup id => .op (.lookup k id)
  | isFinished id => .op (.isFinished k id)
  | queued n => .queued k n
  | inProgress => .inProgress k
  | pending => .pending k

/-- An errand as a conversation with a server. -/
def talk (k : Keys) : Errand → Talk Store.Answer
  | complete id c => (Remote.complete k id c).bind fun _ => pure (.accepted true)
  | lookup id => (Remote.lookup k id).bind fun r => pure (.record r)
  | isFinished id => (Remote.isFinished k id).bind fun b => pure (.finished b)
  | queued n => (Remote.queued k n).bind fun ids => pure (.ids ids)
  | inProgress => (Remote.inProgress k).bind fun ids => pure (.ids ids)
  | pending => (Remote.pending k).bind fun n => pure (.count n)

/-- What an errand announces, behind the channel. -/
def said (k : Keys) : Errand → List (String × String)
  | complete id _ => [(k.channel, id)]
  | _ => []

/-- An errand that the server can do. -/
def Fits (S : Server σ) (now : Instant) : Errand → Prop
  | complete _ c => S.Takes now c
  | _ => True

end Errand

namespace Server

variable {S : Server σ} {k : Keys} {now : Instant} {m m' : Store} {s : σ}

theorem Refines.map {talk : Talk α} {result : α} {said : List (String × String)}
    (h : S.Refines k now m s talk result m' said) (f : α → β) :
    S.Refines k now m s (talk.bind fun v => pure (f v)) (f result) m' said := by
  have hr : (talk.bind fun v => pure (f v)).run (S.answer now) s =
      (.ok (f result), (talk.run (S.answer now) s).2) := by
    rw [Talk.run_bind, show talk.run (S.answer now) s =
      (.ok result, (talk.run (S.answer now) s).2) from Prod.ext h.result rfl]
    rfl
  exact ⟨congrArg Prod.fst hr, hr ▸ h.published, h.announced, hr ▸ h.mirrors⟩

/-- An errand does what its request does. -/
theorem refines_errand (hS : S.Documented) (h : S.Mirrors k now m s) {e : Errand}
    (he : e.Fits S now) :
    S.Refines k now m s (e.talk k) ((e.request k).answer m now) ((e.request k).apply m now)
      (e.said k) := by
  cases e with
  | complete id c =>
      have ha : (Errand.request k (.complete id c)).answer m now = .accepted true := by
        show Store.Answer.accepted (m.complete k id c now).1 = _
        rw [Store.complete_accepted, Takes.nameable he]
      rw [ha]
      exact (refines_complete hS h id he).map fun _ => Store.Answer.accepted true
  | lookup id => exact (refines_lookup hS h id).map Store.Answer.record
  | isFinished id => exact (refines_isFinished hS h id).map Store.Answer.finished
  | queued n => exact (refines_queued hS h n).map Store.Answer.ids
  | inProgress => exact (refines_inProgress hS h).map Store.Answer.ids
  | pending => exact (refines_pending hS h).map Store.Answer.count

/-- Do errands one after the other. -/
def errands (S : Server σ) (k : Keys) (s : σ) :
    List (Instant × Errand) → List (Except Error Store.Answer) × σ
  | [] => ([], s)
  | (now, e) :: rest =>
    let (result, s) := (e.talk k).run (S.answer now) s
    let (results, s) := S.errands k s rest
    (result :: results, s)

/-- **Errands bring the transcript of their requests.** -/
theorem refines_transcript (hS : S.Documented) (h : S.Mirrors k now m s)
    {log : List (Instant × Errand)} (ht : (now :: log.map (·.1)).Pairwise (· ≤ ·))
    (hf : ∀ x ∈ log, x.2.Fits S x.1) :
    (S.errands k s log).1 =
        (m.transcript (log.map fun x => (x.1, x.2.request k))).map (fun x => .ok x.answer) ∧
      S.published (S.errands k s log).2 = S.published s ++
        (log.flatMap fun x => x.2.said k).map (fun x => (Utf8.bytes x.1, Utf8.bytes x.2)) ∧
      ∀ later, (∀ t ∈ now :: log.map (·.1), t ≤ later) →
        S.Mirrors k later (m.after (log.map fun x => (x.1, x.2.request k)))
          (S.errands k s log).2 := by
  induction log generalizing now m s with
  | nil => exact ⟨rfl, (List.append_nil _).symm, fun later hl => h.later (hl now List.mem_cons_self)⟩
  | cons x log ih =>
      obtain ⟨t, e⟩ := x
      obtain ⟨hnow, ht⟩ := List.pairwise_cons.mp ht
      have hstep := refines_errand hS (h.later (hnow t List.mem_cons_self))
        (hf (t, e) List.mem_cons_self)
      obtain ⟨hr, hp, hm⟩ := ih hstep.mirrors ht fun x hx => hf x (List.mem_cons_of_mem _ hx)
      refine ⟨?_, ?_, fun later hl => hm later fun u hu => hl u (List.mem_cons_of_mem now hu)⟩
      · exact congr (congrArg List.cons hstep.result) hr
      · refine hp.trans ?_
        rw [hstep.published, List.flatMap_cons, List.map_append, List.append_assoc]

end Server

end ReadThrough.Wire
