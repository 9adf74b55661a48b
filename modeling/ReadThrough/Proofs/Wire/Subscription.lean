import ReadThrough.Proofs.Text.Utf8
import ReadThrough.Wire.Forwarder

/-! # What a subscriber gets

A run of a forwarder is a list of inputs each of which fits the phase it comes in
(`Forwarder.run?`), and says which connections there were and which payloads each of them brought
(`Forwarder.connections`).

* **Runs.**  What happens in one step is said once (`Forwarder.Step`); runs can be cut in two, and
  are what the program does (`Forwarder.feed_of_run?`).
* **The stream** (`Forwarder.Relays`).  For each connection one empty message, and then its payloads
  that are texts.  A step adds to it what it brings (`Forwarder.step_news`), so a run has passed on
  the stream of its connections, as long as the receiver is there (`Forwarder.run_relays`).
* **Every course of events** (`Forwarder.course`).  Connections that bring any payloads and are
  lost, with any number of attempts in between that fail, do make up a run.
* **Without a receiver.**  Nothing is passed on any more, and what is left to do is little
  (`Forwarder.Phase.left`): each step but those that skip a payload takes some of it.
* **Main statement** (`Forwarder.subscription_stream`). -/

namespace ReadThrough.Wire.Forwarder

variable {f g : Forwarder} {i : Input}

/-! ### Steps -/

/-- What can happen in a step, and what comes of it. -/
inductive Step (f : Forwarder) : Input → Forwarder → Prop
  | announce : f.phase = .announcing → Step f .announce ({ f with phase := .forwarding }.send "")
  | text {bytes message} : f.phase = .forwarding → Utf8.string? bytes = some message →
      Step f (.payload bytes) (f.send message)
  | skip {bytes} : f.phase = .forwarding → Utf8.string? bytes = none → Step f (.payload bytes) f
  | lost : f.phase = .forwarding → Step f .lost f.rest
  | wakeup : f.phase = .pausing → Step f .wakeup { f with phase := .connecting }
  | connected : f.phase = .connecting → Step f .connected { f with phase := .announcing }
  | refused : f.phase = .connecting → Step f .refused f.rest
  | hangUp : Step f .hangUp { f with listening := false }
  | notice : f.listening = false → f.phase = .forwarding ∨ f.phase = .pausing →
      Step f .notice { f with phase := .ended }

theorem step_of_step? (h : f.step? i = some g) : Step f i g := by
  cases i with
  | announce =>
      obtain ⟨hp, ⟨⟩⟩ := Option.ite_none_right_eq_some.mp h
      exact .announce hp
  | payload bytes =>
      obtain ⟨hp, h⟩ := Option.ite_none_right_eq_some.mp h
      cases hs : Utf8.string? bytes with
      | some message =>
          rw [hs] at h
          obtain rfl := Option.some.inj h
          exact .text hp hs
      | none =>
          rw [hs] at h
          obtain rfl := Option.some.inj h
          exact .skip hp hs
  | lost =>
      obtain ⟨hp, ⟨⟩⟩ := Option.ite_none_right_eq_some.mp h
      exact .lost hp
  | wakeup =>
      obtain ⟨hp, ⟨⟩⟩ := Option.ite_none_right_eq_some.mp h
      exact .wakeup hp
  | connected =>
      obtain ⟨hp, ⟨⟩⟩ := Option.ite_none_right_eq_some.mp h
      exact .connected hp
  | refused =>
      obtain ⟨hp, ⟨⟩⟩ := Option.ite_none_right_eq_some.mp h
      exact .refused hp
  | hangUp =>
      obtain rfl := Option.some.inj h
      exact .hangUp
  | notice =>
      obtain ⟨hl, h⟩ := Option.ite_none_left_eq_some.mp h
      have hl := Bool.eq_false_of_not_eq_true hl
      cases hp : f.phase with
      | forwarding =>
          rw [hp] at h
          obtain rfl := Option.some.inj h
          exact .notice hl (.inl hp)
      | pausing =>
          rw [hp] at h
          obtain rfl := Option.some.inj h
          exact .notice hl (.inr hp)
      | _ => rw [hp] at h; cases h

theorem send_listening (hl : f.listening = true) (message : String) :
    f.send message = { f with delivered := f.delivered ++ [message] } :=
  if_pos hl

theorem send_gone (hl : f.listening = false) (message : String) :
    f.send message = { f with phase := .ended } :=
  if_neg (Bool.eq_false_iff.mp hl)

theorem rest_listening (hl : f.listening = true) : f.rest = { f with phase := .pausing } := by
  rw [rest, if_pos hl]

theorem rest_gone (hl : f.listening = false) : f.rest = { f with phase := .ended } := by
  rw [rest, if_neg (Bool.eq_false_iff.mp hl)]

/-! ### Runs -/

/-- Inputs one after the other, as long as each fits. -/
def run? (f : Forwarder) (inputs : List Input) : Option Forwarder :=
  inputs.foldlM step? f

@[simp] theorem run?_nil : f.run? [] = some f :=
  rfl

theorem run?_cons {inputs : List Input} : f.run? (i :: inputs) = (f.step? i).bind (·.run? inputs) :=
  List.foldlM_cons

theorem run?_cons_eq_some {inputs : List Input} :
    f.run? (i :: inputs) = some g ↔ ∃ f', f.step? i = some f' ∧ f'.run? inputs = some g := by
  rw [run?_cons, Option.bind_eq_some_iff]

theorem run?_append {xs ys : List Input} : f.run? (xs ++ ys) = (f.run? xs).bind (·.run? ys) :=
  List.foldlM_append

/-- Where all inputs fit, none is passed over. -/
theorem feed_of_run? {inputs : List Input} (h : f.run? inputs = some g) : f.feed inputs = g := by
  induction inputs generalizing f with
  | nil => exact Option.some.inj h
  | cons i inputs ih =>
      obtain ⟨f', hs, hr⟩ := run?_cons_eq_some.mp h
      rw [feed, List.foldl_cons, hs]
      exact ih hr

/-- The payload that an input brings. -/
def Input.payload? : Input → Option Bytes
  | .payload bytes => some bytes
  | _ => none

/-- The payloads of each connection, the first connection being there from the start. -/
def connections (inputs : List Input) : List (List Bytes) :=
  (inputs.splitOn .connected).map (·.filterMap Input.payload?)

theorem connections_of_not_mem {xs : List Input} (h : Input.connected ∉ xs) :
    connections xs = [xs.filterMap Input.payload?] := by
  rw [connections, List.splitOn_eq_singleton h, List.map_singleton]

theorem connections_append {xs : List Input} (h : Input.connected ∉ xs) (ys : List Input) :
    connections (xs ++ .connected :: ys) = xs.filterMap Input.payload? :: connections ys := by
  rw [connections, List.splitOn_append_cons_self_of_not_mem h, List.map_cons, ← connections]

theorem connections_cons_connected (ys : List Input) :
    connections (.connected :: ys) = [] :: connections ys :=
  connections_append List.not_mem_nil ys

/-- Any other input belongs to the connection that it comes in. -/
theorem connections_cons (h : i ≠ .connected) (inputs : List Input) :
    connections (i :: inputs) = (connections inputs).modifyHead (i.payload?.toList ++ ·) := by
  obtain ⟨xs, xss, hx⟩ := List.exists_cons_of_ne_nil (List.splitOn_ne_nil Input.connected inputs)
  have hb : (i == Input.connected) = false := beq_eq_false_iff_ne.mpr h
  rw [connections, connections, List.splitOn_cons_eq_if_modifyHead, hb, hx]
  cases hi : i.payload? with
  | none => simp [List.filterMap_cons_none hi]
  | some bytes => simp [List.filterMap_cons_some hi]

/-! ### The stream -/

/-- The texts among some payloads, in order. -/
inductive Texts : List Bytes → List String → Prop
  | nil : Texts [] []
  | text (message : String) {ps ms} : Texts ps ms → Texts (Utf8.bytes message :: ps) (message :: ms)
  | skip {bytes ps ms} : (∀ message, Utf8.bytes message ≠ bytes) → Texts ps ms →
      Texts (bytes :: ps) ms

/-- What a subscriber gets of connections with these payloads: for each connection an empty message,
and then its texts. -/
inductive Relays : List (List Bytes) → List String → Prop
  | nil : Relays [] []
  | connection {ps ms cs rest} : Texts ps ms → Relays cs rest →
      Relays (ps :: cs) ("" :: ms ++ rest)

theorem texts_iff {ps : List Bytes} {ms : List String} :
    Texts ps ms ↔ ms = ps.filterMap Utf8.string? := by
  constructor
  · intro h
    induction h with
    | nil => rfl
    | text message _ ih => rw [List.filterMap_cons_some (Utf8.string?_bytes message), ih]
    | @skip bytes _ _ hb _ ih =>
        have hn : Utf8.string? bytes = none :=
          Option.eq_none_iff_forall_ne_some.mpr fun m hm => hb m (Utf8.string?_eq_some_iff.mp hm)
        rw [List.filterMap_cons_none hn, ih]
  · rintro rfl
    induction ps with
    | nil => exact .nil
    | cons bytes ps ih =>
        cases hs : Utf8.string? bytes with
        | some message =>
            rw [List.filterMap_cons_some hs, ← Utf8.string?_eq_some_iff.mp hs]
            exact .text message ih
        | none =>
            rw [List.filterMap_cons_none hs]
            refine .skip (fun message hm => ?_) ih
            rw [Utf8.string?_eq_some_iff.mpr hm] at hs
            cases hs

/-- There is one stream for some connections. -/
theorem relays_iff {cs : List (List Bytes)} {out : List String} :
    Relays cs out ↔ out = cs.flatMap fun ps => "" :: ps.filterMap Utf8.string? := by
  constructor
  · intro h
    induction h with
    | nil => rfl
    | connection ht _ ih => rw [List.flatMap_cons, texts_iff.mp ht, ih]
  · rintro rfl
    induction cs with
    | nil => exact .nil
    | cons ps cs ih => exact .connection (texts_iff.mpr rfl) ih

/-- What an input adds to the stream. -/
def Input.news : Input → List String
  | .payload bytes => (Utf8.string? bytes).toList
  | .connected => [""]
  | _ => []

/-- The stream of the connections is that of the first one, and what the inputs add to it. -/
theorem flatMap_connections (inputs : List Input) :
    ((connections inputs).flatMap fun ps => "" :: ps.filterMap Utf8.string?) =
      "" :: inputs.flatMap Input.news := by
  induction inputs with
  | nil => rfl
  | cons i inputs ih =>
      by_cases hi : i = .connected
      · subst hi
        rw [connections_cons_connected, List.flatMap_cons, ih]
        rfl
      · -- the first connection of the rest is the one that `i` comes in
        obtain ⟨ps, cs, hc⟩ := List.exists_cons_of_ne_nil (l := connections inputs)
          (by rw [connections]; simp)
        rw [hc, List.flatMap_cons, List.cons_append, List.cons.injEq] at ih
        rw [connections_cons hi, hc, List.modifyHead_cons, List.flatMap_cons, List.flatMap_cons,
          ← ih.2, List.filterMap_append]
        cases i with
        | payload bytes => cases hs : Utf8.string? bytes <;> simp [Input.payload?, Input.news, hs]
        | connected => exact absurd rfl hi
        | _ => rfl

/-- What is on its way although nothing more happens to the connection: its announcement. -/
def due (f : Forwarder) : List String :=
  if f.phase = .announcing then [""] else []

theorem due_of_ne (h : f.phase ≠ .announcing) : f.due = [] :=
  if_neg h

/-- As long as the receiver is there, a step adds what its input brings, and does not end
anything. -/
theorem step_news (h : f.Step i g) (hi : i ≠ .hangUp) (hl : f.listening = true) :
    g.listening = true ∧ (f.phase ≠ .ended → g.phase ≠ .ended) ∧
      g.delivered ++ g.due = f.delivered ++ f.due ++ i.news := by
  cases h with
  | announce hp =>
      rw [send_listening (by exact hl)]
      refine ⟨hl, fun _ => Phase.noConfusion, ?_⟩
      simp [due, hp, Input.news]
  | text hp hs =>
      rw [send_listening hl]
      refine ⟨hl, id, ?_⟩
      simp [due, hp, Input.news, hs]
  | skip hp hs =>
      refine ⟨hl, id, ?_⟩
      simp [Input.news, hs]
  | lost hp =>
      rw [rest_listening hl]
      refine ⟨hl, fun _ => Phase.noConfusion, ?_⟩
      simp [due, hp, Input.news]
  | wakeup hp =>
      refine ⟨hl, fun _ => Phase.noConfusion, ?_⟩
      simp [due, hp, Input.news]
  | connected hp =>
      refine ⟨hl, fun _ => Phase.noConfusion, ?_⟩
      simp [due, hp, Input.news]
  | refused hp =>
      rw [rest_listening hl]
      refine ⟨hl, fun _ => Phase.noConfusion, ?_⟩
      simp [due, hp, Input.news]
  | hangUp => exact absurd rfl hi
  | notice hg => rw [hl] at hg; cases hg

/-- From step to run: nothing gets lost and nothing comes twice. -/
theorem run_news {inputs : List Input} (h : f.run? inputs = some g) (hi : .hangUp ∉ inputs)
    (hl : f.listening = true) :
    g.listening = true ∧ (f.phase ≠ .ended → g.phase ≠ .ended) ∧
      g.delivered ++ g.due = f.delivered ++ f.due ++ inputs.flatMap Input.news := by
  induction inputs generalizing f with
  | nil =>
      obtain rfl := Option.some.inj h
      exact ⟨hl, id, by simp⟩
  | cons i inputs ih =>
      obtain ⟨f', hs, hr⟩ := run?_cons_eq_some.mp h
      have hne : i ≠ .hangUp := (List.ne_of_not_mem_cons hi).symm
      obtain ⟨hl', hp', hd'⟩ := step_news (step_of_step? hs) hne hl
      obtain ⟨hl'', hp'', hd''⟩ := ih hr (List.not_mem_of_not_mem_cons hi) hl'
      refine ⟨hl'', fun hp => hp'' (hp' hp), ?_⟩
      rw [hd'', hd', List.flatMap_cons, List.append_assoc (f.delivered ++ f.due)]

/-- While the receiver is there, exactly the stream of the connections is passed on. -/
theorem run_relays (channel : String) {inputs : List Input}
    (h : ({ channel } : Forwarder).run? inputs = some f) (hi : .hangUp ∉ inputs) :
    f.phase ≠ .ended ∧ Relays (connections inputs) (f.delivered ++ f.due) := by
  obtain ⟨-, hp, hd⟩ := run_news h hi rfl
  refine ⟨hp Phase.noConfusion, ?_⟩
  exact relays_iff.mpr (hd.trans (flatMap_connections inputs).symm)

/-! ### Every course of events -/

/-- A connection brings some payloads and is lost. -/
def serving (ps : List Bytes) : List Input :=
  .announce :: ps.map .payload ++ [.lost]

/-- Some attempts to connect fail, and one more begins. -/
def attempts (failures : Nat) : List Input :=
  (List.replicate failures [.wakeup, .refused]).flatten ++ [.wakeup]

/-- A connection, and others after it, each with the number of attempts that fail before it. -/
def course (ps : List Bytes) : List (Nat × List Bytes) → List Input
  | [] => serving ps
  | (failures, qs) :: later => serving ps ++ attempts failures ++ .connected :: course qs later

/-- While the receiver is there, these inputs fit in phase `p` and lead to phase `q`. -/
def Leads (inputs : List Input) (p q : Phase) : Prop :=
  ∀ f : Forwarder, f.phase = p → f.listening = true →
    ∃ g, f.run? inputs = some g ∧ g.phase = q ∧ g.listening = true

section

variable {p q r : Phase} {xs ys : List Input}

theorem leads_nil : Leads [] p p :=
  fun f hp hl => ⟨f, rfl, hp, hl⟩

theorem Leads.append (hx : Leads xs p q) (hy : Leads ys q r) : Leads (xs ++ ys) p r := by
  intro f hp hl
  obtain ⟨f', hr, hp, hl⟩ := hx f hp hl
  rw [run?_append, hr]
  exact hy f' hp hl

theorem leads_of_step (h : ∀ f : Forwarder, f.phase = p → f.listening = true →
    ∃ g, f.step? i = some g ∧ g.phase = q ∧ g.listening = true) : Leads [i] p q := by
  intro f hp hl
  obtain ⟨g, hs, hg⟩ := h f hp hl
  exact ⟨g, run?_cons_eq_some.mpr ⟨g, hs, rfl⟩, hg⟩

end

theorem leads_announce : Leads [.announce] .announcing .forwarding := by
  refine leads_of_step fun f hp hl => ⟨_, if_pos hp, ?_⟩
  rw [send_listening (by exact hl)]
  exact ⟨rfl, hl⟩

theorem leads_payload (bytes : Bytes) : Leads [.payload bytes] .forwarding .forwarding := by
  refine leads_of_step fun f hp hl => ?_
  simp only [step?, if_pos hp]
  cases Utf8.string? bytes with
  | some message => exact ⟨_, rfl, by rw [send_listening hl]; exact ⟨hp, hl⟩⟩
  | none => exact ⟨_, rfl, hp, hl⟩

theorem leads_lost : Leads [.lost] .forwarding .pausing := by
  refine leads_of_step fun f hp hl => ⟨_, if_pos hp, ?_⟩
  rw [rest_listening hl]
  exact ⟨rfl, hl⟩

theorem leads_wakeup : Leads [.wakeup] .pausing .connecting :=
  leads_of_step fun _ hp hl => ⟨_, if_pos hp, rfl, hl⟩

theorem leads_connected : Leads [.connected] .connecting .announcing :=
  leads_of_step fun _ hp hl => ⟨_, if_pos hp, rfl, hl⟩

theorem leads_refused : Leads [.refused] .connecting .pausing := by
  refine leads_of_step fun f hp hl => ⟨_, if_pos hp, ?_⟩
  rw [rest_listening hl]
  exact ⟨rfl, hl⟩

theorem leads_payloads (ps : List Bytes) : Leads (ps.map .payload) .forwarding .forwarding := by
  induction ps with
  | nil => exact leads_nil
  | cons bytes ps ih => exact (leads_payload bytes).append ih

theorem leads_serving (ps : List Bytes) : Leads (serving ps) .announcing .pausing :=
  (leads_announce.append (leads_payloads ps)).append leads_lost

theorem leads_attempts (failures : Nat) : Leads (attempts failures) .pausing .connecting := by
  refine Leads.append ?_ leads_wakeup
  induction failures with
  | zero => exact leads_nil
  | succ n ih => exact (leads_wakeup.append leads_refused).append ih

theorem leads_course (ps : List Bytes) (later : List (Nat × List Bytes)) :
    Leads (course ps later) .announcing .pausing := by
  induction later generalizing ps with
  | nil => exact leads_serving ps
  | cons x later ih =>
      have hx := (leads_serving ps).append (leads_attempts x.1)
      exact hx.append (leads_connected.append (ih x.2))

theorem mem_serving {ps : List Bytes} (h : i ∈ serving ps) :
    i = .announce ∨ (∃ bytes, i = .payload bytes) ∨ i = .lost := by
  simp only [serving, List.cons_append, List.mem_cons, List.mem_append, List.mem_map,
    List.not_mem_nil, or_false] at h
  obtain h | ⟨bytes, -, h⟩ | h := h
  · exact .inl h
  · exact .inr (.inl ⟨bytes, h.symm⟩)
  · exact .inr (.inr h)

theorem mem_attempts {failures : Nat} (h : i ∈ attempts failures) :
    i = .wakeup ∨ i = .refused := by
  simp only [attempts, List.mem_append, List.mem_flatten, List.mem_replicate, List.mem_cons,
    List.not_mem_nil, or_false] at h
  obtain ⟨xs, ⟨-, rfl⟩, h⟩ | h := h
  · simpa using h
  · exact .inl h

theorem not_mem_serving_attempts (hi : i = .connected ∨ i = .hangUp) (ps : List Bytes)
    (failures : Nat) : i ∉ serving ps ++ attempts failures := by
  intro h
  rcases List.mem_append.mp h with h | h
  · obtain rfl | ⟨bytes, rfl⟩ | rfl := mem_serving h <;> simp at hi
  · obtain rfl | rfl := mem_attempts h <;> simp at hi

theorem hangUp_not_mem_course (ps : List Bytes) (later : List (Nat × List Bytes)) :
    .hangUp ∉ course ps later := by
  induction later generalizing ps with
  | nil => exact fun h => not_mem_serving_attempts (.inr rfl) ps 0 (List.mem_append_left _ h)
  | cons x later ih =>
      intro h
      rcases List.mem_append.mp h with h | h
      · exact not_mem_serving_attempts (.inr rfl) ps x.1 h
      · exact ih x.2 (List.mem_of_ne_of_mem Input.noConfusion h)

theorem filterMap_serving (ps : List Bytes) : (serving ps).filterMap Input.payload? = ps := by
  have hp : Input.payload? ∘ Input.payload = some := rfl
  rw [serving, List.filterMap_append, List.filterMap_cons_none rfl, List.filterMap_map, hp,
    List.filterMap_some]
  exact List.append_nil ps

theorem filterMap_attempts (failures : Nat) :
    (attempts failures).filterMap Input.payload? = [] := by
  refine List.filterMap_eq_nil_iff.mpr fun i hi => ?_
  obtain rfl | rfl := mem_attempts hi <;> rfl

/-- The connections of a course of events are those that it is made of. -/
theorem connections_course (ps : List Bytes) (later : List (Nat × List Bytes)) :
    connections (course ps later) = ps :: later.map Prod.snd := by
  induction later generalizing ps with
  | nil =>
      have hc : .connected ∉ serving ps :=
        fun h => not_mem_serving_attempts (.inl rfl) ps 0 (List.mem_append_left _ h)
      rw [course, connections_of_not_mem hc, filterMap_serving, List.map_nil]
  | cons x later ih =>
      obtain ⟨failures, qs⟩ := x
      rw [course, connections_append (not_mem_serving_attempts (.inl rfl) ps failures),
        List.filterMap_append, filterMap_serving, filterMap_attempts, List.append_nil, ih,
        List.map_cons]

/-- Every course of events can happen, and exactly its stream is passed on. -/
theorem course_relays (channel : String) (ps : List Bytes) (later : List (Nat × List Bytes)) :
    ∃ f, ({ channel } : Forwarder).run? (course ps later) = some f ∧ f.phase = .pausing ∧
      Relays (ps :: later.map Prod.snd) f.delivered := by
  obtain ⟨f, hr, hp, -⟩ := leads_course ps later { channel } rfl rfl
  obtain ⟨-, hd⟩ := run_relays channel hr (hangUp_not_mem_course ps later)
  have hne : f.phase ≠ .announcing := by rw [hp]; exact Phase.noConfusion
  rw [connections_course, due_of_ne hne, List.append_nil] at hd
  exact ⟨f, hr, hp, hd⟩

/-! ### Without a receiver -/

/-- How many steps a forwarder whose receiver has gone has left, at most. -/
def Phase.left : Phase → Nat
  | .ended => 0
  | .announcing => 1
  | .forwarding => 1
  | .connecting => 2
  | .pausing => 3

/-- How many attempts to connect it may still begin. -/
def Phase.attemptsLeft : Phase → Nat
  | .pausing => 1
  | _ => 0

/-- Whether a forwarder has less left to do after an input, without a receiver. -/
def Input.moves : Input → Bool
  | .payload bytes => (Utf8.string? bytes).isSome
  | .hangUp => false
  | _ => true

/-- Without a receiver nothing is passed on, and a step leaves less to do. -/
theorem step_gone (h : f.Step i g) (hl : f.listening = false) :
    g.listening = false ∧ g.delivered = f.delivered ∧
      g.phase.left + (if i.moves then 1 else 0) ≤ f.phase.left ∧
      g.phase.attemptsLeft + (if i == .wakeup then 1 else 0) ≤ f.phase.attemptsLeft := by
  cases h with
  | announce hp =>
      rw [send_gone (by exact hl), hp]
      exact ⟨hl, rfl, Nat.le_refl _, Nat.le_refl _⟩
  | text hp hs =>
      rw [send_gone hl, hp]
      refine ⟨hl, rfl, ?_, Nat.le_refl _⟩
      simp [Input.moves, hs, Phase.left]
  | skip hp hs =>
      -- this can happen again and again, so it must not count
      refine ⟨hl, rfl, ?_, Nat.le_refl _⟩
      simp [Input.moves, hs]
  | lost hp =>
      rw [rest_gone hl, hp]
      exact ⟨hl, rfl, Nat.le_refl _, Nat.le_refl _⟩
  | wakeup hp =>
      rw [hp]
      exact ⟨hl, rfl, Nat.le_refl _, Nat.le_refl _⟩
  | connected hp =>
      rw [hp]
      exact ⟨hl, rfl, Nat.le_refl _, Nat.le_refl _⟩
  | refused hp =>
      rw [rest_gone hl, hp]
      exact ⟨hl, rfl, Nat.le_succ _, Nat.le_refl _⟩
  | hangUp => exact ⟨rfl, rfl, Nat.le_refl _, Nat.le_refl _⟩
  | notice _ hp =>
      obtain hp | hp := hp
      · rw [hp]
        exact ⟨hl, rfl, Nat.le_refl _, Nat.le_refl _⟩
      · rw [hp]
        exact ⟨hl, rfl, Nat.le_add_left _ 2, Nat.zero_le _⟩

theorem run_gone {inputs : List Input} (h : f.run? inputs = some g) (hl : f.listening = false) :
    g.listening = false ∧ g.delivered = f.delivered ∧
      g.phase.left + inputs.countP Input.moves ≤ f.phase.left ∧
      g.phase.attemptsLeft + inputs.count .wakeup ≤ f.phase.attemptsLeft := by
  induction inputs generalizing f with
  | nil =>
      obtain rfl := Option.some.inj h
      exact ⟨hl, rfl, Nat.le_refl _, Nat.le_refl _⟩
  | cons i inputs ih =>
      obtain ⟨f', hs, hr⟩ := run?_cons_eq_some.mp h
      obtain ⟨hl, hd, hm, ha⟩ := step_gone (step_of_step? hs) hl
      obtain ⟨hl', hd', hm', ha'⟩ := ih hr hl
      refine ⟨hl', hd'.trans hd, ?_, ?_⟩
      · rw [List.countP_cons]
        omega
      · rw [List.count_cons]
        omega

theorem Phase.left_le (p : Phase) : p.left ≤ 3 := by
  cases p <;> decide

theorem Phase.attemptsLeft_le (p : Phase) : p.attemptsLeft ≤ 1 := by
  cases p <;> decide

/-- The forwarder once it has ended. -/
def close (f : Forwarder) : Forwarder :=
  { f with phase := .ended }

/-- What the forwarder does next ends it: what it passes on, what it notices, or what comes of an
attempt to connect, whichever way that goes. -/
def Closing (f : Forwarder) : Prop :=
  f.step? .announce = some f.close ∨ f.step? .notice = some f.close ∨
    f.step? .refused = some f.close ∧
      ∃ g, f.step? .connected = some g ∧ g.step? .announce = some f.close

/-- Without a receiver a forwarder is never stuck before it ends. -/
theorem ended_or_closing (hl : f.listening = false) : f.phase = .ended ∨ f.Closing := by
  cases hp : f.phase with
  | announcing =>
      refine .inr (.inl ?_)
      rw [step?, if_pos hp, send_gone (by exact hl)]
      rfl
  | forwarding => exact .inr (.inr (.inl (by simp [step?, hl, hp, close])))
  | pausing => exact .inr (.inr (.inl (by simp [step?, hl, hp, close])))
  | connecting =>
      refine .inr (.inr (.inr ⟨?_, _, if_pos hp, ?_⟩))
      · rw [step?, if_pos hp, rest_gone hl]
        rfl
      · rw [step?, if_pos rfl, send_gone (by exact hl)]
        rfl
  | ended => exact .inl rfl

/-- Once the receiver has gone, nothing more is passed on, at most three steps do anything, one
attempt to connect among them, and the forwarder is never stuck before it ends. -/
theorem run_after_hangUp {before after : List Input}
    (h : f.run? (before ++ .hangUp :: after) = some g) :
    ∃ f', f.run? before = some f' ∧ g.delivered = f'.delivered ∧
      after.countP Input.moves ≤ 3 ∧ after.count .wakeup ≤ 1 ∧ (g.phase = .ended ∨ g.Closing) := by
  rw [run?_append, Option.bind_eq_some_iff] at h
  obtain ⟨f', hb, ha⟩ := h
  have hr : ({ f' with listening := false } : Forwarder).run? after = some g := ha
  obtain ⟨hl, hd, hm, hw⟩ := run_gone hr rfl
  refine ⟨f', hb, hd, ?_, ?_, ended_or_closing hl⟩
  · exact (Nat.le_add_left _ _).trans (hm.trans (Phase.left_le _))
  · exact (Nat.le_add_left _ _).trans (hw.trans (Phase.attemptsLeft_le _))

/-! ### The stream of a subscription -/

/-- **A subscriber gets each connection announced, and then its texts, and nothing else.**

* Take connections that bring any payloads and are lost, with any number of attempts in between that
  fail.  All this can happen, and exactly the stream of these connections is passed on.
* Whatever else happens while the receiver is there, exactly the stream of the connections so far is
  passed on or due, and the forwarder does not end.
* Once the receiver has gone, nothing is passed on, at most three steps do more than skip a payload,
  at most one attempt to connect begins, and until it ends the forwarder can end with what comes
  next. -/
theorem subscription_stream (channel : String) :
    (∀ ps later, ∃ f, ({ channel } : Forwarder).run? (course ps later) = some f ∧
      f.phase = .pausing ∧ Relays (ps :: later.map Prod.snd) f.delivered) ∧
    (∀ inputs f, ({ channel } : Forwarder).run? inputs = some f → .hangUp ∉ inputs →
      f.phase ≠ .ended ∧ Relays (connections inputs) (f.delivered ++ f.due)) ∧
    ∀ before after f, ({ channel } : Forwarder).run? (before ++ .hangUp :: after) = some f →
      ∃ g, ({ channel } : Forwarder).run? before = some g ∧ f.delivered = g.delivered ∧
        after.countP Input.moves ≤ 3 ∧ after.count .wakeup ≤ 1 ∧
          (f.phase = .ended ∨ f.Closing) := by
  refine ⟨fun ps later => ?_, fun inputs f h hi => ?_, fun before after f h => ?_⟩
  · exact course_relays channel ps later
  · exact run_relays channel h hi
  · exact run_after_hangUp h

/-- A connection that brings a payload that is no text, an attempt that fails, and a connection
that is established after the receiver has gone. -/
theorem subscription_stream_reconnected :
    let before := course [Utf8.bytes "a", [0xFF]] [(1, [Utf8.bytes "b"])]
    let after : List Input := [.wakeup, .connected, .announce]
    let f : Forwarder := ⟨"c", .pausing, ["", "a", "", "b"], true⟩
    let g : Forwarder := ⟨"c", .ended, ["", "a", "", "b"], false⟩
    (({ channel := "c" } : Forwarder).run? before = some f ∧ .hangUp ∉ before ∧
      f.phase ≠ .ended ∧ Relays (connections before) (f.delivered ++ f.due)) ∧
    ({ channel := "c" } : Forwarder).run? (before ++ .hangUp :: after) = some g ∧
      after.countP Input.moves = 3 ∧ after.count .wakeup = 1 ∧ (g.phase = .ended ∨ g.Closing) ∧
      ∃ f', ({ channel := "c" } : Forwarder).run? before = some f' ∧
        g.delivered = f'.delivered := by
  intro before after f g
  obtain ⟨-, hruns, hgone⟩ := subscription_stream "c"
  have hn : Utf8.string? [0xFF] = none := by rw [Utf8.string?, Utf8.decode]; rfl
  have hb : ({ channel := "c" } : Forwarder).run? before = some f := by
    simp [before, f, course, serving, attempts, run?_cons, step?, send, rest, hn,
      Utf8.string?_bytes]
  have hi : .hangUp ∉ before := hangUp_not_mem_course _ _
  have hg : ({ channel := "c" } : Forwarder).run? (before ++ .hangUp :: after) = some g := by
    rw [run?_append, hb]
    rfl
  obtain ⟨f', hf, hd, -, -, he⟩ := hgone before after g hg
  exact ⟨⟨hb, hi, hruns before f hb hi⟩, hg, rfl, rfl, he, f', hf, hd⟩

end ReadThrough.Wire.Forwarder
