import ReadThrough.Proofs.Settings.Documents
import ReadThrough.Settings.Document
import ReadThrough.Settings.Environment

/-! # Where settings come from

Settings can be given in the environment of the process or in a document.

* **What is given** (`Overrides`).  Any of the five settings, with the settings that they make out
  of the defaults (`Overrides.settings`).
* **The environment** (`Overrides.cacheOf_set`).  Variables that are set to what is given give those
  settings.
* **Documents** (`Overrides.ofToml_document`).  Entries with different keys can be read in any order
  (`Settings.foldlM_assign_perm`), so any document of what is given gives those settings too.
* **Main statement** (`Overrides.sources_agree`).  Both give the same settings, or refuse them for
  the same reason. -/

namespace ReadThrough

/-! ### The order of entries -/

namespace Settings

/-- What an entry does to settings. -/
inductive Sets : String × Toml.Value → (Settings → Settings) → Prop
  | queue (name : String) : Sets ("queue", .text name) fun s => { s with queue := name }
  | workers (n : Int) : Sets ("workers", .int n) fun s => { s with workers := n.toNat }
  | errorTtl (n : Int) :
      Sets ("error_ttl_secs", .int n) fun s => { s with errorTtl := .ofSecs n.toNat }
  | waitTimeout (n : Int) :
      Sets ("wait_timeout_secs", .int n) fun s =>
        { s with waitTimeout := if n = 0 then none else some (.ofSecs n.toNat) }
  | pollTimeout (n : Int) :
      Sets ("poll_timeout_ms", .int n) fun s => { s with pollTimeout := .ofMillis n.toNat }

variable {e e' : String × Toml.Value} {es fs : List (String × Toml.Value)}

/-- An entry is refused whatever the settings are, or changes one of them. -/
theorem assign_cases (e : String × Toml.Value) :
    (∀ s, assign s e = none) ∨ ∃ f, Sets e f ∧ ∀ s, assign s e = some (f s) := by
  have given {n : Int} {f : Settings → Settings} (hs : Sets e f)
      (h : ∀ s, assign s e = if 0 ≤ n then some (f s) else none) :
      (∀ s, assign s e = none) ∨ ∃ f, Sets e f ∧ ∀ s, assign s e = some (f s) := by
    by_cases hn : 0 ≤ n
    · exact Or.inr ⟨f, hs, fun s => (h s).trans (if_pos hn)⟩
    · exact Or.inl fun s => (h s).trans (if_neg hn)
  by_cases hd : ∀ s, assign s e = none
  · exact Or.inl hd
  · obtain ⟨s, hs⟩ := not_forall.mp hd
    unfold assign at hs
    split at hs
    · exact Or.inr ⟨_, .queue _, fun _ => rfl⟩
    · exact given (.workers _) fun _ => rfl
    · exact given (.errorTtl _) fun _ => rfl
    · exact given (.waitTimeout _) fun _ => rfl
    · exact given (.pollTimeout _) fun _ => rfl
    · exact absurd rfl hs

/-- Entries with different keys change different settings. -/
theorem Sets.comm {f f' : Settings → Settings} (h : Sets e f) (h' : Sets e' f') (hk : e.1 ≠ e'.1)
    (s : Settings) : f' (f s) = f (f' s) := by
  cases h with
  | queue name =>
      cases h' with
      | queue => exact absurd rfl hk
      | _ => rfl
  | workers n =>
      cases h' with
      | workers => exact absurd rfl hk
      | _ => rfl
  | errorTtl n =>
      cases h' with
      | errorTtl => exact absurd rfl hk
      | _ => rfl
  | waitTimeout n =>
      cases h' with
      | waitTimeout => exact absurd rfl hk
      | _ => rfl
  | pollTimeout n =>
      cases h' with
      | pollTimeout => exact absurd rfl hk
      | _ => rfl

/-- Entries with different keys can be read in either order, and be refused in either. -/
theorem assign_comm (hk : e.1 ≠ e'.1) (s : Settings) :
    (assign s e).bind (assign · e') = (assign s e').bind (assign · e) := by
  rcases assign_cases e with h | ⟨f, hf, h⟩
  · rcases assign_cases e' with h' | ⟨f', hf', h'⟩
    · simp only [h, h', Option.bind_none]
    · simp only [h, h', Option.bind_none, Option.bind_some]
  · rcases assign_cases e' with h' | ⟨f', hf', h'⟩
    · simp only [h, h', Option.bind_none, Option.bind_some]
    · simp only [h, h', Option.bind_some, hf.comm hf' hk]

/-- Entries can be read in any order, if no two have the same key. -/
theorem foldlM_assign_perm (h : es.Perm fs) (hk : (es.map (·.1)).Nodup) (s : Settings) :
    es.foldlM assign s = fs.foldlM assign s := by
  induction h generalizing s with
  | nil => rfl
  | cons e h ih =>
      rw [List.foldlM_cons, List.foldlM_cons]
      exact congrArg _ (funext (ih (List.nodup_cons.mp hk).2))
  | swap e e' es =>
      have hne : e'.1 ≠ e.1 := fun he =>
        (List.nodup_cons.mp hk).1 (List.mem_cons.mpr (Or.inl he))
      simp only [List.foldlM_cons, Option.bind_eq_bind]
      rw [← Option.bind_assoc, ← Option.bind_assoc, assign_comm hne]
  | trans h _ ih ih' =>
      exact (ih hk s).trans (ih' ((h.map _).nodup_iff.mp hk) s)

end Settings

/-! ### What is given -/

/-- The settings that are given, in the units in which they are. -/
structure Overrides where
  queue : Option String
  workers : Option Nat
  errorTtlSecs : Option Nat
  waitTimeoutSecs : Option Nat
  pollTimeoutMs : Option Nat

namespace Overrides

open ProcessSettings (Environment)

/-- The defaults, with what is given in their place; to wait for no time is to wait for ever. -/
def settings (o : Overrides) : Settings :=
  let standard : Settings := {}
  { queue := o.queue.getD standard.queue
    workers := o.workers.getD standard.workers
    errorTtl := (o.errorTtlSecs.map .ofSecs).getD standard.errorTtl
    waitTimeout := match o.waitTimeoutSecs with
      | some secs => if secs = 0 then none else some (.ofSecs secs)
      | none => standard.waitTimeout
    pollTimeout := (o.pollTimeoutMs.map .ofMillis).getD standard.pollTimeout }

/-- The numbers among what is given. -/
def numbers (o : Overrides) : List Nat :=
  o.workers.toList ++ o.errorTtlSecs.toList ++ o.waitTimeoutSecs.toList ++ o.pollTimeoutMs.toList

/-- No number is beyond the integers of 64 bits. -/
def Fits (o : Overrides) : Prop := ∀ n ∈ o.numbers, (n : Int) ≤ Int64.maxValue.toInt

/-- The decimal text of a number, if it is given. -/
def decimal? (n? : Option Nat) : Option String := n?.map fun n : Nat => Text.decimalText n

/-- The variables of the five settings are set to what is given, or not set. -/
structure SetIn (o : Overrides) (env : Environment) : Prop where
  queue : env "RTCACHE_QUEUE" = o.queue
  workers : env "RTCACHE_WORKERS" = decimal? o.workers
  errorTtl : env "RTCACHE_ERROR_TTL_SECS" = decimal? o.errorTtlSecs
  waitTimeout : env "RTCACHE_WAIT_TIMEOUT_SECS" = decimal? o.waitTimeoutSecs
  pollTimeout : env "RTCACHE_POLL_TIMEOUT_MS" = decimal? o.pollTimeoutMs

/-- A number as a value of a document. -/
def number (n : Nat) : Toml.Value := .int n

/-- The entry of a setting, if it is given. -/
def given {α : Type} (key : String) (f : α → Toml.Value) (a? : Option α) :
    List (String × Toml.Value) :=
  (a?.map fun a => (key, f a)).toList

/-- What is given, as the entries of a document. -/
def entries (o : Overrides) : List (String × Toml.Value) :=
  given "queue" .text o.queue ++ given "workers" number o.workers ++
    given "error_ttl_secs" number o.errorTtlSecs ++
    given "wait_timeout_secs" number o.waitTimeoutSecs ++
    given "poll_timeout_ms" number o.pollTimeoutMs

variable {o : Overrides} {env : Environment} {es : List (String × Toml.Value)} {text : String}

theorem mem_numbers {n : Nat} : n ∈ o.numbers ↔
    n ∈ o.workers ∨ n ∈ o.errorTtlSecs ∨ n ∈ o.waitTimeoutSecs ∨ n ∈ o.pollTimeoutMs := by
  simp [numbers]

/-! ### The environment -/

/-- A number within 64 bits is read back from its variable. -/
theorem number?_set {name : String} {n? : Option Nat} (he : env name = decimal? n?)
    (hn : ∀ n ∈ n?, (n : Int) ≤ Int64.maxValue.toInt) :
    ProcessSettings.number? env name = .ok n? := by
  unfold ProcessSettings.number?
  cases n? with
  | none => rw [he]; rfl
  | some n =>
      have hle : n ≤ UInt64.size - 1 := by
        have h64 : Int64.maxValue.toInt ≤ (UInt64.size - 1 : Nat) := by decide
        exact Int.ofNat_le.mp (Int.le_trans (hn n rfl) h64)
      simp only [he, decimal?, Option.map_some, Text.decimalText, String.toList_ofList,
        Text.readNat_decimal hle]

/-- Variables that are set to what is given give the settings that it makes. -/
theorem cacheOf_set (hn : o.Fits) (he : o.SetIn env) :
    ProcessSettings.cacheOf env = .ok o.settings := by
  unfold ProcessSettings.cacheOf
  rw [number?_set he.workers fun n h => hn n (mem_numbers.mpr (Or.inl h)),
    number?_set he.errorTtl fun n h => hn n (mem_numbers.mpr (Or.inr (Or.inl h))),
    number?_set he.waitTimeout fun n h => hn n (mem_numbers.mpr (Or.inr (Or.inr (Or.inl h)))),
    number?_set he.pollTimeout fun n h => hn n (mem_numbers.mpr (Or.inr (Or.inr (Or.inr h)))),
    he.queue]
  refine congrArg Except.ok ?_
  unfold settings
  congr 1
  cases o.waitTimeoutSecs with
  | none => rfl
  | some secs =>
      cases secs with
      | zero => rfl
      | succ secs => rfl

/-! ### Documents -/

theorem mem_given {α : Type} {key : String} {f : α → Toml.Value} {a? : Option α}
    {e : String × Toml.Value} : e ∈ given key f a? ↔ ∃ a ∈ a?, e = (key, f a) := by
  refine (Option.mem_toList.trans Option.map_eq_some_iff).trans ?_
  exact exists_congr fun a => and_congr_right fun _ => eq_comm

/-- The keys of the five settings. -/
def keys : List String :=
  ["queue", "workers", "error_ttl_secs", "wait_timeout_secs", "poll_timeout_ms"]

theorem bare_keys : ∀ key ∈ keys, Toml.Bare key := by
  have all : ∀ key ∈ keys, key.toList ≠ [] ∧ key.toList.all Toml.isBare = true := by decide
  exact fun key hk => Toml.bare_of_all (all key hk)

/-- The entries have keys that need no quotes, and texts or numbers that are given. -/
theorem of_mem_entries {e : String × Toml.Value} (he : e ∈ o.entries) :
    Toml.Bare e.1 ∧ ((∃ name, e.2 = .text name) ∨ ∃ n ∈ o.numbers, e.2 = .int (n : Nat)) := by
  simp only [entries, List.mem_append, mem_given] at he
  rcases he with (((⟨name, hm, rfl⟩ | ⟨n, hm, rfl⟩) | ⟨n, hm, rfl⟩) | ⟨n, hm, rfl⟩) | ⟨n, hm, rfl⟩
  · exact ⟨bare_keys _ (by simp [keys]), Or.inl ⟨name, rfl⟩⟩
  · exact ⟨bare_keys _ (by simp [keys]), Or.inr ⟨n, mem_numbers.mpr (by simp [hm]), rfl⟩⟩
  · exact ⟨bare_keys _ (by simp [keys]), Or.inr ⟨n, mem_numbers.mpr (by simp [hm]), rfl⟩⟩
  · exact ⟨bare_keys _ (by simp [keys]), Or.inr ⟨n, mem_numbers.mpr (by simp [hm]), rfl⟩⟩
  · exact ⟨bare_keys _ (by simp [keys]), Or.inr ⟨n, mem_numbers.mpr (by simp [hm]), rfl⟩⟩

/-- No setting is given twice. -/
theorem nodup_entries : (o.entries.map (·.1)).Nodup := by
  have one {α : Type} {key : String} {f : α → Toml.Value} {a? : Option α} :
      ((given key f a?).map (·.1)).Sublist [key] := by
    cases a? with
    | none => exact List.nil_sublist _
    | some a => exact List.Sublist.refl _
  have all : (o.entries.map (·.1)).Sublist keys := by
    simp only [entries, List.map_append]
    exact (((one.append one).append one).append one).append one
  exact all.nodup (by decide)

/-- Read one after the other, the entries put what is given in the place of the defaults. -/
theorem foldlM_entries : o.entries.foldlM Settings.assign {} = some o.settings := by
  have accepted (n : Nat) (s : Settings) :
      (if 0 ≤ (n : Int) then some s else none) = some s := if_pos (Int.natCast_nonneg n)
  have queue (s : Settings) : (given "queue" .text o.queue).foldlM Settings.assign s =
      some { s with queue := o.queue.getD s.queue } := by
    cases o.queue <;> rfl
  have workers (s : Settings) :
      (given "workers" number o.workers).foldlM Settings.assign s =
        some { s with workers := o.workers.getD s.workers } := by
    cases o.workers with
    | none => rfl
    | some n => exact (bind_pure _).trans (accepted n _)
  have errorTtl (s : Settings) :
      (given "error_ttl_secs" number o.errorTtlSecs).foldlM Settings.assign s =
        some { s with errorTtl := (o.errorTtlSecs.map .ofSecs).getD s.errorTtl } := by
    cases o.errorTtlSecs with
    | none => rfl
    | some n => exact (bind_pure _).trans (accepted n _)
  have waitTimeout (s : Settings) :
      (given "wait_timeout_secs" number o.waitTimeoutSecs).foldlM Settings.assign s =
        some { s with waitTimeout := match o.waitTimeoutSecs with
          | some secs => if secs = 0 then none else some (.ofSecs secs)
          | none => s.waitTimeout } := by
    cases o.waitTimeoutSecs with
    | none => rfl
    | some n =>
        refine ((bind_pure _).trans (accepted n _)).trans ?_
        simp only [Int.natCast_eq_zero, Int.toNat_natCast]
  have pollTimeout (s : Settings) :
      (given "poll_timeout_ms" number o.pollTimeoutMs).foldlM Settings.assign s =
        some { s with pollTimeout := (o.pollTimeoutMs.map .ofMillis).getD s.pollTimeout } := by
    cases o.pollTimeoutMs with
    | none => rfl
    | some n => exact (bind_pure _).trans (accepted n _)
  simp only [entries, List.foldlM_append, queue, workers, errorTtl, waitTimeout, pollTimeout,
    Option.bind_eq_bind, Option.bind_some]
  rfl

/-- Any document of what is given gives the settings that it makes. -/
theorem ofToml_document (hn : o.Fits) (hp : es.Perm o.entries) (hd : Toml.Document es text) :
    Settings.ofToml text = o.settings.validate := by
  have hk : (es.map (·.1)).Nodup := (hp.map _).nodup_iff.mpr nodup_entries
  have hf : ∀ e ∈ es, e.2.Fits := by
    intro e he n hv
    rcases (of_mem_entries (hp.mem_iff.mp he)).2 with ⟨name, hs⟩ | ⟨m, hm, hs⟩
    · cases hs.symm.trans hv
    · obtain rfl := Toml.Value.int.inj (hs.symm.trans hv)
      exact hn m hm
  unfold Settings.ofToml
  rw [Toml.parse?_document hd hf hk, Option.bind_some,
    Settings.foldlM_assign_perm hp hk, foldlM_entries]

/-! ### Agreement -/

/-- **Both sources agree.**  Let any of the five settings be given: a name for the queue, whatever
its characters are, and numbers up to the greatest integer of 64 bits.  The environment that sets
the variables of just these settings, and an address for the store, gives the defaults with what is
given in their place, or says what is wrong with them.  Entries in any order can be written as a
document, and whatever document of them is read, the outcome is the same. -/
theorem sources_agree (o : Overrides) (hn : o.Fits) {env : Environment} (he : o.SetIn env)
    (hu : env "REDIS_URL" ≠ none) {es : List (String × Toml.Value)} (hp : es.Perm o.entries) :
    (ProcessSettings.ofEnvironment env).map (·.cache) = o.settings.validate ∧
      (∃ text, Toml.Document es text) ∧
      ∀ text, Toml.Document es text →
        Settings.ofToml text = (ProcessSettings.ofEnvironment env).map (·.cache) := by
  have hc : (ProcessSettings.ofEnvironment env).map (·.cache) = o.settings.validate := by
    obtain ⟨url, hu⟩ := Option.ne_none_iff_exists'.mp hu
    unfold ProcessSettings.ofEnvironment
    rw [cacheOf_set hn he]
    dsimp only [Bind.bind, Except.bind]
    rw [hu]
    cases o.settings.validate with
    | error e => rfl
    | ok s => rfl
  have hd : ∃ text, Toml.Document es text := by
    refine Toml.exists_document fun e hm => ?_
    obtain ⟨hb, ⟨name, hv⟩ | ⟨n, -, hv⟩⟩ := of_mem_entries (hp.mem_iff.mp hm)
    · exact ⟨hb, hv ▸ .text name⟩
    · exact ⟨hb, hv ▸ .int n⟩
  exact ⟨hc, hd, fun text ht => (ofToml_document hn hp ht).trans hc.symm⟩

/-- A name with a quote and a line feed, no limit, and the longest time that a document can give. -/
theorem sources_agree_quoted :
    let o : Overrides := ⟨some "a\"b\n", none, none, some 0, some 9223372036854775807⟩
    let env : Environment := fun name =>
      [("REDIS_URL", "redis://localhost"), ("RTCACHE_QUEUE", "a\"b\n"),
        ("RTCACHE_WAIT_TIMEOUT_SECS", "0"),
        ("RTCACHE_POLL_TIMEOUT_MS", "9223372036854775807")].lookup name
    let es : List (String × Toml.Value) :=
      [("wait_timeout_secs", .int 0), ("queue", .text "a\"b\n"),
        ("poll_timeout_ms", .int 9223372036854775807)]
    let text := "wait_timeout_secs=0\r\n\n  queue = \"a\\u0022b\\n\" # x\n" ++
      "poll_timeout_ms = 9223372036854775807"
    (o.Fits ∧ o.SetIn env ∧ env "REDIS_URL" ≠ none ∧ es.Perm o.entries ∧ Toml.Document es text) ∧
      Settings.ofToml text =
        .ok ⟨"a\"b\n", 4, .ofSecs 10, none, .ofMillis 9223372036854775807⟩ := by
  intro o env es text
  have hn : o.Fits := by
    show ∀ n ∈ ([0, 9223372036854775807] : List Nat), (n : Int) ≤ Int64.maxValue.toInt
    decide
  have he : o.SetIn env := ⟨by decide, by decide, by decide, by decide +kernel, by decide +kernel⟩
  have hu : env "REDIS_URL" ≠ none := by decide
  have hp : es.Perm o.entries := by decide +kernel
  have hd : Toml.Document es text := by
    have blank (cs : List Char) (h : cs.all Toml.isBlank = true) : Toml.Blank cs :=
      Toml.blank_of_all h
    have quote : Toml.Spells '"' ['\\', 'u', '0', '0', '2', '2'] := .short rfl ⟨2, by decide⟩
    have feed : Toml.Spells '\n' ['\\', 'n'] := .letter (by decide)
    have hb : Toml.Body ['a', '"', 'b', '\n'] _ :=
      .cons (.plain (by decide) (by decide) (by decide)) (.cons quote
        (.cons (.plain (by decide) (by decide) (by decide)) (.cons feed .nil)))
    have hl : "a\"b\n".toList = ['a', '"', 'b', '\n'] := by decide
    rw [← hl] at hb
    have first := Toml.Line.entry (blank [] rfl) (bare_keys "wait_timeout_secs" (by decide))
      (blank [] rfl) (blank [] rfl) (.int 0) (blank [] rfl) (Or.inl rfl)
    have second := Toml.Line.entry (blank [' ', ' '] rfl) (bare_keys "queue" (by decide))
      (blank [' '] rfl) (blank [' '] rfl) (.text hb) (blank [' '] rfl)
      (Or.inr ⟨[' ', 'x'], rfl, List.all_eq_true.mp rfl⟩)
    have third := Toml.Line.entry (blank [] rfl) (bare_keys "poll_timeout_ms" (by decide))
      (blank [' '] rfl) (blank [' '] rfl) (.int 9223372036854775807) (blank [] rfl) (Or.inl rfl)
    have all := Toml.Lines.more first (Or.inr rfl)
      (.more (.empty (blank [] rfl) (Or.inl rfl)) (Or.inl rfl)
        (.more second (Or.inl rfl) (.last third)))
    refine Eq.mp (congrArg (Toml.Lines es) ?_) all
    decide +kernel
  obtain ⟨hc, -, ht⟩ := sources_agree o hn he hu hp
  exact ⟨⟨hn, he, hu, hp, hd⟩, (ht text hd).trans (hc.trans (by decide +kernel))⟩

end Overrides

end ReadThrough
