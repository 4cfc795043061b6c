/-
The settings in a file over the defaults.

A file gives some of the settings and leaves out the others, has them in any order, writes their
values in any form, and may have other keys besides.  What is loaded is what it gives over the
defaults, if that can be used, and otherwise the message of the first rule that it breaks.

`Fit` says which lines can make up a file, `Given.In` how the settings stand among them, and
`Spells` how the lines are written.
-/
import Mathlib.Data.List.Nodup
import LiveDoc.Config.Load
import LiveDoc.Proofs.Text.Utf8
import LiveDoc.Proofs.Toml.Writing

namespace LiveDoc

open Toml

/-! ## Rules -/

namespace Config

structure Rule where
  message : String
  holds : Config → Bool

def rules : List Rule :=
  [⟨"language must be non-empty", fun c => !isBlankText c.language⟩,
    ⟨"eval_timeout_ms must be > 0", fun c => 0 < c.evalTimeout⟩,
    ⟨"startup_timeout_ms must be > 0", fun c => 0 < c.startupTimeout⟩,
    ⟨"interpreter.command must be non-empty", fun c => !isBlankText c.interpreter.command⟩,
    ⟨"interpreter.prompt must be non-empty", fun c => c.interpreter.prompt != ""⟩]

theorem fault?_eq_find? (c : Config) :
    c.fault?.map ConfigFault.message = (rules.find? fun r => !r.holds c).map Rule.message := by
  unfold fault?
  by_cases hlanguage : isBlankText c.language = true
  · simp [rules, hlanguage, ConfigFault.message]
  by_cases heval : c.evalTimeout = 0
  · simp [rules, hlanguage, heval, ConfigFault.message]
  have heval' : 0 < c.evalTimeout := Nat.pos_of_ne_zero heval
  by_cases hstartup : c.startupTimeout = 0
  · simp [rules, hlanguage, heval', heval, hstartup, ConfigFault.message]
  have hstartup' : 0 < c.startupTimeout := Nat.pos_of_ne_zero hstartup
  by_cases hcommand : isBlankText c.interpreter.command = true
  · simp [rules, hlanguage, heval', heval, hstartup', hstartup, hcommand, ConfigFault.message]
  by_cases hprompt : c.interpreter.prompt = ""
  · simp [rules, hlanguage, heval', heval, hstartup', hstartup, hcommand, hprompt,
      ConfigFault.message]
  · simp [rules, hlanguage, heval', heval, hstartup', hstartup, hcommand, hprompt]

theorem validated_of_holds {c : Config} (h : ∀ r ∈ rules, r.holds c = true) :
    c.validated = .ok c := by
  have hfind : rules.find? (fun r => !r.holds c) = none :=
    List.find?_eq_none.mpr fun r hr => by rw [h r hr]; decide
  have hfault := c.fault?_eq_find?
  rw [hfind, Option.map_none, Option.map_eq_none_iff] at hfault
  rw [validated, hfault]

theorem validated_of_broken {c : Config} {before after : List Rule} {r : Rule}
    (hrules : rules = before ++ r :: after) (hbefore : ∀ q ∈ before, q.holds c = true)
    (hr : r.holds c = false) : ∃ e, c.validated = .error e ∧ e.message = r.message := by
  have hfind : rules.find? (fun r => !r.holds c) = some r :=
    List.find?_eq_some_iff_append.mpr ⟨by rw [hr]; rfl, before, after, hrules, fun q hq => by
      rw [hbefore q hq]; rfl⟩
  have hfault := c.fault?_eq_find?
  rw [hfind] at hfault
  obtain ⟨fault, hfault, hmessage⟩ := Option.map_eq_some_iff.mp hfault
  exact ⟨.invalid fault, by rw [validated, hfault], hmessage⟩

theorem holds_of_validated {c c' : Config} (h : c.validated = .ok c') :
    ∀ r ∈ rules, r.holds c' = true := by
  unfold validated at h
  split at h
  · cases h
  · next hfault =>
    obtain rfl := Except.ok.inj h
    have hfind := c.fault?_eq_find?
    rw [hfault, Option.map_none, eq_comm, Option.map_eq_none_iff, List.find?_eq_none] at hfind
    intro r hr
    simpa using hfind r hr

theorem readText_of_read {files : Files} {path text : String}
    (h : files.read path = .ok (bytesOf text)) : files.readText path = .ok text := by
  have hdecode : Utf8.decode? (bytesOf text) = some text.toList := Utf8.decode?_encode text.toList
  rw [Files.readText, h]
  dsimp only
  rw [hdecode]
  exact congrArg Except.ok String.ofList_toList

theorem exists?_of_read {files : Files} {path : String} {content : Bytes}
    (h : files.read path = .ok content) : files.exists? path = true := by
  unfold Files.read at h
  unfold Files.exists?
  cases hlocate : files.locate path with
  | error e =>
    rw [hlocate] at h
    cases h
  | ok p =>
    rw [hlocate] at h
    dsimp only at h ⊢
    cases hat : files.at? p with
    | none =>
      rw [hat] at h
      cases h
    | some entry => rfl

theorem load_of_read {files : Files} {path text : String}
    (h : files.read path = .ok (bytesOf text)) :
    load files path =
      match ofText? text with
      | none => .error (.malformed path text)
      | some c => c.validated := by
  have hexists := exists?_of_read h
  have htext := readText_of_read h
  cases hc : ofText? text with
  | none => simp only [load, hexists, htext, hc, if_true]
  | some c => simp only [load, hexists, htext, hc, if_true]

end Config

/-! ## Settings that are given -/

/-- Some of the settings, those that are not given being `none`. -/
structure Given where
  language : Option String
  evalTimeout : Option Nat
  startupTimeout : Option Nat
  shutdownGrace : Option Nat
  command : Option String
  args : Option (List String)
  prompt : Option String
  loadFlag : Option String
  artifactSuffix : Option String

namespace Given

def config (g : Given) : Config where
  language := g.language.getD Config.default.language
  evalTimeout := g.evalTimeout.getD Config.default.evalTimeout
  startupTimeout := g.startupTimeout.getD Config.default.startupTimeout
  shutdownGrace := g.shutdownGrace.getD Config.default.shutdownGrace
  interpreter :=
    { command := g.command.getD InterpreterConfig.default.command
      args := g.args.getD InterpreterConfig.default.args
      prompt := g.prompt.getD InterpreterConfig.default.prompt
      loadFlag := g.loadFlag.getD InterpreterConfig.default.loadFlag
      artifactSuffix := g.artifactSuffix.getD InterpreterConfig.default.artifactSuffix }

/-- The times that are given fit into 63 bits. -/
def InRange (g : Given) : Prop :=
  ∀ time ∈ [g.evalTimeout, g.startupTimeout, g.shutdownGrace], ∀ n ∈ time, n < 2 ^ 63

def settings (g : Given) : List (String × Option Value) :=
  [("language", g.language.map .text),
    ("eval_timeout_ms", g.evalTimeout.map fun n : Nat => .integer n),
    ("startup_timeout_ms", g.startupTimeout.map fun n : Nat => .integer n),
    ("shutdown_grace_ms", g.shutdownGrace.map fun n : Nat => .integer n)]

def interpreterSettings (g : Given) : List (String × Option Value) :=
  [("command", g.command.map .text),
    ("args", g.args.map fun args => .array (args.map .text)),
    ("prompt", g.prompt.map .text),
    ("load_flag", g.loadFlag.map .text),
    ("artifact_suffix", g.artifactSuffix.map .text)]

theorem keys (g : Given) : g.settings.map Prod.fst =
    ["language", "eval_timeout_ms", "startup_timeout_ms", "shutdown_grace_ms"] := rfl

theorem interpreterKeys (g : Given) : g.interpreterSettings.map Prod.fst =
    ["command", "args", "prompt", "load_flag", "artifact_suffix"] := rfl

theorem key_ne (g : Given) {s : String × Option Value} (hs : s ∈ g.settings) :
    s.1 ≠ "interpreter" := by
  have hmem : s.1 ∈ g.settings.map Prod.fst := List.mem_map.mpr ⟨s, hs, rfl⟩
  have hne : ∀ key ∈ ["language", "eval_timeout_ms", "startup_timeout_ms", "shutdown_grace_ms"],
      key ≠ "interpreter" := by decide
  exact hne s.1 (g.keys ▸ hmem)

end Given

/-- The settings of the interpreter stand in a table written as a value, or below headers and
under dotted keys. -/
inductive GivesInterpreter (S : Standing) (settings : List (String × Option Value)) : Prop
  | inline {ps : Pairs}
      (h : ∃ a ∈ S.values, a.path = ["interpreter"] ∧ a.value = .table .inline (entered ps))
      (hdistinct : Distinct ps) (hps : (standing .empty (entryLines ps)).Gives [] settings)
  | below (hvalue : ∀ a ∈ S.values, a.path ≠ ["interpreter"])
      (helement : ["interpreter"] ∉ S.elements) (h : S.Gives ["interpreter"] settings)

/-- A file gives these settings, and under other keys anything else. -/
structure Given.In (g : Given) (S : Standing) : Prop where
  top : S.Gives [] g.settings
  interpreter : GivesInterpreter S g.interpreterSettings

/-! ## Reading settings -/

theorem read_text (default : String) (given : Option String) :
    Setting.read Setting.text? default (given.map .text) = some (given.getD default) := by
  cases given <;> rfl

theorem read_millis (default : Nat) {given : Option Nat} (h : ∀ n ∈ given, n < 2 ^ 63) :
    Setting.read Setting.millis? default (given.map fun n : Nat => .integer n) =
      some (given.getD default) := by
  cases given with
  | none => rfl
  | some n =>
    have hn := h n rfl
    show (if 0 ≤ (n : Int) ∧ (n : Int) ≤ Setting.maxMillis then some (n : Int).toNat else none) = _
    have hmax : (n : Int) ≤ Setting.maxMillis := by
      have hpow : Setting.maxMillis = 2 ^ 64 - 1 := rfl
      rw [hpow]
      omega
    rw [if_pos ⟨Int.natCast_nonneg n, hmax⟩]
    rfl

theorem mapM_text? (args : List String) : (args.map Value.text).mapM Setting.text? = some args := by
  induction args with
  | nil => rfl
  | cons arg args ih =>
    rw [List.map_cons, List.mapM_cons, ih]
    rfl

theorem read_texts (default : List String) (given : Option (List String)) :
    Setting.read Setting.texts? default (given.map fun args => .array (args.map .text)) =
      some (given.getD default) := by
  cases given with
  | none => rfl
  | some args => exact mapM_text? args

theorem ofSettings?_of_lookup (g : Given) {setting : String → Nat → Option Value}
    (h : ∀ s ∈ g.interpreterSettings, ∀ i, setting s.1 i = s.2) :
    InterpreterConfig.ofSettings? setting = some g.config.interpreter := by
  simp only [Given.interpreterSettings, List.forall_mem_cons] at h
  obtain ⟨hcommand, hargs, hprompt, hflag, hsuffix, -⟩ := h
  simp only [InterpreterConfig.ofSettings?, hcommand, hargs, hprompt, hflag, hsuffix, read_text,
    read_texts, Option.bind_eq_bind, Option.bind_some]
  rfl

theorem read_interpreter (g : Given) {origin : Origin} {entries : Entries}
    (h : ∀ s ∈ g.interpreterSettings, entries.lookup s.1 = s.2) :
    Setting.read InterpreterConfig.ofValue? Config.default.interpreter
      (some (.table origin entries)) = some g.config.interpreter := by
  show InterpreterConfig.ofSettings? (fun key _ => entries.lookup key) = _
  exact ofSettings?_of_lookup g fun s hs _ => h s hs

theorem ofEntries?_of_lookup (g : Given) (hrange : g.InRange) {entries : Entries}
    (h : ∀ s ∈ g.settings, entries.lookup s.1 = s.2)
    (hinterpreter : Setting.read InterpreterConfig.ofValue? Config.default.interpreter
      (entries.lookup "interpreter") = some g.config.interpreter) :
    Config.ofEntries? entries = some g.config := by
  simp only [Given.settings, List.forall_mem_cons] at h
  obtain ⟨hlanguage, heval, hstartup, hgrace, -⟩ := h
  have hread : ∀ default, ∀ time ∈ [g.evalTimeout, g.startupTimeout, g.shutdownGrace],
      Setting.read Setting.millis? default (time.map fun n : Nat => .integer n) =
        some (time.getD default) :=
    fun default time htime => read_millis default (hrange time htime)
  simp only [Config.ofEntries?, hlanguage, heval, hstartup, hgrace, hinterpreter, read_text,
    hread _ g.evalTimeout (by simp), hread _ g.startupTimeout (by simp),
    hread _ g.shutdownGrace (by simp), Option.bind_eq_bind, Option.bind_some]
  rfl

/-- The interpreter is configured with what is given of it, in whichever form. -/
theorem Given.In.interpreter_eq {g : Given} {S : Standing} (h : g.In S) {st : State}
    (hstands : Stands S st) :
    Setting.read InterpreterConfig.ofValue? Config.default.interpreter
      (st.entries.lookup "interpreter") = some g.config.interpreter := by
  cases h.interpreter with
  | @inline ps hvalue hdistinct hps =>
    obtain ⟨a, ha, hpath, hvalue⟩ := hvalue
    rw [lookup_eq_find?, ← hpath, hstands.values a ha, hvalue]
    exact read_interpreter g (hdistinct.stands.2.lookup_of_gives hps)
  | below hvalue helement hgives =>
    have hne : ∀ a ∈ S.values, ¬ a.path <+: ["interpreter"] := by
      intro a ha hprefix
      rcases List.prefix_concat_iff.mp (show a.path <+: [] ++ ["interpreter"] from hprefix) with
        heq | hnil
      · exact hvalue a ha heq
      · exact hstands.keys a ha (List.append_eq_nil_iff.mp (List.prefix_nil.mp hnil)).2
    have hfound := hstands.find?_of_gives hne hgives
    cases hlookup : st.entries.lookup "interpreter" with
    | none =>
      show InterpreterConfig.ofSettings? (fun _ _ => none) = _
      refine ofSettings?_of_lookup g fun s hs _ => ?_
      rw [← hfound s hs, find?_append, ← lookup_eq_find?, hlookup]
      rfl
    | some v =>
      have hv : find? ["interpreter"] st.root = some v := by
        rw [← lookup_eq_find?, hlookup]
      obtain ⟨origin, inner, rfl, hinner⟩ :=
        hstands.exists_table (List.cons_ne_nil _ _) hne helement hv
      refine read_interpreter g fun s hs => ?_
      rw [← hfound s hs, find?_append, hv, Option.bind_some, find?_cons hinner, bind_find?_nil]

theorem Given.In.ofText? {g : Given} {lines : List Line} (h : g.In (standing .empty lines))
    (hfit : Fit .empty lines) (hrange : g.InRange) {text : String}
    (htext : Spells maxDepth maxDepth lines text.toList) : Config.ofText? text = some g.config := by
  obtain ⟨st, hrun, hstands⟩ := stands_empty.run hfit
  rw [Config.ofText?, parse?_of_spells htext (Nat.le_refl _) (Nat.le_refl _) hrun]
  exact ofEntries?_of_lookup g hrange (hstands.lookup_of_gives h.top) (h.interpreter_eq hstands)

/-! ## A file for any settings -/

def given (settings : List (String × Option Value)) : Pairs :=
  settings.filterMap fun s => s.2.map fun v => ([s.1], v)

def Given.lines (g : Given) : List Line :=
  entryLines (given g.settings) ++
    .header ["interpreter"] :: entryLines (given g.interpreterSettings)

theorem mem_given {settings : List (String × Option Value)} {p : List String × Value} :
    p ∈ given settings ↔ ∃ s ∈ settings, ∃ v, s.2 = some v ∧ p = ([s.1], v) := by
  simp only [given, List.mem_filterMap, Option.map_eq_some_iff]
  constructor
  · rintro ⟨s, hs, v, hv, rfl⟩
    exact ⟨s, hs, v, hv, rfl⟩
  · rintro ⟨s, hs, v, hv, rfl⟩
    exact ⟨s, hs, v, hv, rfl⟩

theorem apart_singleton {key other : String} (h : key ≠ other) : Apart [key] [other] :=
  ⟨fun hprefix => h (List.cons_prefix_cons.mp hprefix).1,
    fun hprefix => h (List.cons_prefix_cons.mp hprefix).1.symm⟩

theorem distinct_given {settings : List (String × Option Value)}
    (h : (settings.map Prod.fst).Nodup) : Distinct (given settings) where
  ne_nil p hp := by
    obtain ⟨s, -, v, -, rfl⟩ := mem_given.mp hp
    exact List.cons_ne_nil _ _
  apart := by
    rw [given, List.pairwise_filterMap]
    refine (List.pairwise_map.mp h).imp fun hne p hp q hq => ?_
    obtain ⟨v, -, rfl⟩ := Option.map_eq_some_iff.mp hp
    obtain ⟨w, -, rfl⟩ := Option.map_eq_some_iff.mp hq
    exact apart_singleton hne

/-- The settings stand in a table if nothing else stands under their keys. -/
theorem gives_given {S : Standing} {table : List String} {settings : List (String × Option Value)}
    (hnodup : (settings.map Prod.fst).Nodup)
    (hgiven : ∀ p ∈ given settings, ⟨table, p.1, p.2⟩ ∈ S.values)
    (hvalues : ∀ a ∈ S.values, (∃ p ∈ given settings, a = ⟨table, p.1, p.2⟩) ∨
      ∀ s ∈ settings, ¬ table ++ [s.1] <+: a.path)
    (htables : ∀ q ∈ S.tables, ∀ s ∈ settings, ¬ table ++ [s.1] <+: q) :
    S.Gives table settings := by
  intro s hs
  constructor
  · intro v hv
    exact ⟨_, hgiven _ (mem_given.mpr ⟨s, hs, v, hv, rfl⟩), rfl, rfl⟩
  · rintro hnone (⟨a, ha, hprefix⟩ | ⟨q, hq, hprefix⟩)
    · rcases hvalues a ha with ⟨p, hp, rfl⟩ | hother
      · obtain ⟨s', hs', v, hv, rfl⟩ := mem_given.mp hp
        have hkey : [s.1] <+: [s'.1] := (List.prefix_append_right_inj table).mp hprefix
        have hsame : s' = s :=
          List.inj_on_of_nodup_map hnodup hs' hs (List.cons_prefix_cons.mp hkey).1.symm
        rw [hsame, hnone] at hv
        cases hv
      · exact hother s hs hprefix
    · exact htables q hq s hs hprefix

theorem Given.not_prefix_interpreter (g : Given) {s : String × Option Value}
    (hs : s ∈ g.settings) (path : List String) : ¬ [s.1] <+: "interpreter" :: path :=
  fun hprefix => g.key_ne hs (List.cons_prefix_cons.mp hprefix).1

theorem not_prefix_of_singleton {key part part' : String} : ¬ [key, part] <+: [part'] := by
  intro hprefix
  have hlength : 2 ≤ 1 := hprefix.length_le
  exact absurd hlength (by decide)

theorem Given.fit_lines (g : Given) : Fit .empty g.lines := by
  have htop : Distinct (given g.settings) := distinct_given (by rw [g.keys]; decide)
  have hinterpreter : Distinct (given g.interpreterSettings) :=
    distinct_given (by rw [g.interpreterKeys]; decide)
  refine fit_append (fit_entryLines htop (fun _ _ => nofun) fun _ _ => nofun) ?_
  rw [standing_entryLines]
  have hvalues : ∀ a ∈ ((given g.settings).map fun p => (⟨[], p.1, p.2⟩ : Assignment)).reverse ++ [],
      ∃ s ∈ g.settings, a.path = [s.1] ∧ a.root = [s.1] := by
    intro a ha
    rw [List.append_nil, List.mem_reverse] at ha
    obtain ⟨p, hp, rfl⟩ := List.mem_map.mp ha
    obtain ⟨s, hs, v, -, rfl⟩ := mem_given.mp hp
    exact ⟨s, hs, rfl, rfl⟩
  refine ⟨⟨List.cons_ne_nil _ _, nofun, ?_⟩, fit_entryLines hinterpreter ?_ ?_⟩
  · intro a ha hroot
    obtain ⟨s, hs, -, ha⟩ := hvalues a ha
    exact absurd (ha ▸ hroot) (g.not_prefix_interpreter hs [])
  · intro p hp a ha
    obtain ⟨s, hs, ha, -⟩ := hvalues a ha
    obtain ⟨s', -, v, -, rfl⟩ := mem_given.mp hp
    rw [ha]
    exact ⟨not_prefix_of_singleton, g.not_prefix_interpreter hs _⟩
  · intro p hp q hq
    obtain ⟨s', -, v, -, rfl⟩ := mem_given.mp hp
    obtain rfl := List.mem_singleton.mp hq
    exact not_prefix_of_singleton

theorem Given.standing_lines (g : Given) : standing .empty g.lines =
    ⟨["interpreter"],
      ((given g.interpreterSettings).map fun p => ⟨["interpreter"], p.1, p.2⟩).reverse ++
        (((given g.settings).map fun p => ⟨[], p.1, p.2⟩).reverse ++ []),
      [["interpreter"]], []⟩ := by
  rw [Given.lines, standing_append, standing_entryLines]
  exact standing_entryLines _ _

theorem Given.mem_values (g : Given) (a : Assignment) :
    a ∈ (standing .empty g.lines).values ↔
      (∃ p ∈ given g.interpreterSettings, a = ⟨["interpreter"], p.1, p.2⟩) ∨
        ∃ p ∈ given g.settings, a = ⟨[], p.1, p.2⟩ := by
  rw [g.standing_lines]
  simp only [List.mem_append, List.mem_reverse, List.mem_map, List.not_mem_nil, or_false, eq_comm]

theorem Given.eq_of_mem_tables (g : Given) {q : List String}
    (hq : q ∈ (standing .empty g.lines).tables) : q = ["interpreter"] := by
  rw [g.standing_lines] at hq
  exact List.mem_singleton.mp hq

theorem Given.in_lines (g : Given) : g.In (standing .empty g.lines) where
  top := by
    refine gives_given (by rw [g.keys]; decide)
      (fun p hp => (g.mem_values _).mpr (Or.inr ⟨p, hp, rfl⟩)) (fun a ha => ?_) fun q hq s hs => ?_
    · rcases (g.mem_values a).mp ha with ⟨p, -, rfl⟩ | hgiven
      · exact Or.inr fun s hs => g.not_prefix_interpreter hs p.1
      · exact Or.inl hgiven
    · obtain rfl := g.eq_of_mem_tables hq
      exact g.not_prefix_interpreter hs []
  interpreter := by
    have htop : ∀ p ∈ given g.settings, ∃ s ∈ g.settings, p.1 = [s.1] := by
      intro p hp
      obtain ⟨s, hs, v, -, rfl⟩ := mem_given.mp hp
      exact ⟨s, hs, rfl⟩
    refine GivesInterpreter.below (fun a ha heq => ?_) ?_ ?_
    · rcases (g.mem_values a).mp ha with ⟨p, hp, rfl⟩ | ⟨p, hp, rfl⟩
      · obtain ⟨s, -, v, -, rfl⟩ := mem_given.mp hp
        exact absurd (List.cons.inj heq).2 (List.cons_ne_nil _ _)
      · obtain ⟨s, hs, hs'⟩ := htop p hp
        exact g.key_ne hs (List.cons.inj (hs'.symm.trans heq)).1
    · rw [g.standing_lines]
      exact List.not_mem_nil
    · refine gives_given (by rw [g.interpreterKeys]; decide)
        (fun p hp => (g.mem_values _).mpr (Or.inl ⟨p, hp, rfl⟩)) (fun a ha => ?_) fun q hq s _ => ?_
      · rcases (g.mem_values a).mp ha with hgiven | ⟨p, hp, rfl⟩
        · exact Or.inl hgiven
        · obtain ⟨s', -, hs'⟩ := htop p hp
          refine Or.inr fun s _ => ?_
          show ¬ ["interpreter", s.1] <+: p.1
          rw [hs']
          exact not_prefix_of_singleton
      · obtain rfl := g.eq_of_mem_tables hq
        exact not_prefix_of_singleton

theorem inRange_of_lt {n : Nat} (h : n < 2 ^ 63) : inRange n = true := by
  have hlower : (Nat.pow 2 127 : Nat) = 2 ^ 127 := rfl
  have hupper : (Nat.pow 2 128 : Nat) = 2 ^ 128 := rfl
  rw [inRange, Bool.and_eq_true, decide_eq_true_eq, decide_eq_true_eq, hlower, hupper]
  omega

theorem Given.writable (g : Given) (hrange : g.InRange) :
    ∀ s ∈ g.settings ++ g.interpreterSettings, ∀ v ∈ s.2, Writable maxDepth maxDepth v := by
  have htext : ∀ given : Option String, ∀ v ∈ given.map Value.text, Writable maxDepth maxDepth v := by
    rintro given v hv
    obtain ⟨s, -, rfl⟩ := Option.map_eq_some_iff.mp hv
    exact writable_text s maxDepth maxDepth
  have htime : ∀ time ∈ [g.evalTimeout, g.startupTimeout, g.shutdownGrace],
      ∀ v ∈ time.map (fun n : Nat => Value.integer n), Writable maxDepth maxDepth v := by
    rintro time htime v hv
    obtain ⟨n, hn, rfl⟩ := Option.map_eq_some_iff.mp hv
    exact writable_integer (inRange_of_lt (hrange time htime n hn)) maxDepth maxDepth
  have hargs : ∀ v ∈ g.args.map (fun args => Value.array (args.map .text)),
      Writable maxDepth maxDepth v := by
    rintro v hv
    obtain ⟨args, -, rfl⟩ := Option.map_eq_some_iff.mp hv
    refine writable_array (d := 79) fun w hw => ?_
    obtain ⟨s, -, rfl⟩ := List.mem_map.mp hw
    exact writable_text s maxDepth 79
  simp only [Given.settings, Given.interpreterSettings, List.cons_append, List.nil_append,
    List.forall_mem_cons]
  exact ⟨htext _, htime _ (by simp), htime _ (by simp), htime _ (by simp), htext _, hargs,
    htext _, htext _, htext _, nofun⟩

theorem Given.exists_text (g : Given) (hrange : g.InRange) :
    ∃ text : String, Spells maxDepth maxDepth g.lines text.toList := by
  have hentry : ∀ settings, (∀ s ∈ settings, ∀ v ∈ s.2, Writable maxDepth maxDepth v) →
      ∀ line ∈ entryLines (given settings), line.Writable maxDepth maxDepth := by
    intro settings hsettings line hline
    obtain ⟨p, hp, rfl⟩ := List.mem_map.mp hline
    obtain ⟨s, hs, v, hv, rfl⟩ := mem_given.mp hp
    exact ⟨List.cons_ne_nil _ _, show 1 ≤ maxDepth by decide, hsettings s hs v hv⟩
  have hwritable := g.writable hrange
  have hlines : ∀ line ∈ g.lines, line.Writable maxDepth maxDepth := by
    intro line hline
    rcases List.mem_append.mp hline with hline | hline
    · exact hentry _ (fun s hs => hwritable s (List.mem_append_left _ hs)) line hline
    · rcases List.mem_cons.mp hline with rfl | hline
      · exact ⟨List.cons_ne_nil _ _, show 1 ≤ maxDepth by decide⟩
      · exact hentry _ (fun s hs => hwritable s (List.mem_append_right _ hs)) line hline
  obtain ⟨s, hs⟩ := exists_spells hlines
  exact ⟨String.ofList s, by rwa [String.toList_ofList]⟩

/-! ## Loading -/

namespace Config

/-- Whatever settings are given, and wherever and however they are written, what is loaded is
exactly them over the defaults, or the first rule that they break is named. -/
theorem load_overlay (g : Given) (hrange : g.InRange) :
    (∃ (lines : List Line) (text : String), Fit .empty lines ∧ g.In (standing .empty lines) ∧
        Spells maxDepth maxDepth lines text.toList) ∧
      ∀ (lines : List Line) (text : String), Fit .empty lines → g.In (standing .empty lines) →
        Spells maxDepth maxDepth lines text.toList →
        ∀ (files : Files) (path : String), files.read path = .ok (bytesOf text) →
          ((∀ r ∈ rules, r.holds g.config = true) → load files path = .ok g.config) ∧
          (∀ before r after, rules = before ++ r :: after →
            (∀ q ∈ before, q.holds g.config = true) → r.holds g.config = false →
              ∃ e, load files path = .error e ∧ e.message = r.message) ∧
          ∀ c, load files path = .ok c → ∀ r ∈ rules, r.holds c = true := by
  constructor
  · obtain ⟨text, htext⟩ := g.exists_text hrange
    exact ⟨g.lines, text, g.fit_lines, g.in_lines, htext⟩
  · intro lines text hfit hin htext files path hread
    have hload : load files path = g.config.validated := by
      rw [load_of_read hread, hin.ofText? hfit hrange htext]
    rw [hload]
    exact ⟨validated_of_holds, fun _ _ _ => validated_of_broken, fun _ => holds_of_validated⟩

def settingsFile (text : String) : Files :=
  ⟨[(["replcheck.toml"], .file (bytesOf text))], []⟩

theorem read_settingsFile (text : String) :
    (settingsFile text).read "replcheck.toml" = .ok (bytesOf text) := by
  rfl

/-- A file with an array under a key that is no setting, with an escape in a string, and with
headers of both kinds. -/
def shellText : String := "y=[true]\nlanguage=\"sh\"\n[[a.b]]\n[interpreter]\nargs=[\"\\\"\"]\n"

def shellLines : List Line :=
  [.entry ["y"] (.array [.boolean true]), .entry ["language"] (.text "sh"), .element ["a", "b"],
    .header ["interpreter"], .entry ["args"] (.array [.text "\""])]

theorem spells_shell : Spells maxDepth maxDepth shellLines shellText.toList := by
  have hone : 0 < maxDepth := by decide
  have hargs : Spells maxDepth maxDepth [.entry ["args"] (.array [.text "\""])]
      ("args".toList ++
        '=' :: '[' :: '"' :: ("\"".toList.flatMap stringChar ++ ['"', ']', '\n'])) :=
    Spells.entry (Spaces.refl _) (key_of_word "args" (by decide) (by decide) (by decide) _ hone)
      (Spaces.refl _) (Writes.array (Writes.lastItem (Gap.none _)
        (writes_string "\"" maxDepth 79 _) (Gap.none _))) (restOfLine_lf []) Spells.done
  have hheader := Spells.header (Spaces.refl _) (Spaces.refl _)
    (key_of_word "interpreter" (by decide) (by decide) (by decide) _ hone) (restOfLine_lf _) hargs
  have hpath : ∀ t, Key maxDepth ("a".toList ++ '.' :: ("b".toList ++ ']' :: t)) ["a", "b"]
      (']' :: t) := fun t =>
    ⟨KeyParts.dotted (keyPart_of_word "a" (by decide) (by decide) (by decide) _) (Spaces.refl _)
      (Spaces.refl _) (key_of_word "b" (by decide) (by decide) (by decide) t hone).parts, by decide⟩
  have helement := Spells.element (Spaces.refl _) (Spaces.refl _) (hpath _) (restOfLine_lf _)
    hheader
  have hlanguage := Spells.entry (Spaces.refl _)
    (key_of_word "language" (by decide) (by decide) (by decide) _ hone)
    (Spaces.refl _) (writes_string "sh" maxDepth maxDepth _) (restOfLine_lf _) helement
  have htrue : IsWord "true".toList := forall_mem_of_all (by decide)
  have hy := Spells.entry (Spaces.refl _)
    (key_of_word "y" (by decide) (by decide) (by decide) _ hone)
    (Spaces.refl _) (Writes.array (Writes.lastItem (Gap.none _)
      (Writes.word htrue (Scalar.boolean true) 79 _) (Gap.none _))) (restOfLine_lf _) hlanguage
  exact hy

def shell : Given := ⟨some "sh", none, none, none, none, some ["\""], none, none, none⟩

theorem standing_shell : standing .empty shellLines =
    ⟨["interpreter"],
      [⟨["interpreter"], ["args"], .array [.text "\""]⟩, ⟨[], ["language"], .text "sh"⟩,
        ⟨[], ["y"], .array [.boolean true]⟩],
      [["interpreter"]], [["a", "b"]]⟩ := by
  rfl

theorem shell_in_shellLines : shell.In (standing .empty shellLines) := by
  rw [standing_shell]
  constructor
  · simp [Standing.Gives, Standing.Names, Standing.tables, Assignment.path, Given.settings, shell]
  · refine GivesInterpreter.below ?_ ?_ ?_
    · simp [Assignment.path]
    · decide
    · simp [Standing.Gives, Standing.Names, Standing.tables, Assignment.path,
        Given.interpreterSettings, shell]

/-- The case of one file. -/
theorem load_overlay_shell : shell.InRange ∧ load (settingsFile shellText) "replcheck.toml" =
      .ok ⟨"sh", 30000, 60000, 2000, ⟨"sbcl", ["\""], "* ", "--load", ".lisp"⟩⟩ := by
  have hrange : shell.InRange := by
    simp [Given.InRange, shell]
  have hfit : Fit .empty shellLines := by decide
  refine ⟨hrange, ((load_overlay shell hrange).2 shellLines shellText hfit shell_in_shellLines
    spells_shell _ _ (read_settingsFile shellText)).1 ?_⟩
  decide

/-! ## Files that go too deep -/

/-- A file with nothing but `n` arrays, each in the one before, under a key that is no setting. -/
def nestedText (n : Nat) : String :=
  String.ofList ("x".toList ++ '=' :: (List.replicate n '[' ++ (List.replicate n ']' ++ ['\n'])))

theorem key_nestedText (t : List Char) : Key maxDepth ("x".toList ++ '=' :: t) ["x"] ('=' :: t) :=
  key_of_word "x" (by decide) (by decide) (by decide) t (by decide)

theorem spells_nested (n : Nat) :
    Spells maxDepth (n + 1) [.entry ["x"] (nested n)] (nestedText (n + 1)).toList := by
  rw [nestedText, String.toList_ofList]
  exact Spells.entry (Spaces.refl _) (key_nestedText _) (Spaces.refl _)
    (writes_nested maxDepth n ['\n']) (restOfLine_lf []) Spells.done

def longKey : Nat → List Char
  | 0 => "a".toList
  | n + 1 => "a".toList ++ '.' :: longKey n

theorem keyParts_longKey (n : Nat) (t : List Char) :
    KeyParts (longKey n ++ '=' :: t) (List.replicate (n + 1) "a") ('=' :: t) := by
  induction n with
  | zero =>
    exact KeyParts.last (keyPart_of_word "a" (by decide) (by decide) (by decide) t) (Spaces.refl _)
  | succ n ih =>
    exact KeyParts.dotted (keyPart_of_word "a" (by decide) (by decide) (by decide) _)
      (Spaces.refl _) (Spaces.refl _) ih

/-- A file with nothing but a boolean under a dotted key that is no setting. -/
def dottedText (n : Nat) : String := String.ofList (longKey n ++ '=' :: ("true".toList ++ ['\n']))

theorem spells_dotted (n : Nat) :
    Spells (n + 1) 0 [.entry (List.replicate (n + 1) "a") (.boolean true)]
      (dottedText n).toList := by
  rw [dottedText, String.toList_ofList]
  have htrue : IsWord "true".toList := forall_mem_of_all (by decide)
  exact Spells.entry (Spaces.refl _) ⟨keyParts_longKey n _, by rw [List.length_replicate]⟩
    (Spaces.refl _) (Writes.word htrue (Scalar.boolean true) 0 ['\n']) (restOfLine_lf [])
    Spells.done

theorem load_of_parse?_none {text : String} (h : parse? text.toList = none) :
    load (settingsFile text) "replcheck.toml" = .error (.malformed "replcheck.toml" text) := by
  rw [load_of_read (read_settingsFile text), ofText?, h]
  rfl

theorem parse?_nestedText {n : Nat} (hn : maxDepth < n) : parse? (nestedText n).toList = none := by
  rw [nestedText, String.toList_ofList]
  exact parse?_of_deeper (key_nestedText _) (Nat.le_refl _) hn (Spaces.refl _)

theorem parse?_dottedText {n : Nat} (hn : maxDepth ≤ n) : parse? (dottedText n).toList = none := by
  rw [dottedText, String.toList_ofList]
  refine parse?_of_longer (keyParts_longKey n _) ?_
  rw [List.length_replicate]
  exact Nat.lt_succ_of_le hn

def nothing : Given := ⟨none, none, none, none, none, none, none, none, none⟩

/-- A value under a key that starts with no setting gives none. -/
theorem nothing_in {part : String} (hpart : part ∉ "interpreter" :: nothing.settings.map Prod.fst)
    (more : List String) (v : Value) : nothing.In (standing .empty [.entry (part :: more) v]) := by
  have hnames : ∀ key path, key ≠ part →
      ¬ (standing .empty [.entry (part :: more) v]).Names (key :: path) := by
    rintro key path hne (⟨a, ha, hprefix⟩ | ⟨q, hq, -⟩)
    · obtain rfl := List.mem_singleton.mp ha
      exact hne (List.cons_prefix_cons.mp hprefix).1
    · cases hq
  obtain ⟨hinterpreter, hsettings⟩ := List.ne_and_not_mem_of_not_mem_cons hpart
  have hnone : ∀ s ∈ nothing.settings ++ nothing.interpreterSettings, s.2 = none := by
    simp [Given.settings, Given.interpreterSettings, nothing]
  constructor
  · intro s hs
    have hs' := hnone s (List.mem_append_left _ hs)
    refine ⟨fun v hv => (by rw [hs'] at hv; cases hv), fun _ => hnames s.1 [] ?_⟩
    exact fun heq => hsettings (List.mem_map.mpr ⟨s, hs, heq⟩)
  · refine GivesInterpreter.below (fun a ha heq => ?_) List.not_mem_nil fun s hs => ?_
    · obtain rfl := List.mem_singleton.mp ha
      exact hinterpreter (List.cons.inj heq).1
    · have hs' := hnone s (List.mem_append_right _ hs)
      exact ⟨fun v hv => (by rw [hs'] at hv; cases hv),
        fun _ => hnames "interpreter" [s.1] (Ne.symm hinterpreter)⟩

/-- The files are well-formed and the defaults keep all rules, but they are refused. -/
theorem load_nested_three_hundred :
    nothing.InRange ∧ (∀ r ∈ rules, r.holds nothing.config = true) ∧
      (Fit .empty [.entry ["x"] (nested 299)] ∧
        nothing.In (standing .empty [.entry ["x"] (nested 299)]) ∧
        Spells maxDepth 300 [.entry ["x"] (nested 299)] (nestedText 300).toList ∧
        load (settingsFile (nestedText 300)) "replcheck.toml" =
          .error (.malformed "replcheck.toml" (nestedText 300))) ∧
      (Fit .empty [.entry (List.replicate 300 "a") (.boolean true)] ∧
        nothing.In (standing .empty [.entry (List.replicate 300 "a") (.boolean true)]) ∧
        Spells 300 0 [.entry (List.replicate 300 "a") (.boolean true)] (dottedText 299).toList ∧
        load (settingsFile (dottedText 299)) "replcheck.toml" =
          .error (.malformed "replcheck.toml" (dottedText 299))) := by
  have hfit : ∀ (key : List String) (v : Value), key ≠ [] → Fit .empty [.entry key v] :=
    fun key v hkey => ⟨⟨hkey, nofun, nofun⟩, trivial⟩
  have hrange : nothing.InRange := by
    simp [Given.InRange, nothing]
  refine ⟨hrange, by decide, ⟨hfit _ _ (List.cons_ne_nil _ _), nothing_in (by decide) [] _,
    spells_nested 299, load_of_parse?_none (parse?_nestedText (by decide))⟩, ?_⟩
  exact ⟨hfit _ _ (List.cons_ne_nil _ _), nothing_in (by decide) _ _, spells_dotted 299,
    load_of_parse?_none (parse?_dottedText (by decide))⟩

end Config
end LiveDoc
