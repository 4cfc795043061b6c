/-
Reading a configuration from the entries of a document.

Each setting has a key.  A setting that is not there keeps its default, one of
the wrong kind makes the document unusable, and other keys are ignored.  The
interpreter may also be given as a list of its settings in order.
-/
import LiveDoc.Config
import LiveDoc.Toml.Scalar

namespace LiveDoc

open Toml (Value Entries)

namespace Setting

def text? : Value → Option String
  | .text s => some s
  | _ => none

/-- The largest time that can be set, in milliseconds. -/
def maxMillis : Nat := Nat.pow 2 64 - 1

def millis? : Value → Option Nat
  | .integer n => if 0 ≤ n ∧ n ≤ maxMillis then some n.toNat else none
  | _ => none

def texts? : Value → Option (List String)
  | .array items => items.mapM text?
  | _ => none

/-- Reads a setting, `default` if there is none. -/
def read {α : Type} (kind : Value → Option α) (default : α) : Option Value → Option α
  | none => some default
  | some v => kind v

end Setting

namespace InterpreterConfig

/-- The settings of an interpreter, where `setting` finds each by its key and its position. -/
def ofSettings? (setting : String → Nat → Option Value) : Option InterpreterConfig := do
  let base := InterpreterConfig.default
  let command ← Setting.read Setting.text? base.command (setting "command" 0)
  let args ← Setting.read Setting.texts? base.args (setting "args" 1)
  let prompt ← Setting.read Setting.text? base.prompt (setting "prompt" 2)
  let loadFlag ← Setting.read Setting.text? base.loadFlag (setting "load_flag" 3)
  let artifactSuffix ← Setting.read Setting.text? base.artifactSuffix (setting "artifact_suffix" 4)
  some ⟨command, args, prompt, loadFlag, artifactSuffix⟩

/-- The settings of an interpreter that a value stands for.  A date has none of them. -/
def ofValue? : Value → Option InterpreterConfig
  | .table _ entries => ofSettings? fun key _ => entries.lookup key
  | .array items => ofSettings? fun _ i => items[i]?
  | .date => some .default
  | _ => none

end InterpreterConfig

namespace Config

def ofEntries? (entries : Entries) : Option Config := do
  let base := Config.default
  let language ← Setting.read Setting.text? base.language (entries.lookup "language")
  let eval ← Setting.read Setting.millis? base.evalTimeout (entries.lookup "eval_timeout_ms")
  let startup ←
    Setting.read Setting.millis? base.startupTimeout (entries.lookup "startup_timeout_ms")
  let grace ←
    Setting.read Setting.millis? base.shutdownGrace (entries.lookup "shutdown_grace_ms")
  let interpreter ←
    Setting.read InterpreterConfig.ofValue? base.interpreter (entries.lookup "interpreter")
  some ⟨language, eval, startup, grace, interpreter⟩

end Config
end LiveDoc
