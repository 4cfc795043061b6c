/-
Reading TOML documents.

The document is a table of entries.  A header says which table the entries below
it belong to; a dotted key reaches into tables inside that one.  No key may be
given twice, and no table may be defined in two ways.
-/
import LiveDoc.Toml.Scalar

namespace LiveDoc
namespace Toml

/-! ## Keys -/

def isKeyChar (c : Char) : Bool := c.isAlphanum || c == '_' || c == '-'

def keyPart? (s : List Char) : Option (String × List Char) :=
  match s with
  | '"' :: _ => (string? s).map fun (k, rest) => (String.ofList k, rest)
  | '\'' :: _ => (string? s).map fun (k, rest) => (String.ofList k, rest)
  | _ =>
    let k := s.takeWhile isKeyChar
    if k.isEmpty then none else some (String.ofList k, s.drop k.length)

/-- Reads parts of a key, which full stops divide, and the white space around them. -/
def keyParts? : Nat → List Char → Option (List String × List Char)
  | 0, _ => none
  | fuel + 1, s => do
    let (part, rest) ← keyPart? (skipSpace s)
    match skipSpace rest with
    | '.' :: rest => do
      let (parts, rest) ← keyParts? fuel rest
      some (part :: parts, rest)
    | rest => some ([part], rest)

/-- How deep values may be nested, and how many parts a key may have. -/
def maxDepth : Nat := 80

def key? (s : List Char) : Option (List String × List Char) :=
  (keyParts? (s.length + 1) s).filter fun (parts, _) => parts.length ≤ maxDepth

/-! ## Entering values -/

def enter (value : Value) : List String → Bool → Entries → Option Entries
  | [], _, _ => none
  | [key], _, entries =>
    match entries.lookup key with
    | none => some (entries ++ [(key, value)])
    | some _ => none
  | key :: path, _, entries =>
    match entries.lookup key with
    | none => (enter value path true []).map fun inner => entries ++ [(key, .table .dotted inner)]
    | some (.table .dotted inner) =>
      (enter value path true inner).map fun inner => Entries.set key (.table .dotted inner) entries
    | some (.table .implied inner) =>
      if path.length = 1 then none
      else (enter value path true inner).map fun inner =>
        Entries.set key (.table .implied inner) entries
    | some _ => none

def changeLast (f : Entries → Option Entries) : List Entries → Option (List Entries)
  | [] => none
  | [t] => (f t).map fun t => [t]
  | t :: rest => (changeLast f rest).map (t :: ·)

/-- The entries with those of the table at the end of a path changed.  Tables on the way are
created. -/
def change (f : Entries → Option Entries) : List String → Entries → Option Entries
  | [], entries => f entries
  | key :: path, entries =>
    match entries.lookup key with
    | none => (change f path []).map fun inner => entries ++ [(key, .table .implied inner)]
    | some (.tables items) =>
      (changeLast (change f path) items).map fun items => Entries.set key (.tables items) entries
    | some (.table .inline _) => none
    | some (.table origin inner) =>
      (change f path inner).map fun inner => Entries.set key (.table origin inner) entries
    | some _ => none

def openTable (key : String) (entries : Entries) : Option Entries :=
  match entries.lookup key with
  | none => some (entries ++ [(key, .table .header [])])
  | some (.table .implied inner) => some (Entries.set key (.table .header inner) entries)
  | some _ => none

def appendTable (key : String) (entries : Entries) : Option Entries :=
  match entries.lookup key with
  | none => some (entries ++ [(key, .tables [[]])])
  | some (.tables items) => some (Entries.set key (.tables (items ++ [[]])) entries)
  | some _ => none

/-! ## Values -/

mutual

/-- Reads a value.  `depth` bounds how deep arrays and tables may be nested in it. -/
def value? : Nat → Nat → List Char → Option (Value × List Char)
  | 0, _, _ => none
  | fuel + 1, depth, s =>
    match s with
    | '"' :: _ => (anyString? s).map fun (t, rest) => (.text (String.ofList t), rest)
    | '\'' :: _ => (anyString? s).map fun (t, rest) => (.text (String.ofList t), rest)
    | '[' :: rest =>
      match depth with
      | 0 => none
      | depth + 1 => (items? fuel depth rest).map fun (items, rest) => (.array items, rest)
    | '\x7b' :: rest =>
      match depth with
      | 0 => none
      | depth + 1 =>
        (entries? fuel depth [] rest).map fun (entries, rest) => (.table .inline entries, rest)
    | s => bareValue? s

def items? : Nat → Nat → List Char → Option (List Value × List Char)
  | 0, _, _ => none
  | fuel + 1, depth, s => do
    let s ← skipLines? (s.length + 1) s
    match s with
    | ']' :: rest => some ([], rest)
    | s =>
      let (v, s) ← value? fuel depth s
      let s ← skipLines? (s.length + 1) s
      match s with
      | ',' :: rest => do
        let (items, rest) ← items? fuel depth rest
        some (v :: items, rest)
      | ']' :: rest => some ([v], rest)
      | _ => none

/-- Reads the rest of a table written out as a value, with the entries read before. -/
def entries? : Nat → Nat → Entries → List Char → Option (Entries × List Char)
  | 0, _, _, _ => none
  | fuel + 1, depth, entries, s => do
    let s ← skipLines? (s.length + 1) s
    match s with
    | '\x7d' :: rest => some (entries, rest)
    | s =>
      let (key, s) ← key? s
      match s with
      | '=' :: s =>
        let (v, s) ← value? fuel depth (skipSpace s)
        let entries ← enter v key false entries
        let s ← skipLines? (s.length + 1) s
        match s with
        | ',' :: rest => entries? fuel depth entries rest
        | '\x7d' :: rest => some (entries, rest)
        | _ => none
      | _ => none

end

/-! ## Documents -/

/-- A document that is being read: its entries, and the path of the current table. -/
structure State where
  entries : Entries
  path : List String
deriving Inhabited

def header? (closing : List Char) (s : List Char) : Option (List String × List Char) := do
  let (key, s) ← key? s
  if closing.isPrefixOf s then
    let rest ← restOfLine? (s.drop closing.length)
    some (key, rest)
  else none

/-- Reads one line, or more if a value goes on over several. -/
def line? (st : State) (s : List Char) : Option (State × List Char) :=
  match skipSpace s with
  | '[' :: '[' :: rest => do
    let (key, rest) ← header? [']', ']'] rest
    let entries ← change (appendTable (key.getLastD "")) key.dropLast st.entries
    some (⟨entries, key⟩, rest)
  | '[' :: rest => do
    let (key, rest) ← header? [']'] rest
    let entries ← change (openTable (key.getLastD "")) key.dropLast st.entries
    some (⟨entries, key⟩, rest)
  | s =>
    match restOfLine? s with
    | some rest => some (st, rest)
    | none => do
      let (key, s) ← key? s
      match s with
      | '=' :: s =>
        let s := skipSpace s
        let (v, s) ← value? (s.length + 1) maxDepth s
        let rest ← restOfLine? s
        let entries ← change (enter v key false) st.path st.entries
        some (⟨entries, st.path⟩, rest)
      | _ => none

def linesOfDocument : Nat → State → List Char → Option State
  | 0, st, _ => some st
  | fuel + 1, st, s =>
    match s with
    | [] => some st
    | s => do
      let (st, rest) ← line? st s
      linesOfDocument fuel st rest

/-- The entries of a document, `none` if it is not well-formed.  A byte order mark may stand
in front of it. -/
def parse? (s : List Char) : Option Entries :=
  let s := match s with
    | '\uFEFF' :: rest => rest
    | s => s
  (linesOfDocument (s.length + 1) ⟨[], []⟩ s).map State.entries

end Toml
end LiveDoc
