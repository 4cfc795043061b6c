/-
Fields: what the words of a command become.

An expanded word is split where a substituted text holds a separator.  A run of
blanks separates once; another separator ends a field each time.  A field with
wildcards becomes the names of the files that it matches, if there are any.
-/
import LiveDoc.Shell.Expand

namespace LiveDoc
namespace Shell
namespace Fields

open Expand (Piece Mode)

/-- A separator that counts only once in a row. -/
def isBlank (c : Char) : Bool := c == ' ' || c == '\t' || c == '\n'

/-- The fields of an expanded word.  The field that is being read is `none` between fields;
`ended` says that blanks have ended a field, so that one separator behind them ends no other. -/
def split (separators : Text) :
    Option (List Cell) → Bool → List Piece → List (List Cell)
  | none, _, [] => []
  | some field, _, [] => [field]
  | field, ended, .cell c :: rest =>
    if c.splits && separators.contains c.char then
      if isBlank c.char then
        match field with
        | some cs => cs :: split separators none true rest
        | none => split separators none ended rest
      else
        match field with
        | some cs => cs :: split separators none false rest
        | none =>
          if ended then split separators none false rest
          else [] :: split separators none false rest
    else split separators (some (field.getD [] ++ [c])) false rest
  | field, _, .present :: rest => split separators (some (field.getD [])) false rest
  | some [], _, .absent :: rest => split separators none false rest
  | field, ended, .absent :: rest => split separators field ended rest
  | some cs, _, .cut :: rest => cs :: split separators (some []) false rest
  | none, _, .cut :: rest => split separators none false rest

def filesMatching (files : Files) (cells : List Cell) : List Text :=
  let names := files.entries.filterMap fun e =>
    if e.1.dropLast = files.here then e.1.getLast?.map textOf else none
  let hidden := (cells.head?.map Cell.char) == some '.'
  let matching := names.filter fun n =>
    globMatches cells n && (hidden || n.head? != some '.')
  matching.mergeSort fun a b => !isBefore b a

def texts (files : Files) (cells : List Cell) : List Text :=
  let plain := Expand.textOfCells cells
  if isGlob cells && !plain.contains '/' && !files.here.isEmpty then
    match filesMatching files cells with
    | [] => [plain]
    | names => names
  else [plain]

def piecesOf (run : Text → Script Text) (mode : Mode) (raw : Text) : Script (List Piece) :=
  Expand.pieces run (raw.length + 1) mode raw

def ofWords (run : Text → Script Text) : List Text → Script (List Text)
  | [] => return []
  | raw :: rest => do
    let ps ← piecesOf run .plain raw
    let s ← get
    let fields := (split (Expand.separators s) none false ps).flatMap (texts s.files)
    return fields ++ (← ofWords run rest)

def textOfWord (run : Text → Script Text) (raw : Text) : Script Text := do
  return Expand.textOfCells (Expand.cellsOf (← piecesOf run .plain raw))

def patternOfWord (run : Text → Script Text) (raw : Text) : Script (List Cell) := do
  return Expand.cellsOf (← piecesOf run .plain raw)

def textOfBelow (run : Text → Script Text) (t : TextBelow) : Script Text := do
  if t.quoted then return t.body
  else return Expand.textOfCells (Expand.cellsOf (← piecesOf run .below t.body))

end Fields
end Shell
end LiveDoc
