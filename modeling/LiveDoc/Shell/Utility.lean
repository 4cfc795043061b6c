/-
Commands that turn text into text.

Each reads its arguments into a filter and the files that it reads; without
files it reads its input.
-/
import LiveDoc.Shell.Arithmetic
import LiveDoc.Shell.Format
import LiveDoc.Shell.Regex

namespace LiveDoc
namespace Shell

/-- What a command does with its arguments. -/
inductive Utility where
  /-- Prints the text that it makes of all it reads, and has a status. -/
  | filter (files : List Text) (run : Text → Text × Nat)
  /-- Prints a text without reading anything. -/
  | prints (t : Text) (status : Nat)
  | fails (message : String) (status : Nat)

namespace Utility

def linesOf (t : Text) : List Text :=
  let parts := t.splitOn '\n'
  if parts.getLast? = some [] then parts.dropLast else parts

def unlines (ls : List Text) : Text := ls.flatMap (· ++ ['\n'])

def textOfNat (n : Nat) : Text := (toString n).toList

def isOption (a : Text) : Bool :=
  match a with
  | '-' :: _ :: _ => true
  | _ => false

/-- The letters of the options in front, and the operands behind them. -/
def options (args : List Text) : Text × List Text :=
  let front := args.takeWhile isOption
  ((front.flatMap fun a => a.drop 1), args.drop front.length)

/-! ## Translating characters -/

/-- The characters that a set of the command `tr` lists. -/
def listed : Nat → Text → Text
  | 0, _ => []
  | _, [] => []
  | fuel + 1, s =>
    if "[:upper:]".toList.isPrefixOf s then
      (List.range 26).map (fun n => Char.ofNat (65 + n)) ++ listed fuel (s.drop 9)
    else if "[:lower:]".toList.isPrefixOf s then
      (List.range 26).map (fun n => Char.ofNat (97 + n)) ++ listed fuel (s.drop 9)
    else if "[:digit:]".toList.isPrefixOf s then
      (List.range 10).map (fun n => Char.ofNat (48 + n)) ++ listed fuel (s.drop 9)
    else
      let (c, rest) : Char × Text := match s with
        | '\\' :: rest => Format.escape rest
        | c :: rest => (c, rest)
        | [] => (' ', [])
      match rest with
      | '-' :: d :: rest' =>
        (List.range (d.toNat + 1 - c.toNat)).map (fun n => Char.ofNat (c.toNat + n)) ++
          listed fuel rest'
      | rest => c :: listed fuel rest

/-- The character that one of the first set becomes: the one at its place in the second set,
whose last one is repeated. -/
def translated (first second : Text) (c : Char) : Char :=
  match first.findIdx? (· == c) with
  | some i => (second[i]?).getD (second.getLastD c)
  | none => c

/-- A text without repeats of the characters of a set. -/
def squeezed (set : Text) : Text → Text
  | a :: b :: rest =>
    if a == b && set.contains a then squeezed set (b :: rest) else a :: squeezed set (b :: rest)
  | s => s

def tr (args : List Text) : Utility :=
  let (letters, sets) := options args
  let sets := sets.map fun s => listed (s.length + 1) s
  let inFirst (c : Char) : Bool := (sets.headD []).contains c != (letters.contains 'c')
  match sets with
  | [first, second] =>
    let change (c : Char) : Char :=
      if letters.contains 'c' then (if first.contains c then c else second.getLastD c)
      else translated first second c
    .filter [] fun t =>
      let t := t.map change
      (if letters.contains 's' then squeezed second t else t, 0)
  | [first] =>
    if letters.contains 'd' then .filter [] fun t => (t.filter fun c => !inFirst c, 0)
    else if letters.contains 's' then .filter [] fun t => (squeezed first t, 0)
    else .fails "missing operand" 1
  | _ => .fails "missing operand" 1

/-! ## Editing lines -/

inductive Address where
  | every
  | number (n : Nat)
  | last
  | matching (r : Regex)

inductive Edit where
  | substitute (r : Regex) (replacement : Text) (all : Bool) (shows : Bool)
  | delete
  | print

def Address.selects (a : Address) (n total : Nat) (line : Text) : Bool :=
  match a with
  | .every => true
  | .number k => n == k
  | .last => n == total
  | .matching r => (r.search (· == ·) true line).isSome

def replaced (whole : Text) (groups : Regex.Groups) : Text → Text
  | [] => []
  | '&' :: rest => whole ++ replaced whole groups rest
  | '\\' :: c :: rest =>
    if c.isDigit then (groups.lookup (c.toNat - 48)).getD [] ++ replaced whole groups rest
    else if c = 'n' then '\n' :: replaced whole groups rest
    else c :: replaced whole groups rest
  | c :: rest => c :: replaced whole groups rest

/-- A line with what an expression matches replaced, once or everywhere, and whether it
matched.  Nothing is no match at the start of the line if `behind` a match. -/
def substituted (r : Regex) (replacement : Text) (all : Bool) :
    Nat → Bool → Bool → Text → Text × Bool
  | 0, _, _, line => (line, false)
  | fuel + 1, atStart, behind, line =>
    match r.search (· == ·) atStart line with
    | none => (line, false)
    | some (front, found, rest, groups) =>
      let here := front ++ replaced found groups replacement
      let here := if behind && front.isEmpty && found.isEmpty then [] else here
      if !all then (here ++ rest, true)
      else
        match found, rest with
        | [], c :: rest =>
          (here ++ c :: (substituted r replacement all fuel false false rest).1, true)
        | _, [] => (here, true)
        | _, rest => (here ++ (substituted r replacement all fuel false true rest).1, true)

/-- Reads text up to a delimiter without a backslash in front of it. -/
def upTo (delimiter : Char) : Text → Text × Text
  | [] => ([], [])
  | '\\' :: c :: rest =>
    let (t, rest) := upTo delimiter rest
    (if c = delimiter then c :: t else '\\' :: c :: t, rest)
  | c :: rest =>
    if c = delimiter then ([], rest)
    else
      let (t, rest) := upTo delimiter rest
      (c :: t, rest)

def edit? (extended : Bool) (script : Text) : Option (Address × Edit) :=
  let (address, rest) : Address × Text := match script with
    | '/' :: rest =>
      let (pattern, rest) := upTo '/' rest
      (.matching (.ofText extended pattern), rest)
    | '$' :: rest => (.last, rest)
    | s =>
      let (n, rest) := Format.decimal s
      if rest.length < s.length then (.number n, rest) else (.every, s)
  match rest with
  | ['d'] => some (address, .delete)
  | ['p'] => some (address, .print)
  | 's' :: delimiter :: rest =>
    let (pattern, rest) := upTo delimiter rest
    let (replacement, flags) := upTo delimiter rest
    some (address,
      .substitute (.ofText extended pattern) replacement (flags.contains 'g') (flags.contains 'p'))
  | _ => none

def edited (quiet : Bool) (total : Nat) (address : Address) (e : Edit) (n : Nat) (line : Text) :
    List Text :=
  let own := if quiet then [] else [line]
  if !address.selects n total line then own
  else
    match e with
    | .delete => []
    | .print => line :: own
    | .substitute r replacement all shows =>
      let (line, matched) := substituted r replacement all (line.length + 1) true false line
      (if matched && shows then [line] else []) ++ if quiet then [] else [line]

def numbered (ls : List Text) : List (Nat × Text) := (List.range' 1 ls.length).zip ls

/-- The command `sed` with a script of one edit. -/
def sed (args : List Text) : Utility :=
  let (letters, operands) := options args
  match operands with
  | script :: files =>
    match edit? (letters.contains 'E' || letters.contains 'r') script with
    | some (address, e) =>
      .filter files fun t =>
        let ls := linesOf t
        let out := (numbered ls).flatMap fun l =>
          edited (letters.contains 'n') ls.length address e l.1 l.2
        let out := unlines out
        (if t.getLast? = some '\n' then out else out.dropLast, 0)
    | none => .fails "-e expression #1, char 1: unknown command" 1
  | [] => .fails "no script specified" 1

def grep (args : List Text) : Utility :=
  let (letters, operands) := options args
  match operands with
  | pattern :: files =>
    let lower (c : Char) : Char := if letters.contains 'i' then c.toLower else c
    let r := if letters.contains 'F' then
        pattern.foldr (fun c r => .sequence (.this c) r) .nothing
      else Regex.ofText (letters.contains 'E') pattern
    .filter files fun t =>
      let matching (l : Text) : Bool :=
        (r.search (fun a b => lower a == lower b) true l).isSome != letters.contains 'v'
      let found := (numbered (linesOf t)).filter fun l => matching l.2
      let shown := if letters.contains 'c' then [textOfNat found.length]
        else if letters.contains 'q' then []
        else if letters.contains 'n' then
          found.map fun l => textOfNat l.1 ++ ':' :: l.2
        else found.map Prod.snd
      (unlines shown, if found.isEmpty then 1 else 0)
  | [] => .fails "usage: grep [OPTION]... PATTERNS [FILE]..." 2

/-! ## Choosing and ordering lines -/

/-- The number of lines that the arguments ask for, and the operands. -/
def count (args : List Text) : Nat × List Text :=
  match args with
  | ['-', 'n'] :: n :: rest => ((Format.decimal n).1, rest)
  | ('-' :: 'n' :: n) :: rest => ((Format.decimal n).1, rest)
  | ('-' :: n) :: rest => if n.isEmpty then (10, args) else ((Format.decimal n).1, rest)
  | rest => (10, rest)

def head (args : List Text) : Utility :=
  let (n, files) := count args
  .filter files fun t => (unlines ((linesOf t).take n), 0)

def tail (args : List Text) : Utility :=
  let (n, files) := count args
  .filter files fun t =>
    let ls := linesOf t
    (unlines (ls.drop (ls.length - n)), 0)

/-- Lines without those equal to the one in front. -/
def distinct : List Text → List Text
  | a :: b :: rest => if a = b then distinct (b :: rest) else a :: distinct (b :: rest)
  | ls => ls

def sort (args : List Text) : Utility :=
  let (letters, files) := options args
  let number (t : Text) : Int :=
    let t := t.dropWhile Arithmetic.isSpace
    match t with
    | '-' :: rest => -((Format.decimal rest).1 : Int)
    | rest => ((Format.decimal rest).1 : Int)
  let less (a b : Text) : Bool :=
    if letters.contains 'n' then number a < number b || (number a == number b && isBefore a b)
    else isBefore a b
  .filter files fun t =>
    let ls := (linesOf t).mergeSort fun a b => !less b a
    let ls := if letters.contains 'u' then distinct ls else ls
    (unlines (if letters.contains 'r' then ls.reverse else ls), 0)

def uniq (args : List Text) : Utility :=
  .filter (options args).2 fun t => (unlines (distinct (linesOf t)), 0)

def rev (args : List Text) : Utility :=
  .filter args fun t => (unlines ((linesOf t).map List.reverse), 0)

def wc (args : List Text) : Utility :=
  let (letters, files) := options args
  .filter files fun t =>
    let wordsIn := (t.splitBy fun a b => Arithmetic.isSpace a == Arithmetic.isSpace b).countP
      fun w => !(w.all Arithmetic.isSpace)
    let counts := (if letters.isEmpty || letters.contains 'l' then [t.count '\n'] else []) ++
      (if letters.isEmpty || letters.contains 'w' then [wordsIn] else []) ++
      (if letters.isEmpty || letters.contains 'c' then [t.length] else [])
    let width := if counts.length = 1 then 1 else 7
    let shown := counts.map fun n => Format.padded false false width [] (toString n).toList
    ((shown.intersperse [' ']).flatten ++ ['\n'], 0)

/-! ## Printing -/

def seq (args : List Text) : Utility :=
  let numbers := args.map fun a => (Format.number a).1
  let (first, step, last) : Int × Int × Int := match numbers with
    | [last] => (1, 1, last)
    | [first, last] => (first, 1, last)
    | first :: step :: last :: _ => (first, step, last)
    | [] => (1, 1, 0)
  let times : Nat :=
    if 0 < step ∧ first ≤ last then ((last - first) / step).toNat + 1
    else if step < 0 ∧ last ≤ first then ((first - last) / -step).toNat + 1
    else 0
  .prints (unlines ((List.range times).map fun (i : Nat) => (toString (first + step * (i : Nat))).toList)) 0

/-- A path without slashes at its end, unless it is nothing else. -/
def trimmed (path : Text) : Text :=
  let t := (path.reverse.dropWhile (· == '/')).reverse
  if t.isEmpty ∧ !path.isEmpty then ['/'] else t

def basename (args : List Text) : Utility :=
  match args with
  | path :: rest =>
    let name := ((trimmed path).reverse.takeWhile (· != '/')).reverse
    let name := if name.isEmpty then trimmed path else name
    let name := match rest with
      | suffix :: _ =>
        if suffix.length < name.length ∧ suffix.isSuffixOf name then
          name.take (name.length - suffix.length)
        else name
      | [] => name
    .prints (name ++ ['\n']) 0
  | [] => .fails "missing operand" 1

def dirname (args : List Text) : Utility :=
  match args with
  | path :: _ =>
    let path := trimmed path
    let dir := (path.reverse.dropWhile (· != '/')).reverse
    .prints ((if dir.isEmpty then ['.'] else trimmed dir) ++ ['\n']) 0
  | [] => .fails "missing operand" 1

/-- The command `expr` with two operands. -/
def expr (args : List Text) : Utility :=
  let answer (t : Text) : Utility := .prints (t ++ ['\n']) (if t = ['0'] ∨ t.isEmpty then 1 else 0)
  match args with
  | [a] => answer a
  | [a, op, b] =>
    let (x, isX) := Format.number a
    let (y, isY) := Format.number b
    let op := stringOf op
    if isX && isY then
      match Arithmetic.apply (if op = "=" then "==" else op) x y with
      | .ok n => answer (toString n).toList
      | .error _ => if y = 0 then .fails "division by zero" 2 else .fails "syntax error" 2
    else if op = "=" then answer (if a = b then ['1'] else ['0'])
    else if op = "!=" then answer (if a = b then ['0'] else ['1'])
    else .fails "non-integer argument" 2
  | _ => .fails "syntax error" 2

/-- The commands that turn text into text, by their names. -/
def ofName? : String → Option (List Text → Utility)
  | "tr" => some tr
  | "sed" => some sed
  | "grep" => some grep
  | "head" => some head
  | "tail" => some tail
  | "sort" => some sort
  | "uniq" => some uniq
  | "rev" => some rev
  | "wc" => some wc
  | "seq" => some seq
  | "basename" => some basename
  | "dirname" => some dirname
  | "expr" => some expr
  | _ => none

end Utility
end Shell
end LiveDoc
