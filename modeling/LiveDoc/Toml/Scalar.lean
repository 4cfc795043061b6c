/-
TOML strings, numbers, dates and the characters between them.

A reader takes a text and returns what it has read and the rest, or `none` if the
text is not well-formed.
-/
import LiveDoc.Binary64
import LiveDoc.Text.CharRef

namespace LiveDoc
namespace Toml

/-- How a table came about, which decides how it may be extended. -/
inductive Origin where
  | header
  /-- As a part of the path in the header of another table. -/
  | implied
  | dotted
  | inline
deriving Repr, DecidableEq, Inhabited

/-- A value.  Of numbers with a fraction and of dates it is only known that they are such. -/
inductive Value where
  | text (s : String)
  | integer (n : Int)
  | float
  | boolean (b : Bool)
  | date
  | array (items : List Value)
  /-- An array whose elements are tables with headers of their own. -/
  | tables (items : List (List (String × Value)))
  | table (origin : Origin) (entries : List (String × Value))
deriving Repr, Inhabited

/-- The entries of a table, in the order in which they were first named. -/
abbrev Entries := List (String × Value)

def Entries.set (key : String) (value : Value) (entries : Entries) : Entries :=
  entries.map fun e => if e.1 = key then (key, value) else e

/-! ## White space and comments -/

def isSpace (c : Char) : Bool := c == ' ' || c == '\t'

/-- Control codes, which may stand neither in strings nor in comments; tab may. -/
def isControl (c : Char) : Bool := c.toNat < 0x20 && c != '\t' || c.toNat == 0x7F

def skipSpace (s : List Char) : List Char := s.dropWhile isSpace

def lineEnd? : List Char → Option (List Char)
  | '\n' :: rest => some rest
  | '\r' :: '\n' :: rest => some rest
  | _ => none

/-- The text behind a comment, which ends before a line end or with the document. -/
def comment? : List Char → Option (List Char)
  | [] => some []
  | '\r' :: '\n' :: rest => some ('\r' :: '\n' :: rest)
  | c :: rest =>
    if c = '\n' then some (c :: rest) else if isControl c then none else comment? rest

def restOfLine? (s : List Char) : Option (List Char) :=
  let behind := match skipSpace s with
    | '#' :: rest => comment? rest
    | s => some s
  match behind with
  | some [] => some []
  | some s => lineEnd? s
  | none => none

/-- The text behind spaces, line ends and comments.  `fuel` bounds their number. -/
def skipLines? : Nat → List Char → Option (List Char)
  | 0, s => some s
  | fuel + 1, s =>
    match skipSpace s with
    | '#' :: rest => (comment? rest).bind (skipLines? fuel)
    | s =>
      match lineEnd? s with
      | some rest => skipLines? fuel rest
      | none => some s

/-! ## Strings -/

def hexChar? (n : Nat) (s : List Char) : Option (Char × List Char) :=
  let (count, value) := CharRef.number 16 n s
  if count = n ∧ value.isValidChar then some (Char.ofNat value, s.drop n) else none

def escape? : List Char → Option (Char × List Char)
  | 'b' :: rest => some ('\x08', rest)
  | 't' :: rest => some ('\t', rest)
  | 'n' :: rest => some ('\n', rest)
  | 'f' :: rest => some ('\x0c', rest)
  | 'r' :: rest => some ('\r', rest)
  | 'e' :: rest => some ('\x1b', rest)
  | '"' :: rest => some ('"', rest)
  | '\\' :: rest => some ('\\', rest)
  | 'x' :: rest => hexChar? 2 rest
  | 'u' :: rest => hexChar? 4 rest
  | 'U' :: rest => hexChar? 8 rest
  | _ => none

/-- Reads the rest of a string on one line up to the quotation mark `quote`.  Only in a
string between double marks are there escapes. -/
def stringFrom (quote : Char) : Nat → List Char → Option (List Char × List Char)
  | 0, _ => none
  | _, [] => none
  | fuel + 1, c :: rest =>
    if c = quote then some ([], rest)
    else if c = '\\' ∧ quote = '"' then do
      let (d, rest) ← escape? rest
      let (s, rest) ← stringFrom quote fuel rest
      some (d :: s, rest)
    else if isControl c then none
    else do
      let (s, rest) ← stringFrom quote fuel rest
      some (c :: s, rest)

def skipBlank : List Char → List Char
  | ' ' :: rest => skipBlank rest
  | '\t' :: rest => skipBlank rest
  | '\n' :: rest => skipBlank rest
  | '\r' :: '\n' :: rest => skipBlank rest
  | s => s

/-- The text behind a backslash that ends a line and all white space that follows it. -/
def continuedLine? (s : List Char) : Option (List Char) :=
  (lineEnd? (skipSpace s)).map skipBlank

/-- Reads the rest of a string over several lines up to three quotation marks.  One or two
marks may stand before them. -/
def linesFrom (quote : Char) : Nat → List Char → Option (List Char × List Char)
  | 0, _ => none
  | _, [] => none
  | fuel + 1, c :: rest =>
    if c = quote then
      let n := 1 + (rest.takeWhile (· == quote)).length
      let behind := rest.drop (n - 1)
      if 5 < n then none
      else if 3 ≤ n then some (List.replicate (n - 3) quote, behind)
      else do
        let (s, rest) ← linesFrom quote fuel behind
        some (List.replicate n quote ++ s, rest)
    else
      match lineEnd? (c :: rest) with
      | some rest => do
        let (s, rest) ← linesFrom quote fuel rest
        some ('\n' :: s, rest)
      | none =>
        if c = '\\' ∧ quote = '"' then
          match continuedLine? rest with
          | some rest => linesFrom quote fuel rest
          | none => do
            let (d, rest) ← escape? rest
            let (s, rest) ← linesFrom quote fuel rest
            some (d :: s, rest)
        else if isControl c then none
        else do
          let (s, rest) ← linesFrom quote fuel rest
          some (c :: s, rest)

def string? : List Char → Option (List Char × List Char)
  | '"' :: rest => stringFrom '"' (rest.length + 1) rest
  | '\'' :: rest => stringFrom '\'' (rest.length + 1) rest
  | _ => none

/-- Reads a string over several lines behind its quotation marks.  A line end directly behind
them does not count. -/
def multiline? (quote : Char) (s : List Char) : Option (List Char × List Char) :=
  let s := (lineEnd? s).getD s
  linesFrom quote (s.length + 1) s

def anyString? : List Char → Option (List Char × List Char)
  | '"' :: '"' :: '"' :: rest => multiline? '"' rest
  | '\'' :: '\'' :: '\'' :: rest => multiline? '\'' rest
  | s => string? s

/-! ## Numbers -/

/-- The digits of a number.  Single underscores may stand between them. -/
def digitsOf (base : Nat) : List Char → Option (List Nat)
  | [] => none
  | [c] => (CharRef.digit? base c).map fun d => [d]
  | c :: '_' :: rest => do
    let d ← CharRef.digit? base c
    let more ← digitsOf base rest
    some (d :: more)
  | c :: rest => do
    let d ← CharRef.digit? base c
    let more ← digitsOf base rest
    some (d :: more)

def ofDigits (base : Nat) (digits : List Nat) : Nat := digits.foldl (fun n d => n * base + d) 0

/-- The digits of a decimal number without leading zeros. -/
def plainDigits (s : List Char) : Option (List Nat) :=
  match s with
  | '0' :: _ :: _ => none
  | s => digitsOf 10 s

def signed : List Char → Bool × List Char
  | '+' :: rest => (false, rest)
  | '-' :: rest => (true, rest)
  | s => (false, s)

/-- The integers that can be read, which have at most 128 bits. -/
def inRange (n : Int) : Bool := -(Nat.pow 2 127 : Nat) ≤ n && n < (Nat.pow 2 128 : Nat)

def integer? (s : List Char) : Option Int :=
  let value := match s with
    | '0' :: 'x' :: rest => (digitsOf 16 rest).map fun d => (ofDigits 16 d : Int)
    | '0' :: 'o' :: rest => (digitsOf 8 rest).map fun d => (ofDigits 8 d : Int)
    | '0' :: 'b' :: rest => (digitsOf 2 rest).map fun d => (ofDigits 2 d : Int)
    | s =>
      let (minus, s) := signed s
      (plainDigits s).map fun d => if minus then -(ofDigits 10 d : Int) else ofDigits 10 d
  value.filter inRange

/-- Does a text write a number with a fraction or an exponent that is not too large? -/
def isFloat (s : List Char) : Bool :=
  let (_, s') := signed s
  if s' = "inf".toList ∨ s' = "nan".toList then true
  else
    let whole := s'.takeWhile fun c => c != '.' && c != 'e' && c != 'E'
    let behind := s'.drop whole.length
    let (fraction, behind) := match behind with
      | '.' :: rest =>
        let digits := rest.takeWhile fun c => c != 'e' && c != 'E'
        (some digits, rest.drop digits.length)
      | s => (none, s)
    let exponent := match behind with
      | _ :: rest => some (signed rest).2
      | [] => none
    (plainDigits whole).isSome && (fraction.all fun d => (digitsOf 10 d).isSome) &&
      (exponent.all fun d => (digitsOf 10 d).isSome) && (fraction.isSome || exponent.isSome) &&
      match Binary64.ofText? (s.filter (· != '_')) with
      | some (.finite _) => true
      | _ => false

/-! ## Dates and times -/

def exactDigits? (n : Nat) (s : List Char) : Option (Nat × List Char) :=
  let digits := s.take n
  if digits.length = n ∧ digits.all Char.isDigit then
    some (ofDigits 10 (digits.map fun c => c.toNat - '0'.toNat), s.drop n)
  else none

def char? (c : Char) : List Char → Option (List Char)
  | d :: rest => if d = c then some rest else none
  | [] => none

def daysIn (year month : Nat) : Nat :=
  if month = 2 then
    if year % 4 = 0 ∧ (year % 100 ≠ 0 ∨ year % 400 = 0) then 29 else 28
  else if month = 4 ∨ month = 6 ∨ month = 9 ∨ month = 11 then 30
  else 31

def date? (s : List Char) : Option (List Char) := do
  let (year, s) ← exactDigits? 4 s
  let s ← char? '-' s
  let (month, s) ← exactDigits? 2 s
  let s ← char? '-' s
  let (day, s) ← exactDigits? 2 s
  if 1 ≤ month ∧ month ≤ 12 ∧ 1 ≤ day ∧ day ≤ daysIn year month then some s else none

def hours? (s : List Char) : Option (List Char) := do
  let (hour, s) ← exactDigits? 2 s
  let s ← char? ':' s
  let (minute, s) ← exactDigits? 2 s
  if hour ≤ 23 ∧ minute ≤ 59 then some s else none

/-- The text behind a time of day, whose seconds may be left out. -/
def time? (s : List Char) : Option (List Char) := do
  let s ← hours? s
  match s with
  | ':' :: rest => do
    let (second, s) ← exactDigits? 2 rest
    if 60 < second then none
    else
      match s with
      | '.' :: rest =>
        let behind := rest.dropWhile Char.isDigit
        if behind.length = rest.length then none else some behind
      | s => some s
  | s => some s

/-- Is the text a distance from UTC, or nothing? -/
def isOffset : List Char → Bool
  | [] => true
  | ['Z'] => true
  | ['z'] => true
  | '+' :: s => hours? s == some []
  | '-' :: s => hours? s == some []
  | _ => false

def isDate (s : List Char) : Bool :=
  match date? s with
  | some [] => true
  | some (c :: rest) =>
    (c == 'T' || c == 't' || c == ' ') && (time? rest).any isOffset
  | none => time? s == some []

/-! ## Bare values -/

def endsBare (c : Char) : Bool :=
  isSpace c || c == '\n' || c == '\r' || c == ',' || c == ']' || c == '}' || c == '#' || c == '='

/-- The text of a value without quotation marks, and the rest.  A space may stand between a
date and a time of day. -/
def bareText (s : List Char) : List Char × List Char :=
  let word := s.takeWhile fun c => !endsBare c
  let rest := s.drop word.length
  match rest with
  | ' ' :: c :: _ =>
    if c.isDigit && date? word == some [] then
      let time := (rest.drop 1).takeWhile fun c => !endsBare c
      (word ++ ' ' :: time, rest.drop (time.length + 1))
    else (word, rest)
  | _ => (word, rest)

def bareValue? (s : List Char) : Option (Value × List Char) :=
  let (word, rest) := bareText s
  if word = "true".toList then some (.boolean true, rest)
  else if word = "false".toList then some (.boolean false, rest)
  else
    match integer? word with
    | some n => some (.integer n, rest)
    | none =>
      if isFloat word then some (.float, rest)
      else if isDate word then some (.date, rest)
      else none

end Toml
end LiveDoc
