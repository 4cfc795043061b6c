/-
Texts and times as messages show them.

A text stands in quotation marks, with everything that would not be read as itself
written as an escape.  A time stands in the largest unit that leaves a whole part.
-/
namespace LiveDoc

def hexDigits (n : Nat) : List Char := Nat.toDigits 16 n

/-- One character inside quotation marks.  The quotation mark, the backslash, the
line ends, tab and NUL have short escapes; other control codes are written by
their number in braces. -/
def quotedChar (c : Char) : List Char :=
  if c = '"' then ['\\', '"']
  else if c = '\\' then ['\\', '\\']
  else if c = '\n' then ['\\', 'n']
  else if c = '\r' then ['\\', 'r']
  else if c = '\t' then ['\\', 't']
  else if c.toNat = 0 then ['\\', '0']
  else if c.toNat < 0x20 ∨ (0x7F ≤ c.toNat ∧ c.toNat < 0xA0) then
    ['\\', 'u', '\x7b'] ++ hexDigits c.toNat ++ ['\x7d']
  else [c]

def quoted (s : String) : String :=
  String.ofList (['"'] ++ s.toList.flatMap quotedChar ++ ['"'])

/-- The three digits of a number below a thousand, without the zeros at the end. -/
def thousandths (n : Nat) : List Char :=
  let digits := [n / 100 % 10, n / 10 % 10, n % 10].map Nat.digitChar
  (digits.reverse.dropWhile (· == '0')).reverse

/-- A time in milliseconds as text: in seconds from one second on. -/
def durationText (ms : Nat) : String :=
  if ms = 0 then "0ns"
  else if ms < 1000 then toString ms ++ "ms"
  else
    let fraction := thousandths (ms % 1000)
    let point := if fraction.isEmpty then "" else "."
    toString (ms / 1000) ++ point ++ String.ofList fraction ++ "s"

end LiveDoc
