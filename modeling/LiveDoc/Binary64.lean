/-
Decimal numbers read as binary floating-point numbers of 64 bits.

Such a number is an integer of at most 53 bits times a power of two.  A decimal
number becomes the nearest one, and of two equally near ones the one whose
integer is even.
-/
import LiveDoc.Text.CharRef

namespace LiveDoc

/-- A number that is an integer times a power of two. -/
structure Dyadic where
  negative : Bool
  mantissa : Nat
  exponent : Int
deriving Repr, DecidableEq, Inhabited

inductive Binary64 where
  | finite (d : Dyadic)
  | infinite (negative : Bool)
  | notANumber
deriving Repr, DecidableEq, Inhabited

/-- The integer nearest to `n / d`; of two equally near ones, the even one. -/
def roundDiv (n d : Nat) : Nat :=
  let q := n / d
  let r := n % d
  if 2 * r < d then q else if d < 2 * r then q + 1 else if q % 2 = 0 then q else q + 1

namespace Binary64

def precision : Nat := 53

def minExponent : Int := -1074

def maxExponent : Int := 971

/-- `n * 2 ^ e` as a fraction. -/
def scaled (n d : Nat) (e : Int) : Nat × Nat :=
  if 0 ≤ e then (n * Nat.pow 2 e.toNat, d) else (n, d * Nat.pow 2 (-e).toNat)

def bits (n : Nat) : Nat := if n = 0 then 0 else Nat.log2 n + 1

def nearest (negative : Bool) (n d : Nat) : Binary64 :=
  if n = 0 then .finite ⟨negative, 0, 0⟩
  else
    -- the quotient has this many bits, or one less
    let size : Int := (bits n : Int) - bits d + 1
    let atLeast (e : Int) : Bool :=
      let (a, b) := scaled n d (-e)
      Nat.pow 2 (precision - 1) * b ≤ a
    let guess := size - precision
    let e := if atLeast guess then guess else guess - 1
    let e := max e minExponent
    let (a, b) := scaled n d (-e)
    let m := roundDiv a b
    let (m, e) := if m = Nat.pow 2 precision then (Nat.pow 2 (precision - 1), e + 1) else (m, e)
    if maxExponent < e then .infinite negative else .finite ⟨negative, m, e⟩

def digits (s : List Char) : List Nat × List Char :=
  let d := s.takeWhile Char.isDigit
  (d.map fun c => c.toNat - '0'.toNat, s.drop d.length)

def ofDigits (d : List Nat) : Nat := d.foldl (fun n d => n * 10 + d) 0

/-- The exponent behind a number, with its letter.  No text is the exponent zero. -/
def exponent? : List Char → Option Int
  | [] => some 0
  | c :: rest =>
    if c = 'e' ∨ c = 'E' then
      let (minus, rest) := match rest with
        | '+' :: rest => (false, rest)
        | '-' :: rest => (true, rest)
        | rest => (false, rest)
      match digits rest with
      | (d :: ds, []) =>
        let n : Int := ofDigits (d :: ds)
        some (if minus then -n else n)
      | _ => none
    else none

/-- The decimal exponents beyond which a number is zero or infinite whatever its digits are,
if there are `n` of them. -/
def clamp (n : Nat) (e : Int) : Int := max (-(n : Int) - 400) (min e (n + 400))

def unsigned? (negative : Bool) (s : List Char) : Option Binary64 :=
  let lower := s.map Char.toLower
  if lower = "inf".toList ∨ lower = "infinity".toList then some (.infinite negative)
  else if lower = "nan".toList then some .notANumber
  else
    let (whole, behind) := digits s
    let (fraction, behind) := match behind with
      | '.' :: rest => digits rest
      | s => ([], s)
    if whole.isEmpty && fraction.isEmpty then none
    else
      (exponent? behind).map fun e =>
        let all := whole ++ fraction
        let n := ofDigits all
        let e := clamp all.length (e - fraction.length)
        if 0 ≤ e then nearest negative (n * Nat.pow 10 e.toNat) 1
        else nearest negative n (Nat.pow 10 (-e).toNat)

/-- The number that a text writes: an optional sign, then a decimal number with an optional
point and exponent, or the word for infinity or for no number. -/
def ofText? : List Char → Option Binary64
  | '+' :: rest => unsigned? false rest
  | '-' :: rest => unsigned? true rest
  | s => unsigned? false s

end Binary64
end LiveDoc
