/-
Setting the time for an evaluation as a number of seconds.

The number is rounded to whole nanoseconds first, a half going to the even
neighbour, and what is left below a millisecond is then dropped.
-/
import LiveDoc.Binary64
import LiveDoc.Config

namespace LiveDoc

inductive TimeoutFault where
  /-- It is negative, no number, or too large for a count of seconds. -/
  | notSeconds
  | tooLarge
  | tooSmall
deriving Repr, DecidableEq, Inhabited

namespace TimeoutFault

def message : TimeoutFault → String
  | .notSeconds => "timeout must be a non-negative number of seconds"
  | .tooLarge => "timeout too large"
  | .tooSmall => "timeout must be at least 1ms"

def cause : TimeoutFault → Option String
  | .tooLarge => some "number too large to fit in target type"
  | _ => none

end TimeoutFault

namespace Binary64

/-- The whole nanoseconds nearest to a number of seconds, `none` if it is not a number from
zero up to, but not including, two to the power of 64. -/
def nanoseconds? : Binary64 → Option Nat
  | .finite d =>
    if d.negative ∧ d.mantissa ≠ 0 then none
    else
      let (n, den) := scaled d.mantissa 1 d.exponent
      if n < Nat.pow 2 64 * den then some (roundDiv (n * Nat.pow 10 9) den) else none
  | _ => none

def milliseconds (seconds : Binary64) : Except TimeoutFault Nat :=
  match seconds.nanoseconds? with
  | none => .error .notSeconds
  | some ns =>
    let ms := ns / Nat.pow 10 6
    if Nat.pow 2 64 ≤ ms then .error .tooLarge
    else if ms = 0 then .error .tooSmall
    else .ok ms

end Binary64

namespace Config

/-- Sets the time for an evaluation: what is wrong with it, if anything, and the settings
afterwards. -/
def setEvalSeconds (c : Config) (seconds : Binary64) : Option TimeoutFault × Config :=
  match seconds.milliseconds with
  | .error fault => (some fault, c)
  | .ok ms => (none, { c with evalTimeout := ms })

def withEvalSeconds (c : Config) (seconds : Binary64) : Except TimeoutFault Config :=
  match c.setEvalSeconds seconds with
  | (some fault, _) => .error fault
  | (none, c) => .ok c

end Config
end LiveDoc
