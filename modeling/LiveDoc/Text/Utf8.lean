/-
UTF-8, read leniently and strictly.

Both readers are one automaton.  Between two bytes it is either at a character
boundary or inside a sequence, where it knows the value read so far, the range
of the next byte and how many bytes follow that one.  A byte outside that range
ends the sequence: the lenient reader writes U+FFFD for the bytes of the broken
sequence and reads the byte again at a boundary, so each maximal part of an
ill-formed sequence becomes exactly one U+FFFD.
-/
namespace LiveDoc

abbrev Bytes := List UInt8

namespace Utf8

/-- What is known inside a sequence: the value of the bits so far, the range of
the next byte, and the number of bytes after that one. -/
structure Sequence where
  value : Nat
  low : Nat
  high : Nat
  more : Nat
deriving Repr, DecidableEq

/-- Reading a byte at a character boundary: a whole character, the beginning of a
sequence, or neither. -/
inductive Lead where
  | char (c : Char)
  | sequence (s : Sequence)
  | invalid
deriving Repr, DecidableEq

/-- The well-formed lead bytes and the range of the byte after each. -/
def lead (b : UInt8) : Lead :=
  let n := b.toNat
  if n < 0x80 then .char (Char.ofNat n)
  else if n < 0xC2 then .invalid
  else if n < 0xE0 then .sequence ⟨n - 0xC0, 0x80, 0xBF, 0⟩
  else if n < 0xF0 then
    .sequence ⟨n - 0xE0, if n = 0xE0 then 0xA0 else 0x80, if n = 0xED then 0x9F else 0xBF, 1⟩
  else if n < 0xF5 then
    .sequence ⟨n - 0xF0, if n = 0xF0 then 0x90 else 0x80, if n = 0xF4 then 0x8F else 0xBF, 2⟩
  else .invalid

/-- Reading a byte inside a sequence, `none` when the byte does not continue it. -/
def Sequence.continue? (s : Sequence) (b : UInt8) : Option Lead :=
  let n := b.toNat
  if s.low ≤ n ∧ n ≤ s.high then
    let value := s.value * 64 + (n - 0x80)
    match s.more with
    | 0 => some (.char (Char.ofNat value))
    | more + 1 => some (.sequence ⟨value, 0x80, 0xBF, more⟩)
  else none

def replacement : Char := '\uFFFD'

def decodeLossyFrom (s : Option Sequence) : Bytes → List Char
  | [] => if s.isSome then [replacement] else []
  | b :: rest =>
    match s.bind (·.continue? b) with
    | some (.char c) => c :: decodeLossyFrom none rest
    | some (.sequence s') => decodeLossyFrom (some s') rest
    | some .invalid => replacement :: decodeLossyFrom none rest
    | none =>
      (if s.isSome then [replacement] else []) ++
        match lead b with
        | .char c => c :: decodeLossyFrom none rest
        | .sequence s' => decodeLossyFrom (some s') rest
        | .invalid => replacement :: decodeLossyFrom none rest

/-- The text of a byte string, with U+FFFD for each maximal ill-formed part. -/
def decodeLossy (bytes : Bytes) : List Char := decodeLossyFrom none bytes

def decodeFrom (s : Option Sequence) : Bytes → Option (List Char)
  | [] => if s.isSome then none else some []
  | b :: rest =>
    match s with
    | some s' =>
      match s'.continue? b with
      | some (.char c) => (decodeFrom none rest).map (c :: ·)
      | some (.sequence s'') => decodeFrom (some s'') rest
      | _ => none
    | none =>
      match lead b with
      | .char c => (decodeFrom none rest).map (c :: ·)
      | .sequence s' => decodeFrom (some s') rest
      | .invalid => none

/-- The text of a byte string, `none` when it is not UTF-8. -/
def decode? (bytes : Bytes) : Option (List Char) := decodeFrom none bytes

def encode (s : List Char) : Bytes := s.flatMap String.utf8EncodeChar

@[simp] theorem encode_nil : encode [] = [] := rfl

@[simp] theorem encode_cons (c : Char) (s : List Char) :
    encode (c :: s) = String.utf8EncodeChar c ++ encode s := rfl

@[simp] theorem encode_append (s t : List Char) : encode (s ++ t) = encode s ++ encode t := by
  simp [encode]

end Utf8

def bytesOf (s : String) : Bytes := Utf8.encode s.toList

end LiveDoc
