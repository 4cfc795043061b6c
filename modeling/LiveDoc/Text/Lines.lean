/-
Lines of a text.

A line ends at LF, and a CR directly before that LF belongs to the line end.  A
CR anywhere else is an ordinary character.
-/
namespace LiveDoc

/-- The text with every CR LF pair replaced by LF. -/
def joinCrLf : List Char → List Char
  | [] => []
  | '\r' :: '\n' :: rest => '\n' :: joinCrLf rest
  | c :: rest => c :: joinCrLf rest

/-- The line read so far, without the CR that belongs to the line end. -/
def dropFinalCr (line : List Char) : List Char :=
  match line.getLast? with
  | some '\r' => line.dropLast
  | _ => line

/-- The lines of a text whose current line, read so far, is `line` in reverse. -/
def linesFrom (line : List Char) : List Char → List (List Char)
  | [] => if line.isEmpty then [] else [line.reverse]
  | c :: rest =>
    if c = '\n' then dropFinalCr line.reverse :: linesFrom [] rest
    else linesFrom (c :: line) rest

/-- The lines of a text without their line ends.  Nothing follows the last line end. -/
def linesOf (s : List Char) : List (List Char) := linesFrom [] s

def joinWith (separator : List Char) : List (List Char) → List Char
  | [] => []
  | [s] => s
  | s :: rest => s ++ separator ++ joinWith separator rest

@[simp] theorem joinCrLf_crLf (rest : List Char) :
    joinCrLf ('\r' :: '\n' :: rest) = '\n' :: joinCrLf rest := rfl

theorem joinCrLf_cons {c : Char} (hc : c ≠ '\r') (s : List Char) :
    joinCrLf (c :: s) = c :: joinCrLf s := by
  rw [joinCrLf]
  rintro rest rfl
  exact absurd rfl hc

theorem joinCrLf_cr_cons {c : Char} (hc : c ≠ '\n') (s : List Char) :
    joinCrLf ('\r' :: c :: s) = '\r' :: joinCrLf (c :: s) := by
  rw [joinCrLf]
  rintro rest - h
  exact hc (List.cons.inj h).1

end LiveDoc
