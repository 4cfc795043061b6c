/-
Lines, their ends and their columns, as the readers of blocks see them.

A text is written as lines, each with a line end.  Read from the start of a line, what spans a
run of characters stops at the line end, and indentation is counted in columns.
-/
import Mathlib.Data.List.TakeWhile
import LiveDoc.Markdown.Document

namespace LiveDoc
namespace Markdown

/-! ## Characters -/

theorem ne_of_holds {q : Char → Bool} {c d : Char} (hc : q c = true) (hd : q d = false) : c ≠ d := by
  rintro rfl
  exact Bool.false_ne_true (hd.symm.trans hc)

theorem isAlpha_iff {c : Char} : c.isAlpha = true ↔
    (65 ≤ c.toNat ∧ c.toNat ≤ 90) ∨ (97 ≤ c.toNat ∧ c.toNat ≤ 122) := by
  have hupper : c.isUpper = true ↔ 65 ≤ c.toNat ∧ c.toNat ≤ 90 := decide_eq_true_iff
  have hlower : c.isLower = true ↔ 97 ≤ c.toNat ∧ c.toNat ≤ 122 :=
    Bool.and_eq_true_iff.trans (and_congr decide_eq_true_iff decide_eq_true_iff)
  rw [← hupper, ← hlower]
  exact Bool.or_eq_true_iff

theorem dropWhile_of_not {q : Char → Bool} {text : List Char} (h : ∀ c ∈ text, q c = false) :
    text.dropWhile q = text :=
  List.dropWhile_eq_self_iff.mpr fun hl => by simp [h _ (List.getElem_mem hl)]

/-! ## Lines and their ends -/

inductive LineEnd where
  | lf
  | crLf
deriving Repr, DecidableEq

def LineEnd.chars : LineEnd → List Char
  | .lf => ['\n']
  | .crLf => ['\r', '\n']

def written (eol : LineEnd) (lines : List (List Char)) : List Char :=
  lines.flatMap fun line => line ++ eol.chars

variable {eol : LineEnd} {line s : List Char}

@[simp] theorem written_nil : written eol [] = [] := rfl

theorem written_cons (lines : List (List Char)) :
    written eol (line :: lines) = line ++ (eol.chars ++ written eol lines) := by
  rw [written, List.flatMap_cons, List.append_assoc]
  rfl

theorem written_append (a b : List (List Char)) :
    written eol (a ++ b) = written eol a ++ written eol b := List.flatMap_append

theorem length_le_written (eol : LineEnd) (lines : List (List Char)) :
    lines.length ≤ (written eol lines).length := by
  induction lines with
  | nil => exact Nat.zero_le _
  | cons line lines ih =>
    have hend : 1 ≤ eol.chars.length := by cases eol <;> decide
    simp only [written_cons, List.length_append, List.length_cons]
    omega

theorem lineLength_line (h : '\n' ∉ line) (eol : LineEnd) (s : List Char) :
    lineLength (line ++ (eol.chars ++ s)) = line.length + eol.chars.length := by
  induction line with
  | nil => cases eol <;> simp [LineEnd.chars, lineLength]
  | cons c rest ih =>
    rw [List.mem_cons, not_or] at h
    rw [List.cons_append, lineLength, ih h.2, List.length_cons]
    · omega
    · exact fun hc => h.1 hc.symm

theorem take_lineLength (h : '\n' ∉ line) (eol : LineEnd) (s : List Char) :
    (line ++ (eol.chars ++ s)).take (lineLength (line ++ (eol.chars ++ s))) = line ++ eol.chars := by
  rw [lineLength_line h, ← List.append_assoc, ← List.length_append, List.take_left]

theorem drop_lineLength (h : '\n' ∉ line) (eol : LineEnd) (s : List Char) :
    (line ++ (eol.chars ++ s)).drop (lineLength (line ++ (eol.chars ++ s))) = s := by
  rw [lineLength_line h, ← List.append_assoc, ← List.length_append, List.drop_left]

theorem takeWhile_line {q : Char → Bool} (hlf : q '\n' = false) (hcr : q '\r' = false)
    (line : List Char) (eol : LineEnd) (s : List Char) :
    (line ++ (eol.chars ++ s)).takeWhile q = line.takeWhile q := by
  induction line with
  | nil => cases eol <;> simp [LineEnd.chars, hlf, hcr]
  | cons c rest ih => rw [List.cons_append, List.takeWhile_cons, List.takeWhile_cons, ih]

theorem dropWhile_line {q : Char → Bool} (hlf : q '\n' = false) (hcr : q '\r' = false)
    (line : List Char) (eol : LineEnd) (s : List Char) :
    (line ++ (eol.chars ++ s)).dropWhile q = line.dropWhile q ++ (eol.chars ++ s) := by
  induction line with
  | nil => cases eol <;> simp [LineEnd.chars, hlf, hcr]
  | cons c rest ih =>
    rw [List.cons_append, List.dropWhile_cons, List.dropWhile_cons, ih]
    split <;> rfl

theorem countWhile_line {q : Char → Bool} (hlf : q '\n' = false) (hcr : q '\r' = false)
    (line : List Char) (eol : LineEnd) (s : List Char) :
    countWhile q (line ++ (eol.chars ++ s)) = countWhile q line := by
  rw [countWhile, takeWhile_line hlf hcr, countWhile]

theorem lineText_line (hlf : '\n' ∉ line) (hcr : '\r' ∉ line) (eol : LineEnd) (s : List Char) :
    lineText (line ++ (eol.chars ++ s)) = line := by
  rw [lineText, takeWhile_line rfl rfl, List.takeWhile_eq_self_iff]
  intro c hc
  have hne : c ≠ '\n' ∧ c ≠ '\r' := ⟨fun h => hlf (h ▸ hc), fun h => hcr (h ▸ hc)⟩
  simp [hne]

/-! ## The end of a line -/

theorem lineEnd?_eol (eol : LineEnd) (s : List Char) :
    lineEnd? (eol.chars ++ s) = some eol.chars.length := by
  cases eol <;> rfl

theorem exists_of_lineEnd? (h : (lineEnd? s).isSome = true) :
    s = [] ∨ ∃ c rest, s = c :: rest ∧ (c = '\n' ∨ c = '\r') := by
  rw [lineEnd?.eq_def] at h
  split at h
  · exact Or.inl rfl
  · exact Or.inr ⟨_, _, rfl, Or.inl rfl⟩
  · exact Or.inr ⟨_, _, rfl, Or.inr rfl⟩
  · exact Or.inr ⟨_, _, rfl, Or.inr rfl⟩
  · exact absurd h Bool.false_ne_true

theorem takeWhile_lineEnd {q : Char → Bool} (hlf : q '\n' = false) (hcr : q '\r' = false)
    (h : (lineEnd? s).isSome = true) : s.takeWhile q = [] := by
  obtain rfl | ⟨c, rest, rfl, rfl | rfl⟩ := exists_of_lineEnd? h
  · rfl
  · exact List.takeWhile_cons_of_neg (by simp [hlf])
  · exact List.takeWhile_cons_of_neg (by simp [hcr])

theorem blankLine?_lineEnd (h : (lineEnd? s).isSome = true) : blankLine? s = lineEnd? s := by
  rw [blankLine?, countWhile, takeWhile_lineEnd rfl rfl h]
  simp

theorem underline?_lineEnd (h : (lineEnd? s).isSome = true) : underline? s = none := by
  obtain rfl | ⟨c, rest, rfl, rfl | rfl⟩ := exists_of_lineEnd? h <;> rfl

/-! ## Columns -/

def isIndent (c : Char) : Bool := c == ' ' || c == '\t'

def Flush (s : List Char) : Prop := ∀ c ∈ s.head?, isIndent c = false

theorem flush_cons {c : Char} (h : isIndent c = false) (s : List Char) : Flush (c :: s) := by
  intro d hd
  obtain rfl := Option.some.inj hd
  exact h

theorem flush_lineEnd (h : (lineEnd? s).isSome = true) : Flush s := by
  obtain rfl | ⟨c, rest, rfl, rfl | rfl⟩ := exists_of_lineEnd? h
  · intro d hd
    exact absurd hd (by simp)
  · exact flush_cons rfl rest
  · exact flush_cons rfl rest

variable {p : Place}

@[simp] theorem Cursor.place_lineStart (p : Place) : (Cursor.lineStart p).place = p := rfl

theorem skipColumns_flush (h : Flush p.rest) {n : Nat} (hn : 0 < n) :
    (Cursor.lineStart p).skipColumns n = (n, .lineStart p) := by
  have hspaces : ¬ n ≤ (Cursor.lineStart p).spaces := Nat.not_le_of_lt hn
  rw [Cursor.skipColumns, if_neg hspaces]
  obtain ⟨pos, before, rest⟩ := p
  cases rest with
  | nil => rfl
  | cons c rest =>
    have hc := h c rfl
    rw [isIndent, Bool.or_eq_false_iff, beq_eq_false_iff_ne, beq_eq_false_iff_ne] at hc
    have hne : n ≠ 0 := by omega
    simp [Cursor.lineStart, Cursor.skipFrom, hne, hc.1, hc.2]

theorem skipUpTo_flush (h : Flush p.rest) {n : Nat} (hn : 0 < n) :
    (Cursor.lineStart p).skipUpTo n = (0, .lineStart p) := by
  simp only [Cursor.skipUpTo, skipColumns_flush h hn, Nat.sub_self]

theorem skipColumns_zero (p : Place) :
    (Cursor.lineStart p).skipColumns 0 = (0, .lineStart p) := by
  rw [Cursor.skipColumns, if_pos (Nat.zero_le _)]
  rfl

/-- White space that has fewer columns than wanted is skipped whole. -/
theorem rest_skipFrom {wanted offset pos missing : Nat} {before : Option Char} {c : Cursor}
    (h : Cursor.skipFrom wanted offset pos before s = (missing, c)) (hmissing : missing ≠ 0) :
    c.place.rest = s.dropWhile isIndent := by
  induction s generalizing wanted offset pos before with
  | nil =>
    obtain ⟨-, rfl⟩ := Prod.mk.inj h
    rfl
  | cons d s ih =>
    rw [Cursor.skipFrom] at h
    split at h
    · exact absurd (Prod.mk.inj h).1.symm hmissing
    · split at h
      next hspace =>
        rw [List.dropWhile_cons_of_pos (by simp [isIndent, hspace])]
        exact ih h
      next hspace =>
        split at h
        next htab =>
          -- A tab that is used in part leaves nothing missing.
          dsimp only at h
          split at h
          · exact absurd (Prod.mk.inj h).1.symm hmissing
          · rw [List.dropWhile_cons_of_pos (by simp [isIndent, htab])]
            exact ih h
        next htab =>
          obtain ⟨-, rfl⟩ := Prod.mk.inj h
          exact (List.dropWhile_cons_of_neg (by simp [isIndent, hspace, htab])).symm

theorem rest_skipColumns {wanted missing : Nat} {c : Cursor}
    (h : (Cursor.lineStart p).skipColumns wanted = (missing, c)) (hmissing : missing ≠ 0) :
    c.place.rest = p.rest.dropWhile isIndent := by
  rw [Cursor.skipColumns] at h
  split at h
  · exact absurd (Prod.mk.inj h).1.symm hmissing
  · exact rest_skipFrom h hmissing

end Markdown
end LiveDoc
