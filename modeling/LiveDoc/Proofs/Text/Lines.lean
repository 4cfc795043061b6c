/-
Texts and their lines.

A text that is cut at LF is its pieces, and joining them with LF gives back the text.  What a
program writes is read by its pieces, so these lemmas say what becomes of them when texts are put
behind one another.  They hold for any separator, and for bytes as for characters.

The lines of a text differ from its pieces in two ways: a CR in front of the LF belongs to the line
end, and behind the last line end there is no line.
-/
import LiveDoc.Text.Lines

namespace LiveDoc

/-! ## Pieces -/

theorem joinWith_eq_intercalate (separator : List Char) (texts : List (List Char)) :
    joinWith separator texts = List.intercalate separator texts := by
  fun_induction joinWith separator texts with
  | case1 => rw [List.intercalate_nil]
  | case2 text => rw [List.intercalate_singleton]
  | case3 text rest hne ih => rw [List.intercalate_cons_of_ne_nil hne, ih]

section
variable {α : Type} [BEq α] {a : α}

/-- A text has one piece more than it has separators. -/
theorem length_splitOn (text : List α) : (text.splitOn a).length = text.count a + 1 := by
  induction text with
  | nil => rfl
  | cons b rest ih =>
    rw [List.splitOn_eq_splitOnP] at ih ⊢
    rw [List.splitOnP_cons_eq_if_modifyHead, List.count_cons]
    split
    · rw [List.length_cons, ih]
    · rw [List.length_modifyHead, ih]

variable [LawfulBEq α]

/-- The first piece of a text takes in what is put in front of the text. -/
theorem splitOn_append_of_not_mem {front : List α} (h : a ∉ front) (text : List α) :
    (front ++ text).splitOn a = (text.splitOn a).modifyHead (front ++ ·) := by
  induction front with
  | nil => cases hpieces : text.splitOn a <;> simp [hpieces]
  | cons b rest ih =>
    have hb : (b == a) = false := by
      rw [beq_eq_false_iff_ne]
      rintro rfl
      exact h List.mem_cons_self
    have hrest := ih fun hmem => h (List.mem_cons_of_mem b hmem)
    rw [List.splitOn_eq_splitOnP] at hrest ⊢
    rw [List.cons_append, List.splitOnP_cons_eq_if_modifyHead, hb, if_neg Bool.false_ne_true, hrest,
      List.splitOn_eq_splitOnP, List.modifyHead_modifyHead]
    rfl

theorem not_mem_of_mem_splitOn {text piece : List α} (h : piece ∈ text.splitOn a) : a ∉ piece := by
  induction text generalizing piece with
  | nil =>
    obtain rfl := List.mem_singleton.mp h
    exact List.not_mem_nil
  | cons b rest ih =>
    rw [List.splitOn_eq_splitOnP] at h ih
    rw [List.splitOnP_cons_eq_if_modifyHead] at h
    split at h
    · rcases List.mem_cons.mp h with rfl | hrest
      · exact List.not_mem_nil
      · exact ih hrest
    · next hb =>
      cases hpieces : rest.splitOnP (· == a) with
      | nil =>
        rw [hpieces] at h
        cases h
      | cons first others =>
        rw [hpieces, List.modifyHead_cons] at h
        rcases List.mem_cons.mp h with rfl | hothers
        · have hfirst : a ∉ first := ih (by rw [hpieces]; exact List.mem_cons_self)
          refine List.not_mem_cons_of_ne_of_not_mem ?_ hfirst
          rintro rfl
          exact hb BEq.rfl
        · exact ih (by rw [hpieces]; exact List.mem_cons_of_mem _ hothers)

theorem splitOn_append_cons_of_not_mem {front : List α} (h : a ∉ front) (text : List α) :
    (front ++ a :: text).splitOn a = front :: text.splitOn a := by
  rw [List.splitOn_append_cons_self, List.splitOn_eq_singleton h, List.singleton_append]

end

/-! ## Lines -/

/-- The text is made of the lines, each of which ends at LF or at CR LF, or at the end of the text
if it is not empty. -/
inductive Splits : List Char → List (List Char) → Prop
  | nil : Splits [] []
  | last {line : List Char} (h : '\n' ∉ line) (hne : line ≠ []) : Splits line [line]
  | lf {line rest : List Char} {lines : List (List Char)} (h : '\n' ∉ line)
      (hcr : line.getLast? ≠ some '\r') (others : Splits rest lines) :
      Splits (line ++ '\n' :: rest) (line :: lines)
  | crLf {line rest : List Char} {lines : List (List Char)} (h : '\n' ∉ line)
      (others : Splits rest lines) : Splits (line ++ '\r' :: '\n' :: rest) (line :: lines)

theorem splits_linesFrom (line s : List Char) (h : '\n' ∉ line) :
    Splits (line.reverse ++ s) (linesFrom line s) := by
  induction s generalizing line with
  | nil =>
    rw [linesFrom, List.append_nil]
    split
    · next hempty =>
      rw [List.isEmpty_iff.mp hempty]
      exact .nil
    · next hne =>
      refine .last (fun hmem => h (List.mem_reverse.mp hmem)) ?_
      rwa [Ne, List.reverse_eq_nil_iff, ← List.isEmpty_iff]
  | cons c rest ih =>
    have hline : '\n' ∉ line.reverse := fun hmem => h (List.mem_reverse.mp hmem)
    rw [linesFrom]
    split
    · next hlf =>
      have hrest : Splits rest (linesFrom [] rest) := ih [] List.not_mem_nil
      rw [hlf, dropFinalCr]
      split
      · next hcr =>
        -- The line ends with CR LF, of which the CR has been taken for a part of it.
        obtain ⟨init, hinit⟩ := List.getLast?_eq_some_iff.mp hcr
        have hlf' : '\n' ∉ init := by
          intro hmem
          rw [hinit] at hline
          exact hline (List.mem_append_left _ hmem)
        rw [hinit, List.append_assoc, List.dropLast_concat]
        exact .crLf hlf' hrest
      · next hcr => exact .lf hline (fun hlast => hcr hlast) hrest
    · next hlf =>
      have hgoesOn := ih (c :: line) (List.not_mem_cons_of_ne_of_not_mem (Ne.symm hlf) h)
      rwa [List.reverse_cons, List.append_assoc] at hgoesOn

theorem splits_linesOf (s : List Char) : Splits s (linesOf s) :=
  splits_linesFrom [] s List.not_mem_nil

theorem Splits.lf_not_mem {s : List Char} {lines : List (List Char)} (h : Splits s lines) :
    ∀ line ∈ lines, '\n' ∉ line := by
  induction h with
  | nil => exact fun line hline => absurd hline List.not_mem_nil
  | last h hne =>
    intro line hline
    obtain rfl := List.mem_singleton.mp hline
    exact h
  | lf h hcr _ ih => exact List.forall_mem_cons.mpr ⟨h, ih⟩
  | crLf h _ ih => exact List.forall_mem_cons.mpr ⟨h, ih⟩

end LiveDoc
