/-
A diff shows both texts.

The texts are cut into lines that keep their line ends, so that joining the lines gives back
the text.  The script leads from the lines of one text to those of the other.  So each text can
be read off the diff: the lines with two of the three marks are its lines, and nothing is marked
as a change if and only if there is none.
-/
import LiveDoc.Proofs.Diff.Sides

namespace LiveDoc
namespace Diff

/-! ## Lines with their line ends -/

/-- A text and its lines.  A line ends with LF, with CR LF, or with a CR that no LF follows; the
last one may lack a line end. -/
inductive Lined : List Char → List (List Char) → Prop
  | nil : Lined [] []
  | last {body : List Char} (hne : body ≠ []) (hbody : ∀ c ∈ body, c ≠ '\n' ∧ c ≠ '\r') :
      Lined body [body]
  | line {body ending rest : List Char} {lines : List (List Char)}
      (hbody : ∀ c ∈ body, c ≠ '\n' ∧ c ≠ '\r')
      (hending : ending = ['\n'] ∨ ending = ['\r', '\n'] ∨
        ending = ['\r'] ∧ rest.head? ≠ some '\n')
      (h : Lined rest lines) : Lined (body ++ ending ++ rest) ((body ++ ending) :: lines)

theorem Lined.flatten {text : List Char} {lines : List (List Char)} (h : Lined text lines) :
    lines.flatten = text := by
  induction h with
  | nil => rfl
  | last hne hbody => rw [List.flatten_cons, List.flatten_nil, List.append_nil]
  | line hbody hending h ih => rw [List.flatten_cons, ih]

/-- `line` is what has been read of the current line, in reverse. -/
theorem lined_linesFrom (line text : List Char) (hline : ∀ c ∈ line, c ≠ '\n' ∧ c ≠ '\r') :
    Lined (line.reverse ++ text) (linesFrom line text) := by
  have hreverse : ∀ c ∈ line.reverse, c ≠ '\n' ∧ c ≠ '\r' :=
    fun c hc => hline c (List.mem_reverse.mp hc)
  fun_induction linesFrom line text with
  | case1 line hnone =>
    obtain rfl := List.isEmpty_iff.mp hnone
    exact .nil
  | case2 line hsome =>
    rw [List.append_nil]
    refine .last (fun hnone => hsome ?_) hreverse
    rw [List.reverse_eq_nil_iff.mp hnone, List.isEmpty_nil]
  | case3 line rest ih =>
    have hrest := ih (by simp) (by simp)
    simpa using Lined.line hreverse (Or.inr (Or.inl rfl)) hrest
  | case4 line c rest hnotCrLf hend ih =>
    have hrest := ih (by simp) (by simp)
    have hending : [c] = ['\n'] ∨ [c] = ['\r', '\n'] ∨ [c] = ['\r'] ∧ rest.head? ≠ some '\n' := by
      rcases hend with rfl | rfl
      · exact Or.inl rfl
      · refine Or.inr (Or.inr ⟨rfl, fun hhead => ?_⟩)
        obtain ⟨tail, rfl⟩ := List.head?_eq_some_iff.mp hhead
        exact hnotCrLf tail rfl rfl
    simpa using Lined.line hreverse hending hrest
  | case5 line c rest hnotCrLf hend ih =>
    rw [not_or] at hend
    have hmore : ∀ d ∈ c :: line, d ≠ '\n' ∧ d ≠ '\r' := List.forall_mem_cons.mpr ⟨hend, hline⟩
    simpa using ih hmore (fun d hd => hmore d (List.mem_reverse.mp hd))

theorem lined_lines (text : List Char) : Lined text (lines text) :=
  lined_linesFrom [] text fun _ hc => absurd hc List.not_mem_nil

/-- Different texts have different lines. -/
theorem lines_inj {a b : List Char} (h : lines a = lines b) : a = b := by
  rw [← (lined_lines a).flatten, h, (lined_lines b).flatten]

/-! ## What is shown -/

def EndsLine (line : List Char) : Prop := line.getLast? = some '\n' ∨ line.getLast? = some '\r'

instance (line : List Char) : Decidable (EndsLine line) := inferInstanceAs (Decidable (_ ∨ _))

theorem missingLineEnd_eq (line : List Char) :
    missingLineEnd line = if EndsLine line then [] else ['\n'] := by
  rw [missingLineEnd]
  split
  · next h =>
    have hends : EndsLine line := Or.inl h
    rw [if_pos hends]
  · next h =>
    have hends : EndsLine line := Or.inr h
    rw [if_pos hends]
  · next hlf hcr =>
    rw [if_neg]
    rintro (h | h)
    · exact hlf h
    · exact hcr h

/-- The script that is shown, with the lines of both texts. -/
theorem pieces_changes (expected actual : List Char) :
    oldPieces (changes expected actual) = lines expected ∧
      newPieces (changes expected actual) = lines actual :=
  (leads_compact (leads_script (lines expected) (lines actual))).pieces_marks

theorem changes_self (text : List Char) : changes text text = (lines text).map (.keep, ·) :=
  marks_compact_script_self (lines text)

theorem exists_change_iff (expected actual : List Char) :
    (∃ piece ∈ changes expected actual, piece.1 ≠ .keep) ↔ expected ≠ actual := by
  constructor
  · rintro ⟨piece, hpiece, hchange⟩ rfl
    rw [changes_self] at hpiece
    obtain ⟨line, -, rfl⟩ := List.mem_map.mp hpiece
    exact hchange rfl
  · intro hne
    by_cases hchange : ∃ piece ∈ changes expected actual, piece.1 ≠ .keep
    · exact hchange
    · have hkept : ∀ piece ∈ changes expected actual, piece.1 = .keep := by
        intro piece hpiece
        by_cases hkeep : piece.1 = .keep
        · exact hkeep
        · exact absurd ⟨piece, hpiece, hkeep⟩ hchange
      obtain ⟨hold, hnew⟩ := pieces_changes expected actual
      have hlines : lines expected = lines actual := by
        rw [← hold, ← hnew, oldPieces_eq_newPieces hkept]
      exact absurd (lines_inj hlines) hne

/-- Nothing of the two texts is lost in the diff.  Behind the header it consists of the changes,
each shown as four spaces, its mark, a space and a line, and of a LF just where that line has no
line end of its own.  The lines that are kept or deleted are the lines of the documented output,
in order and each once, so they make up exactly this text.  In the same way the lines that are
kept or inserted make up the actual output.  Some line is deleted or inserted exactly if the two
texts differ. -/
theorem render_lossless (expected actual : String) :
    let pieces := changes expected.toList actual.toList
    (render expected actual).toList = header.toList ++ pieces.flatMap (fun piece =>
      [' ', ' ', ' ', ' ', piece.1.sign, ' '] ++ piece.2 ++
        if EndsLine piece.2 then [] else ['\n']) ∧
    (Lined expected.toList (oldPieces pieces) ∧ (oldPieces pieces).flatten = expected.toList) ∧
    (Lined actual.toList (newPieces pieces) ∧ (newPieces pieces).flatten = actual.toList) ∧
    ((∃ piece ∈ pieces, piece.1 = .delete ∨ piece.1 = .insert) ↔ expected ≠ actual) := by
  intro pieces
  obtain ⟨hold, hnew⟩ := pieces_changes expected.toList actual.toList
  have hexpected := lined_lines expected.toList
  have hactual := lined_lines actual.toList
  rw [← hold] at hexpected
  rw [← hnew] at hactual
  refine ⟨?_, ⟨hexpected, hexpected.flatten⟩, ⟨hactual, hactual.flatten⟩, ?_⟩
  · rw [render, String.toList_append, String.toList_ofList]
    congr 2
    funext piece
    rw [renderChange, missingLineEnd_eq]
  · have hmark : ∀ change : Change, change = .delete ∨ change = .insert ↔ change ≠ .keep := by
      intro change
      cases change <;> decide
    simp only [hmark]
    rw [exists_change_iff, Ne, String.toList_inj]

/-- Two texts that differ only in the last line end. -/
example : render "4" "4\n" = "Differences (-expected +actual):\n\n    - 4\n    + 4\n" := by
  decide +kernel

end Diff
end LiveDoc
