/-
The rows of a diff.

Each change is shown with a line end: the one of its line, or LF if the line has none.  A reader
who cuts the diff at LF finds one row for each change, as long as these line ends are LF or CR LF.
A line may also end with a CR that no LF follows.  Then the next change stands in the same row.
`rows` says which rows there are in all, and they are the changes one by one exactly if neither
text has such a CR.
-/
import LiveDoc.Capture
import LiveDoc.Proofs.Diff.Lossless
import LiveDoc.Proofs.Text.Lines

namespace LiveDoc
namespace Diff

def HasLoneCr : List Char → Prop
  | [] => False
  | c :: rest => (c = '\r' ∧ rest.head? ≠ some '\n') ∨ HasLoneCr rest

def EndsInCr (line : List Char) : Prop := line.getLast? = some '\r'

instance (line : List Char) : Decidable (EndsInCr line) := inferInstanceAs (Decidable (_ = _))

def bare (line : List Char) : List Char :=
  if line.getLast? = some '\n' then line.dropLast else line

/-- A change as it is shown, without the LF that ends it. -/
def row (piece : Change × List Char) : List Char :=
  [' ', ' ', ' ', ' ', piece.1.sign, ' '] ++ bare piece.2

/-- What is between the LFs of a diff.  A change whose line ends in CR runs on into the next row,
and nothing is behind the last LF. -/
def rows : List (Change × List Char) → List (List Char)
  | [] => [[]]
  | piece :: rest =>
    if EndsInCr piece.2 then (rows rest).modifyHead (row piece ++ ·) else row piece :: rows rest

/-! ## Where a line has its line end -/

theorem bare_of_last {line : List Char} (h : line.getLast? ≠ some '\n') : bare line = line :=
  if_neg h

theorem bare_concat (body : List Char) : bare (body ++ ['\n']) = body := by
  rw [bare, if_pos List.getLast?_concat, List.dropLast_concat]

/-- A line has LF at its end only. -/
theorem Lined.not_mem_bare {text : List Char} {lines : List (List Char)} (h : Lined text lines) :
    ∀ line ∈ lines, '\n' ∉ bare line := by
  have hbare : ∀ {body : List Char}, (∀ c ∈ body, c ≠ '\n' ∧ c ≠ '\r') → '\n' ∉ body :=
    fun hbody hmem => (hbody _ hmem).1 rfl
  induction h with
  | nil => exact fun line hline => absurd hline List.not_mem_nil
  | @last body hne hbody =>
    intro line hline
    obtain rfl := List.mem_singleton.mp hline
    have hlast : line.getLast? ≠ some '\n' := fun h => hbare hbody (List.mem_of_getLast? h)
    rw [bare_of_last hlast]
    exact hbare hbody
  | @line body ending rest lines hbody hending _ ih =>
    intro line hline
    rcases List.mem_cons.mp hline with rfl | hlater
    · rcases hending with rfl | rfl | ⟨rfl, -⟩
      · rw [bare_concat]
        exact hbare hbody
      · have hsplit : body ++ ['\r', '\n'] = body ++ ['\r'] ++ ['\n'] := by simp
        rw [hsplit, bare_concat]
        simpa using hbare hbody
      · rw [bare_of_last (by simp)]
        simpa using hbare hbody
    · exact ih line hlater

theorem hasLoneCr_append {front : List Char} (h : '\r' ∉ front) (text : List Char) :
    HasLoneCr (front ++ text) ↔ HasLoneCr text := by
  induction front with
  | nil => rfl
  | cons c rest ih =>
    rw [List.mem_cons, not_or] at h
    rw [List.cons_append, HasLoneCr, ih h.2, or_iff_right]
    exact fun hhere => h.1 hhere.1.symm

/-- The CRs that no LF follows are the line ends of just the lines that end in CR. -/
theorem Lined.hasLoneCr_iff {text : List Char} {lines : List (List Char)} (h : Lined text lines) :
    HasLoneCr text ↔ ∃ line ∈ lines, EndsInCr line := by
  have hbare : ∀ {body : List Char}, (∀ c ∈ body, c ≠ '\n' ∧ c ≠ '\r') → '\r' ∉ body :=
    fun hbody hmem => (hbody _ hmem).2 rfl
  induction h with
  | nil => simp [HasLoneCr]
  | @last body hne hbody =>
    have hnone : ¬ HasLoneCr (body ++ []) := by
      rw [hasLoneCr_append (hbare hbody)]
      exact id
    rw [List.append_nil] at hnone
    have hlast : ¬ EndsInCr body := fun h => hbare hbody (List.mem_of_getLast? h)
    simp [hnone, hlast]
  | @line body ending rest lines hbody hending _ ih =>
    have hfirst : HasLoneCr (ending ++ rest) ↔ EndsInCr (body ++ ending) ∨ HasLoneCr rest := by
      rcases hending with rfl | rfl | ⟨rfl, hrest⟩
      · simp [HasLoneCr, EndsInCr]
      · simp [HasLoneCr, EndsInCr]
      · simp [HasLoneCr, EndsInCr, hrest]
    rw [List.append_assoc, hasLoneCr_append (hbare hbody), hfirst]
    simp only [List.mem_cons, exists_eq_or_imp]
    exact or_congr_right ih

/-! ## Cutting the diff at LF -/

theorem renderChange_eq (piece : Change × List Char) :
    renderChange piece = row piece ++ if EndsInCr piece.2 then [] else ['\n'] := by
  obtain ⟨change, line⟩ := piece
  simp only [renderChange, row, missingLineEnd_eq]
  by_cases hlf : line.getLast? = some '\n'
  · have hends : EndsLine line := Or.inl hlf
    have hcr : ¬ EndsInCr line := by simp [EndsInCr, hlf]
    obtain ⟨body, rfl⟩ := List.getLast?_eq_some_iff.mp hlf
    rw [if_pos hends, if_neg hcr, bare_concat, List.append_nil, List.append_assoc]
  · rw [bare_of_last hlf]
    by_cases hcr : EndsInCr line
    · have hends : EndsLine line := Or.inr hcr
      rw [if_pos hends, if_pos hcr]
    · have hends : ¬ EndsLine line := fun h => h.elim hlf hcr
      rw [if_neg hends, if_neg hcr]

theorem lf_not_mem_row {piece : Change × List Char} (h : '\n' ∉ bare piece.2) :
    '\n' ∉ row piece := by
  have hsign : '\n' ≠ piece.1.sign := by cases piece.1 <;> decide
  simp [row, h, hsign]

theorem splitOn_body {pieces : List (Change × List Char)}
    (h : ∀ piece ∈ pieces, '\n' ∉ bare piece.2) :
    (pieces.flatMap renderChange).splitOn '\n' = rows pieces := by
  induction pieces with
  | nil => rfl
  | cons piece rest ih =>
    obtain ⟨hpiece, hrest⟩ := List.forall_mem_cons.mp h
    have hrow := lf_not_mem_row hpiece
    rw [List.flatMap_cons, renderChange_eq, rows]
    split
    · rw [List.append_nil, splitOn_append_of_not_mem hrow, ih hrest]
    · rw [List.append_assoc, List.singleton_append, splitOn_append_cons_of_not_mem hrow, ih hrest]

theorem length_rows (pieces : List (Change × List Char)) :
    (rows pieces).length = pieces.countP (fun piece => ¬ EndsInCr piece.2) + 1 := by
  induction pieces with
  | nil => rfl
  | cons piece rest ih =>
    rw [rows, List.countP_cons]
    split
    · next hcr => simp [ih, hcr]
    · next hcr => simp [ih, hcr]

theorem rows_eq_map {pieces : List (Change × List Char)}
    (h : ∀ piece ∈ pieces, ¬ EndsInCr piece.2) : rows pieces = pieces.map row ++ [[]] := by
  induction pieces with
  | nil => rfl
  | cons piece rest ih =>
    obtain ⟨hpiece, hrest⟩ := List.forall_mem_cons.mp h
    rw [rows, if_neg hpiece, ih hrest, List.map_cons, List.cons_append]

/-! ## The changes between two texts -/

theorem exists_mem_changes_iff (expected actual : List Char) (P : List Char → Prop) :
    (∃ piece ∈ changes expected actual, P piece.2) ↔
      (∃ line ∈ lines expected, P line) ∨ ∃ line ∈ lines actual, P line := by
  obtain ⟨hold, hnew⟩ := pieces_changes expected actual
  rw [← hold, ← hnew]
  simp only [oldPieces, newPieces, List.mem_map, List.mem_filter, decide_eq_true_eq]
  constructor
  · rintro ⟨⟨change, line⟩, hmem, hline⟩
    cases change with
    | keep => exact Or.inl ⟨line, ⟨_, ⟨hmem, Change.noConfusion⟩, rfl⟩, hline⟩
    | delete => exact Or.inl ⟨line, ⟨_, ⟨hmem, Change.noConfusion⟩, rfl⟩, hline⟩
    | insert => exact Or.inr ⟨line, ⟨_, ⟨hmem, Change.noConfusion⟩, rfl⟩, hline⟩
  · rintro (⟨line, ⟨piece, ⟨hmem, -⟩, rfl⟩, hline⟩ | ⟨line, ⟨piece, ⟨hmem, -⟩, rfl⟩, hline⟩)
    · exact ⟨piece, hmem, hline⟩
    · exact ⟨piece, hmem, hline⟩

theorem not_mem_bare_of_mem_changes (expected actual : List Char) :
    ∀ piece ∈ changes expected actual, '\n' ∉ bare piece.2 := by
  intro piece hpiece hlf
  have hsome : ∃ piece ∈ changes expected actual, '\n' ∈ bare piece.2 := ⟨piece, hpiece, hlf⟩
  rcases (exists_mem_changes_iff expected actual fun line => '\n' ∈ bare line).mp hsome with
    ⟨line, hline, hmem⟩ | ⟨line, hline, hmem⟩
  · exact (lined_lines expected).not_mem_bare line hline hmem
  · exact (lined_lines actual).not_mem_bare line hline hmem

theorem splitOn_changes (expected actual : List Char) :
    ((changes expected actual).flatMap renderChange).splitOn '\n' = rows (changes expected actual) :=
  splitOn_body (not_mem_bare_of_mem_changes expected actual)

theorem toList_render (expected actual : String) :
    (render expected actual).toList =
      header.toList ++ (changes expected.toList actual.toList).flatMap renderChange := by
  rw [render, String.toList_append, String.toList_ofList]

theorem exists_endsInCr_iff (expected actual : List Char) :
    (∃ piece ∈ changes expected actual, EndsInCr piece.2) ↔
      HasLoneCr expected ∨ HasLoneCr actual := by
  rw [exists_mem_changes_iff, (lined_lines expected).hasLoneCr_iff,
    (lined_lines actual).hasLoneCr_iff]

/-- Behind the header of a diff, as many LFs stand as there are changes whose line does not end in
CR, and what is between them are the rows.  They are the changes one by one, each in a row of its
own and nothing behind the last LF, exactly if no CR of either text lacks its LF.  Otherwise there
are fewer LFs than changes. -/
theorem render_rows (expected actual : String) :
    let pieces := changes expected.toList actual.toList
    ∃ body, (render expected actual).toList = header.toList ++ body ∧
      body.splitOn '\n' = rows pieces ∧
      body.count '\n' = pieces.countP (fun piece => ¬ EndsInCr piece.2) ∧
      (body.count '\n' = pieces.length ↔
        ¬ HasLoneCr expected.toList ∧ ¬ HasLoneCr actual.toList) ∧
      (body.splitOn '\n' = pieces.map row ++ [[]] ↔
        ¬ HasLoneCr expected.toList ∧ ¬ HasLoneCr actual.toList) := by
  intro pieces
  let body := pieces.flatMap renderChange
  have hrows : body.splitOn '\n' = rows pieces := splitOn_changes expected.toList actual.toList
  have hlength : body.count '\n' + 1 = (rows pieces).length := by rw [← length_splitOn, hrows]
  have hcount : body.count '\n' = pieces.countP (fun piece => ¬ EndsInCr piece.2) := by
    rw [length_rows] at hlength
    omega
  have hnone : (∀ piece ∈ pieces, ¬ EndsInCr piece.2) ↔
      ¬ HasLoneCr expected.toList ∧ ¬ HasLoneCr actual.toList := by
    rw [← not_or, ← exists_endsInCr_iff]
    simp [pieces]
  have hall : body.count '\n' = pieces.length ↔ ∀ piece ∈ pieces, ¬ EndsInCr piece.2 := by
    rw [hcount, List.countP_eq_length]
    simp
  refine ⟨body, toList_render expected actual, hrows, hcount, hall.trans hnone, ?_⟩
  rw [← hnone]
  constructor
  · intro hmap
    rw [hrows] at hmap
    rw [hmap, List.length_append, List.length_map, List.length_singleton] at hlength
    exact hall.mp (by omega)
  · intro hcr
    rw [hrows, rows_eq_map hcr]

/-- Three changes in two rows: the CR in the actual output ends a line, and no LF is put behind
it. -/
theorem render_two_in_one_row :
    Capture.text [97, 13, 98, 10] = "a\rb\n" ∧
      render "a\n" "a\rb\n" = header ++ "    - a\n    + a\r    + b\n" ∧
      changes "a\n".toList "a\rb\n".toList =
        [(.delete, ['a', '\n']), (.insert, ['a', '\r']), (.insert, ['b', '\n'])] ∧
      ¬ ("    - a\n    + a\r    + b\n".toList.count '\n' =
          (changes "a\n".toList "a\rb\n".toList).length ∧
        "    - a\n    + a\r    + b\n".toList.splitOn '\n' =
          (changes "a\n".toList "a\rb\n".toList).map row ++ [[]]) := by
  decide +kernel

end Diff
end LiveDoc
