/-
Reading a diagnostic back.

A diagnostic holds text from outside in three places: in the diff, in the replay command and in the
code.  In all three it is indented, so a row of the diagnostic that begins at the margin is one of
the fixed sentences.  `splitOn_render` says which rows there are.  The first one tells the verdict,
the sentence behind the reason is not in it, and the rows behind that sentence are in fixed places.
-/
import Mathlib.Data.List.Basic
import LiveDoc.Diagnostic
import LiveDoc.Proofs.Diff.Rows

namespace LiveDoc
namespace Diagnostic

def Inset (l : List Char) : Prop := l = [] ∨ indent <+: l

instance (l : List Char) : Decidable (Inset l) := inferInstanceAs (Decidable (_ ∨ _))

theorem inset_indent (l : List Char) : Inset (indent ++ l) := Or.inr (List.prefix_append _ _)

/-! ## The rows of the reason -/

def reasonRows (f : Failure) : List (List Char) := (reason f).toList.splitOn '\n'

def opening : Verdict → String
  | .success => ""
  | .exited => "Exited REPL unexpectedly."
  | .timeout => "Timeout: either took too long or an error occurred."
  | .mismatch _ => "Differences (-expected +actual):"

theorem label_eq_of_opening {v w : Verdict} (h : opening v = opening w) : v.label = w.label := by
  cases v <;> cases w <;> first | rfl | simp [opening] at h

theorem inset_of_mem_rows (pieces : List (Diff.Change × List Char)) :
    ∀ l ∈ Diff.rows pieces, Inset l := by
  have hrow : ∀ (piece : Diff.Change × List Char) (l : List Char), Inset (Diff.row piece ++ l) :=
    fun piece l => inset_indent (piece.1.sign :: ' ' :: (Diff.bare piece.2 ++ l))
  induction pieces with
  | nil => exact fun l hl => Or.inl (List.mem_singleton.mp hl)
  | cons piece rest ih =>
    rw [Diff.rows]
    split
    · cases hrest : Diff.rows rest with
      | nil => exact fun l hl => absurd hl List.not_mem_nil
      | cons first more =>
        rw [hrest] at ih
        exact List.forall_mem_cons.mpr ⟨hrow piece first, (List.forall_mem_cons.mp ih).2⟩
    · have hfirst := hrow piece []
      rw [List.append_nil] at hfirst
      exact List.forall_mem_cons.mpr ⟨hfirst, ih⟩

/-- Behind the first row of the reason nothing begins at the margin. -/
theorem reasonRows_eq (f : Failure) :
    ∃ rest, reasonRows f = (opening f.verdict).toList :: rest ∧ ∀ l ∈ rest, Inset l := by
  have hfixed : ∀ l ∈ [([] : List Char)], Inset l := fun l hl => Or.inl (List.mem_singleton.mp hl)
  obtain ⟨number, failed, verdict, evaluated⟩ := f
  cases verdict with
  | success => exact ⟨[], rfl, fun l hl => absurd hl List.not_mem_nil⟩
  | exited =>
    have hrows : "Exited REPL unexpectedly.\n".toList.splitOn '\n' =
        ["Exited REPL unexpectedly.".toList, []] := by
      have hline : "Exited REPL unexpectedly.\n".toList = _ := String.toList_ofList
      have hrow : "Exited REPL unexpectedly.".toList = _ := String.toList_ofList
      rw [hline, hrow]
      rfl
    exact ⟨[[]], hrows, hfixed⟩
  | timeout =>
    have hrows : "Timeout: either took too long or an error occurred.\n".toList.splitOn '\n' =
        ["Timeout: either took too long or an error occurred.".toList, []] := by
      have hline : "Timeout: either took too long or an error occurred.\n".toList = _ :=
        String.toList_ofList
      have hrow : "Timeout: either took too long or an error occurred.".toList = _ :=
        String.toList_ofList
      rw [hline, hrow]
      rfl
    exact ⟨[[]], hrows, hfixed⟩
  | mismatch actual =>
    let body := Diff.changes (failed.expected.getD "").toList actual.toList
    have hrow : "Differences (-expected +actual):".toList = _ := String.toList_ofList
    have hheader : Diff.header.toList =
        "Differences (-expected +actual):".toList ++ '\n' :: ([] ++ ['\n']) := by
      have hchars : Diff.header.toList = _ := String.toList_ofList
      rw [hchars, hrow]
      rfl
    have hopening : '\n' ∉ "Differences (-expected +actual):".toList := by
      rw [hrow]
      decide
    have hrows : (Diff.render (failed.expected.getD "") actual).toList.splitOn '\n' =
        "Differences (-expected +actual):".toList :: [] :: Diff.rows body := by
      rw [Diff.toList_render, hheader, List.append_assoc, List.cons_append,
        splitOn_append_cons_of_not_mem hopening, List.append_assoc, List.singleton_append,
        splitOn_append_cons_of_not_mem List.not_mem_nil, Diff.splitOn_changes]
    exact ⟨_, hrows, List.forall_mem_cons.mpr ⟨Or.inl rfl, inset_of_mem_rows body⟩⟩

/-- A sentence at the margin that does not open the reason is not in it. -/
theorem not_mem_reasonRows {f : Failure} {sentence : String} (hmargin : ¬ Inset sentence.toList)
    (hopening : sentence ≠ opening f.verdict) : sentence.toList ∉ reasonRows f := by
  obtain ⟨rest, hrows, hrest⟩ := reasonRows_eq f
  rw [hrows, List.mem_cons, not_or]
  exact ⟨fun h => hopening (String.toList_inj.mp h), fun hmem => hmargin (hrest _ hmem)⟩

/-! ## The rows of a diagnostic -/

def firstInstruction : String := "To reproduce this in a REPL, first evaluate all the forms up to"

def secondInstruction : String := "but not including this one by running the following command:"

def codeHeading : String := "Then evaluate the erroneous form:"

def behindReason (replay code : String) : List (List Char) :=
  secondInstruction.toList :: [] ::
    (indent ++ replay.toList) :: [] :: codeHeading.toList :: [] :: quotedCode code

theorem lf_not_mem_instructions {replay : String} (h : '\n' ∉ replay.toList) :
    ∀ l ∈ instructions replay, '\n' ∉ l := by
  have hindented : '\n' ∉ indent ++ replay.toList := by simp [indent, h]
  have hfirst : '\n' ∉ firstInstruction.toList := by
    have hchars : firstInstruction.toList = _ := String.toList_ofList
    rw [hchars]
    decide
  have hsecond : '\n' ∉ secondInstruction.toList := by
    have hchars : secondInstruction.toList = _ := String.toList_ofList
    rw [hchars]
    decide
  have hthird : '\n' ∉ codeHeading.toList := by
    have hchars : codeHeading.toList = _ := String.toList_ofList
    rw [hchars]
    decide
  simp only [instructions, List.forall_mem_cons]
  exact ⟨hfirst, hsecond, List.not_mem_nil, hindented, List.not_mem_nil, hthird, List.not_mem_nil,
    List.forall_mem_nil _⟩

theorem lf_not_mem_quotedCode (code : String) : ∀ l ∈ quotedCode code, '\n' ∉ l := by
  intro l hl
  obtain ⟨line, hline, rfl⟩ := List.mem_map.mp hl
  have hlf := (splits_linesOf code.toList).lf_not_mem line hline
  simp [indent, hlf]

theorem splitOn_render (f : Failure) {replay : String} (h : '\n' ∉ replay.toList) :
    (render f replay).toList.splitOn '\n' =
      reasonRows f ++ firstInstruction.toList :: behindReason replay f.failed.code := by
  have hrows : instructions replay ++ quotedCode f.failed.code =
      firstInstruction.toList :: behindReason replay f.failed.code := rfl
  have hbehind : ∀ l ∈ instructions replay ++ quotedCode f.failed.code, '\n' ∉ l := by
    intro l hl
    rcases List.mem_append.mp hl with hl | hl
    · exact lf_not_mem_instructions h l hl
    · exact lf_not_mem_quotedCode f.failed.code l hl
  have hne : instructions replay ++ quotedCode f.failed.code ≠ [] := List.cons_ne_nil _ _
  rw [render, String.toList_ofList, joinWith_eq_intercalate, List.cons_append,
    List.intercalate_cons_of_ne_nil hne, List.append_assoc, List.singleton_append,
    List.splitOn_append_cons_self, List.splitOn_intercalate '\n' hbehind hne, hrows, reasonRows]

theorem inset_quotedCode (code : String) : ∀ l ∈ quotedCode code, Inset l := by
  intro l hl
  obtain ⟨line, -, rfl⟩ := List.mem_map.mp hl
  exact inset_indent line

theorem linesOf_eq_of_quotedCode {a b : String} (h : quotedCode a = quotedCode b) :
    linesOf a.toList = linesOf b.toList := by
  have hinj : Function.Injective fun l : List Char => indent ++ l :=
    fun _ _ hl => List.append_cancel_left hl
  exact List.map_injective_iff.mpr hinj h

/-! ## Where the reason ends and where the code begins -/

theorem not_inset_firstInstruction : ¬ Inset firstInstruction.toList := by
  have hchars : firstInstruction.toList = _ := String.toList_ofList
  rw [hchars]
  decide

theorem not_inset_codeHeading : ¬ Inset codeHeading.toList := by
  have hchars : codeHeading.toList = _ := String.toList_ofList
  rw [hchars]
  decide

theorem first_ne_second : firstInstruction.toList ≠ secondInstruction.toList := by
  rw [Ne, String.toList_inj]
  simp [firstInstruction, secondInstruction]

theorem first_ne_heading : firstInstruction.toList ≠ codeHeading.toList := by
  rw [Ne, String.toList_inj]
  simp [firstInstruction, codeHeading]

theorem second_ne_heading : secondInstruction.toList ≠ codeHeading.toList := by
  rw [Ne, String.toList_inj]
  simp [secondInstruction, codeHeading]

theorem firstInstruction_not_mem (f : Failure) (replay code : String) :
    firstInstruction.toList ∉ reasonRows f ∧
      firstInstruction.toList ∉ behindReason replay code := by
  have hopening : firstInstruction ≠ opening f.verdict := by
    cases f.verdict <;> simp [firstInstruction, opening]
  refine ⟨not_mem_reasonRows not_inset_firstInstruction hopening, ?_⟩
  have hinset : ∀ l, Inset l → firstInstruction.toList ≠ l := by
    rintro l hl rfl
    exact not_inset_firstInstruction hl
  have hnot : ¬ firstInstruction.toList ∈ quotedCode code :=
    fun hmem => hinset _ (inset_quotedCode code _ hmem) rfl
  simp only [behindReason, List.mem_cons, not_or]
  exact ⟨first_ne_second, hinset _ (Or.inl rfl), hinset _ (inset_indent _), hinset _ (Or.inl rfl),
    first_ne_heading, hinset _ (Or.inl rfl), hnot⟩

/-- The heading of the code stands before it and nowhere else. -/
theorem count_codeHeading (f : Failure) (replay : String) :
    (reasonRows f ++ firstInstruction.toList :: behindReason replay f.failed.code).count
      codeHeading.toList = 1 := by
  have hopening : codeHeading ≠ opening f.verdict := by
    cases f.verdict <;> simp [codeHeading, opening]
  have hreason := List.count_eq_zero.mpr (not_mem_reasonRows not_inset_codeHeading hopening)
  have hinset : ∀ l, Inset l → l ≠ codeHeading.toList := by
    rintro l hl rfl
    exact not_inset_codeHeading hl
  have hcode : (quotedCode f.failed.code).count codeHeading.toList = 0 :=
    List.count_eq_zero.mpr fun hmem => hinset _ (inset_quotedCode _ _ hmem) rfl
  rw [List.count_append, hreason, Nat.zero_add, List.count_cons_of_ne first_ne_heading, behindReason,
    List.count_cons_of_ne second_ne_heading, List.count_cons_of_ne (hinset _ (Or.inl rfl)),
    List.count_cons_of_ne (hinset _ (inset_indent _)),
    List.count_cons_of_ne (hinset _ (Or.inl rfl)), List.count_cons_self,
    List.count_cons_of_ne (hinset _ (Or.inl rfl)), hcode]

/-- The verdict, the command and the code can be read off a diagnostic, whatever text from outside
is in it: two diagnostics are the same only if their verdicts are of one kind, their commands are
the same and so are the lines of their codes.  The heading of the code is a row of the diagnostic
exactly once.  Behind it come an empty row and then the lines of the code, each indented by four
spaces, up to the end. -/
theorem render_read_back {f g : Failure} {r q : String} (hr : '\n' ∉ r.toList)
    (hq : '\n' ∉ q.toList) :
    (render f r = render g q →
      f.verdict.label = g.verdict.label ∧ r = q ∧
        linesOf f.failed.code.toList = linesOf g.failed.code.toList) ∧
    ((render f r).toList.splitOn '\n').count "Then evaluate the erroneous form:".toList = 1 ∧
    ∃ before, (render f r).toList.splitOn '\n' =
      before ++ "Then evaluate the erroneous form:".toList :: [] ::
        (linesOf f.failed.code.toList).map ([' ', ' ', ' ', ' '] ++ ·) := by
  have hrows := splitOn_render f hr
  refine ⟨fun hsame => ?_, ?_, ?_⟩
  · have hrows' := splitOn_render g hq
    rw [← hsame, hrows] at hrows'
    obtain ⟨hbefore, hlater⟩ := firstInstruction_not_mem f r f.failed.code
    obtain ⟨hreason, -, hbehind⟩ := (List.append_cons_inj_of_notMem hbefore hlater).mp hrows'
    have hlabel : f.verdict.label = g.verdict.label := by
      obtain ⟨_, hfirst, -⟩ := reasonRows_eq f
      obtain ⟨_, hfirst', -⟩ := reasonRows_eq g
      rw [hreason, hfirst', List.cons.injEq, String.toList_inj] at hfirst
      exact label_eq_of_opening hfirst.1.symm
    simp only [behindReason, List.cons.injEq, List.append_cancel_left_eq, true_and] at hbehind
    exact ⟨hlabel, String.toList_inj.mp hbehind.1, linesOf_eq_of_quotedCode hbehind.2⟩
  · rw [hrows]
    exact count_codeHeading f r
  · refine ⟨reasonRows f ++ [firstInstruction.toList, secondInstruction.toList, [],
      indent ++ r.toList, []], ?_⟩
    rw [hrows, List.append_assoc]
    rfl

/-- The output and the code imitate the heading, and the output has a lone CR. -/
def imitation : Failure :=
  ⟨2, ⟨"(f)\nThen evaluate the erroneous form:\n\n(g)\n", some "4\n"⟩,
    .mismatch "4\r\nThen evaluate the erroneous form:\r", ["(f)"]⟩

/-- The same failure of another example, whose code has other line ends. -/
def imitationCrLf : Failure :=
  ⟨3, ⟨"(f)\r\nThen evaluate the erroneous form:\r\n\n(g)", some "4\n"⟩, imitation.verdict, []⟩

theorem render_read_back_imitation :
    '\n' ∉ "sbcl --load a.lisp".toList ∧
    render imitation "sbcl --load a.lisp" = render imitationCrLf "sbcl --load a.lisp" ∧
    linesOf imitation.failed.code.toList = linesOf imitationCrLf.failed.code.toList ∧
    ((render imitation "sbcl --load a.lisp").toList.splitOn '\n').count
      "Then evaluate the erroneous form:".toList = 1 := by
  have hreplay : '\n' ∉ "sbcl --load a.lisp".toList := by decide +kernel
  have hreason : reason imitation = reason imitationCrLf := rfl
  have hcode : quotedCode imitation.failed.code = quotedCode imitationCrLf.failed.code := by
    decide +kernel
  have hsame : render imitation "sbcl --load a.lisp" =
      render imitationCrLf "sbcl --load a.lisp" := by rw [render, render, hreason, hcode]
  obtain ⟨hparts, hcount, -⟩ := render_read_back (f := imitation) (g := imitationCrLf) hreplay hreplay
  exact ⟨hreplay, hsame, (hparts hsame).2.2, hcount⟩

end Diagnostic
end LiveDoc
