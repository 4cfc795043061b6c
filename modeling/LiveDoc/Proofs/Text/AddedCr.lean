/-
Outputs that differ in their line ends.

One interpreter ends its lines with LF, another with CR LF, and a third mixes the
two.  `CrAdded` relates an output to what comes of it when a CR is put in front of
some of its LFs.  The text of a capture is made line by line, and a line loses one
CR from its end, so each line has the same text in both, also where it breaks off
within a character.
-/
import LiveDoc.Proofs.Text.Capture

namespace LiveDoc

/-- The second list is the first with `cr` put in front of some of those `lf` that do not
follow a `cr`.  In front of both lists stands `before`, if anything does. -/
inductive CrAdded {α : Type} (cr lf : α) : Option α → List α → List α → Prop
  | nil (before : Option α) : CrAdded cr lf before [] []
  | same {before : Option α} {s t : List α} (a : α) (rest : CrAdded cr lf (some a) s t) :
      CrAdded cr lf before (a :: s) (a :: t)
  | added {before : Option α} {s t : List α} (hbefore : before ≠ some cr)
      (rest : CrAdded cr lf (some lf) s t) : CrAdded cr lf before (lf :: s) (cr :: lf :: t)

/-- The second output is the first with a CR in front of some of its LFs that had none. -/
def AddsCr (s t : Bytes) : Prop := CrAdded 13 10 none s t

theorem CrAdded.refl {α : Type} {cr lf : α} (before : Option α) (s : List α) :
    CrAdded cr lf before s s := by
  induction s generalizing before with
  | nil => exact .nil before
  | cons a s ih => exact .same a (ih (some a))

/-- Both outputs stand behind a line that is under way. -/
theorem CrAdded.text_append_eq {before : Option UInt8} {s t : Bytes} (h : CrAdded 13 10 before s t)
    {line : Bytes} (hline : 10 ∉ line) (hlast : line.getLast? = some 13 → before = some 13) :
    Capture.text (line ++ s) = Capture.text (line ++ t) := by
  induction h generalizing line with
  | nil before => rfl
  | @same before s t a _ ih =>
    by_cases ha : a = 10
    · have hrest : Capture.text s = Capture.text t := ih List.not_mem_nil (fun h => by cases h)
      rw [ha, Capture.text_append_lf hline, Capture.text_append_lf hline, hrest]
    · have hlonger : 10 ∉ line ++ [a] := by
        rw [List.mem_append, List.mem_singleton]
        rintro (hmem | heq)
        · exact hline hmem
        · exact ha heq.symm
      have hmore := ih hlonger fun hcr => by rwa [List.getLast?_concat] at hcr
      rwa [List.append_assoc, List.append_assoc] at hmore
  | @added before s t hbefore _ ih =>
    have hrest : Capture.text s = Capture.text t := ih List.not_mem_nil (fun h => by cases h)
    have hcr : 10 ∉ line ++ [13] := by
      rw [List.mem_append, List.mem_singleton]
      rintro (hmem | heq)
      · exact hline hmem
      · exact absurd heq (by decide)
    have hsame : withoutFinalCr (line ++ [13]) = withoutFinalCr line := by
      rw [withoutFinalCr_concat, withoutFinalCr, if_neg fun h => hbefore (hlast h)]
    have happend : line ++ 13 :: 10 :: t = line ++ [13] ++ 10 :: t := by simp
    rw [happend, Capture.text_append_lf hline, Capture.text_append_lf hcr, hsame, hrest]

theorem AddsCr.text_eq {s t : Bytes} (h : AddsCr s t) : Capture.text s = Capture.text t :=
  CrAdded.text_append_eq h List.not_mem_nil (fun h => by cases h)

end LiveDoc
