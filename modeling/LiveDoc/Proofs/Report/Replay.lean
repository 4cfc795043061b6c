/-
The reproduction file replays what was sent.

The same pieces of code are written twice.  The session sends each with a line end, if it has none
of its own, and the reproduction file has LF between each two and nothing behind the last.  So the
two differ in empty lines only: `filledLines` of both are those of the pieces, one piece behind the
other.  That the file holds this content when it is read again rests on the entries for its
directory, which are found as before once there is a new entry behind them.
-/
import Mathlib.Data.List.Forall2
import LiveDoc.Proofs.Prompt.Search
import LiveDoc.Proofs.Report.Artifact
import LiveDoc.Proofs.Text.Lines
import LiveDoc.Session

namespace LiveDoc

/-- The lines of what is written that are not empty, in order.  A line ends at LF. -/
def filledLines (bytes : Bytes) : List Bytes := (bytes.splitOn 10).filter (· ≠ [])

/-! ## Lines of code as it is sent and as it is kept -/

theorem filledLines_append (front behind : Bytes) :
    filledLines (front ++ 10 :: behind) = filledLines front ++ filledLines behind := by
  rw [filledLines, List.splitOn_append_cons_self, List.filter_append]
  rfl

theorem filledLines_concat (front : Bytes) : filledLines (front ++ [10]) = filledLines front := by
  have hnothing : filledLines [] = [] := rfl
  rw [filledLines_append, hnothing, List.append_nil]

theorem encode_lf : Utf8.encode ['\n'] = [10] := rfl

/-- A line end in the code or behind it adds no line to those of the code. -/
theorem filledLines_line (code : String) (behind : Bytes) :
    filledLines (Session.line code ++ behind) = filledLines (bytesOf code) ++ filledLines behind := by
  rw [Session.line]
  split
  · next hlast =>
    obtain ⟨init, hinit⟩ := List.getLast?_eq_some_iff.mp hlast
    have hcode : bytesOf code = Utf8.encode init ++ [10] := by
      rw [bytesOf, hinit, Utf8.encode_append, encode_lf]
    rw [hcode, List.append_nil, List.append_assoc, List.singleton_append, filledLines_append,
      filledLines_concat]
  · rw [List.append_assoc, List.singleton_append, filledLines_append]

theorem filledLines_lines (forms : List String) :
    filledLines (forms.flatMap Session.line) =
      forms.flatMap fun form => filledLines (bytesOf form) := by
  induction forms with
  | nil => rfl
  | cons form rest ih => rw [List.flatMap_cons, filledLines_line, ih, List.flatMap_cons]

theorem filledLines_reproduction (forms : List String) :
    filledLines (Utf8.encode (reproduction forms)) =
      forms.flatMap fun form => filledLines (bytesOf form) := by
  induction forms with
  | nil => rfl
  | cons form rest ih =>
    cases rest with
    | nil => exact (List.append_nil _).symm
    | cons form' rest =>
      have hjoined : reproduction (form :: form' :: rest) =
          form.toList ++ ['\n'] ++ reproduction (form' :: rest) := rfl
      rw [hjoined, Utf8.encode_append, Utf8.encode_append, encode_lf, List.append_assoc,
        List.singleton_append, filledLines_append, ih, List.flatMap_cons]
      rfl

/-- Whatever the session, what it sends for a code is the code with a line end. -/
theorem Session.eq_line_of_offer {s : Session} {code : String} {text : Bytes}
    (h : s.offer code = some text) : text = Session.line code := by
  simp only [Session.offer] at h
  split at h
  · cases h
  · exact (Option.some.inj h).symm

/-! ## Reading the file -/

namespace Files

variable {f f' : Files} {path : List String} {content : Bytes}

/-- What was there is found as before. -/
theorem Adds.at?_of_some (h : f.Adds path content f') {p : List String} {e : Entry}
    (hp : f.at? p = some e) : f'.at? p = some e := by
  rw [at?] at hp ⊢
  split
  · next hroot =>
    rw [if_pos hroot] at hp
    exact hp
  · next hroot =>
    rw [if_neg hroot] at hp
    rw [h.eq, List.lookup_append, hp]
    rfl

theorem Adds.at?_path (h : f.Adds path content f') : f'.at? path = some (.file content) := by
  have hfree := h.free
  rw [at?] at hfree ⊢
  split at hfree
  · cases hfree
  · next hroot =>
    rw [if_neg hroot, h.eq, List.lookup_append, hfree, Option.none_or, List.lookup_cons_self]

theorem Adds.follow (h : f.Adds path content f') {parts start found : List String}
    (hfound : f.follow start parts = .ok found) : f'.follow start parts = .ok found := by
  induction parts generalizing start with
  | nil => exact hfound
  | cons part rest ih =>
    rw [Files.follow] at hfound ⊢
    split at hfound
    · cases hfound
    · cases hfound
    · next hdirectory =>
      rw [h.at?_of_some hdirectory]
      simp only
      split at hfound
      · next hhere =>
        rw [if_pos hhere]
        exact ih hfound
      · next hhere =>
        rw [if_neg hhere]
        split at hfound
        · next hup =>
          rw [if_pos hup]
          exact ih hfound
        · next hup =>
          rw [if_neg hup]
          split at hfound
          · cases hfound
          · next hlong =>
            rw [if_neg hlong]
            exact ih hfound

theorem Adds.read (h : f.Adds path content f') {name : String} (hname : f.locate name = .ok path) :
    f'.read name = .ok content := by
  have hlocate : f'.locate name = .ok path := by
    have hhere : f'.here = f.here := by rw [h.eq]
    rw [locate] at hname ⊢
    split at hname
    · cases hname
    · next hempty =>
      split at hname
      · cases hname
      · next hnul =>
        rw [if_neg hempty, if_neg hnul, hhere]
        exact h.follow hname
  rw [Files.read, hlocate]
  simp only [h.at?_path]

end Files

/-- Let a session have sent each of some pieces of code, at any time and in any state, and let a
reproduction file be written for them.  Then the file can be read, and its lines that are not empty
are those of all that was sent, in the same order.  Both are the lines of the pieces, one piece
behind the other, so no line is made of parts of two. -/
theorem reproduction_replays {forms : List String} {sent : List Bytes} {files after : Files}
    {place : ArtifactPlace} {chance : Chance} {path : String}
    (hsent : List.Forall₂ (fun form text => ∃ s : Session, s.offer form = some text) forms sent)
    (hwritten : writeReproduction files place chance forms = (.ok path, after)) :
    ∃ content, after.read path = .ok content ∧
      filledLines content = filledLines sent.flatten ∧
      filledLines content = forms.flatMap fun form => filledLines (bytesOf form) := by
  have hlines : sent.flatten = forms.flatMap Session.line := by
    clear hwritten
    induction hsent with
    | nil => rfl
    | cons hfirst _ ih =>
      obtain ⟨s, hoffer⟩ := hfirst
      rw [List.flatten_cons, List.flatMap_cons, ih, Session.eq_line_of_offer hoffer]
  rcases writeReproduction_cases files place chance forms with ⟨err, hfailed⟩ |
    ⟨unique, -, found, created, hcreated, hlocate, hadds⟩
  · rw [hfailed] at hwritten
    cases hwritten
  · rw [hcreated] at hwritten
    cases hwritten
    refine ⟨_, hadds.read hlocate, ?_, filledLines_reproduction forms⟩
    rw [hlines, filledLines_lines, filledLines_reproduction]

/-- Code without a final line end, an empty piece, and code with blank lines and two line ends. -/
def unevenForms : List String := ["(a)\n\n  (b)", "", "\n(c)\n\n"]

def unevenReproduction : Except ReportError String × Files :=
  writeReproduction ⟨[(["tmp"], .directory)], []⟩ ⟨"README", ".lisp", "/tmp"⟩ ⟨["x1Y2z3"], []⟩
    unevenForms

theorem reproduction_replays_uneven :
    List.Forall₂ (fun form text => ∃ s : Session, s.offer form = some text) unevenForms
      (unevenForms.map Session.line) ∧
    unevenReproduction.1 = .ok "/tmp/README_x1Y2z3.lisp" ∧
    ∃ content, unevenReproduction.2.read "/tmp/README_x1Y2z3.lisp" = .ok content ∧
      filledLines content = filledLines (unevenForms.map Session.line).flatten ∧
      filledLines content = [[40, 97, 41], [32, 32, 40, 98, 41], [40, 99, 41]] := by
  have hsent : List.Forall₂ (fun form text => ∃ s : Session, s.offer form = some text) unevenForms
      (unevenForms.map Session.line) :=
    .cons ⟨.new .star, rfl⟩ (.cons ⟨.new .star, rfl⟩ (.cons ⟨.new .star, rfl⟩ .nil))
  have hpath : unevenReproduction.1.toOption = some "/tmp/README_x1Y2z3.lisp" := by decide +kernel
  have hwritten : unevenReproduction.1 = .ok "/tmp/README_x1Y2z3.lisp" := by
    cases hresult : unevenReproduction.1 with
    | error err =>
      rw [hresult] at hpath
      cases hpath
    | ok path =>
      rw [hresult] at hpath
      exact congrArg Except.ok (Option.some.inj hpath)
  obtain ⟨content, hread, hsame, hforms⟩ := reproduction_replays hsent (Prod.ext hwritten rfl)
  refine ⟨hsent, hwritten, content, hread, hsame, ?_⟩
  rw [hforms]
  decide +kernel

end LiveDoc
