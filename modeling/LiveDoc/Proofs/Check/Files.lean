/-
What a check does to the files.

A check writes no file before an example has failed, and then one at most.  So the files are as
before wherever a step fails and when all examples succeed, and a failure that is reported leaves
one file more: the reproduction file, in a place where nothing was.
-/
import LiveDoc.Check
import LiveDoc.Interpreter.Scripted
import LiveDoc.Proofs.Report.Artifact
import LiveDoc.Proofs.Report.Place

namespace LiveDoc

section

variable {σ ε τ : Type} (world : Interpreters σ ε) (sink : Sink τ) (chance : Chance)
  (files : Files) (r : CheckRequest) (transcript : τ)

/-- All that a check can do to the files. -/
theorem check_cases :
    (∃ result transcript', check world sink chance files r transcript =
        (result, transcript', files) ∧
      ∀ failure report, result ≠ .ok (.failed failure report)) ∨
    (∃ failure diagnostic transcript' after, ∃ unique ∈ chance.names, ∃ found,
      check world sink chance files r transcript =
        (.ok (.failed failure ⟨diagnostic, r.place.path files unique⟩), transcript', after) ∧
      files.locate (r.place.path files unique) = .ok found ∧
      files.Adds found (Utf8.encode (reproduction failure.evaluated)) after) := by
  rw [check]
  split
  · exact Or.inl ⟨_, _, rfl, nofun⟩
  · dsimp only
    split
    · exact Or.inl ⟨_, _, rfl, nofun⟩
    · split
      · exact Or.inl ⟨_, _, rfl, nofun⟩
      · exact Or.inl ⟨_, _, rfl, nofun⟩
      · next failure v hrun =>
        rcases reportFailure_cases files r.place chance r.config.interpreter failure with
          ⟨err, hreport⟩ | ⟨unique, hmem, diagnostic, found, after, hreport, hlocate, hadds⟩
        · rw [hreport]
          exact Or.inl ⟨_, _, rfl, nofun⟩
        · rw [hreport]
          exact Or.inr ⟨failure, diagnostic, _, after, unique, hmem, found, rfl, hlocate, hadds⟩

variable {world sink chance files r transcript}

/-- Whatever the files, the interpreter and the transcript are and whichever step fails, a check
leaves the files as they were unless it reports a failure.  Then there is exactly one file more,
where nothing was.  Its name is made of the stem of the document, a random part and the suffix,
and its path, which is absolute, leads through the directory for reproduction files; it is in this
directory itself if the random part and the suffix have no slash.  A success is not reported and
leaves nothing. -/
theorem check_files {result : Except (CheckError ε) CheckOutcome} {transcript' : τ} {after : Files}
    (hcheck : check world sink chance files r transcript = (result, transcript', after)) :
    (∀ failure report, result = .ok (.failed failure report) →
      ∃ unique ∈ chance.names, ∃ name directory found,
        name = Path.stem r.document ++ "_" ++ unique ++ r.config.interpreter.artifactSuffix ∧
        report.artifact = Path.join (files.absolute r.artifactDir) name ∧
        Path.isAbsolute report.artifact = true ∧
        files.directory (files.absolute r.artifactDir) = .ok directory ∧
        (files.directory (Path.ofParts files.here) = .ok files.here →
          files.directory r.artifactDir = .ok directory) ∧
        files.follow directory (Path.parts name) = .ok found ∧
        files.Adds found (Utf8.encode (reproduction failure.evaluated)) after ∧
        ('/' ∉ unique.toList → '/' ∉ r.config.interpreter.artifactSuffix.toList →
          files.at? directory = some .directory ∧ found = directory ++ [name])) ∧
    (∀ n, result = .ok (.passed n) → after = files) ∧
    (∀ err, result = .error err → after = files) ∧
    (∀ place interpreter f, f.verdict = .success →
      reportFailure files place chance interpreter f = (.error .notAFailure, files)) := by
  have hsuccess : ∀ place interpreter (f : Failure), f.verdict = .success →
      reportFailure files place chance interpreter f = (.error .notAFailure, files) := by
    intro place interpreter f hverdict
    rw [reportFailure, hverdict]
    rfl
  rcases check_cases world sink chance files r transcript with
    ⟨_, _, hsame, hnot⟩ |
    ⟨failure, diagnostic, _, _, unique, hmem, found, hfailed, hlocate, hadds⟩
  · cases hcheck.symm.trans hsame
    exact ⟨fun failure report h => absurd h (hnot failure report), fun _ _ => rfl,
      fun _ _ => rfl, hsuccess⟩
  · cases hcheck.symm.trans hfailed
    refine ⟨fun failure' report h => ?_, fun _ h => (by cases h), fun _ h => (by cases h),
      hsuccess⟩
    obtain ⟨rfl, hreport⟩ := CheckOutcome.failed.inj (Except.ok.inj h)
    have hpath : report.artifact = r.place.path files unique := by rw [← hreport]
    have hstem : '/' ∉ r.place.stem.toList := Path.slash_not_mem_stem r.document
    obtain ⟨directory, hdirectory, hname, hwithin⟩ := ArtifactPlace.locate_path hstem hlocate
    have habsolute : Path.isAbsolute report.artifact = true := by
      rw [hpath]
      exact Path.isAbsolute_join (files.isAbsolute_absolute _) _
    exact ⟨unique, hmem, r.place.name unique, directory, found, rfl, hpath, habsolute, hdirectory,
      fun hhere => Files.directory_of_absolute hhere hdirectory, hname, hadds, hwithin⟩

end

/-- A document with one example, and a directory in which one name is already taken. -/
def takenFiles : Files :=
  ⟨[(["d.md"], .file (bytesOf
      "\x60\x60\x60lisp\n(a)\n\x60\x60\x60\n\n\x60\x60\x60\nA\n\x60\x60\x60\n")),
    (["tmp"], .directory), (["tmp", "d_x.lisp"], .file [1])], []⟩

def takenRequest : CheckRequest := ⟨"d.md", .default, none, "/tmp"⟩

/-- An interpreter that answers something else than is documented. -/
def takenWorld : Interpreters Playback PlaybackError :=
  ⟨fun _ => .ok ⟨[⟨.success, bytesOf "B\n"⟩], []⟩, .scripted⟩

def takenOutcome : Except (CheckError PlaybackError) CheckOutcome × List Char × Files :=
  check takenWorld .unlimited ⟨["x", "y"], []⟩ takenFiles takenRequest []

/-- The reproduction file that an outcome reports, with the code that it holds. -/
def reported? : Except (CheckError PlaybackError) CheckOutcome → Option (String × List String)
  | .ok (.failed failure report) => some (report.artifact, failure.evaluated)
  | _ => none

def takenName (unique : String) : String :=
  Path.stem takenRequest.document ++ "_" ++ unique ++
    takenRequest.config.interpreter.artifactSuffix

theorem check_files_nameTaken :
    ∃ result transcript after, takenOutcome = (result, transcript, after) ∧
      reported? result = some ("/tmp/d_y.lisp", []) ∧
      '/' ∉ "y".toList ∧ '/' ∉ takenRequest.config.interpreter.artifactSuffix.toList ∧
      takenFiles.Adds ["tmp", "d_y.lisp"] [] after := by
  have hreported : reported? takenOutcome.1 = some ("/tmp/d_y.lisp", []) := by decide +kernel
  have hunique : '/' ∉ "y".toList := by decide
  have hsuffix : '/' ∉ takenRequest.config.interpreter.artifactSuffix.toList := by decide
  have htmp : takenFiles.directory "/tmp" = .ok ["tmp"] := by rfl
  have htaken : "/tmp/d_y.lisp" ≠ Path.join "/tmp" (takenName "x") := by decide +kernel
  have hnew : takenName "y" = "d_y.lisp" := by decide +kernel
  rcases hcheck : takenOutcome with ⟨result, transcript, after⟩
  rw [hcheck] at hreported
  refine ⟨result, transcript, after, rfl, hreported, hunique, hsuffix, ?_⟩
  rcases result with err | n | ⟨failure, report⟩
  · cases hreported
  · cases hreported
  · obtain ⟨hpath, hevaluated⟩ := Prod.mk.inj (Option.some.inj hreported)
    obtain ⟨unique, hmem, name, directory, found, hname, hartifact, -, hdirectory, -, -,
      hadds, hwithin⟩ := (check_files hcheck).1 failure report rfl
    rw [hevaluated] at hadds
    rw [hpath, hname] at hartifact
    rw [List.mem_cons, List.mem_singleton] at hmem
    rcases hmem with rfl | rfl
    · exact absurd hartifact htaken
    · obtain rfl := Except.ok.inj (htmp.symm.trans hdirectory)
      obtain ⟨-, rfl⟩ := hwithin hunique hsuffix
      rw [hname, ← takenName, hnew] at hadds
      exact hadds

end LiveDoc
