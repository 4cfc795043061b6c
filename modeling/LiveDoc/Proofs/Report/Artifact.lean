/-
What writing a reproduction file does to the files.

The file stands under its name before it has any content, so it has to go again if a
later step fails.  `writeReproduction_cases` says that this works out: either there
is an error and the files are those from before, or there is exactly one file more.
-/
import LiveDoc.Report

namespace LiveDoc

/-- The files `after` are the files `before` and one more, where nothing was. -/
structure Files.Adds (before : Files) (path : List String) (content : Bytes) (after : Files) :
    Prop where
  free : before.at? path = none
  eq : after = { before with entries := before.entries ++ [(path, .file content)] }

namespace Files

theorem ne_of_free {f : Files} {path : List String} (h : f.at? path = none) :
    ∀ e ∈ f.entries, e.1 ≠ path := by
  rw [at?] at h
  split at h
  · cases h
  · intro e he heq
    have hne := List.lookup_eq_none_iff.mp h e he
    rw [heq, bne_self_eq_false] at hne
    cases hne

theorem create_ok {f f' : Files} {path : List String} (h : f.create path = .ok f') :
    f.Adds path [] f' := by
  rw [create] at h
  split at h
  · cases h
  · next hfree =>
    split at h
    · exact ⟨hfree, (Except.ok.inj h).symm⟩
    · cases h
    · cases h

theorem Adds.write {f f' : Files} {path : List String} {content : Bytes}
    (h : f.Adds path content f') (content' : Bytes) :
    f.Adds path content' (f'.write path content') := by
  have hothers : f.entries.map (fun e => if e.1 = path then (path, Entry.file content') else e) =
      f.entries := by
    conv => rhs; rw [← List.map_id f.entries]
    exact List.map_congr_left fun e he => if_neg (ne_of_free h.free e he)
  refine ⟨h.free, ?_⟩
  rw [h.eq, Files.write, List.map_append, hothers]
  simp

theorem Adds.remove {f f' : Files} {path : List String} {content : Bytes}
    (h : f.Adds path content f') : f'.remove path = f := by
  have hothers : f.entries.filter (fun e => e.1 ≠ path) = f.entries :=
    List.filter_eq_self.mpr fun e he => decide_eq_true (ne_of_free h.free e he)
  rw [h.eq, Files.remove, List.filter_append, hothers]
  simp

end Files

/-- The new file has a name that was tried. -/
theorem createArtifact_ok {files created : Files} {place : ArtifactPlace} {names : List String}
    {path : String} {found : List String}
    (h : createArtifact files place names = .ok (path, found, created)) :
    ∃ unique ∈ names, path = place.path files unique ∧ files.locate path = .ok found ∧
      files.create found = .ok created := by
  induction names with
  | nil => cases h
  | cons unique rest ih =>
    rw [createArtifact] at h
    split at h
    · cases h
    · next found' hlocate =>
      split at h
      · next created' hcreate =>
        cases h
        exact ⟨unique, List.mem_cons_self, rfl, hlocate, hcreate⟩
      · obtain ⟨unique', hmem, hrest⟩ := ih h
        exact ⟨unique', List.mem_cons_of_mem _ hmem, hrest⟩
      · cases h

/-- All that writing a reproduction file can do. -/
theorem writeReproduction_cases (files : Files) (place : ArtifactPlace) (chance : Chance)
    (evaluated : List String) :
    (∃ err, writeReproduction files place chance evaluated = (.error err, files)) ∨
    (∃ unique ∈ chance.names, ∃ found after,
      writeReproduction files place chance evaluated = (.ok (place.path files unique), after) ∧
      files.locate (place.path files unique) = .ok found ∧
      files.Adds found (Utf8.encode (reproduction evaluated)) after) := by
  rw [writeReproduction]
  rcases hcreate : createArtifact files place chance.names with err | ⟨path, found, created⟩
  · exact Or.inl ⟨err, rfl⟩
  · obtain ⟨unique, hmem, rfl, hlocate, hcreated⟩ := createArtifact_ok hcreate
    have hempty := Files.create_ok hcreated
    have hwritten := hempty.write (Utf8.encode (reproduction evaluated))
    simp only
    -- In each step that can fail, removing the file gives back the files from before.
    split
    · exact Or.inl ⟨_, by rw [hempty.remove]⟩
    · split
      · exact Or.inl ⟨_, by rw [hwritten.remove]⟩
      · exact Or.inl ⟨_, by rw [hwritten.remove]⟩
      · exact Or.inr ⟨unique, hmem, found, _, rfl, hlocate, hwritten⟩

/-- All that reporting a failure can do. -/
theorem reportFailure_cases (files : Files) (place : ArtifactPlace) (chance : Chance)
    (interpreter : InterpreterConfig) (f : Failure) :
    (∃ err, reportFailure files place chance interpreter f = (.error err, files)) ∨
    (∃ unique ∈ chance.names, ∃ diagnostic found after,
      reportFailure files place chance interpreter f =
        (.ok ⟨diagnostic, place.path files unique⟩, after) ∧
      files.locate (place.path files unique) = .ok found ∧
      files.Adds found (Utf8.encode (reproduction f.evaluated)) after) := by
  rw [reportFailure]
  split
  · exact Or.inl ⟨.notAFailure, rfl⟩
  · rcases writeReproduction_cases files place chance f.evaluated with
      ⟨err, hwrite⟩ | ⟨unique, hmem, found, after, hwrite, hlocate, hadds⟩
    · rw [hwrite]
      exact Or.inl ⟨err, rfl⟩
    · rw [hwrite]
      exact Or.inr ⟨unique, hmem, _, found, after, rfl, hlocate, hadds⟩

end LiveDoc
