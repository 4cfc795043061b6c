/-
Where a reproduction file is.

Its path is made of the directory and a name, and is then followed from the root or from the
current directory.  The path goes through the directory, whatever the two are, and if the name
has no slash then the file is directly in it.  The stem of a document never has one.
-/
import LiveDoc.Proofs.Text.Lines
import LiveDoc.Report

namespace LiveDoc

namespace Path

theorem pieces_append (front behind : String) :
    pieces (front ++ "/" ++ behind) = pieces front ++ pieces behind := by
  have hlist : (front ++ "/" ++ behind).toList = front.toList ++ '/' :: behind.toList := by simp
  rw [pieces, hlist, List.splitOn_append_cons_self, List.map_append]
  rfl

theorem length_pieces (path : String) : (pieces path).length = path.toList.count '/' + 1 := by
  rw [pieces, List.length_map, length_splitOn]

theorem parts_of_relative {path : String} (h : isAbsolute path = false) :
    parts path = pieces path := by
  rw [parts, h]
  rfl

theorem isAbsolute_append {front : String} (h : front ≠ "") (behind : String) :
    isAbsolute (front ++ behind) = isAbsolute front := by
  have hne : front.toList ≠ [] := fun hnil => h (String.toList_eq_nil_iff.mp hnil)
  obtain ⟨c, rest, hc⟩ := List.exists_cons_of_ne_nil hne
  rw [isAbsolute, isAbsolute, String.toList_append, hc]
  rfl

theorem parts_append {front behind : String} (hfront : front ≠ "")
    (hbehind : isAbsolute behind = false) :
    parts (front ++ "/" ++ behind) = parts front ++ parts behind := by
  have hne : 1 ≤ (pieces front).length := by
    rw [length_pieces]
    omega
  rw [parts_of_relative hbehind, parts, parts, String.append_assoc, isAbsolute_append hfront,
    ← String.append_assoc, pieces_append]
  split
  · rw [List.drop_append_of_le_length hne]
  · rfl

theorem parts_root_append {name : String} (h : isAbsolute name = false) :
    parts ("/" ++ name) = parts name := by
  have hpieces := pieces_append "" name
  rw [String.empty_append] at hpieces
  have habsolute : isAbsolute ("/" ++ name) = true := isAbsolute_append (by decide) name
  rw [parts_of_relative h, parts, habsolute, hpieces]
  rfl

theorem count_slash_pos {path : String} (h : isAbsolute path = true) :
    0 < path.toList.count '/' :=
  List.count_pos_iff.mpr (List.mem_of_head? (beq_iff_eq.mp h))

theorem parts_ne_nil (path : String) : parts path ≠ [] := by
  have hlength := length_pieces path
  rw [parts, Ne, ← List.length_eq_zero_iff]
  split
  · next habsolute =>
    have hslash := count_slash_pos habsolute
    rw [List.length_drop]
    omega
  · omega

theorem parts_of_not_mem {path : String} (h : '/' ∉ path.toList) : parts path = [path] := by
  have hrelative : isAbsolute path = false :=
    Bool.eq_false_iff.mpr fun habsolute => h (List.count_pos_iff.mp (count_slash_pos habsolute))
  rw [parts_of_relative hrelative, pieces, List.splitOn_eq_singleton h, List.map_singleton,
    String.ofList_toList]

theorem slash_not_mem_of_mem_parts {path part : String} (h : part ∈ parts path) :
    '/' ∉ part.toList := by
  have hmem : part ∈ pieces path := by
    rw [parts] at h
    split at h
    · exact List.mem_of_mem_drop h
    · exact h
  obtain ⟨piece, hpiece, rfl⟩ := List.mem_map.mp hmem
  rw [String.toList_ofList]
  exact not_mem_of_mem_splitOn hpiece

/-- A name is set behind a directory with one slash between, unless the directory is empty. -/
theorem join_cases {dir name : String} (hname : isAbsolute name = false) :
    (dir = "" ∧ join dir name = name) ∨
    (dir ≠ "" ∧ join dir name = dir ++ "/" ++ name) ∨
    ∃ front, dir = front ++ "/" ∧ join dir name = front ++ "/" ++ name := by
  rw [join, hname, Bool.false_or]
  by_cases hempty : dir = ""
  · left
    rw [hempty]
    exact ⟨rfl, rfl⟩
  right
  rw [if_neg fun h => hempty (String.isEmpty_iff.mp h)]
  split
  · next hlast =>
    right
    rw [beq_iff_eq] at hlast
    obtain ⟨init, hinit⟩ := List.getLast?_eq_some_iff.mp hlast
    have hdir : dir = String.ofList init ++ "/" := by
      refine String.toList_injective ?_
      rw [hinit, String.toList_append, String.toList_ofList]
      rfl
    exact ⟨String.ofList init, hdir, congrArg (· ++ name) hdir⟩
  · exact Or.inl ⟨hempty, rfl⟩

theorem isAbsolute_join {dir : String} (h : isAbsolute dir = true) (name : String) :
    isAbsolute (join dir name) = true := by
  have hne : dir ≠ "" := by
    rintro rfl
    cases h
  rw [join]
  split
  · next hname =>
    rw [Bool.or_eq_true, String.isEmpty_iff] at hname
    exact hname.resolve_right hne
  · split
    · rw [isAbsolute_append hne, h]
    · rw [String.append_assoc, isAbsolute_append hne, h]

theorem mem_of_mem_withoutExtension {c : Char} {name : List Char}
    (h : c ∈ withoutExtension name) : c ∈ name := by
  rw [withoutExtension] at h
  split at h
  · next d stem hstem =>
    split at h
    · exact h
    · have hmem : c ∈ name.reverse.dropWhile (· != '.') := by
        rw [hstem]
        exact List.mem_cons_of_mem d (List.mem_reverse.mp h)
      exact List.mem_reverse.mp ((List.dropWhile_sublist _).subset hmem)
  · exact h

theorem slash_not_mem_stem (path : String) : '/' ∉ (stem path).toList := by
  rw [stem]
  split
  · next name hname =>
    rw [String.toList_ofList]
    refine fun hmem => ?_
    have hslash := mem_of_mem_withoutExtension hmem
    rw [fileName?] at hname
    split at hname
    · next part hpart =>
      split at hname
      · cases hname
      · obtain rfl := Option.some.inj hname
        have hmem' := (List.mem_filter.mp (List.mem_of_getLast? hpart)).1
        exact slash_not_mem_of_mem_parts hmem' hslash
    · cases hname
  · decide

end Path

namespace Files

variable {f : Files}

/-- The directory that a path names, for the paths of files in it. -/
def directory (f : Files) (path : String) : Except FileError (List String) :=
  f.follow (if Path.isAbsolute path then [] else f.here) (Path.parts path)

/-- The first part of a path is entered, and the others are followed from there. -/
theorem follow_cons_iff {start found : List String} {part : String} {rest : List String} :
    f.follow start (part :: rest) = .ok found ↔
      ∃ next, f.follow start [part] = .ok next ∧ f.follow next rest = .ok found := by
  rw [follow, follow]
  cases f.at? start with
  | none => simp
  | some entry =>
    cases entry with
    | file content => simp
    | directory =>
      simp only
      split
      · simp [follow]
      split
      · simp [follow]
      split
      · simp
      · simp [follow]

theorem follow_append_iff {start found : List String} {front behind : List String} :
    f.follow start (front ++ behind) = .ok found ↔
      ∃ middle, f.follow start front = .ok middle ∧ f.follow middle behind = .ok found := by
  induction front generalizing start with
  | nil => simp [follow]
  | cons part rest ih =>
    rw [List.cons_append, follow_cons_iff]
    constructor
    · rintro ⟨next, hnext, hrest⟩
      obtain ⟨middle, hmiddle, hbehind⟩ := ih.mp hrest
      exact ⟨middle, follow_cons_iff.mpr ⟨next, hnext, hmiddle⟩, hbehind⟩
    · rintro ⟨middle, hmiddle, hbehind⟩
      obtain ⟨next, hnext, hrest⟩ := follow_cons_iff.mp hmiddle
      exact ⟨next, hnext, ih.mpr ⟨middle, hrest, hbehind⟩⟩

theorem at?_of_follow {start found path : List String} (hne : path ≠ [])
    (h : f.follow start path = .ok found) : f.at? start = some .directory := by
  obtain ⟨part, rest, rfl⟩ := List.exists_cons_of_ne_nil hne
  rw [follow] at h
  cases hat : f.at? start with
  | none =>
    rw [hat] at h
    cases h
  | some entry =>
    cases entry with
    | file content =>
      rw [hat] at h
      cases h
    | directory => rfl

theorem follow_nothing {start : List String} (h : f.at? start = some .directory) :
    f.follow start [""] = .ok start := by
  rw [follow, h]
  simp [follow]

/-- The path of a name in a directory leads through the directory. -/
theorem directory_join {dir name : String} {found : List String}
    (hname : Path.isAbsolute name = false) (h : f.directory (Path.join dir name) = .ok found) :
    ∃ directory, f.directory dir = .ok directory ∧
      f.follow directory (Path.parts name) = .ok found := by
  rw [directory] at h ⊢
  have hnothing : Path.parts "" = [""] := rfl
  rcases Path.join_cases hname with ⟨hdir, hjoin⟩ | ⟨hdir, hjoin⟩ | ⟨front, hdir, hjoin⟩
  · rw [hjoin, hname] at h
    rw [hdir, hnothing]
    exact ⟨f.here, follow_nothing (at?_of_follow (Path.parts_ne_nil name) h), h⟩
  · rw [hjoin, Path.parts_append hdir hname, String.append_assoc, Path.isAbsolute_append hdir] at h
    exact follow_append_iff.mp h
  · by_cases hfront : front = ""
    · subst hfront
      rw [hjoin, String.empty_append, Path.parts_root_append hname,
        Path.isAbsolute_append (by decide)] at h
      rw [hdir]
      exact ⟨[], rfl, h⟩
    · rw [hjoin, Path.parts_append hfront hname, String.append_assoc,
        Path.isAbsolute_append hfront] at h
      obtain ⟨directory, hfollow, hbehind⟩ := follow_append_iff.mp h
      refine ⟨directory, ?_, hbehind⟩
      have hparts : Path.parts (front ++ "/") = Path.parts front ++ [""] := by
        have happend : Path.parts (front ++ "/" ++ "") = _ := Path.parts_append hfront rfl
        rwa [String.append_empty, hnothing] at happend
      rw [hdir, Path.isAbsolute_append hfront, hparts, follow_append_iff]
      exact ⟨directory, hfollow, follow_nothing (at?_of_follow (Path.parts_ne_nil name) hbehind)⟩

theorem directory_of_locate {path : String} {found : List String} (h : f.locate path = .ok found) :
    f.directory path = .ok found := by
  rw [locate] at h
  split at h
  · cases h
  split at h
  · cases h
  · exact h

theorem isAbsolute_absolute (f : Files) (path : String) :
    Path.isAbsolute (f.absolute path) = true := by
  rw [absolute]
  split
  · assumption
  · exact Path.isAbsolute_join (Path.isAbsolute_append (by decide) _) path

/-- If the current directory is where its path says, a path and what it is in full name the same
directory. -/
theorem directory_of_absolute {dir : String} {found : List String}
    (hhere : f.directory (Path.ofParts f.here) = .ok f.here)
    (h : f.directory (f.absolute dir) = .ok found) : f.directory dir = .ok found := by
  rw [absolute] at h
  split at h
  · exact h
  · next hrelative =>
    rw [Bool.not_eq_true] at hrelative
    obtain ⟨directory, hdirectory, hfollow⟩ := directory_join hrelative h
    obtain rfl := Except.ok.inj (hhere.symm.trans hdirectory)
    rw [Files.directory, hrelative]
    exact hfollow

theorem follow_name {start found : List String} {name : String} (hslash : '/' ∉ name.toList)
    (hunderscore : '_' ∈ name.toList) (h : f.follow start (Path.parts name) = .ok found) :
    f.at? start = some .directory ∧ found = start ++ [name] := by
  have hdirectory := at?_of_follow (Path.parts_ne_nil name) h
  have hne : ∀ other : String, '_' ∉ other.toList → name ≠ other := by
    rintro other hnot rfl
    exact hnot hunderscore
  rw [Path.parts_of_not_mem hslash, follow, hdirectory] at h
  simp only [hne "" (by decide), hne "." (by decide), hne ".." (by decide), or_self, if_false,
    follow] at h
  split at h
  · cases h
  · exact ⟨hdirectory, (Except.ok.inj h).symm⟩

end Files

namespace ArtifactPlace

variable {place : ArtifactPlace} {unique : String}

theorem toList_name : (place.name unique).toList =
    place.stem.toList ++ '_' :: (unique.toList ++ place.suffix.toList) := by
  simp [name]

theorem isAbsolute_name (hstem : '/' ∉ place.stem.toList) :
    Path.isAbsolute (place.name unique) = false := by
  rw [Path.isAbsolute, toList_name, beq_eq_false_iff_ne]
  intro hhead
  cases hlist : place.stem.toList with
  | nil =>
    simp [hlist] at hhead
  | cons c rest =>
    rw [hlist, List.cons_append, List.head?_cons, Option.some.injEq] at hhead
    rw [hlist, hhead] at hstem
    exact hstem List.mem_cons_self

/-- The path of a reproduction file leads through its directory, and the file is in this directory
if there is no slash in the random part and the suffix of its name. -/
theorem locate_path {files : Files} {found : List String} (hstem : '/' ∉ place.stem.toList)
    (h : files.locate (place.path files unique) = .ok found) :
    ∃ directory, files.directory (files.absolute place.dir) = .ok directory ∧
      files.follow directory (Path.parts (place.name unique)) = .ok found ∧
      ('/' ∉ unique.toList → '/' ∉ place.suffix.toList →
        files.at? directory = some .directory ∧ found = directory ++ [place.name unique]) := by
  obtain ⟨directory, hdirectory, hname⟩ :=
    Files.directory_join (isAbsolute_name hstem) (Files.directory_of_locate h)
  refine ⟨directory, hdirectory, hname, fun hunique hsuffix => Files.follow_name ?_ ?_ hname⟩
  · rw [toList_name, List.mem_append, List.mem_cons, List.mem_append]
    rintro (hmem | hmem | hmem | hmem)
    · exact hstem hmem
    · exact absurd hmem (by decide)
    · exact hunique hmem
    · exact hsuffix hmem
  · rw [toList_name]
    simp

end ArtifactPlace
end LiveDoc
