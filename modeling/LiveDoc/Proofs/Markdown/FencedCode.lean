/-
Reading a fenced code block outside of all containers.

The fence is three backticks.  Every line behind it belongs to the block until one has three
backticks behind its indentation.
-/
import LiveDoc.Outline.Read
import LiveDoc.Proofs.Markdown.TopLevel

namespace LiveDoc
namespace Markdown

variable {eol : LineEnd} {line s : List Char} {p : Place} {r : Reading}

/-! ## Fenced code -/

def ticks : List Char := ['\x60', '\x60', '\x60']

def tickFence : Fence := ⟨'\x60', 3⟩

theorem startsText_tick : StartsText '\x60' := by
  constructor <;> decide

/-- Can the line stand in a code block without ending it?  It has no line end in it, and no
three backticks behind its indentation. -/
structure IsBody (line : List Char) : Prop where
  noLf : '\n' ∉ line
  noCr : '\r' ∉ line
  noFence : ¬ ticks <+: line.dropWhile isIndent

theorem ticks_prefix_of_countWhile (h : 3 ≤ countWhile (· == '\x60') line) : ticks <+: line := by
  have hall : ∀ c ∈ line.takeWhile (· == '\x60'), c = '\x60' := fun c hc =>
    eq_of_beq (List.all_eq_true.mp List.all_takeWhile c hc)
  have hrun : line.takeWhile (· == '\x60') =
      List.replicate (countWhile (· == '\x60') line) '\x60' :=
    List.eq_replicate_iff.mpr ⟨rfl, hall⟩
  obtain ⟨n, hn⟩ := Nat.exists_eq_add_of_le h
  have hticks : ticks <+: line.takeWhile (· == '\x60') := by
    rw [hrun, hn, ← List.replicate_append_replicate]
    exact List.prefix_append _ _
  exact hticks.trans (List.takeWhile_prefix _)

theorem closingFence?_body (h : ¬ ticks <+: line) (eol : LineEnd) (s : List Char) :
    closingFence? tickFence (line ++ (eol.chars ++ s)) = none := by
  have hshort : countWhile (· == '\x60') (line ++ (eol.chars ++ s)) < 3 := by
    rw [countWhile_line rfl rfl]
    exact Nat.lt_of_not_le fun hlong => h (ticks_prefix_of_countWhile hlong)
  have hne : (line ++ (eol.chars ++ s)).isEmpty = false := by
    cases eol <;> simp [LineEnd.chars]
  simp [closingFence?, tickFence, hne, hshort]

theorem closingFence?_ticks (eol : LineEnd) (s : List Char) :
    closingFence? tickFence (ticks ++ (eol.chars ++ s)) = some 3 := by
  cases eol <;> simp [closingFence?, tickFence, ticks, countWhile, LineEnd.chars, lineEnd?]

theorem withoutCr_line (h : '\r' ∉ line) (eol : LineEnd) :
    withoutCr (line ++ eol.chars) = line ++ ['\n'] := by
  cases eol with
  | lf =>
    -- Only a CR of the line itself could be left out.
    rw [withoutCr]
    split
    next last rest hreverse =>
      rw [LineEnd.chars, List.reverse_append] at hreverse
      have hline : line.reverse = '\r' :: rest := (List.cons.inj hreverse).2
      have hmem : '\r' ∈ line.reverse := hline ▸ List.mem_cons_self
      exact absurd (List.mem_reverse.mp hmem) h
    · rfl
  | crLf => simp [withoutCr, LineEnd.chars]

def lineWithLf (line : List Char) : String := String.ofList (line ++ ['\n'])

theorem fencedLines_body (h : IsBody line) (hp : p.rest = line ++ (eol.chars ++ s)) (fuel : Nat) :
    ∃ next, next.rest = s ∧
      fencedLines [] tickFence 0 (fuel + 1) p =
        (lineWithLf line :: (fencedLines [] tickFence 0 fuel next).1,
          (fencedLines [] tickFence 0 fuel next).2) := by
  refine ⟨(Cursor.lineStart p).nextLine, ?_, ?_⟩
  · rw [Cursor.nextLine, Place.rest_skip]
    exact hp ▸ drop_lineLength h.noLf eol s
  · have htext : (Cursor.lineStart p).lineText = lineWithLf line := by
      have hline := hp ▸ take_lineLength h.noLf eol s
      simp only [Cursor.lineText, Cursor.lineStart, hline, withoutCr_line h.noCr]
      rfl
    -- Four columns of indentation keep a fence from counting; fewer are skipped whole.
    have hgoesOn : (if ((Cursor.lineStart p).skipColumns 4).1 = 0 then none
        else closingFence? tickFence ((Cursor.lineStart p).skipColumns 4).2.place.rest) = none := by
      split
      · rfl
      next hmissing =>
        rw [rest_skipColumns (Prod.eta _).symm hmissing, hp, dropWhile_line rfl rfl]
        exact closingFence?_body h.noFence eol s
    simp only [fencedLines, continued, skipColumns_zero, List.length_nil, Nat.lt_irrefl, if_false,
      Nat.sub_zero, hgoesOn, htext]

theorem fencedLines_ticks (hp : p.rest = ticks ++ (eol.chars ++ s)) (fuel : Nat) :
    (fencedLines [] tickFence 0 (fuel + 1) p).1 = [] ∧
      (fencedLines [] tickFence 0 (fuel + 1) p).2.rest = s := by
  have hflush : Flush p.rest := hp ▸ flush_cons rfl _
  have hbehind : (p.skip 3).rest = eol.chars ++ s := by rw [Place.rest_skip, hp]; rfl
  have hend : (lineEnd? (p.skip 3).rest).isSome = true := by rw [hbehind, lineEnd?_eol]; rfl
  have hclose : closingFence? tickFence p.rest = some 3 := hp ▸ closingFence?_ticks eol s
  have hmissing : ¬ 4 = 0 := by decide
  simp only [fencedLines, continued, skipColumns_zero, List.length_nil, Nat.lt_irrefl, if_false,
    Nat.sub_zero, skipColumns_flush hflush (by decide : 0 < 4), Cursor.place_lineStart, hclose,
    if_neg hmissing, blankLine?_lineEnd hend]
  refine ⟨trivial, ?_⟩
  rw [Place.rest_skip, hbehind, lineEnd?_eol]
  exact List.drop_left

/-- By induction on the lines: each goes on with the block, and the fence ends it. -/
theorem fencedLines_written {lines : List (List Char)} (h : ∀ line ∈ lines, IsBody line)
    {fuel : Nat} (hfuel : lines.length < fuel)
    (hp : p.rest = written eol lines ++ (ticks ++ (eol.chars ++ s))) :
    (fencedLines [] tickFence 0 fuel p).1 = lines.map lineWithLf ∧
      (fencedLines [] tickFence 0 fuel p).2.rest = s := by
  induction lines generalizing fuel p with
  | nil =>
    obtain ⟨fuel, rfl⟩ := Nat.exists_eq_add_one_of_ne_zero (Nat.ne_of_gt hfuel)
    exact fencedLines_ticks hp fuel
  | cons line lines ih =>
    obtain ⟨fuel, rfl⟩ := Nat.exists_eq_add_one_of_ne_zero (Nat.ne_zero_of_lt hfuel)
    rw [written_cons, List.append_assoc, List.append_assoc] at hp
    obtain ⟨next, hnext, hstep⟩ := fencedLines_body (h line List.mem_cons_self) hp fuel
    have hbody : ∀ other ∈ lines, IsBody other := fun other ho => h other (List.mem_cons_of_mem _ ho)
    obtain ⟨hlines, hrest⟩ := ih hbody (Nat.lt_of_succ_lt_succ hfuel) hnext
    rw [hstep, hlines]
    exact ⟨rfl, hrest⟩

/-! The text behind the fence. -/

def isTagChar (c : Char) : Bool := c.isAlphanum || c == '-' || c == '_'

theorem toNat_of_isTagChar {c : Char} (h : isTagChar c = true) : 45 ≤ c.toNat ∧ c.toNat ≤ 122 := by
  rw [isTagChar, Bool.or_eq_true, Bool.or_eq_true, beq_iff_eq, beq_iff_eq] at h
  rcases h with (halphanum | rfl) | rfl
  · rcases Bool.or_eq_true_iff.mp halphanum with halpha | hdigit
    · have hletter := isAlpha_iff.mp halpha
      omega
    · have hdigit : 48 ≤ c.toNat ∧ c.toNat ≤ 57 := Char.isDigit_iff_toNat.mp hdigit
      omega
  · decide
  · decide

theorem isBlank_of_isTagChar {c : Char} (h : isTagChar c = true) : isBlank c = false := by
  have hrange := toNat_of_isTagChar h
  simp [isBlank]
  omega

theorem isAsciiSpace_of_isTagChar {c : Char} (h : isTagChar c = true) : isAsciiSpace c = false := by
  have hrange := toNat_of_isTagChar h
  simp only [isAsciiSpace, isInlineSpace, Bool.or_eq_false_iff, beq_eq_false_iff_ne]
  refine ⟨⟨⟨⟨⟨?_, ?_⟩, ?_⟩, ?_⟩, ?_⟩, ?_⟩ <;> (rintro rfl; revert hrange; decide)

theorem unescape_tag {tag : List Char} (h : ∀ c ∈ tag, isTagChar c = true) : unescape tag = tag := by
  induction tag with
  | nil => rw [unescape]
  | cons c rest ih =>
    have hrest := ih fun d hd => h d (List.mem_cons_of_mem c hd)
    have hc := h c List.mem_cons_self
    have hbackslash : c ≠ '\\' := ne_of_holds hc (by decide)
    have hcr : c ≠ '\r' := ne_of_holds hc (by decide)
    have hand : c ≠ '&' := ne_of_holds hc (by decide)
    have hread : CharRef.read? (c :: rest) = none := by simp [CharRef.read?, hand]
    rw [unescape]
    · rw [hread, hrest]
    · exact fun _ _ hsign _ => hbackslash hsign
    · exact hcr

theorem infoText_tag {tag : List Char} (h : ∀ c ∈ tag, isTagChar c = true) (eol : LineEnd)
    (s : List Char) : infoText (tag ++ (eol.chars ++ s)) = tag := by
  have hspace : ∀ c ∈ tag, isAsciiSpace c = false := fun c hc => isAsciiSpace_of_isTagChar (h c hc)
  have hinline : ∀ c ∈ tag, isInlineSpace c = false := fun c hc => by
    have hnone := hspace c hc
    simp only [isAsciiSpace, Bool.or_eq_false_iff] at hnone
    exact hnone.1.1
  have hlf : '\n' ∉ tag := fun hmem => absurd (hspace _ hmem) (by decide)
  have hskip : (tag ++ (eol.chars ++ s)).dropWhile isInlineSpace = tag ++ (eol.chars ++ s) := by
    rw [dropWhile_line rfl rfl, dropWhile_of_not hinline]
  have hreverse : (tag ++ eol.chars).reverse.dropWhile isAsciiSpace = tag.reverse := by
    have htag : tag.reverse.dropWhile isAsciiSpace = tag.reverse :=
      dropWhile_of_not fun c hc => hspace c (List.mem_reverse.mp hc)
    cases eol <;> simp [LineEnd.chars, isAsciiSpace, htag]
  simp only [infoText, hskip, take_lineLength hlf, hreverse, List.reverse_reverse, unescape_tag h]

theorem codeTag_tag {tag : List Char} (h : ∀ c ∈ tag, isTagChar c = true) :
    codeTag (some (String.ofList tag)) = String.ofList tag := by
  have hblank : ∀ c ∈ tag, isBlank c = false := fun c hc => isBlank_of_isTagChar (h c hc)
  have hfirst : firstWord tag = tag := by
    rw [firstWord, dropWhile_of_not hblank, List.takeWhile_eq_self_iff]
    exact fun c hc => by simp [hblank c hc]
  rw [codeTag, String.toList_ofList, hfirst]

theorem fence?_ticks {tag : List Char} (h : ∀ c ∈ tag, isTagChar c = true) (eol : LineEnd)
    (s : List Char) : fence? (ticks ++ (tag ++ (eol.chars ++ s))) = some tickFence := by
  have htick : '\x60' ∉ tag := fun hmem => absurd (h _ hmem) (by decide)
  have hlf : '\n' ∉ tag := fun hmem => absurd (h _ hmem) (by decide)
  have hrun : countWhile (· == '\x60') (tag ++ (eol.chars ++ s)) = 0 := by
    rw [countWhile_line rfl rfl, countWhile, List.length_eq_zero_iff]
    cases tag with
    | nil => rfl
    | cons c rest =>
      have hc : c ≠ '\x60' := fun hc => htick (hc ▸ List.mem_cons_self)
      exact List.takeWhile_cons_of_neg (by simp [hc])
  have hline : '\x60' ∉ (tag ++ (eol.chars ++ s)).take (lineLength (tag ++ (eol.chars ++ s))) := by
    rw [take_lineLength hlf, List.mem_append, not_or]
    refine ⟨htick, ?_⟩
    cases eol <;> decide
  generalize tag ++ (eol.chars ++ s) = text at hrun hline
  have hcount : countWhile (· == '\x60') ('\x60' :: '\x60' :: text) = 2 := by
    rw [countWhile] at hrun
    simp [countWhile, hrun]
  simp [ticks, fence?, hcount, hline, tickFence]

/-- A fenced code block at the start of a line is read as its tag and its lines, up to and
including the closing fence. -/
theorem reads_code {tag : List Char} {lines : List (List Char)} (htag : ∀ c ∈ tag, isTagChar c = true)
    (hlines : ∀ line ∈ lines, IsBody line) (hr : r.levels = [])
    (hp : p.rest = written eol ((ticks ++ tag) :: lines ++ [ticks]) ++ s) :
    Reads r p [.code (some (String.ofList tag)) (lines.map lineWithLf)] s := by
  have htext : p.rest =
      ticks ++ (tag ++ (eol.chars ++ (written eol lines ++ (ticks ++ (eol.chars ++ s))))) := by
    rw [hp, written_append, written_cons, written_cons, written_nil]
    simp only [List.append_assoc, List.nil_append]
  have hcontainers : r.endList.containers = [] := containers_of_levels (endList_of_levels hr).1
  have hlf : '\n' ∉ tag := fun hmem => absurd (htag _ hmem) (by decide)
  have hbehind : (p.skip tickFence.length).rest =
      tag ++ (eol.chars ++ (written eol lines ++ (ticks ++ (eol.chars ++ s)))) := by
    rw [Place.rest_skip, htext]
    rfl
  have hfirst : ((p.skip tickFence.length).skip (lineLength (p.skip tickFence.length).rest)).rest =
      written eol lines ++ (ticks ++ (eol.chars ++ s)) := by
    rw [Place.rest_skip, hbehind, drop_lineLength hlf]
  have hfuel : lines.length < p.rest.length + 1 := by
    have hwritten := length_le_written eol lines
    simp only [htext, List.length_append]
    omega
  obtain ⟨hread, hrest⟩ := fencedLines_written hlines hfuel hfirst
  have hleaf : leafBlock r (.lineStart p) =
      (r.endList.add (.code (some (String.ofList tag)) (lines.map lineWithLf)),
        (fencedCode [] tickFence 0 p).2) := by
    have hfence : fence? p.rest = some tickFence := by rw [htext, fence?_ticks htag]
    have hinfo : infoText (p.skip tickFence.length).rest = tag := by
      rw [hbehind, infoText_tag htag]
    rw [leafBlock_of_startsText htext startsText_tick, hfence]
    simp only [hcontainers, fencedCode, hinfo, hread]
  have hend : (fencedCode [] tickFence 0 p).2.rest = s := hrest
  exact hend ▸ reads_leaf htext startsText_tick hr hleaf

end Markdown
end LiveDoc
