/-
Where the search for a prompt stops.

`StandsAt` says that a prompt stands at an offset: the offset starts a line and
the marker's bytes follow it.  The search returns the least such offset, and
what is appended to an output in which a prompt has been found neither moves
the prompt nor brings up an earlier one.  A wait scans a buffer that grows, so
everything about waits rests on this.
-/
import LiveDoc.Prompt
import Mathlib.Order.Bounds.Basic

namespace LiveDoc
namespace Prompt

/-- Does offset `i` start a line, when `lineStart` says whether the output itself does? -/
def StartsLine (lineStart : Bool) (output : Bytes) : Nat → Prop
  | 0 => lineStart = true
  | i + 1 => output[i]? = some 10

def MarkerAt (marker : Bytes) (lineStart : Bool) (output : Bytes) (i : Nat) : Prop :=
  StartsLine lineStart output i ∧ marker <+: output.drop i

def StandsAt (p : Prompt) (output : Bytes) (i : Nat) : Prop := MarkerAt p.bytes true output i

def FirstAt (p : Prompt) (output : Bytes) (i : Nat) : Prop :=
  p.StandsAt output i ∧ ∀ j < i, ¬ p.StandsAt output j

def star : Prompt := ⟨"* ", by decide⟩

theorem bytes_ne_nil (p : Prompt) : p.bytes ≠ [] := by
  have hne : p.marker.toList ≠ [] := fun h => p.marker_ne (String.toList_eq_nil_iff.mp h)
  obtain ⟨c, rest, hc⟩ := List.exists_cons_of_ne_nil hne
  rw [bytes, bytesOf, hc, Utf8.encode_cons]
  exact List.append_ne_nil_of_left_ne_nil String.utf8EncodeChar_ne_nil _

theorem bytes_length_pos (p : Prompt) : 0 < p.bytes.length :=
  List.length_pos_iff.mpr p.bytes_ne_nil

/-! ## The search -/

theorem markerAt_succ {marker : Bytes} {lineStart : Bool} {b : UInt8} {rest : Bytes} {i : Nat} :
    MarkerAt marker lineStart (b :: rest) (i + 1) ↔ MarkerAt marker (b == 10) rest i := by
  cases i with
  | zero => simp [MarkerAt, StartsLine]
  | succ i => simp [MarkerAt, StartsLine]

theorem markerAt_zero {marker : Bytes} {lineStart : Bool} {output : Bytes} :
    MarkerAt marker lineStart output 0 ↔ (lineStart && marker.isPrefixOf output) = true := by
  simp [MarkerAt, StartsLine]

theorem not_markerAt_nil {marker : Bytes} (hm : marker ≠ []) (lineStart : Bool) (i : Nat) :
    ¬ MarkerAt marker lineStart [] i := by
  intro h
  have hprefix := h.2
  rw [List.drop_nil, List.prefix_nil] at hprefix
  exact hm hprefix

theorem markerAt_of_findFrom {marker : Bytes} {lineStart : Bool} {start j : Nat} {output : Bytes}
    (h : findFrom marker lineStart start output = some j) :
    ∃ i, j = start + i ∧ MarkerAt marker lineStart output i := by
  induction output generalizing lineStart start with
  | nil => simp [findFrom] at h
  | cons b rest ih =>
    rw [findFrom] at h
    split at h
    · next hhere =>
      obtain rfl := Option.some.inj h
      exact ⟨0, rfl, markerAt_zero.mpr hhere⟩
    · obtain ⟨i, rfl, hi⟩ := ih h
      exact ⟨i + 1, by omega, markerAt_succ.mpr hi⟩

/-- The search passes over no marker. -/
theorem findFrom_le_of_markerAt {marker : Bytes} (hm : marker ≠ []) {lineStart : Bool} {i : Nat}
    {output : Bytes} (h : MarkerAt marker lineStart output i) (start : Nat) :
    ∃ j, findFrom marker lineStart start output = some j ∧ j ≤ start + i := by
  induction output generalizing lineStart start i with
  | nil => exact absurd h (not_markerAt_nil hm _ _)
  | cons b rest ih =>
    rw [findFrom]
    by_cases hhere : (lineStart && marker.isPrefixOf (b :: rest)) = true
    · rw [if_pos hhere]
      exact ⟨start, rfl, by omega⟩
    · rw [if_neg hhere]
      cases i with
      | zero => exact absurd (markerAt_zero.mp h) hhere
      | succ i =>
        obtain ⟨j, hj, hle⟩ := ih (markerAt_succ.mp h) (start + 1)
        exact ⟨j, hj, by omega⟩

variable {p : Prompt} {output more : Bytes} {i : Nat}

theorem standsAt_of_find (h : p.find output = some i) : p.StandsAt output i := by
  obtain ⟨j, rfl, hj⟩ := markerAt_of_findFrom h
  rw [Nat.zero_add]
  exact hj

theorem find_le_of_standsAt (h : p.StandsAt output i) : ∃ j, p.find output = some j ∧ j ≤ i := by
  obtain ⟨j, hj, hle⟩ := findFrom_le_of_markerAt p.bytes_ne_nil h 0
  exact ⟨j, hj, by omega⟩

/-- The search returns the least offset at which a prompt stands. -/
theorem find_eq_some_iff : p.find output = some i ↔ p.FirstAt output i := by
  constructor
  · intro h
    refine ⟨standsAt_of_find h, fun j hj hstands => ?_⟩
    obtain ⟨k, hk, hle⟩ := find_le_of_standsAt hstands
    rw [h] at hk
    have := Option.some.inj hk
    omega
  · rintro ⟨hstands, hleast⟩
    obtain ⟨k, hk, hle⟩ := find_le_of_standsAt hstands
    rcases Nat.lt_or_eq_of_le hle with hlt | rfl
    · exact absurd (standsAt_of_find hk) (hleast k hlt)
    · exact hk

theorem find_eq_none_iff : p.find output = none ↔ ∀ i, ¬ p.StandsAt output i := by
  constructor
  · intro h i hstands
    obtain ⟨j, hj, -⟩ := find_le_of_standsAt hstands
    rw [h] at hj
    cases hj
  · intro h
    cases hfind : p.find output with
    | none => rfl
    | some i => exact absurd (standsAt_of_find hfind) (h i)

/-! ## More output -/

theorem StandsAt.le (h : p.StandsAt output i) : i + p.bytes.length ≤ output.length := by
  have hlen := h.2.length_le
  have hpos := p.bytes_length_pos
  rw [List.length_drop] at hlen
  omega

theorem startsLine_append (hi : i ≤ output.length) :
    StartsLine true (output ++ more) i ↔ StartsLine true output i := by
  cases i with
  | zero => rfl
  | succ i => simp only [StartsLine, List.getElem?_append_left (Nat.lt_of_succ_le hi)]

theorem StandsAt.append (h : p.StandsAt output i) (more : Bytes) :
    p.StandsAt (output ++ more) i := by
  have hle := h.le
  refine ⟨(startsLine_append (by omega)).mpr h.1, ?_⟩
  rw [List.drop_append_of_le_length (by omega)]
  exact h.2.trans (List.prefix_append _ _)

/-- A prompt that ends within a part of the output stands in that part. -/
theorem StandsAt.of_append (h : p.StandsAt (output ++ more) i)
    (hle : i + p.bytes.length ≤ output.length) : p.StandsAt output i := by
  refine ⟨(startsLine_append (by omega)).mp h.1, ?_⟩
  have hdrop : output.drop i <+: (output ++ more).drop i := by
    rw [List.drop_append_of_le_length (by omega)]
    exact List.prefix_append _ _
  exact List.prefix_of_prefix_length_le h.2 hdrop (by rw [List.length_drop]; omega)

/-- A prompt across the end of a part of the output begins in that part and goes on with the
next byte behind it. -/
theorem StandsAt.across (h : p.StandsAt (output ++ more) i) (hi : i < output.length)
    (hlt : output.length < i + p.bytes.length) :
    StartsLine true output i ∧ output.drop i <+: p.bytes ∧
      ∃ b rest, more = b :: rest ∧ b ∈ p.bytes := by
  have hprefix := h.2
  rw [List.drop_append_of_le_length (by omega)] at hprefix
  have hstart : output.drop i <+: p.bytes := by
    refine List.prefix_of_prefix_length_le (List.prefix_append _ _) hprefix ?_
    rw [List.length_drop]
    omega
  refine ⟨(startsLine_append (by omega)).mp h.1, hstart, ?_⟩
  obtain ⟨tail, htail⟩ := hstart
  rw [← htail, List.prefix_append_right_inj] at hprefix
  have hlength := congrArg List.length htail
  rw [List.length_append, List.length_drop] at hlength
  cases tail with
  | nil =>
    rw [List.length_nil] at hlength
    omega
  | cons b tail =>
    obtain ⟨rest, rfl⟩ := hprefix
    exact ⟨b, tail ++ rest, rfl, by rw [← htail]; simp⟩

/-- Later output does not move the prompt that has been found. -/
theorem find_append (h : p.find output = some i) (more : Bytes) :
    p.find (output ++ more) = some i := by
  obtain ⟨hstands, hleast⟩ := find_eq_some_iff.mp h
  have hle := hstands.le
  refine find_eq_some_iff.mpr ⟨hstands.append more, fun j hj hother => ?_⟩
  exact hleast j hj (hother.of_append (by omega))

/-- If the first prompt stands at the end of the output, then it is not found before all of it
is there. -/
theorem eq_nil_of_find_last {reply : Bytes} (h : p.find output = some i)
    (hwhole : output ++ more = reply ++ p.bytes)
    (hlast : p.find (reply ++ p.bytes) = some reply.length) : more = [] := by
  have hle := (standsAt_of_find h).le
  have hfind := find_append h more
  rw [hwhole, hlast] at hfind
  obtain rfl := Option.some.inj hfind
  have hlength := congrArg List.length hwhole
  rw [List.length_append, List.length_append] at hlength
  exact List.length_eq_zero_iff.mp (by omega)

/-- Any output can be continued by a prompt.  If that is not the first one, then the first one
begins in the output itself. -/
theorem find_continued (p : Prompt) (output : Bytes) : ∃ gap i,
    p.find (output ++ (gap ++ p.bytes)) = some i ∧
      (i < output.length ∨ i = (output ++ gap).length) := by
  by_cases hline : StartsLine true output output.length
  · have hstands : p.StandsAt (output ++ p.bytes) output.length :=
      ⟨(startsLine_append (Nat.le_refl _)).mpr hline, by simp⟩
    obtain ⟨i, hi, hle⟩ := find_le_of_standsAt hstands
    refine ⟨[], i, hi, ?_⟩
    rw [List.append_nil]
    omega
  · have hstands : p.StandsAt (output ++ [10] ++ p.bytes) (output ++ [10]).length := by
      refine ⟨(startsLine_append (Nat.le_refl _)).mpr ?_, by simp⟩
      simp [StartsLine]
    obtain ⟨i, hi, hle⟩ := find_le_of_standsAt hstands
    rw [List.append_assoc] at hi
    refine ⟨[10], i, hi, ?_⟩
    -- Directly behind the output there is no line start.
    have hne : i ≠ output.length := by
      rintro rfl
      exact hline ((startsLine_append (Nat.le_refl _)).mp (standsAt_of_find hi).1)
    rw [List.length_append, List.length_singleton] at hle ⊢
    omega

/-- What stands before the first prompt contains none. -/
theorem find_take (h : p.find output = some i) : p.find (output.take i) = none := by
  obtain ⟨-, hleast⟩ := find_eq_some_iff.mp h
  refine find_eq_none_iff.mpr fun j hj => ?_
  have hle := hj.le
  have hpos := p.bytes_length_pos
  rw [List.length_take] at hle
  have hstands : p.StandsAt output j := by
    have happ := hj.append (output.drop i)
    rwa [List.take_append_drop] at happ
  exact hleast j (by omega) hstands

@[simp] theorem find_nil : p.find [] = none := rfl

/-- The output up to the prompt, the marker, and what comes behind it. -/
theorem eq_take_append_of_find (h : p.find output = some i) :
    output = output.take i ++ p.bytes ++ output.drop (i + p.bytes.length) := by
  obtain ⟨rest, hprefix⟩ := (standsAt_of_find h).2
  have hdrop : output.drop (i + p.bytes.length) = rest := by
    rw [← List.drop_drop, ← hprefix, List.drop_left]
  rw [hdrop, List.append_assoc, hprefix, List.take_append_drop]

/-! ## The least place -/

/-- The offsets at which the marker's bytes stand in the output, at its start or directly after
LF. -/
def places (marker : String) (output : Bytes) : Set Nat :=
  {i | (i = 0 ∨ output[i - 1]? = some 10) ∧ bytesOf marker <+: output.drop i}

theorem standsAt_iff_mem_places : p.StandsAt output i ↔ i ∈ places p.marker output := by
  cases i with
  | zero => simp [StandsAt, MarkerAt, StartsLine, places, bytes]
  | succ i => simp [StandsAt, MarkerAt, StartsLine, places, bytes]

theorem firstAt_iff_isLeast : p.FirstAt output i ↔ IsLeast (places p.marker output) i := by
  refine and_congr standsAt_iff_mem_places ⟨fun h j hj => ?_, fun h j hlt hj => ?_⟩
  · exact Nat.le_of_not_lt fun hlt => h j hlt (standsAt_iff_mem_places.mpr hj)
  · exact absurd (h (standsAt_iff_mem_places.mp hj)) (Nat.not_le_of_lt hlt)

/-- Each marker that is neither empty nor too long makes a prompt.  Whatever the marker and the
output are, this prompt is found at the least of the marker's places, and it is not found only if
there is none.  The marker's bytes follow from there, and appending to the output changes nothing
about it. -/
theorem find_isLeast {marker : String} (hne : marker ≠ "")
    (hsize : marker.utf8ByteSize ≤ maxMarkerBytes) :
    ∃ p, ofMarker marker = .ok p ∧ ∀ output,
      (∀ i, p.find output = some i ↔ IsLeast (places marker output) i) ∧
      (p.find output = none ↔ places marker output = ∅) ∧
      (∀ i, p.find output = some i →
        output = output.take i ++ bytesOf marker ++ output.drop (i + (bytesOf marker).length) ∧
        ∀ more, p.find (output ++ more) = some i) := by
  have hmade : ofMarker marker = .ok ⟨marker, hne⟩ := by
    rw [ofMarker, dif_neg hne, if_neg (by omega)]
  refine ⟨⟨marker, hne⟩, hmade, fun output => ⟨fun i => ?_, ?_, fun i hfind => ?_⟩⟩
  · exact find_eq_some_iff.trans firstAt_iff_isLeast
  · rw [find_eq_none_iff, Set.eq_empty_iff_forall_notMem]
    exact forall_congr' fun i => not_congr standsAt_iff_mem_places
  · have hcut := eq_take_append_of_find hfind
    simp only [bytes] at hcut
    exact ⟨hcut, find_append hfind⟩

/-- The marker has more than one line and could begin again within itself.  Before it stand a byte
that belongs to no text and the marker within a line. -/
theorem find_isLeast_twoLines :
    let marker := "λ?\nλ?"
    let output := 255 :: bytesOf marker ++ bytesOf "\nλ?"
    marker ≠ "" ∧ marker.utf8ByteSize ≤ maxMarkerBytes ∧
      ∃ p, ofMarker marker = .ok p ∧ p.find output = some 5 ∧
        ∀ more, p.find (output ++ more) = some 5 := by
  intro marker output
  have hne : marker ≠ "" := by decide
  have hsize : marker.utf8ByteSize ≤ maxMarkerBytes := by decide
  obtain ⟨p, hmade, hfind⟩ := find_isLeast hne hsize
  have hplace : 5 ∈ places marker output := ⟨Or.inr (by decide), by decide⟩
  have hno : ∀ j < 5, ¬ ((j = 0 ∨ output[j - 1]? = some 10) ∧
      bytesOf marker <+: output.drop j) := by decide
  have hleast : IsLeast (places marker output) 5 :=
    ⟨hplace, fun j hj => Nat.le_of_not_lt fun hlt => hno j hlt hj⟩
  have hfound := ((hfind output).1 5).mpr hleast
  exact ⟨hne, hsize, p, hmade, hfound, ((hfind output).2.2 5 hfound).2⟩

end Prompt
end LiveDoc
