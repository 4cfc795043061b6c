/-
The text of a capture, line by line.

Decoding and joining CR LF are done one after the other on the whole capture, but LF and CR are
characters of one byte each, which no broken part reaches over.  So a capture can be cut at any
LF: the line in front of it loses one CR from its end, if it has any, and is then decoded as if
it stood alone.  Where nothing is broken this says which captures have the same text: those that
differ in nothing but a CR in front of some LFs.
-/
import LiveDoc.Capture
import LiveDoc.Proofs.Text.Utf8

namespace LiveDoc

def withoutFinalCr (line : Bytes) : Bytes :=
  if line.getLast? = some 13 then line.dropLast else line

/-- Output without each CR that stands directly in front of an LF. -/
def withoutLineCrs : Bytes → Bytes
  | [] => []
  | b :: rest =>
    if b = 13 ∧ rest.head? = some 10 then withoutLineCrs rest else b :: withoutLineCrs rest

namespace Utf8

open String (utf8EncodeChar)

/-! ## ASCII bytes in a capture -/

variable {b : UInt8}

theorem encodeChar_ascii (hb : b.toNat < 0x80) : utf8EncodeChar (Char.ofNat b.toNat) = [b] :=
  encodeChar_of_feed (by rw [lead_ascii hb, feed])

/-- No character is written over an ASCII byte that is not its first. -/
theorem Begins.prefix_of_ascii {part front rest : Bytes} (hb : b.toNat < 0x80)
    (h : Begins part) (hpart : part <+: front ++ b :: rest) (hne : front ≠ []) :
    part <+: front := by
  by_cases hle : part.length ≤ front.length
  · exact List.prefix_of_prefix_length_le hpart (List.prefix_append _ _) hle
  · exfalso
    obtain ⟨c, hc⟩ := h
    have hfront : front ++ [b] <+: front ++ b :: rest := ⟨rest, by simp⟩
    have hlonger : front ++ [b] <+: utf8EncodeChar c := by
      refine (List.prefix_of_prefix_length_le hfront hpart ?_).trans hc
      rw [List.length_append, List.length_singleton]
      omega
    have hmem : b ∈ utf8EncodeChar c := hlonger.subset (by simp)
    rw [mem_encodeChar_ascii hb hmem, encodeChar_ascii hb] at hlonger
    have hlength := hlonger.length_le
    have hpos := List.length_pos_iff.mpr hne
    rw [List.length_append, List.length_singleton] at hlength
    omega

theorem Lossy.append_ascii {a rest : Bytes} {s t : List Char} (hb : b.toNat < 0x80)
    (h : Lossy a s) (hrest : Lossy rest t) :
    Lossy (a ++ b :: rest) (s ++ Char.ofNat b.toNat :: t) := by
  induction h with
  | nil =>
    have hchar := Lossy.char (Char.ofNat b.toNat) hrest
    rwa [encodeChar_ascii hb] at hchar
  | char c _ ih =>
    rw [List.append_assoc]
    exact .char c ih
  | @broken part behind s hpart _ ih =>
    rw [List.append_assoc]
    have hne : part ++ behind ≠ [] := List.append_ne_nil_of_left_ne_nil hpart.ne_nil _
    have hwithin : ∀ longer, Begins longer → longer <+: part ++ (behind ++ b :: rest) →
        longer <+: part ++ behind := by
      intro longer hbegins hlonger
      rw [← List.append_assoc] at hlonger
      exact hbegins.prefix_of_ascii hb hlonger hne
    refine .broken ⟨fun c hc => ?_, hpart.ne_nil, hpart.begins, fun longer hlonger hbegins => ?_⟩ ih
    · exact hpart.no_char c (hwithin _ ⟨c, List.prefix_rfl⟩ hc)
    · exact hpart.longest longer (hwithin longer hbegins hlonger) hbegins

/-- A capture may be cut at an ASCII byte. -/
theorem decodeLossy_append_ascii (hb : b.toNat < 0x80) (a rest : Bytes) :
    decodeLossy (a ++ b :: rest) = decodeLossy a ++ Char.ofNat b.toNat :: decodeLossy rest :=
  lossy_iff.mp ((lossy_decodeLossy a).append_ascii hb (lossy_decodeLossy rest))

theorem replacement_ne_ascii (hb : b.toNat < 0x80) : replacement ≠ Char.ofNat b.toNat := by
  intro h
  have hlength : (utf8EncodeChar replacement).length = 3 := by decide
  rw [h, encodeChar_ascii hb] at hlength
  cases hlength

theorem Lossy.mem_ascii {a : Bytes} {s : List Char} (hb : b.toNat < 0x80) (h : Lossy a s)
    (hmem : Char.ofNat b.toNat ∈ s) : b ∈ a := by
  induction h with
  | nil => cases hmem
  | char c _ ih =>
    rw [List.mem_append]
    rcases List.mem_cons.mp hmem with rfl | hmem
    · left
      rw [encodeChar_ascii hb]
      exact List.mem_singleton_self b
    · exact Or.inr (ih hmem)
  | broken hpart _ ih =>
    rcases List.mem_cons.mp hmem with heq | hmem
    · exact absurd heq.symm (replacement_ne_ascii hb)
    · exact List.mem_append_right _ (ih hmem)

theorem Lossy.eq_nil {a : Bytes} (h : Lossy a []) : a = [] := by
  cases h
  rfl

theorem Lossy.getLast?_ascii {a : Bytes} {s : List Char} (hb : b.toNat < 0x80) (h : Lossy a s)
    (hlast : s.getLast? = some (Char.ofNat b.toNat)) : a.getLast? = some b := by
  induction h with
  | nil => cases hlast
  | @char c rest s h ih =>
    cases s with
    | nil =>
      obtain rfl := Option.some.inj hlast
      rw [h.eq_nil, encodeChar_ascii hb]
      rfl
    | cons d s =>
      rw [List.getLast?_cons_cons] at hlast
      rw [List.getLast?_append, ih hlast]
      rfl
  | @broken part rest s hpart h ih =>
    cases s with
    | nil => exact absurd (Option.some.inj hlast) (replacement_ne_ascii hb)
    | cons d s =>
      rw [List.getLast?_cons_cons] at hlast
      rw [List.getLast?_append, ih hlast]
      rfl

end Utf8

/-! ## Lines -/

theorem dropFinalCr_of_getLast?_ne {line : List Char} (h : line.getLast? ≠ some '\r') :
    dropFinalCr line = line := by
  rw [dropFinalCr]
  split
  · next hcr => exact absurd hcr h
  · rfl

theorem dropFinalCr_concat (line : List Char) : dropFinalCr (line ++ ['\r']) = line := by
  rw [dropFinalCr, List.getLast?_concat]
  exact List.dropLast_concat

theorem withoutFinalCr_concat (line : Bytes) : withoutFinalCr (line ++ [13]) = line := by
  rw [withoutFinalCr, if_pos List.getLast?_concat]
  exact List.dropLast_concat

theorem decodeLossy_withoutFinalCr (line : Bytes) :
    Utf8.decodeLossy (withoutFinalCr line) = dropFinalCr (Utf8.decodeLossy line) := by
  by_cases hcr : line.getLast? = some 13
  · obtain ⟨init, rfl⟩ := List.getLast?_eq_some_iff.mp hcr
    have hdecoded : Utf8.decodeLossy (init ++ [13]) = Utf8.decodeLossy init ++ ['\r'] :=
      Utf8.decodeLossy_append_ascii (by decide) init []
    rw [hdecoded, dropFinalCr_concat, withoutFinalCr_concat]
  · rw [withoutFinalCr, if_neg hcr, dropFinalCr_of_getLast?_ne]
    exact fun hlast => hcr ((Utf8.lossy_decodeLossy line).getLast?_ascii (by decide) hlast)

/-- A text without CR LF is kept as it is. -/
theorem joinCrLf_of_not_infix {s : List Char} (h : ¬ ['\r', '\n'] <:+: s) : joinCrLf s = s := by
  fun_induction joinCrLf s with
  | case1 => rfl
  | case2 rest => exact absurd ⟨[], rest, rfl⟩ h
  | case3 c rest _ ih => rw [ih fun hcrLf => h (hcrLf.trans (List.suffix_cons c rest).isInfix)]

theorem not_infix_of_not_mem {s : List Char} (h : '\n' ∉ s) : ¬ ['\r', '\n'] <:+: s :=
  fun hcrLf => h (hcrLf.subset (by simp))

theorem dropFinalCr_cons {c : Char} {line : List Char} (h : c ≠ '\r' ∨ line ≠ []) :
    dropFinalCr (c :: line) = c :: dropFinalCr line := by
  cases line with
  | nil =>
    have hc : c ≠ '\r' := h.resolve_right fun hne => hne rfl
    exact dropFinalCr_of_getLast?_ne fun hlast => hc (Option.some.inj hlast)
  | cons d rest =>
    rw [dropFinalCr, dropFinalCr, List.getLast?_cons_cons]
    split <;> rfl

theorem joinCrLf_append_lf {line : List Char} (h : '\n' ∉ line) (rest : List Char) :
    joinCrLf (line ++ '\n' :: rest) = dropFinalCr line ++ '\n' :: joinCrLf rest := by
  induction line with
  | nil => exact joinCrLf_cons (by decide) rest
  | cons c line ih =>
    rw [List.mem_cons, not_or] at h
    have hline := ih h.2
    rw [List.cons_append]
    by_cases hc : c = '\r'
    · rw [hc]
      cases line with
      | nil => rfl
      | cons d line =>
        have hd : d ≠ '\n' := fun hd => h.2 (hd ▸ List.mem_cons_self)
        rw [List.cons_append, joinCrLf_cr_cons hd, dropFinalCr_cons (Or.inr (List.cons_ne_nil _ _)),
          List.cons_append, ← hline]
        rfl
    · rw [joinCrLf_cons hc, dropFinalCr_cons (Or.inl hc), hline]
      rfl

/-! ## Captures in which nothing is broken -/

theorem withoutLineCrs_append {front : Bytes} (h : 13 ∉ front) (rest : Bytes) :
    withoutLineCrs (front ++ rest) = front ++ withoutLineCrs rest := by
  induction front with
  | nil => rfl
  | cons b front ih =>
    rw [List.mem_cons, not_or] at h
    rw [List.cons_append, withoutLineCrs, if_neg fun hb => h.1 hb.1.symm, ih h.2]
    rfl

theorem encode_joinCrLf (s : List Char) :
    Utf8.encode (joinCrLf s) = withoutLineCrs (Utf8.encode s) := by
  have hcr (rest : List Char) : Utf8.encode ('\r' :: rest) = 13 :: Utf8.encode rest := rfl
  induction s with
  | nil => rfl
  | cons c rest ih =>
    by_cases hc : c = '\r'
    · rw [hc, hcr, withoutLineCrs]
      cases rest with
      | nil => rfl
      | cons d rest =>
        by_cases hd : d = '\n'
        · rw [hd] at ih ⊢
          rw [joinCrLf_crLf, ← joinCrLf_cons (by decide), ih]
          rfl
        · have hlf : (Utf8.encode (d :: rest)).head? ≠ some 10 := by
            intro hhead
            obtain ⟨b, tail, hencode⟩ :=
              List.exists_cons_of_ne_nil (String.utf8EncodeChar_ne_nil (c := d))
            rw [Utf8.encode_cons, hencode, List.cons_append, List.head?_cons,
              Option.some.injEq] at hhead
            refine hd (Utf8.mem_encodeChar_ascii (b := 10) (by decide) ?_)
            rw [hencode, hhead]
            exact List.mem_cons_self
          rw [joinCrLf_cr_cons hd, hcr, ih, if_neg fun hb => hlf hb.2]
    · have hnot : 13 ∉ String.utf8EncodeChar c := fun hmem =>
        hc (Utf8.mem_encodeChar_ascii (by decide) hmem)
      rw [joinCrLf_cons hc, Utf8.encode_cons, ih, Utf8.encode_cons, withoutLineCrs_append hnot]

namespace Capture

theorem text_bytesOf (t : String) : text (bytesOf t) = String.ofList (joinCrLf t.toList) := by
  rw [text, chars, bytesOf, Utf8.decodeLossy_encode]

theorem text_append_lf {line : Bytes} (h : 10 ∉ line) (rest : Bytes) :
    text (line ++ 10 :: rest) =
      String.ofList (Utf8.decodeLossy (withoutFinalCr line)) ++ "\n" ++ text rest := by
  have hline : '\n' ∉ Utf8.decodeLossy line := fun hmem =>
    h ((Utf8.lossy_decodeLossy line).mem_ascii (by decide) hmem)
  have hcut : Utf8.decodeLossy (line ++ 10 :: rest) =
      Utf8.decodeLossy line ++ '\n' :: Utf8.decodeLossy rest :=
    Utf8.decodeLossy_append_ascii (by decide) line rest
  rw [text, chars, hcut, joinCrLf_append_lf hline, decodeLossy_withoutFinalCr]
  refine String.toList_injective ?_
  simp [text, chars]

theorem text_of_not_mem {line : Bytes} (h : 10 ∉ line) :
    text line = String.ofList (Utf8.decodeLossy line) := by
  have hline : '\n' ∉ Utf8.decodeLossy line := fun hmem =>
    h ((Utf8.lossy_decodeLossy line).mem_ascii (by decide) hmem)
  rw [text, chars, joinCrLf_of_not_infix (not_infix_of_not_mem hline)]

theorem text_bytesOf_eq_iff (t u : String) :
    text (bytesOf t) = text (bytesOf u) ↔
      withoutLineCrs (bytesOf t) = withoutLineCrs (bytesOf u) := by
  rw [text_bytesOf, text_bytesOf, String.ofList_inj, bytesOf, bytesOf, ← encode_joinCrLf,
    ← encode_joinCrLf, Utf8.encode_inj]

/-- Whatever the bytes, the text of a capture is made line by line: each line is decoded without
one CR at its end, if there is any, and the last one is decoded as it is.  Decoding puts U+FFFD
for each longest broken part.  So a text without CR LF comes back as it was, and two captures of
texts have the same text exactly if they are the same bytes once each CR that stands directly in
front of an LF is taken out of both. -/
theorem text_by_line :
    (∀ line rest : Bytes, 10 ∉ line →
      text (line ++ 10 :: rest) =
        String.ofList (Utf8.decodeLossy (withoutFinalCr line)) ++ "\n" ++ text rest) ∧
    (∀ line : Bytes, 10 ∉ line → text line = String.ofList (Utf8.decodeLossy line)) ∧
    (∀ bytes s, Utf8.Lossy bytes s ↔ Utf8.decodeLossy bytes = s) ∧
    (∀ t : String, ¬ ['\r', '\n'] <:+: t.toList → text (bytesOf t) = t) ∧
    (∀ t u : String, text (bytesOf t) = text (bytesOf u) ↔
      withoutLineCrs (bytesOf t) = withoutLineCrs (bytesOf u)) := by
  refine ⟨fun line rest h => text_append_lf h rest, fun line h => text_of_not_mem h,
    fun bytes s => Utf8.lossy_iff, fun t h => ?_, text_bytesOf_eq_iff⟩
  rw [text_bytesOf, joinCrLf_of_not_infix h, String.ofList_toList]

/-- A line that ends within a character and with a CR, a line of two CRs, and a text in which no
CR stands before an LF. -/
theorem text_by_line_brokenOff :
    10 ∉ ([0xE2, 0x82, 13] : Bytes) ∧ 10 ∉ ([13, 13] : Bytes) ∧ 10 ∉ ([] : Bytes) ∧
    text ([0xE2, 0x82, 13] ++ 10 :: ([13, 13] ++ 10 :: [])) = "\uFFFD\n\r\n" ∧
    ¬ ['\r', '\n'] <:+: "a\rb\n".toList ∧ text (bytesOf "a\rb\n") = "a\rb\n" := by
  have hbroken : 10 ∉ ([0xE2, 0x82, 13] : Bytes) := by decide
  have hcrs : 10 ∉ ([13, 13] : Bytes) := by decide
  have hnothing : 10 ∉ ([] : Bytes) := by decide
  have hcr : ¬ ['\r', '\n'] <:+: "a\rb\n".toList := by decide
  refine ⟨hbroken, hcrs, hnothing, ?_, hcr, text_by_line.2.2.2.1 _ hcr⟩
  rw [text_by_line.1 _ _ hbroken, text_by_line.1 _ _ hcrs, text_by_line.2.1 _ hnothing]
  decide

end Capture
end LiveDoc
