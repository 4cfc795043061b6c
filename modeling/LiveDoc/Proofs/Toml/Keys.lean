/-
What may stand between the parts of a TOML document, and how keys are written.
-/
import LiveDoc.Proofs.Toml.Strings
import LiveDoc.Toml.Document

namespace LiveDoc
namespace Toml

variable {s t : List Char} {path : List String}

/-! ## Spaces -/

/-- Only spaces and tabs stand in front of the second text. -/
def Spaces (s t : List Char) : Prop :=
  ∃ spaces, (∀ c ∈ spaces, isSpace c = true) ∧ s = spaces ++ t

theorem Spaces.refl (s : List Char) : Spaces s s :=
  ⟨[], List.forall_mem_nil _, rfl⟩

theorem Spaces.length_le (h : Spaces s t) : t.length ≤ s.length := by
  obtain ⟨spaces, -, rfl⟩ := h
  rw [List.length_append]
  omega

theorem skipSpace_of_not (h : ∀ c ∈ s.head?, isSpace c = false) : skipSpace s = s := by
  cases s with
  | nil => rfl
  | cons c s => exact List.dropWhile_cons_of_neg (by simp [h c rfl])

theorem skipSpace_of_spaces (h : Spaces s t) (ht : ∀ c ∈ t.head?, isSpace c = false) :
    skipSpace s = t := by
  obtain ⟨spaces, hspaces, rfl⟩ := h
  rw [skipSpace, List.dropWhile_append_of_pos hspaces]
  exact skipSpace_of_not ht

theorem eq_of_isSpace {c : Char} (h : isSpace c = true) : c = ' ' ∨ c = '\t' := by
  simpa [isSpace] using h

/-! ## Comments and ends of lines -/

def EndsLine (s t : List Char) : Prop := lineEnd? s = some t ∨ s = [] ∧ t = []

/-- Nothing but spaces and a comment stand in front of the end of the line. -/
def RestOfLine (s t : List Char) : Prop :=
  ∃ s', Spaces s s' ∧ (EndsLine s' t ∨
    ∃ comment s'', s' = '#' :: (comment ++ s'') ∧ (∀ c ∈ comment, isControl c = false) ∧
      EndsLine s'' t)

theorem EndsLine.length_lt (h : EndsLine s t) (hs : s ≠ []) : t.length < s.length := by
  rcases h with h | ⟨rfl, rfl⟩
  · exact length_lt_of_lineEnd? h
  · exact absurd rfl hs

theorem EndsLine.head (h : EndsLine s t) : ∀ c ∈ s.head?, c = '\n' ∨ c = '\r' := by
  rcases h with h | ⟨rfl, rfl⟩
  · rcases exists_of_lineEnd? h with rfl | rfl
    · exact fun c hc => Or.inl (Option.some.inj hc).symm
    · exact fun c hc => Or.inr (Option.some.inj hc).symm
  · intro c hc
    cases hc

theorem comment?_cons {c : Char} (hc : isControl c = false) (s : List Char) :
    comment? (c :: s) = comment? s := by
  have hlf : c ≠ '\n' := by rintro rfl; simp [isControl] at hc
  have hcr : c ≠ '\r' := by rintro rfl; simp [isControl] at hc
  rw [comment?.eq_3 _ _ (fun _ h _ => hcr h), if_neg hlf, hc]
  rfl

theorem comment?_of_endsLine {comment : List Char}
    (hcomment : ∀ c ∈ comment, isControl c = false) (hs : EndsLine s t) :
    comment? (comment ++ s) = some s := by
  induction comment with
  | nil =>
    rcases hs with h | ⟨rfl, rfl⟩
    · rcases exists_of_lineEnd? h with rfl | rfl <;> rfl
    · rfl
  | cons c comment ih =>
    rw [List.cons_append, comment?_cons (hcomment c List.mem_cons_self)]
    exact ih fun d hd => hcomment d (List.mem_cons_of_mem c hd)

theorem EndsLine.not_space (h : EndsLine s t) : ∀ c ∈ s.head?, isSpace c = false := by
  intro c hc
  rcases h.head c hc with rfl | rfl <;> decide

theorem endOfLine_of_endsLine (h : EndsLine s t) :
    (match some s with
      | some [] => some []
      | some s => lineEnd? s
      | none => none) = some t := by
  rcases h with h | ⟨rfl, rfl⟩
  · rcases exists_of_lineEnd? h with rfl | rfl <;> rfl
  · rfl

theorem restOfLine?_of_restOfLine (h : RestOfLine s t) : restOfLine? s = some t := by
  obtain ⟨s', hspaces, hend | ⟨comment, s'', rfl, hcomment, hend⟩⟩ := h
  · have hmark : ∀ rest, s' ≠ '#' :: rest := by
      rintro rest rfl
      rcases hend.head '#' rfl with h | h <;> exact absurd h (by decide)
    have hskip : skipSpace s = s' := skipSpace_of_spaces hspaces hend.not_space
    unfold restOfLine?
    rw [hskip]
    split
    · exact absurd rfl (hmark _)
    · exact endOfLine_of_endsLine hend
  · have hskip : skipSpace s = '#' :: (comment ++ s'') :=
      skipSpace_of_spaces hspaces fun c hc => by rw [← Option.some.inj hc]; rfl
    unfold restOfLine?
    rw [hskip]
    show (match comment? (comment ++ s'') with
      | some [] => some []
      | some s => lineEnd? s
      | none => none) = some t
    rw [comment?_of_endsLine hcomment hend]
    exact endOfLine_of_endsLine hend

/-- Behind its spaces a line with nothing in it ends, or a comment starts. -/
theorem RestOfLine.skip (h : RestOfLine s t) :
    RestOfLine (skipSpace s) t ∧ (skipSpace s).length ≤ s.length ∧
      ∀ c ∈ (skipSpace s).head?, c = '\n' ∨ c = '\r' ∨ c = '#' := by
  obtain ⟨s', hspaces, hend⟩ := h
  have hhead : ∀ c ∈ s'.head?, c = '\n' ∨ c = '\r' ∨ c = '#' := by
    intro c hc
    rcases hend with hend | ⟨comment, s'', rfl, -⟩
    · exact (hend.head c hc).imp id Or.inl
    · exact Or.inr (Or.inr (Option.some.inj hc).symm)
  have hskip : skipSpace s = s' := skipSpace_of_spaces hspaces fun c hc => by
    rcases hhead c hc with rfl | rfl | rfl <;> rfl
  rw [hskip]
  exact ⟨⟨s', Spaces.refl s', hend⟩, hspaces.length_le, hhead⟩

theorem EndsLine.length_le (h : EndsLine s t) : t.length ≤ s.length := by
  rcases h with h | ⟨rfl, rfl⟩
  · exact Nat.le_of_lt (length_lt_of_lineEnd? h)
  · exact Nat.le_refl _

theorem RestOfLine.length_le (h : RestOfLine s t) : t.length ≤ s.length := by
  obtain ⟨s', hspaces, hend | ⟨comment, s'', rfl, -, hend⟩⟩ := h
  · exact Nat.le_trans hend.length_le hspaces.length_le
  · have h₁ := hspaces.length_le
    have h₂ := hend.length_le
    rw [List.length_cons, List.length_append] at h₁
    omega

theorem RestOfLine.length_lt (h : RestOfLine s t) (hs : s ≠ []) : t.length < s.length := by
  obtain ⟨s', hspaces, hend | ⟨comment, s'', rfl, -, hend⟩⟩ := h
  · have h₁ := hspaces.length_le
    by_cases hs' : s' = []
    · have h₂ := hend.length_le
      have h₃ := List.length_pos_iff.mpr hs
      rw [hs', List.length_nil] at h₂
      omega
    · exact Nat.lt_of_lt_of_le (hend.length_lt hs') h₁
  · have h₁ := hspaces.length_le
    have h₂ := hend.length_le
    rw [List.length_cons, List.length_append] at h₁
    omega

/-! ## Gaps of any size -/

/-- Spaces, ends of lines and comments, as they may stand between the parts of a value. -/
inductive Gap : List Char → List Char → Prop
  | none (t : List Char) : Gap t t
  | space {c : Char} (hc : isSpace c = true) {s t : List Char} (h : Gap s t) : Gap (c :: s) t
  | line {s s' : List Char} (hs : lineEnd? s = some s') {t : List Char} (h : Gap s' t) : Gap s t
  | comment {comment s s' : List Char} (hcomment : ∀ c ∈ comment, isControl c = false)
      (hs : lineEnd? s = some s') {t : List Char} (h : Gap s' t) : Gap ('#' :: (comment ++ s)) t

/-- The text starts with neither white space nor a comment. -/
def Solid (t : List Char) : Prop :=
  ∀ c ∈ t.head?, isSpace c = false ∧ c ≠ '\n' ∧ c ≠ '\r' ∧ c ≠ '#'

theorem skipLines?_of_solid {t : List Char} (h : Solid t) (fuel : Nat) :
    skipLines? (fuel + 1) t = some t := by
  have hskip : skipSpace t = t := skipSpace_of_not fun c hc => (h c hc).1
  have hend : lineEnd? t = none := by
    cases t with
    | nil => rfl
    | cons c t => exact lineEnd?_cons (h c rfl).2.1 (h c rfl).2.2.1 t
  unfold skipLines?
  rw [hskip]
  split
  · exact absurd rfl (h '#' rfl).2.2.2
  · rw [hend]

theorem skipLines?_of_lineEnd (h : lineEnd? s = some t) (fuel : Nat) :
    skipLines? (fuel + 1) s = skipLines? fuel t := by
  rcases exists_of_lineEnd? h with rfl | rfl <;> rfl

theorem skipLines?_of_gap (h : Gap s t) (ht : Solid t) {fuel : Nat}
    (hfuel : s.length < fuel) : skipLines? fuel s = some t := by
  induction h generalizing fuel with
  | none t =>
    obtain ⟨fuel, rfl, -⟩ := exists_fuel hfuel
    exact skipLines?_of_solid ht fuel
  | @space c hc s t h ih =>
    obtain ⟨fuel, rfl, hle⟩ := exists_fuel hfuel
    rw [← ih ht (Nat.lt_succ_of_le (Nat.le_of_succ_le hle)), skipLines?, skipLines?, skipSpace,
      List.dropWhile_cons_of_pos hc]
    rfl
  | @line s s' hs t h ih =>
    obtain ⟨fuel, rfl, hle⟩ := exists_fuel hfuel
    rw [skipLines?_of_lineEnd hs]
    exact ih ht (Nat.lt_of_lt_of_le (length_lt_of_lineEnd? hs) hle)
  | @comment comment s s' hcomment hs t h ih =>
    have hlength := length_lt_of_lineEnd? hs
    rw [List.length_cons, List.length_append] at hfuel
    obtain ⟨fuel, rfl⟩ := Nat.exists_eq_add_of_le' (show 2 ≤ fuel by omega)
    show (comment? (comment ++ s)).bind (skipLines? (fuel + 1)) = some t
    rw [comment?_of_endsLine hcomment (Or.inl hs), Option.bind_some, skipLines?_of_lineEnd hs]
    exact ih ht (by omega)

theorem Gap.length_le (h : Gap s t) : t.length ≤ s.length := by
  induction h with
  | none => exact Nat.le_refl _
  | space hc h ih => exact Nat.le_succ_of_le ih
  | line hs h ih => exact Nat.le_trans ih (Nat.le_of_lt (length_lt_of_lineEnd? hs))
  | comment hcomment hs h ih =>
    have hlength := length_lt_of_lineEnd? hs
    rw [List.length_cons, List.length_append]
    omega

/-! ## Keys -/

/-- A part of a key: a word that goes as far as it can, or a string on one line. -/
inductive KeyPart : List Char → String → List Char → Prop
  | bare {word : List Char} (hword : word ≠ []) (hchars : ∀ c ∈ word, isKeyChar c = true)
      {t : List Char} (ht : ∀ c ∈ t.head?, isKeyChar c = false) :
      KeyPart (word ++ t) (String.ofList word) t
  | quoted {quote : Char} (hquote : quote = '"' ∨ quote = '\'') {s text t : List Char}
      (h : InString quote s text t) : KeyPart (quote :: s) (String.ofList text) t

/-- The parts of a key, one or several, with the spaces behind them. -/
inductive KeyParts : List Char → List String → List Char → Prop
  | last {s : List Char} {part : String} {s' t : List Char} (hpart : KeyPart s part s')
      (hs' : Spaces s' t) : KeyParts s [part] t
  | dotted {s : List Char} {part : String} {s' s'' u : List Char} (hpart : KeyPart s part s')
      (hs' : Spaces s' ('.' :: s'')) (hs'' : Spaces s'' u) {path : List String} {t : List Char}
      (h : KeyParts u path t) : KeyParts s (part :: path) t

structure Key (k : Nat) (s : List Char) (path : List String) (t : List Char) : Prop where
  parts : KeyParts s path t
  length_le : path.length ≤ k

/-- A word is a part of a key if a character follows that cannot belong to it. -/
theorem keyPart_of_word (word : String) (hword : word.toList ≠ [])
    (hchars : word.toList.all isKeyChar = true) {c : Char} (hc : isKeyChar c = false)
    (t : List Char) : KeyPart (word.toList ++ c :: t) word (c :: t) := by
  have hpart := KeyPart.bare hword (List.all_eq_true.mp hchars) (t := c :: t) fun d hd => by
    rw [← Option.some.inj hd]
    exact hc
  rwa [String.ofList_toList] at hpart

theorem key_of_word (word : String) (hword : word.toList ≠ [])
    (hchars : word.toList.all isKeyChar = true) {c : Char} (hc : isKeyChar c = false)
    (t : List Char) {k : Nat} (hk : 0 < k) : Key k (word.toList ++ c :: t) [word] (c :: t) :=
  ⟨KeyParts.last (keyPart_of_word word hword hchars hc t) (Spaces.refl _), hk⟩

def StartsKey (c : Char) : Prop := isKeyChar c = true ∨ c = '"' ∨ c = '\''

theorem InString.length_lt {quote : Char} {s text t : List Char} (h : InString quote s text t) :
    t.length < s.length := by
  induction h with
  | closes => exact Nat.lt_succ_self _
  | plain hc h ih => exact Nat.lt_succ_of_lt ih
  | escape hquote hc h ih => exact Nat.lt_succ_of_lt (Nat.lt_trans ih hc.length_lt)

theorem KeyPart.head {part : String} (h : KeyPart s part t) :
    ∃ c s', s = c :: s' ∧ StartsKey c := by
  cases h with
  | @bare word hword hchars t ht =>
    obtain ⟨c, word, rfl⟩ := List.exists_cons_of_ne_nil hword
    exact ⟨c, word ++ t, rfl, Or.inl (hchars c List.mem_cons_self)⟩
  | quoted hquote h => exact ⟨_, _, rfl, Or.inr hquote⟩

theorem KeyPart.length_lt {part : String} (h : KeyPart s part t) : t.length < s.length := by
  cases h with
  | @bare word hword hchars t ht =>
    have hpos := List.length_pos_iff.mpr hword
    rw [List.length_append]
    omega
  | quoted hquote h => exact Nat.lt_succ_of_lt h.length_lt

theorem KeyParts.head (h : KeyParts s path t) : ∃ c s', s = c :: s' ∧ StartsKey c := by
  cases h with
  | last hpart => exact hpart.head
  | dotted hpart => exact hpart.head

theorem KeyParts.length_lt (h : KeyParts s path t) : t.length < s.length := by
  induction h with
  | last hpart hs' => exact Nat.lt_of_le_of_lt hs'.length_le hpart.length_lt
  | dotted hpart hs' hs'' h ih =>
    have hpoint := hs'.length_le
    have hbehind := hs''.length_le
    have hlength := hpart.length_lt
    rw [List.length_cons] at hpoint
    omega

theorem StartsKey.ne {c d : Char} (h : StartsKey c) (hd : isKeyChar d = false) (hdouble : d ≠ '"')
    (hsingle : d ≠ '\'') : c ≠ d := by
  rintro rfl
  rcases h with h | rfl | rfl
  · exact Bool.false_ne_true (hd.symm.trans h)
  · exact hdouble rfl
  · exact hsingle rfl

theorem StartsKey.not_space {c : Char} (h : StartsKey c) : isSpace c = false := by
  rw [isSpace, Bool.or_eq_false_iff, beq_eq_false_iff_ne, beq_eq_false_iff_ne]
  exact ⟨h.ne (by decide) (by decide) (by decide), h.ne (by decide) (by decide) (by decide)⟩

theorem KeyParts.solid (h : KeyParts s path t) : Solid s := by
  obtain ⟨c, s', rfl, hc⟩ := h.head
  intro d hd
  obtain rfl := Option.some.inj hd
  exact ⟨hc.not_space, hc.ne (by decide) (by decide) (by decide),
    hc.ne (by decide) (by decide) (by decide), hc.ne (by decide) (by decide) (by decide)⟩

theorem KeyParts.head?_ne (h : KeyParts s path t) {d : Char}
    (hd : isKeyChar d = false ∧ d ≠ '"' ∧ d ≠ '\'') : s.head? ≠ some d := by
  obtain ⟨c, s', rfl, hc⟩ := h.head
  exact fun hhead => hc.ne hd.1 hd.2.1 hd.2.2 (Option.some.inj hhead)

theorem keyPart?_of_keyPart {part : String} (h : KeyPart s part t) :
    keyPart? s = some (part, t) := by
  cases h with
  | @bare word hword hchars t ht =>
    have hrun : (word ++ t).takeWhile isKeyChar = word := by
      rw [List.takeWhile_append_of_pos hchars, takeWhile_eq_of_stop ht, List.append_nil]
    have hquote : ∀ quote, isKeyChar quote = false → ∀ rest, word ++ t ≠ quote :: rest := by
      intro quote hq rest heq
      obtain ⟨c, word, rfl⟩ := List.exists_cons_of_ne_nil hword
      rw [List.cons_append] at heq
      have hc := hchars c List.mem_cons_self
      rw [(List.cons.inj heq).1, hq] at hc
      exact Bool.false_ne_true hc
    unfold keyPart?
    split
    · next heq => exact absurd heq (hquote _ (by decide) _)
    · next heq => exact absurd heq (hquote _ (by decide) _)
    · rw [hrun]
      simp [hword]
  | @quoted quote hquote s text t h =>
    have hread := string?_of_inString hquote h
    rcases hquote with rfl | rfl
    · show (string? _).map _ = _
      rw [hread]
      rfl
    · show (string? _).map _ = _
      rw [hread]
      rfl

theorem KeyParts.skipSpace {s₀ s : List Char} {path : List String} {t : List Char} (h : KeyParts s path t)
    (h₀ : Spaces s₀ s) : skipSpace s₀ = s :=
  skipSpace_of_spaces h₀ fun c hc => (h.solid c hc).1

def behindPart (fuel : Nat) (part : String) : List Char → Option (List String × List Char)
  | '.' :: rest => (keyParts? fuel rest).bind fun (parts, rest) => some (part :: parts, rest)
  | rest => some ([part], rest)

theorem keyParts?_of_part {part : String} (h : keyPart? (skipSpace s) = some (part, t))
    (fuel : Nat) : keyParts? (fuel + 1) s = behindPart fuel part (skipSpace t) := by
  rw [keyParts?, h]
  rfl

theorem keyParts?_of_keyParts (h : KeyParts s path t)
    (ht : t.head? = some '=' ∨ t.head? = some ']') {s₀ : List Char} (h₀ : Spaces s₀ s) {fuel : Nat}
    (hfuel : s.length < fuel) : keyParts? fuel s₀ = some (path, t) := by
  have hskip := h.skipSpace h₀
  induction h generalizing s₀ fuel with
  | @last s part s' t hpart hs' =>
    obtain ⟨fuel, rfl, -⟩ := exists_fuel hfuel
    have hstop : (∀ c ∈ t.head?, isSpace c = false) ∧ ∀ rest, t ≠ '.' :: rest := by
      rcases ht with ht | ht <;> obtain ⟨t, rfl⟩ := List.head?_eq_some_iff.mp ht <;>
        simp [isSpace]
    have hbehind : skipSpace s' = t := skipSpace_of_spaces hs' hstop.1
    have hread : keyPart? (skipSpace s₀) = some (part, s') := by
      rw [hskip, keyPart?_of_keyPart hpart]
    rw [keyParts?_of_part hread, hbehind]
    exact behindPart.eq_2 _ _ _ hstop.2
  | @dotted s part s' s'' u hpart hs' hs'' path t h ih =>
    obtain ⟨fuel, rfl, hle⟩ := exists_fuel hfuel
    have hbehind : skipSpace s' = '.' :: s'' := skipSpace_of_spaces hs' fun c hc => by
      rw [← Option.some.inj hc]
      rfl
    have hpoint := hs'.length_le
    have hlength := hpart.length_lt
    have hspaces := hs''.length_le
    rw [List.length_cons] at hpoint
    have hread : keyPart? (skipSpace s₀) = some (part, s') := by
      rw [hskip, keyPart?_of_keyPart hpart]
    have hrest := ih ht hs'' (show u.length < fuel by omega) (h.skipSpace hs'')
    rw [keyParts?_of_part hread, hbehind, behindPart, hrest]
    rfl

theorem key?_of_keyParts (h : KeyParts s path t)
    (ht : t.head? = some '=' ∨ t.head? = some ']') {s₀ : List Char} (h₀ : Spaces s₀ s) :
    key? s₀ = if path.length ≤ maxDepth then some (path, t) else none := by
  have hread := keyParts?_of_keyParts h ht h₀ (Nat.lt_succ_of_le h₀.length_le)
  rw [key?, hread, Option.filter_some]
  by_cases hlength : path.length ≤ maxDepth <;> simp [hlength]

theorem key?_of_key {k : Nat} (h : Key k s path t) (hk : k ≤ maxDepth)
    (ht : t.head? = some '=' ∨ t.head? = some ']') {s₀ : List Char} (h₀ : Spaces s₀ s) :
    key? s₀ = some (path, t) := by
  rw [key?_of_keyParts h.parts ht h₀, if_pos (Nat.le_trans h.length_le hk)]

end Toml
end LiveDoc
