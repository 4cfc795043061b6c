/-
How strings are written in TOML, and that they are read back.

A form of writing is a relation between a text, what is written at its start, and the text
behind.  A string has many forms: between single or double quotation marks, on one line or over
several, and between double marks any character can be written by an escape.  What the reader
makes of each of them is what is written.
-/
import LiveDoc.Toml.Scalar

namespace LiveDoc
namespace Toml

variable {c quote : Char} {s t text : List Char}

/-- What can be checked of the members of a list holds of each of them. -/
theorem forall_mem_of_all {α : Type} {p : α → Prop} [DecidablePred p] {l : List α}
    (h : l.all (fun a => decide (p a)) = true) : ∀ a ∈ l, p a := fun a ha =>
  of_decide_eq_true (List.all_eq_true.mp h a ha)

/-! ## Escapes -/

def shortEscapes : List (Char × Char) :=
  [('b', '\x08'), ('t', '\t'), ('n', '\n'), ('f', '\x0c'), ('r', '\r'), ('e', '\x1b'), ('"', '"'),
    ('\\', '\\')]

/-- The letters behind which the number of a character stands, and how many digits it has. -/
def hexEscapes : List (Char × Nat) := [('x', 2), ('u', 4), ('U', 8)]

inductive Escape : List Char → Char → List Char → Prop
  | short {mark c : Char} (h : (mark, c) ∈ shortEscapes) (t : List Char) : Escape (mark :: t) c t
  | hex {mark c : Char} {digits : List Char} (h : (mark, digits.length) ∈ hexEscapes)
      (hnumber : CharRef.number 16 digits.length digits = (digits.length, c.toNat))
      (t : List Char) : Escape (mark :: (digits ++ t)) c t

theorem hexChar?_digits {digits : List Char}
    (h : CharRef.number 16 digits.length digits = (digits.length, c.toNat)) (t : List Char) :
    hexChar? digits.length (digits ++ t) = some (c, t) := by
  have hnumber : CharRef.number 16 digits.length (digits ++ t) = (digits.length, c.toNat) := by
    rw [← h, CharRef.number, CharRef.number, List.take_left, List.take_length]
  have hvalid : c.toNat.isValidChar := c.valid
  rw [hexChar?, hnumber]
  dsimp only
  rw [if_pos ⟨rfl, hvalid⟩, Char.ofNat_toNat, List.drop_left]

theorem escape?_of_escape (h : Escape s c t) : escape? s = some (c, t) := by
  cases h with
  | short h =>
    simp only [shortEscapes, List.mem_cons, Prod.mk.injEq, List.not_mem_nil, or_false] at h
    rcases h with ⟨rfl, rfl⟩ | ⟨rfl, rfl⟩ | ⟨rfl, rfl⟩ | ⟨rfl, rfl⟩ | ⟨rfl, rfl⟩ | ⟨rfl, rfl⟩ |
      ⟨rfl, rfl⟩ | ⟨rfl, rfl⟩ <;> rfl
  | hex h hnumber =>
    have hread := hexChar?_digits hnumber t
    simp only [hexEscapes, List.mem_cons, Prod.mk.injEq, List.not_mem_nil, or_false] at h
    rcases h with ⟨rfl, hlength⟩ | ⟨rfl, hlength⟩ | ⟨rfl, hlength⟩
    all_goals
      rw [hlength] at hread
      exact hread

theorem Escape.length_lt (h : Escape s c t) : t.length < s.length := by
  cases h with
  | short => exact Nat.lt_succ_self _
  | hex =>
    rw [List.length_cons, List.length_append]
    omega

/-- There is fuel for a step, and enough behind it for a text that is shorter. -/
theorem exists_fuel {m n : Nat} (h : m < n) : ∃ k, n = k + 1 ∧ m ≤ k :=
  ⟨n - 1, by omega, by omega⟩

/-! ## Strings on one line -/

def IsPlain (quote c : Char) : Prop :=
  c ≠ quote ∧ isControl c = false ∧ (quote = '"' → c ≠ '\\')

/-- A string on one line, behind its opening mark. -/
inductive InString (quote : Char) : List Char → List Char → List Char → Prop
  | closes (t : List Char) : InString quote (quote :: t) [] t
  | plain {c : Char} (hc : IsPlain quote c) {s text t : List Char} (h : InString quote s text t) :
      InString quote (c :: s) (c :: text) t
  | escape (hquote : quote = '"') {s : List Char} {c : Char} {s' : List Char} (hc : Escape s c s')
      {text t : List Char} (h : InString quote s' text t) :
      InString quote ('\\' :: s) (c :: text) t

theorem stringFrom_of_inString (hquote : quote ≠ '\\') {s text t : List Char}
    (h : InString quote s text t) {fuel : Nat} (hfuel : s.length < fuel) :
    stringFrom quote fuel s = some (text, t) := by
  induction h generalizing fuel with
  | closes t =>
    obtain ⟨fuel, rfl, hle⟩ := exists_fuel hfuel
    rw [stringFrom, if_pos rfl]
  | plain hc h ih =>
    obtain ⟨fuel, rfl, hle⟩ := exists_fuel hfuel
    obtain ⟨hne, hcontrol, hescape⟩ := hc
    have hrest := ih hle
    rw [stringFrom, if_neg hne, if_neg (fun hand => hescape hand.2 hand.1), hcontrol, hrest]
    rfl
  | escape hq hc h ih =>
    obtain ⟨fuel, rfl, hle⟩ := exists_fuel hfuel
    have hlength := hc.length_lt
    have hrest := ih (Nat.lt_of_lt_of_le hlength (Nat.le_of_succ_le hle))
    rw [stringFrom, if_neg hquote.symm, if_pos ⟨rfl, hq⟩, escape?_of_escape hc]
    simp [hrest]

/-! ## Strings over several lines -/

/-- A string over several lines, behind its opening marks and the line end that does not count.
One or two marks that others do not follow are written as they are, also in front of the closing
marks.  A backslash at the end of a line leaves out all spaces and line ends behind it. -/
inductive InLines (quote : Char) : List Char → List Char → List Char → Prop
  | closes (n : Nat) (hn : n ≤ 2) (t : List Char) :
      InLines quote (List.replicate (n + 3) quote ++ t) (List.replicate n quote) t
  | quotes (n : Nat) (hn : n = 1 ∨ n = 2) {s : List Char} (hs : s.head? ≠ some quote)
      {text t : List Char} (h : InLines quote s text t) :
      InLines quote (List.replicate n quote ++ s) (List.replicate n quote ++ text) t
  | plain {c : Char} (hc : IsPlain quote c) {s text t : List Char} (h : InLines quote s text t) :
      InLines quote (c :: s) (c :: text) t
  | line {s s' : List Char} (hs : lineEnd? s = some s') {text t : List Char}
      (h : InLines quote s' text t) : InLines quote s ('\n' :: text) t
  | escape (hquote : quote = '"') {s : List Char} {c : Char} {s' : List Char} (hc : Escape s c s')
      {text t : List Char} (h : InLines quote s' text t) :
      InLines quote ('\\' :: s) (c :: text) t
  | continued (hquote : quote = '"') {spaces s s' : List Char}
      (hspaces : ∀ c ∈ spaces, isSpace c = true) (hs : lineEnd? s = some s') {text t : List Char}
      (h : InLines quote (skipBlank s') text t) :
      InLines quote ('\\' :: (spaces ++ s)) text t

theorem takeWhile_eq_of_stop {q : Char → Bool} {t : List Char} (h : ∀ c ∈ t.head?, q c = false) :
    t.takeWhile q = [] := by
  cases t with
  | nil => rfl
  | cons c t => exact List.takeWhile_cons_of_neg (by simp [h c rfl])

theorem lineEnd?_cons (hlf : c ≠ '\n') (hcr : c ≠ '\r') (s : List Char) :
    lineEnd? (c :: s) = none := by
  unfold lineEnd?
  split
  · next heq => exact absurd (List.cons.inj heq).1 hlf
  · next heq => exact absurd (List.cons.inj heq).1 hcr
  · rfl

theorem exists_of_lineEnd? (h : lineEnd? s = some t) : s = '\n' :: t ∨ s = '\r' :: '\n' :: t := by
  unfold lineEnd? at h
  split at h
  · exact Or.inl (by rw [Option.some.inj h])
  · exact Or.inr (by rw [Option.some.inj h])
  · cases h

theorem length_lt_of_lineEnd? (h : lineEnd? s = some t) : t.length < s.length := by
  rcases exists_of_lineEnd? h with rfl | rfl
  · exact Nat.lt_succ_self _
  · exact Nat.lt_succ_of_lt (Nat.lt_succ_self _)

theorem linesFrom_marks {s : List Char} (hs : s.head? ≠ some quote) (n fuel : Nat) :
    linesFrom quote (fuel + 1) (List.replicate (n + 1) quote ++ s) =
      if 5 < n + 1 then none
      else if 3 ≤ n + 1 then some (List.replicate (n + 1 - 3) quote, s)
      else (linesFrom quote fuel s).map fun (text, t) =>
        (List.replicate (n + 1) quote ++ text, t) := by
  have hrun : (List.replicate n quote ++ s).takeWhile (· == quote) = List.replicate n quote := by
    have hstop : s.takeWhile (· == quote) = [] :=
      takeWhile_eq_of_stop fun c hc => by
        rw [beq_eq_false_iff_ne]
        rintro rfl
        exact hs hc
    rw [List.takeWhile_append_of_pos (by simp), hstop, List.append_nil]
  have hbehind : (List.replicate n quote ++ s).drop n = s := by
    conv => lhs; arg 1; rw [← List.length_replicate (n := n) (a := quote)]
    rw [List.drop_left]
  have hcons : List.replicate (n + 1) quote ++ s = quote :: (List.replicate n quote ++ s) := rfl
  rw [hcons, linesFrom, if_pos rfl, hrun, List.length_replicate, Nat.add_comm 1 n]
  dsimp only
  rw [Nat.add_sub_cancel, hbehind]
  cases linesFrom quote fuel s <;> rfl

theorem Escape.exists_mark (h : Escape s c t) :
    ∃ mark rest, s = mark :: rest ∧ mark ∈ "btnfre\"\\xuU".toList := by
  cases h with
  | short h =>
    refine ⟨_, _, rfl, ?_⟩
    simp only [shortEscapes, List.mem_cons, Prod.mk.injEq, List.not_mem_nil, or_false] at h
    rcases h with ⟨rfl, -⟩ | ⟨rfl, -⟩ | ⟨rfl, -⟩ | ⟨rfl, -⟩ | ⟨rfl, -⟩ | ⟨rfl, -⟩ | ⟨rfl, -⟩ |
      ⟨rfl, -⟩ <;> decide
  | hex h =>
    refine ⟨_, _, rfl, ?_⟩
    simp only [hexEscapes, List.mem_cons, Prod.mk.injEq, List.not_mem_nil, or_false] at h
    rcases h with ⟨rfl, -⟩ | ⟨rfl, -⟩ | ⟨rfl, -⟩ <;> decide

theorem continuedLine?_of_escape (h : Escape s c t) : continuedLine? s = none := by
  obtain ⟨mark, rest, rfl, hmark⟩ := h.exists_mark
  have hfacts : ∀ m ∈ "btnfre\"\\xuU".toList, isSpace m = false ∧ m ≠ '\n' ∧ m ≠ '\r' :=
    forall_mem_of_all (by decide)
  obtain ⟨hspace, hlf, hcr⟩ := hfacts mark hmark
  rw [continuedLine?, skipSpace, List.dropWhile_cons_of_neg (by simp [hspace]),
    lineEnd?_cons hlf hcr]
  rfl

theorem length_skipBlank_le (s : List Char) : (skipBlank s).length ≤ s.length := by
  fun_induction skipBlank s with
  | case1 rest ih => exact Nat.le_succ_of_le ih
  | case2 rest ih => exact Nat.le_succ_of_le ih
  | case3 rest ih => exact Nat.le_succ_of_le ih
  | case4 rest ih => exact Nat.le_succ_of_le (Nat.le_succ_of_le ih)
  | case5 => exact Nat.le_refl _

theorem continuedLine?_of_lineEnd {spaces : List Char}
    (hspaces : ∀ c ∈ spaces, isSpace c = true) (hs : lineEnd? s = some t) :
    continuedLine? (spaces ++ s) = some (skipBlank t) := by
  have hskip : skipSpace (spaces ++ s) = s := by
    rw [skipSpace, List.dropWhile_append_of_pos hspaces]
    rcases exists_of_lineEnd? hs with rfl | rfl <;> rfl
  rw [continuedLine?, hskip, hs]
  rfl

theorem linesFrom_of_inLines (hquote : quote = '"' ∨ quote = '\'')
    (h : InLines quote s text t) (ht : t.head? ≠ some quote) {fuel : Nat}
    (hfuel : s.length < fuel) : linesFrom quote fuel s = some (text, t) := by
  have hlf : '\n' ≠ quote := by rcases hquote with rfl | rfl <;> decide
  have hcr : '\r' ≠ quote := by rcases hquote with rfl | rfl <;> decide
  have hbackslash : '\\' ≠ quote := by rcases hquote with rfl | rfl <;> decide
  induction h generalizing fuel with
  | closes n hn t =>
    obtain ⟨fuel, rfl, hle⟩ := exists_fuel hfuel
    rw [linesFrom_marks ht, if_neg (by omega), if_pos (by omega)]
    rfl
  | @quotes n hn s hs text t h ih =>
    obtain ⟨fuel, rfl, hle⟩ := exists_fuel hfuel
    obtain ⟨n, rfl⟩ := Nat.exists_eq_add_one_of_ne_zero (show n ≠ 0 by omega)
    rw [List.length_append, List.length_replicate] at hfuel
    rw [linesFrom_marks hs, if_neg (by omega), if_neg (by omega), ih ht (by omega)]
    rfl
  | @plain c hc s text t h ih =>
    obtain ⟨fuel, rfl, hle⟩ := exists_fuel hfuel
    obtain ⟨hne, hcontrol, hescape⟩ := hc
    have hclf : c ≠ '\n' := by rintro rfl; simp [isControl] at hcontrol
    have hccr : c ≠ '\r' := by rintro rfl; simp [isControl] at hcontrol
    have hrest := ih ht hle
    rw [linesFrom, if_neg hne, lineEnd?_cons hclf hccr]
    dsimp only
    rw [if_neg (fun hand => hescape hand.2 hand.1), hcontrol, hrest]
    rfl
  | @line s s' hs text t h ih =>
    obtain ⟨fuel, rfl, hle⟩ := exists_fuel hfuel
    have hlength := length_lt_of_lineEnd? hs
    have hrest := ih ht (show s'.length < fuel by omega)
    rcases exists_of_lineEnd? hs with rfl | rfl
    · rw [linesFrom, if_neg hlf, hs]
      dsimp only
      rw [hrest]
      rfl
    · rw [linesFrom, if_neg hcr, hs]
      dsimp only
      rw [hrest]
      rfl
  | @escape hq s c s' hc text t h ih =>
    obtain ⟨fuel, rfl, hle⟩ := exists_fuel hfuel
    have hlength := hc.length_lt
    have hrest := ih ht (Nat.lt_of_lt_of_le hlength (Nat.le_of_succ_le hle))
    rw [linesFrom, if_neg hbackslash, lineEnd?_cons (by decide) (by decide)]
    dsimp only
    rw [if_pos ⟨rfl, hq⟩, continuedLine?_of_escape hc, escape?_of_escape hc]
    simp [hrest]
  | @continued hq spaces s s' hspaces hs text t h ih =>
    obtain ⟨fuel, rfl, hle⟩ := exists_fuel hfuel
    have hlength := length_lt_of_lineEnd? hs
    have hdrop := length_skipBlank_le s'
    rw [List.length_cons, List.length_append] at hfuel
    rw [linesFrom, if_neg hbackslash, lineEnd?_cons (by decide) (by decide)]
    dsimp only
    rw [if_pos ⟨rfl, hq⟩, continuedLine?_of_lineEnd hspaces hs]
    exact ih ht (by omega)

/-! ## All strings -/

inductive Quoted : List Char → List Char → List Char → Prop
  | line {quote : Char} (hquote : quote = '"' ∨ quote = '\'') {s text t : List Char}
      (h : InString quote s text t) : Quoted (quote :: s) text t
  | lines {quote : Char} (hquote : quote = '"' ∨ quote = '\'') {s text t : List Char}
      (h : InLines quote ((lineEnd? s).getD s) text t) :
      Quoted (quote :: quote :: quote :: s) text t

theorem string?_of_inString (hquote : quote = '"' ∨ quote = '\'')
    (h : InString quote s text t) : string? (quote :: s) = some (text, t) := by
  have hbackslash : quote ≠ '\\' := by rcases hquote with rfl | rfl <;> decide
  have hread := stringFrom_of_inString hbackslash h (Nat.lt_succ_self s.length)
  rcases hquote with rfl | rfl
  · exact hread
  · exact hread

/-- Only an empty string has its marks side by side, and it ends there. -/
theorem InString.eq_of_quote {s text t : List Char}
    (h : InString quote (quote :: s) text t) (hquote : quote ≠ '\\') : s = t := by
  cases h with
  | closes => rfl
  | plain hc => exact absurd rfl hc.1
  | escape => exact absurd rfl hquote

theorem anyString?_of_quoted (h : Quoted s text t)
    (ht : ∀ quote, quote = '"' ∨ quote = '\'' → t.head? ≠ some quote) :
    anyString? s = some (text, t) := by
  cases h with
  | @line quote hquote s text t h =>
    have hbackslash : quote ≠ '\\' := by rcases hquote with rfl | rfl <;> decide
    have hread := string?_of_inString hquote h
    -- A third mark would stand behind an empty string.
    have hone : ∀ rest, s ≠ quote :: quote :: rest := by
      rintro rest rfl
      exact ht quote hquote (by rw [← h.eq_of_quote hbackslash]; rfl)
    rw [← hread]
    unfold anyString?
    split
    · next heq =>
      obtain ⟨rfl, hs⟩ := List.cons.inj heq
      exact absurd hs (hone _)
    · next heq =>
      obtain ⟨rfl, hs⟩ := List.cons.inj heq
      exact absurd hs (hone _)
    · rfl
  | @lines quote hquote s text t h =>
    have hread : multiline? quote s = some (text, t) :=
      linesFrom_of_inLines hquote h (ht quote hquote) (Nat.lt_succ_self _)
    rcases hquote with rfl | rfl
    · exact hread
    · exact hread

end Toml
end LiveDoc
