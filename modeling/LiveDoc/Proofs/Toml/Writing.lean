/-
Every text and every list of texts can be written as a value, every natural number that can be
read too, and so can every document made of such values.

Strings are written between double marks on one line.  Of their characters the mark, the
backslash and the control codes are written by escapes, the others as they are.
-/
import Mathlib.Data.Nat.Digits.Defs
import LiveDoc.Proofs.Toml.Documents

namespace LiveDoc
namespace Toml

/-! ## Strings -/

def stringChar (c : Char) : List Char :=
  if c = '"' ∨ c = '\\' then ['\\', c]
  else if isControl c then ['\\', 'x', Nat.digitChar (c.toNat / 16), Nat.digitChar (c.toNat % 16)]
  else [c]

theorem number_two_digits : ∀ n : Fin 128,
    CharRef.number 16 2 [Nat.digitChar (n / 16), Nat.digitChar (n % 16)] = (2, n.val) := by
  decide

theorem lt_of_isControl {c : Char} (h : isControl c = true) : c.toNat < 128 := by
  simp only [isControl, Bool.or_eq_true, Bool.and_eq_true, decide_eq_true_eq, beq_iff_eq] at h
  omega

theorem inString_stringChar {s text t : List Char} (h : InString '"' s text t) (c : Char) :
    InString '"' (stringChar c ++ s) (c :: text) t := by
  unfold stringChar
  split
  · next hmark =>
    refine InString.escape rfl (Escape.short ?_ s) h
    rcases hmark with rfl | rfl <;> decide
  · next hmark =>
    split
    · next hcontrol =>
      have hescape : Escape
          ('x' :: ([Nat.digitChar (c.toNat / 16), Nat.digitChar (c.toNat % 16)] ++ s)) c s := by
        refine Escape.hex List.mem_cons_self ?_ s
        exact number_two_digits ⟨c.toNat, lt_of_isControl hcontrol⟩
      exact InString.escape rfl hescape h
    · next hcontrol =>
      refine InString.plain ⟨fun hc => hmark (Or.inl hc), ?_, fun _ hc => hmark (Or.inr hc)⟩ h
      exact Bool.eq_false_iff.mpr hcontrol

theorem inString_stringText (text t : List Char) :
    InString '"' (text.flatMap stringChar ++ '"' :: t) text t := by
  induction text with
  | nil => exact InString.closes t
  | cons c text ih =>
    rw [List.flatMap_cons, List.append_assoc]
    exact inString_stringChar ih c

/-! ## Numbers -/

theorem digit?_of_isDigit {c : Char} (h : c.isDigit = true) :
    CharRef.digit? 10 c = some (c.toNat - '0'.toNat) := by
  have hrange : '0' ≤ c ∧ c ≤ '9' := by simpa [Char.isDigit, Char.le_def] using h
  have hupper : c.toNat ≤ '9'.toNat := hrange.2
  have hzero : '0'.toNat = 48 := rfl
  have hnine : '9'.toNat = 57 := rfl
  rw [CharRef.digit?, CharRef.hexDigit?, if_pos hrange]
  exact if_pos (decide_eq_true (by omega))

theorem digitsOf_of_isDigit {s : List Char} (hs : s ≠ []) (h : ∀ c ∈ s, c.isDigit = true) :
    digitsOf 10 s = some (s.map fun c => c.toNat - '0'.toNat) := by
  induction s using digitsOf.induct with
  | case1 => exact absurd rfl hs
  | case2 c =>
    rw [digitsOf, digit?_of_isDigit (h c List.mem_cons_self)]
    rfl
  | case3 c rest ih => exact absurd (h '_' (by simp)) (by decide)
  | case4 c rest hne hunderscore ih =>
    have hrest := ih hne fun d hd => h d (List.mem_cons_of_mem c hd)
    rw [digitsOf.eq_4 _ _ _ hne hunderscore, digit?_of_isDigit (h c List.mem_cons_self), hrest]
    rfl

theorem ofDigits_toDigits (n : Nat) :
    ofDigits 10 ((Nat.toDigits 10 n).map fun c => c.toNat - '0'.toNat) = n := by
  have hback := Nat.ofDigitChars_toDigits (n := n) (show 1 < 10 by decide) (Nat.le_refl 10)
  rw [ofDigits, List.foldl_map]
  rw [Nat.ofDigitChars] at hback
  simpa only [Nat.mul_comm] using hback

/-- No number but zero is written with a zero in front. -/
theorem head?_toDigits_ne {n : Nat} (hn : 0 < n) : (Nat.toDigits 10 n).head? ≠ some '0' := by
  induction n using Nat.strongRecOn with
  | ind n ih =>
    by_cases hlt : n < 10
    · have hdigit : ∀ d : Fin 10, 0 < d.val → Nat.digitChar d ≠ '0' := by decide
      rw [Nat.toDigits_of_lt_base hlt]
      exact fun hhead => hdigit ⟨n, hlt⟩ hn (Option.some.inj hhead)
    · have hfirst := ih (n / 10) (by omega) (by omega)
      have hne : Nat.toDigits 10 (n / 10) ≠ [] := Nat.toDigits_ne_nil
      obtain ⟨c, rest, heq⟩ := List.exists_cons_of_ne_nil hne
      rw [Nat.toDigits_of_base_le (by decide) (Nat.le_of_not_lt hlt), heq]
      rw [heq] at hfirst
      exact hfirst

theorem plainDigits_toDigits (n : Nat) : plainDigits (Nat.toDigits 10 n) =
      some ((Nat.toDigits 10 n).map fun c => c.toNat - '0'.toNat) := by
  have hread := digitsOf_of_isDigit (s := Nat.toDigits 10 n) Nat.toDigits_ne_nil fun c hc =>
    Nat.isDigit_of_mem_toDigits (by decide) (Nat.le_refl 10) hc
  rcases Nat.eq_zero_or_pos n with rfl | hpos
  · rfl
  · have hhead := head?_toDigits_ne hpos
    unfold plainDigits
    split
    · next heq => exact absurd (by rw [heq]; rfl) hhead
    · exact hread

theorem integer?_toDigits {n : Nat} (hn : inRange n = true) :
    integer? (Nat.toDigits 10 n) = some (n : Int) := by
  have hdigit : ∀ c ∈ Nat.toDigits 10 n, c.isDigit = true := fun c hc =>
    Nat.isDigit_of_mem_toDigits (by decide) (Nat.le_refl 10) hc
  have hsigned : signed (Nat.toDigits 10 n) = (false, Nat.toDigits 10 n) := by
    obtain ⟨c, rest, heq⟩ := List.exists_cons_of_ne_nil (Nat.toDigits_ne_nil (n := n) (b := 10))
    rw [heq]
    exact signed_of_digit (hdigit c (by rw [heq]; exact List.mem_cons_self)) rest
  have hbase : ∀ mark : Char, mark.isDigit = false →
      ∀ rest, Nat.toDigits 10 n ≠ '0' :: mark :: rest := by
    intro mark hmark rest heq
    have hmem := hdigit mark (by rw [heq]; simp)
    exact Bool.false_ne_true (hmark.symm.trans hmem)
  unfold integer?
  dsimp only
  split
  · next heq => exact absurd heq (hbase 'x' rfl _)
  · next heq => exact absurd heq (hbase 'o' rfl _)
  · next heq => exact absurd heq (hbase 'b' rfl _)
  · rw [hsigned, plainDigits_toDigits]
    show Option.filter inRange (some ((ofDigits 10 _ : Nat) : Int)) = _
    rw [ofDigits_toDigits, Option.filter_some, if_pos hn]

/-! ## Values -/

variable {k d : Nat}

/-- The value can be written in front of any text, with arrays and tables nested at most `d`
deep and keys of at most `k` parts. -/
def Writable (k d : Nat) (v : Value) : Prop := ∀ t, ∃ s, Writes k d s (.value v) t

theorem writes_string (s : String) (k d : Nat) (t : List Char) :
    Writes k d ('"' :: (s.toList.flatMap stringChar ++ '"' :: t)) (.value (.text s)) t := by
  have hwrites := Writes.string (k := k) (Quoted.line (Or.inl rfl) (inString_stringText s.toList t)) d
  rwa [String.ofList_toList] at hwrites

theorem writable_text (s : String) (k d : Nat) : Writable k d (.text s) :=
  fun t => ⟨_, writes_string s k d t⟩

theorem endsBare_of_isDigit {c : Char} (h : c.isDigit = true) : endsBare c = false := by
  have hne : ∀ d : Char, d.isDigit = false → c ≠ d := fun d hd => ne_of_isDigit h hd
  simp [endsBare, isSpace, hne ' ' rfl, hne '\t' rfl, hne '\n' rfl, hne '\r' rfl, hne ',' rfl,
    hne ']' rfl, hne '\x7d' rfl, hne '#' rfl, hne '=' rfl]

theorem writable_integer {n : Nat} (hn : inRange n = true) (k d : Nat) :
    Writable k d (.integer n) := by
  intro t
  have hword : IsWord (Nat.toDigits 10 n) := fun c hc =>
    endsBare_of_isDigit (Nat.isDigit_of_mem_toDigits (by decide) (Nat.le_refl 10) hc)
  exact ⟨_, Writes.word hword (Scalar.integer (integer?_toDigits hn)) d t⟩

theorem exists_items {vs : List Value} (h : ∀ v ∈ vs, Writable k d v) (t : List Char) :
    ∃ s, Writes k d s (.items vs) t := by
  induction vs with
  | nil => exact ⟨_, Writes.noItem (Gap.none _) d⟩
  | cons v vs ih =>
    obtain ⟨s, hs⟩ := ih fun u hu => h u (List.mem_cons_of_mem v hu)
    obtain ⟨s', hs'⟩ := h v List.mem_cons_self (',' :: s)
    exact ⟨s', Writes.item (Gap.none _) hs' (Gap.none _) hs⟩

theorem writable_array {vs : List Value} (h : ∀ v ∈ vs, Writable k d v) :
    Writable k (d + 1) (.array vs) := by
  intro t
  obtain ⟨s, hs⟩ := exists_items h t
  exact ⟨_, Writes.array hs⟩

/-! ## Documents -/

theorem exists_keyParts {key : List String} (h : key ≠ []) (t : List Char) :
    ∃ s, KeyParts s key t := by
  induction key with
  | nil => exact absurd rfl h
  | cons part key ih =>
    have hpart : ∀ t, ∃ s, KeyPart s part t := by
      intro t
      have hquoted := KeyPart.quoted (Or.inl rfl) (inString_stringText part.toList t)
      rw [String.ofList_toList] at hquoted
      exact ⟨_, hquoted⟩
    by_cases hkey : key = []
    · obtain ⟨s, hs⟩ := hpart t
      exact ⟨s, hkey ▸ KeyParts.last hs (Spaces.refl t)⟩
    · obtain ⟨u, hu⟩ := ih hkey
      obtain ⟨s, hs⟩ := hpart ('.' :: u)
      exact ⟨s, KeyParts.dotted hs (Spaces.refl _) (Spaces.refl u) hu⟩

theorem exists_key {key : List String} (h : key ≠ []) (hk : key.length ≤ k) (t : List Char) :
    ∃ s, Key k s key t := by
  obtain ⟨s, hs⟩ := exists_keyParts h t
  exact ⟨s, hs, hk⟩

theorem restOfLine_lf (t : List Char) : RestOfLine ('\n' :: t) t :=
  ⟨_, Spaces.refl _, Or.inl (Or.inl rfl)⟩

def Line.Writable (k d : Nat) : Line → Prop
  | .entry key v => key ≠ [] ∧ key.length ≤ k ∧ Toml.Writable k d v
  | .header path => path ≠ [] ∧ path.length ≤ k
  | .element path => path ≠ [] ∧ path.length ≤ k

theorem exists_spells {lines : List Line} (h : ∀ line ∈ lines, line.Writable k d) :
    ∃ s, Spells k d lines s := by
  induction lines with
  | nil => exact ⟨[], Spells.done⟩
  | cons line lines ih =>
    obtain ⟨t, ht⟩ := ih fun l hl => h l (List.mem_cons_of_mem line hl)
    cases line with
    | entry key v =>
      obtain ⟨hkey, hk, hv⟩ := h _ List.mem_cons_self
      obtain ⟨s₁, hs₁⟩ := hv ('\n' :: t)
      obtain ⟨s, hs⟩ := exists_key hkey hk ('=' :: s₁)
      exact ⟨s, Spells.entry (Spaces.refl s) hs (Spaces.refl s₁) hs₁ (restOfLine_lf t) ht⟩
    | header path =>
      obtain ⟨hpath, hk⟩ := h _ List.mem_cons_self
      obtain ⟨s, hs⟩ := exists_key hpath hk (']' :: '\n' :: t)
      exact ⟨'[' :: s, Spells.header (Spaces.refl _) (Spaces.refl s) hs (restOfLine_lf t) ht⟩
    | element path =>
      obtain ⟨hpath, hk⟩ := h _ List.mem_cons_self
      obtain ⟨s, hs⟩ := exists_key hpath hk (']' :: ']' :: '\n' :: t)
      exact ⟨'[' :: '[' :: s,
        Spells.element (Spaces.refl _) (Spaces.refl s) hs (restOfLine_lf t) ht⟩

end Toml
end LiveDoc
