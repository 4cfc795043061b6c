/-
Values without quotation marks.

A word is read as an integer, as a number with a fraction, or as a date.  No word is two of
these: an integer is digits behind its sign, the others have a character in them that is no
digit, and each has its own.  So the order in which the reader tries them does not matter.
-/
import LiveDoc.Proofs.Toml.Strings

namespace LiveDoc
namespace Toml

/-! ## Digits -/

/-- A number starts with a digit, and has nothing in it but digits and underscores. -/
theorem digits_of_digitsOf {base : Nat} {s : List Char} {digits : List Nat}
    (h : digitsOf base s = some digits) :
    (∃ c rest, s = c :: rest ∧ (CharRef.digit? base c).isSome = true) ∧
      ∀ c ∈ s, c = '_' ∨ (CharRef.digit? base c).isSome = true := by
  induction s using digitsOf.induct generalizing digits with
  | case1 => cases h
  | case2 c =>
    obtain ⟨d, hd, -⟩ := Option.map_eq_some_iff.mp h
    have hc : (CharRef.digit? base c).isSome = true := by rw [hd]; rfl
    exact ⟨⟨c, [], rfl, hc⟩, fun e he => Or.inr (List.mem_singleton.mp he ▸ hc)⟩
  | case3 c rest ih =>
    simp only [digitsOf, Option.bind_eq_bind, Option.bind_eq_some_iff] at h
    obtain ⟨d, hd, more, hmore, -⟩ := h
    have hc : (CharRef.digit? base c).isSome = true := by rw [hd]; rfl
    refine ⟨⟨c, _, rfl, hc⟩, fun e he => ?_⟩
    rcases List.mem_cons.mp he with rfl | he
    · exact Or.inr hc
    · rcases List.mem_cons.mp he with rfl | he
      · exact Or.inl rfl
      · exact (ih hmore).2 e he
  | case4 c rest hne hunderscore ih =>
    rw [digitsOf.eq_4 _ _ _ hne hunderscore] at h
    simp only [Option.bind_eq_bind, Option.bind_eq_some_iff] at h
    obtain ⟨d, hd, more, hmore, -⟩ := h
    have hc : (CharRef.digit? base c).isSome = true := by rw [hd]; rfl
    refine ⟨⟨c, _, rfl, hc⟩, fun e he => ?_⟩
    rcases List.mem_cons.mp he with rfl | he
    · exact Or.inr hc
    · exact (ih hmore).2 e he

theorem isDigit_of_digit? {c : Char} (h : (CharRef.digit? 10 c).isSome = true) :
    c.isDigit = true := by
  obtain ⟨d, hd⟩ := Option.isSome_iff_exists.mp h
  obtain ⟨hhex, hlt⟩ := Option.filter_eq_some_iff.mp hd
  have hlt : d < 10 := of_decide_eq_true hlt
  unfold CharRef.hexDigit? at hhex
  split at hhex
  · next hrange => simpa [Char.isDigit, Char.le_def] using hrange
  · split at hhex
    · rw [← Option.some.inj hhex] at hlt
      omega
    · split at hhex
      · rw [← Option.some.inj hhex] at hlt
        omega
      · cases hhex

theorem ne_of_isDigit {c d : Char} (hc : c.isDigit = true) (hd : d.isDigit = false) : c ≠ d :=
  ne_of_apply_ne Char.isDigit (by rw [hc, hd]; decide)

def IsDigits (s : List Char) : Prop :=
  (∃ c rest, s = c :: rest ∧ c.isDigit = true) ∧ ∀ c ∈ s, c = '_' ∨ c.isDigit = true

theorem isDigits_of_plainDigits {s : List Char} (h : (plainDigits s).isSome = true) :
    IsDigits s := by
  obtain ⟨digits, h⟩ := Option.isSome_iff_exists.mp h
  unfold plainDigits at h
  split at h
  · cases h
  · obtain ⟨⟨c, rest, rfl, hc⟩, hall⟩ := digits_of_digitsOf h
    exact ⟨⟨c, rest, rfl, isDigit_of_digit? hc⟩, fun e he => (hall e he).imp id isDigit_of_digit?⟩

/-! ## Numbers -/

theorem integer?_cases {w : List Char} (h : (integer? w).isSome = true) :
    (∃ mark rest, w = '0' :: mark :: rest ∧ mark ∈ ['x', 'o', 'b']) ∨ IsDigits (signed w).2 := by
  obtain ⟨n, h⟩ := Option.isSome_iff_exists.mp h
  unfold integer? at h
  dsimp only at h
  obtain ⟨h, -⟩ := Option.filter_eq_some_iff.mp h
  split at h
  · exact Or.inl ⟨_, _, rfl, by decide⟩
  · exact Or.inl ⟨_, _, rfl, by decide⟩
  · exact Or.inl ⟨_, _, rfl, by decide⟩
  · obtain ⟨digits, hdigits, -⟩ := Option.map_eq_some_iff.mp h
    exact Or.inr (isDigits_of_plainDigits (by rw [hdigits]; rfl))

def isWholeChar (c : Char) : Bool := c != '.' && c != 'e' && c != 'E'

theorem drop_takeWhile_length (q : Char → Bool) (s : List Char) :
    s.drop (s.takeWhile q).length = s.dropWhile q := by
  conv => lhs; arg 2; rw [← List.takeWhile_append_dropWhile (p := q) (l := s)]
  rw [List.drop_left]

theorem isFloat_cases {w : List Char} (h : isFloat w = true) :
    ((signed w).2 = "inf".toList ∨ (signed w).2 = "nan".toList) ∨
      IsDigits ((signed w).2.takeWhile isWholeChar) ∧
        ∃ c ∈ (signed w).2, isWholeChar c = false := by
  unfold isFloat at h
  dsimp only at h
  split at h
  · next hname => exact Or.inl hname
  · right
    simp only [Bool.and_eq_true] at h
    obtain ⟨⟨⟨⟨hwhole, -⟩, -⟩, hmore⟩, -⟩ := h
    refine ⟨isDigits_of_plainDigits hwhole, ?_⟩
    have hbehind := drop_takeWhile_length isWholeChar (signed w).2
    cases hs : (signed w).2.dropWhile isWholeChar with
    | nil =>
      -- Without anything behind the whole part there is neither a fraction nor an exponent.
      rw [hs] at hbehind
      unfold isWholeChar at hbehind
      rw [hbehind] at hmore
      cases hmore
    | cons c rest =>
      refine ⟨c, ?_, ?_⟩
      · exact (List.dropWhile_suffix isWholeChar).subset (hs ▸ List.mem_cons_self)
      · have hstop := List.head_dropWhile_not isWholeChar (l := (signed w).2) (by simp [hs])
        simpa [hs] using hstop

theorem isWholeChar_of_digit {c : Char} (h : c = '_' ∨ c.isDigit = true) :
    isWholeChar c = true := by
  rcases h with rfl | h
  · rfl
  · simp [isWholeChar, ne_of_isDigit h (show '.'.isDigit = false from rfl),
      ne_of_isDigit h (show 'e'.isDigit = false from rfl),
      ne_of_isDigit h (show 'E'.isDigit = false from rfl)]

theorem integer?_of_isFloat {w : List Char} (h : isFloat w = true) : integer? w = none := by
  rw [← Option.not_isSome_iff_eq_none]
  intro hsome
  rcases integer?_cases hsome with ⟨mark, rest, rfl, hmark⟩ | ⟨⟨c, rest, hs, hc⟩, hall⟩
  · have hmark' : isWholeChar mark = true ∧ ¬ (mark = '_' ∨ mark.isDigit = true) := by
      simp only [List.mem_cons, List.not_mem_nil, or_false] at hmark
      rcases hmark with rfl | rfl | rfl <;> decide
    rcases isFloat_cases h with (hname | hname) | ⟨hdigits, -⟩
    · exact absurd (List.cons.inj hname).1 (by decide)
    · exact absurd (List.cons.inj hname).1 (by decide)
    · refine hmark'.2 (hdigits.2 mark ?_)
      show mark ∈ ('0' :: mark :: rest).takeWhile isWholeChar
      rw [List.takeWhile_cons_of_pos rfl, List.takeWhile_cons_of_pos hmark'.1]
      exact List.mem_cons_of_mem _ List.mem_cons_self
  · rcases isFloat_cases h with (hname | hname) | ⟨-, d, hd, hend⟩
    · rw [hname] at hs
      rw [← (List.cons.inj hs).1] at hc
      exact absurd hc (by decide)
    · rw [hname] at hs
      rw [← (List.cons.inj hs).1] at hc
      exact absurd hc (by decide)
    · exact Bool.false_ne_true (hend.symm.trans (isWholeChar_of_digit (hall d hd)))

/-! ## Dates -/

theorem exactDigits?_eq_some_iff {n v : Nat} {s t : List Char} : exactDigits? n s = some (v, t) ↔
      ∃ digits, s = digits ++ t ∧ digits.length = n ∧ (∀ c ∈ digits, c.isDigit = true) ∧
        v = ofDigits 10 (digits.map fun c => c.toNat - '0'.toNat) := by
  unfold exactDigits?
  dsimp only
  constructor
  · intro h
    split at h
    · next hdigits =>
      obtain ⟨rfl, rfl⟩ := Prod.mk.inj (Option.some.inj h)
      exact ⟨s.take n, (List.take_append_drop n s).symm, hdigits.1, List.all_eq_true.mp hdigits.2,
        rfl⟩
    · cases h
  · rintro ⟨digits, rfl, rfl, hdigits, rfl⟩
    rw [List.take_left, List.drop_left, if_pos ⟨rfl, List.all_eq_true.mpr hdigits⟩]

theorem char?_eq_some_iff {c : Char} {s t : List Char} : char? c s = some t ↔ s = c :: t := by
  cases s with
  | nil => exact ⟨nofun, nofun⟩
  | cons d s =>
    show (if d = c then some s else none) = some t ↔ _
    by_cases h : d = c <;> simp [h]

theorem exactDigits?_append {n v : Nat} {s t : List Char} (h : exactDigits? n s = some (v, t))
    (u : List Char) : exactDigits? n (s ++ u) = some (v, t ++ u) := by
  obtain ⟨digits, rfl, hlength, hdigits, hv⟩ := exactDigits?_eq_some_iff.mp h
  exact exactDigits?_eq_some_iff.mpr ⟨digits, List.append_assoc _ _ _, hlength, hdigits, hv⟩

theorem char?_append {c : Char} {s t : List Char} (h : char? c s = some t) (u : List Char) :
    char? c (s ++ u) = some (t ++ u) := by
  rw [char?_eq_some_iff.mp h]
  exact char?_eq_some_iff.mpr rfl

theorem date?_append {s t : List Char} (h : date? s = some t) (u : List Char) :
    date? (s ++ u) = some (t ++ u) := by
  simp only [date?, Option.bind_eq_bind, Option.bind_eq_some_iff] at h
  obtain ⟨⟨year, s₁⟩, hyear, s₂, hfirst, ⟨month, s₃⟩, hmonth, s₄, hsecond, ⟨day, s₅⟩, hday, h⟩ := h
  simp only [date?, exactDigits?_append hyear, char?_append hfirst, exactDigits?_append hmonth,
    char?_append hsecond, exactDigits?_append hday, Option.bind_eq_bind, Option.bind_some]
  split at h
  · next hrange =>
    obtain rfl := Option.some.inj h
    exact if_pos hrange
  · cases h

/-- A date or a time of day starts with at least two digits, and behind its first digits stands
a mark that no number has there. -/
theorem isDate_cases {w : List Char} (h : isDate w = true) :
    ∃ first second digits mark rest, w = first :: second :: (digits ++ mark :: rest) ∧
      (∀ c ∈ first :: second :: digits, c.isDigit = true) ∧ (mark = '-' ∨ mark = ':') := by
  have hcases : (date? w).isSome = true ∨ (time? w).isSome = true := by
    unfold isDate at h
    split at h
    · next heq => exact Or.inl (by rw [heq]; rfl)
    · next heq => exact Or.inl (by rw [heq]; rfl)
    · right
      rw [beq_iff_eq.mp h]
      rfl
  have hstart : ∃ n v mark rest, 2 ≤ n ∧ exactDigits? n w = some (v, mark :: rest) ∧
      (mark = '-' ∨ mark = ':') := by
    rcases hcases with hdate | htime
    · obtain ⟨t, hdate⟩ := Option.isSome_iff_exists.mp hdate
      simp only [date?, Option.bind_eq_bind, Option.bind_eq_some_iff] at hdate
      obtain ⟨⟨year, s⟩, hyear, s', hmark, -⟩ := hdate
      exact ⟨4, year, '-', s', by decide, char?_eq_some_iff.mp hmark ▸ hyear, Or.inl rfl⟩
    · obtain ⟨t, htime⟩ := Option.isSome_iff_exists.mp htime
      simp only [time?, hours?, Option.bind_eq_bind, Option.bind_eq_some_iff] at htime
      obtain ⟨s, ⟨⟨hour, s₁⟩, hhour, s₂, hmark, -⟩, -⟩ := htime
      exact ⟨2, hour, ':', s₂, by decide, char?_eq_some_iff.mp hmark ▸ hhour, Or.inr rfl⟩
  obtain ⟨n, v, mark, rest, hn, hdigits, hmark⟩ := hstart
  obtain ⟨digits, rfl, rfl, hall, -⟩ := exactDigits?_eq_some_iff.mp hdigits
  match digits, hn with
  | first :: second :: digits, _ => exact ⟨first, second, digits, mark, rest, rfl, hall, hmark⟩

theorem signed_of_digit {c : Char} (hc : c.isDigit = true) (rest : List Char) :
    signed (c :: rest) = (false, c :: rest) := by
  unfold signed
  split
  · next heq => exact absurd (List.cons.inj heq).1 (ne_of_isDigit hc rfl)
  · next heq => exact absurd (List.cons.inj heq).1 (ne_of_isDigit hc rfl)
  · rfl

theorem integer?_of_isDate {w : List Char} (h : isDate w = true) : integer? w = none := by
  obtain ⟨first, second, digits, mark, rest, rfl, hdigits, hmark⟩ := isDate_cases h
  rw [← Option.not_isSome_iff_eq_none]
  intro hsome
  rcases integer?_cases hsome with ⟨base, rest', heq, hbase⟩ | ⟨-, hall⟩
  · have hsecond := hdigits second (by simp)
    obtain rfl := (List.cons.inj (List.cons.inj heq).2).1
    simp only [List.mem_cons, List.not_mem_nil, or_false] at hbase
    rcases hbase with rfl | rfl | rfl <;> exact absurd hsecond (by decide)
  · rw [signed_of_digit (hdigits first List.mem_cons_self)] at hall
    have hmem : mark ∈ first :: second :: (digits ++ mark :: rest) := by simp
    rcases hmark with rfl | rfl <;> exact absurd (hall _ hmem) (by decide)

theorem isFloat_of_isDate {w : List Char} (h : isDate w = true) : isFloat w = false := by
  obtain ⟨first, second, digits, mark, rest, rfl, hdigits, hmark⟩ := isDate_cases h
  rw [Bool.eq_false_iff]
  intro hfloat
  have hfirst := hdigits first List.mem_cons_self
  rcases isFloat_cases hfloat with (hname | hname) | ⟨⟨-, hall⟩, -⟩
  · rw [signed_of_digit hfirst] at hname
    rw [(List.cons.inj hname).1] at hfirst
    exact absurd hfirst (by decide)
  · rw [signed_of_digit hfirst] at hname
    rw [(List.cons.inj hname).1] at hfirst
    exact absurd hfirst (by decide)
  · have hwhole : isWholeChar mark = true := by rcases hmark with rfl | rfl <;> rfl
    rw [signed_of_digit hfirst] at hall
    have hmem : mark ∈ (first :: second :: (digits ++ mark :: rest)).takeWhile isWholeChar := by
      have hcat : first :: second :: (digits ++ mark :: rest) =
          (first :: second :: digits) ++ mark :: rest := rfl
      rw [hcat,
        List.takeWhile_append_of_pos fun c hc => isWholeChar_of_digit (Or.inr (hdigits c hc)),
        List.takeWhile_cons_of_pos hwhole]
      simp
    rcases hmark with rfl | rfl <;> exact absurd (hall _ hmem) (by decide)

/-! ## Words -/

inductive Scalar : List Char → Value → Prop
  | boolean (b : Bool) : Scalar (toString b).toList (.boolean b)
  | integer {w : List Char} {n : Int} (h : integer? w = some n) : Scalar w (.integer n)
  | float {w : List Char} (h : isFloat w = true) : Scalar w .float
  | date {w : List Char} (h : isDate w = true) : Scalar w .date

def StartsScalar (c : Char) : Prop := c.isAlphanum = true ∨ c = '+' ∨ c = '-'

theorem startsScalar_of_signed {s : List Char} {c : Char} {rest : List Char}
    (h : (signed s).2 = c :: rest) (hc : c.isAlphanum = true) :
    ∃ d s', s = d :: s' ∧ StartsScalar d := by
  unfold signed at h
  split at h
  · exact ⟨_, _, rfl, Or.inr (Or.inl rfl)⟩
  · exact ⟨_, _, rfl, Or.inr (Or.inr rfl)⟩
  · exact ⟨c, rest, h, Or.inl hc⟩

theorem isAlphanum_of_isDigit {c : Char} (h : c.isDigit = true) : c.isAlphanum = true := by
  simp [Char.isAlphanum, h]

theorem Scalar.head {w : List Char} {v : Value} (h : Scalar w v) :
    ∃ c w', w = c :: w' ∧ StartsScalar c := by
  cases h with
  | boolean b => cases b <;> exact ⟨_, _, rfl, Or.inl (by decide)⟩
  | integer h =>
    rcases integer?_cases (by rw [h]; rfl) with ⟨mark, rest, rfl, -⟩ | ⟨⟨c, rest, hs, hc⟩, -⟩
    · exact ⟨_, _, rfl, Or.inl (by decide)⟩
    · exact startsScalar_of_signed hs (isAlphanum_of_isDigit hc)
  | float h =>
    rcases isFloat_cases h with (hname | hname) | ⟨⟨⟨c, rest, hs, hc⟩, -⟩, -⟩
    · exact startsScalar_of_signed hname (by decide)
    · exact startsScalar_of_signed hname (by decide)
    · obtain ⟨rest', hs'⟩ : ∃ rest', (signed w).2 = c :: rest' := by
        obtain ⟨t, ht⟩ := List.takeWhile_prefix (l := (signed w).2) isWholeChar
        exact ⟨rest ++ t, by rw [← ht, hs]; rfl⟩
      exact startsScalar_of_signed hs' (isAlphanum_of_isDigit hc)
  | date h =>
    obtain ⟨first, second, digits, mark, rest, rfl, hdigits, -⟩ := isDate_cases h
    exact ⟨_, _, rfl, Or.inl (isAlphanum_of_isDigit (hdigits first List.mem_cons_self))⟩

theorem bareValue?_of_ne {s w t : List Char} (hs : bareText s = (w, t)) (htrue : w ≠ "true".toList)
    (hfalse : w ≠ "false".toList) :
    bareValue? s =
      match integer? w with
      | some n => some (.integer n, t)
      | none =>
        if isFloat w then some (.float, t) else if isDate w then some (.date, t) else none := by
  unfold bareValue?
  rw [hs]
  exact (if_neg htrue).trans (if_neg hfalse)

theorem bareValue?_of_scalar {s w t : List Char} {v : Value} (hs : bareText s = (w, t))
    (h : Scalar w v) : bareValue? s = some (v, t) := by
  cases h with
  | boolean b =>
    unfold bareValue?
    rw [hs]
    cases b <;> rfl
  | integer h =>
    rw [bareValue?_of_ne hs (by rintro rfl; cases h) (by rintro rfl; cases h), h]
  | float h =>
    rw [bareValue?_of_ne hs (by rintro rfl; cases h) (by rintro rfl; cases h),
      integer?_of_isFloat h]
    exact if_pos h
  | date h =>
    rw [bareValue?_of_ne hs (by rintro rfl; cases h) (by rintro rfl; cases h),
      integer?_of_isDate h, isFloat_of_isDate h]
    exact if_pos h

end Toml
end LiveDoc
