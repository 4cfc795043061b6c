/-
How values are written, and that they are read back.

`Writes k d s p t` says that the phrase `p` is written at the start of `s`, that `t` stands behind
it, that arrays and tables are nested at most `d` deep and that keys have at most `k` parts.  A
phrase is a value or what is left of an array or of a table behind its opening bracket, so that
one relation describes all three, and `reads_of_writes` is one induction over it.

The reader has fuel for each bracket and each item.  It takes no more of it than it reads
characters, which is how much the statement asks for.
-/
import LiveDoc.Proofs.Toml.Keys
import LiveDoc.Proofs.Toml.Scalars
import LiveDoc.Proofs.Toml.Tables

namespace LiveDoc
namespace Toml

variable {k d : Nat} {s t : List Char}

/-! ## Where a value ends -/

def stops : List Char := ['\n', '\r', '#', ',', ']', '\x7d']

/-- The spaces behind a value end where it is over. -/
def Stops (t : List Char) : Prop := ∀ c ∈ (skipSpace t).head?, c ∈ stops

theorem eq_false_of_mem_stops :
    ∀ c ∈ stops, isSpace c = false ∧ c.isDigit = false ∧ endsBare c = true :=
  forall_mem_of_all (by decide)

theorem stops_cons {c : Char} (hc : c ∈ stops) (t : List Char) : Stops (c :: t) := by
  have hskip : skipSpace (c :: t) = c :: t := skipSpace_of_not fun d hd => by
    rw [← Option.some.inj hd]
    exact (eq_false_of_mem_stops c hc).1
  intro d hd
  rw [hskip] at hd
  exact Option.some.inj hd ▸ hc

theorem stops_of_lineEnd (h : lineEnd? s = some t) : Stops s := by
  rcases exists_of_lineEnd? h with rfl | rfl
  · exact stops_cons (by decide) _
  · exact stops_cons (by decide) _

theorem stops_of_gap (h : Gap s t) (ht : Stops t) : Stops s := by
  induction h with
  | none => exact ht
  | @space c hc s t h ih =>
    intro d hd
    rw [skipSpace, List.dropWhile_cons_of_pos hc] at hd
    exact ih ht d hd
  | line hs => exact stops_of_lineEnd hs
  | comment => exact stops_cons (by decide) _

theorem stops_of_restOfLine (h : RestOfLine s t) : Stops s := by
  obtain ⟨s', ⟨spaces, hspaces, rfl⟩, hend⟩ := h
  have hstop : Stops s' := by
    rcases hend with (hend | ⟨rfl, -⟩) | ⟨comment, s'', rfl, -⟩
    · exact stops_of_lineEnd hend
    · nofun
    · exact stops_cons (by decide) _
  intro c hc
  rw [skipSpace, List.dropWhile_append_of_pos hspaces] at hc
  exact hstop c hc

theorem endsBare_of_isSpace {c : Char} (h : isSpace c = true) : endsBare c = true := by
  simp [endsBare, h]

theorem Stops.endsBare {t : List Char} (h : Stops t) : ∀ c ∈ t.head?, endsBare c = true := by
  intro c hc
  obtain ⟨t, rfl⟩ := List.head?_eq_some_iff.mp hc
  by_cases hspace : isSpace c = true
  · exact endsBare_of_isSpace hspace
  · have hmem := h c (by rw [skipSpace, List.dropWhile_cons_of_neg hspace]; rfl)
    exact (eq_false_of_mem_stops c hmem).2.2

/-- No digit follows a value behind a space. -/
theorem Stops.not_digit {c : Char} {t : List Char} (h : Stops (' ' :: c :: t)) :
    c.isDigit = false := by
  have hskip : skipSpace (' ' :: c :: t) = skipSpace (c :: t) := rfl
  by_cases hspace : isSpace c = true
  · rcases eq_of_isSpace hspace with rfl | rfl <;> rfl
  · have hmem := h c (by rw [hskip, skipSpace, List.dropWhile_cons_of_neg hspace]; rfl)
    exact (eq_false_of_mem_stops c hmem).2.1

/-! ## Words -/

def IsWord (w : List Char) : Prop := ∀ c ∈ w, endsBare c = false

theorem takeWhile_word {w t : List Char} (hw : IsWord w) (ht : ∀ c ∈ t.head?, endsBare c = true) :
    (w ++ t).takeWhile (fun c => !endsBare c) = w := by
  rw [List.takeWhile_append_of_pos fun c hc => by rw [hw c hc]; rfl,
    takeWhile_eq_of_stop fun c hc => by rw [ht c hc]; rfl, List.append_nil]

theorem bareText_of_word {w t : List Char} (hw : IsWord w) (ht : Stops t) :
    bareText (w ++ t) = (w, t) := by
  unfold bareText
  rw [takeWhile_word hw ht.endsBare]
  dsimp only
  rw [List.drop_left]
  split
  · next c rest =>
    rw [ht.not_digit]
    rfl
  · rfl

structure IsMoment (date time : List Char) : Prop where
  date : date? date = some []
  time : (time? time).any isOffset = true

theorem exists_digit_of_time? (h : time? s = some t) :
    ∃ c rest, s = c :: rest ∧ c.isDigit = true := by
  simp only [time?, hours?, Option.bind_eq_bind, Option.bind_eq_some_iff] at h
  obtain ⟨-, ⟨⟨hour, s'⟩, hhour, -⟩, -⟩ := h
  obtain ⟨digits, rfl, hlength, hdigits, -⟩ := exactDigits?_eq_some_iff.mp hhour
  cases digits with
  | nil => cases hlength
  | cons c digits => exact ⟨c, digits ++ s', rfl, hdigits c List.mem_cons_self⟩

theorem IsMoment.isDate {date time : List Char} (h : IsMoment date time) :
    isDate (date ++ ' ' :: time) = true := by
  have hdate := date?_append h.date (' ' :: time)
  rw [Toml.isDate, hdate]
  exact h.time

theorem IsMoment.head {date time : List Char} (h : IsMoment date time) (t : List Char) :
    ∃ c s, date ++ ' ' :: (time ++ t) = c :: s ∧ StartsScalar c := by
  obtain ⟨first, second, digits, mark, rest, heq, hdigits, -⟩ := isDate_cases h.isDate
  have hfirst := hdigits first List.mem_cons_self
  refine ⟨first, second :: (digits ++ mark :: rest) ++ t, ?_,
    Or.inl (isAlphanum_of_isDigit hfirst)⟩
  rw [← List.cons_append, ← List.append_assoc, heq]
  rfl

theorem bareText_of_moment {date time t : List Char} (h : IsMoment date time) (hdate : IsWord date)
    (htime : IsWord time) (ht : Stops t) :
    bareText (date ++ ' ' :: (time ++ t)) = (date ++ ' ' :: time, t) := by
  obtain ⟨u, hu⟩ : ∃ u, time? time = some u := by
    have hany := h.time
    cases hu : time? time with
    | none =>
      rw [hu] at hany
      cases hany
    | some u => exact ⟨u, rfl⟩
  obtain ⟨c, rest, rfl, hc⟩ := exists_digit_of_time? hu
  have hword : (date ++ ' ' :: (c :: rest ++ t)).takeWhile (fun c => !endsBare c) = date :=
    takeWhile_word hdate fun d hd => by rw [← Option.some.inj hd]; rfl
  have hbehind : (c :: rest ++ t).takeWhile (fun c => !endsBare c) = c :: rest :=
    takeWhile_word htime ht.endsBare
  unfold bareText
  rw [hword]
  dsimp only
  rw [List.drop_left]
  show (if c.isDigit && date? date == some [] then
      (date ++ ' ' :: (c :: rest ++ t).takeWhile (fun c => !endsBare c),
        (' ' :: (c :: rest ++ t)).drop
          (((c :: rest ++ t).takeWhile (fun c => !endsBare c)).length + 1))
    else (date, ' ' :: (c :: rest ++ t))) = _
  rw [hbehind, hc, h.date, List.drop_succ_cons, List.drop_left]
  rfl

/-! ## Forms of writing -/

/-- What can stand in a text: a value, or the rest of an array or of a table behind its opening
bracket. -/
inductive Phrase where
  | value (v : Value)
  | items (vs : List Value)
  | pairs (ps : Pairs)

inductive Writes (k : Nat) : Nat → List Char → Phrase → List Char → Prop
  | string {s text t : List Char} (h : Quoted s text t) (d : Nat) :
      Writes k d s (.value (.text (String.ofList text))) t
  | word {w : List Char} {v : Value} (hw : IsWord w) (hv : Scalar w v) (d : Nat) (t : List Char) :
      Writes k d (w ++ t) (.value v) t
  | moment {date time : List Char} (h : IsMoment date time) (hdate : IsWord date)
      (htime : IsWord time) (d : Nat) (t : List Char) :
      Writes k d (date ++ ' ' :: (time ++ t)) (.value .date) t
  | array {d : Nat} {s : List Char} {vs : List Value} {t : List Char}
      (h : Writes k d s (.items vs) t) : Writes k (d + 1) ('[' :: s) (.value (.array vs)) t
  | table {d : Nat} {s : List Char} {ps : Pairs} {t : List Char} (h : Writes k d s (.pairs ps) t)
      (hps : Distinct ps) :
      Writes k (d + 1) ('\x7b' :: s) (.value (.table .inline (entered ps))) t
  | noItem {s t : List Char} (hs : Gap s (']' :: t)) (d : Nat) : Writes k d s (.items []) t
  | lastItem {d : Nat} {s s₁ s₂ t : List Char} {v : Value} (hs : Gap s s₁)
      (hv : Writes k d s₁ (.value v) s₂) (hs' : Gap s₂ (']' :: t)) : Writes k d s (.items [v]) t
  | item {d : Nat} {s s₁ s₂ s₃ t : List Char} {v : Value} {vs : List Value} (hs : Gap s s₁)
      (hv : Writes k d s₁ (.value v) s₂) (hs' : Gap s₂ (',' :: s₃))
      (h : Writes k d s₃ (.items vs) t) : Writes k d s (.items (v :: vs)) t
  | noPair {s t : List Char} (hs : Gap s ('\x7d' :: t)) (d : Nat) : Writes k d s (.pairs []) t
  | lastPair {d : Nat} {s s₁ s₂ s₃ s₄ t : List Char} {key : List String} {v : Value}
      (hs : Gap s s₁) (hkey : Key k s₁ key ('=' :: s₂)) (hs' : Spaces s₂ s₃)
      (hv : Writes k d s₃ (.value v) s₄) (hs'' : Gap s₄ ('\x7d' :: t)) :
      Writes k d s (.pairs [(key, v)]) t
  | pair {d : Nat} {s s₁ s₂ s₃ s₄ s₅ t : List Char} {key : List String} {v : Value} {ps : Pairs}
      (hs : Gap s s₁) (hkey : Key k s₁ key ('=' :: s₂)) (hs' : Spaces s₂ s₃)
      (hv : Writes k d s₃ (.value v) s₄) (hs'' : Gap s₄ (',' :: s₅))
      (h : Writes k d s₅ (.pairs ps) t) : Writes k d s (.pairs ((key, v) :: ps)) t

theorem InLines.length_lt {quote : Char} {s text t : List Char} (h : InLines quote s text t) :
    t.length < s.length := by
  induction h with
  | closes n =>
    rw [List.length_append, List.length_replicate]
    omega
  | quotes n hn hs h ih =>
    rw [List.length_append]
    omega
  | plain hc h ih => exact Nat.lt_succ_of_lt ih
  | line hs h ih => exact Nat.lt_trans ih (length_lt_of_lineEnd? hs)
  | escape hquote hc h ih => exact Nat.lt_succ_of_lt (Nat.lt_trans ih hc.length_lt)
  | @continued hquote spaces s s' hspaces hs text t h ih =>
    have hlength := length_lt_of_lineEnd? hs
    have hdrop := length_skipBlank_le s'
    rw [List.length_cons, List.length_append]
    omega

theorem Quoted.head {s text t : List Char} (h : Quoted s text t) :
    ∃ quote s', s = quote :: s' ∧ (quote = '"' ∨ quote = '\'') := by
  cases h with
  | line hquote => exact ⟨_, _, rfl, hquote⟩
  | lines hquote => exact ⟨_, _, rfl, hquote⟩

theorem Quoted.length_lt {s text t : List Char} (h : Quoted s text t) : t.length < s.length := by
  cases h with
  | line hquote h => exact Nat.lt_succ_of_lt h.length_lt
  | @lines quote hquote s text t h =>
    have hlength := h.length_lt
    have hopening : ((lineEnd? s).getD s).length ≤ s.length := by
      cases hs : lineEnd? s with
      | none => exact Nat.le_refl _
      | some s' => exact Nat.le_of_lt (length_lt_of_lineEnd? hs)
    simp only [List.length_cons]
    omega

theorem Writes.length_lt {p : Phrase} (h : Writes k d s p t) : t.length < s.length := by
  induction h with
  | string h => exact h.length_lt
  | @word w v hw hv d t =>
    obtain ⟨c, w, rfl, -⟩ := hv.head
    rw [List.length_append, List.length_cons]
    omega
  | moment =>
    rw [List.length_append, List.length_cons, List.length_append]
    omega
  | array h ih => exact Nat.lt_succ_of_lt ih
  | table h hps ih => exact Nat.lt_succ_of_lt ih
  | noItem hs => exact hs.length_le
  | lastItem hs hv hs' ih =>
    have h₁ := hs.length_le
    have h₂ := hs'.length_le
    rw [List.length_cons] at h₂
    omega
  | item hs hv hs' h ihv ih =>
    have h₁ := hs.length_le
    have h₂ := hs'.length_le
    rw [List.length_cons] at h₂
    omega
  | noPair hs => exact hs.length_le
  | lastPair hs hkey hs' hv hs'' ih =>
    have h₁ := hs.length_le
    have h₂ := hkey.parts.length_lt
    have h₃ := hs'.length_le
    have h₄ := hs''.length_le
    rw [List.length_cons] at h₂ h₄
    omega
  | pair hs hkey hs' hv hs'' h ihv ih =>
    have h₁ := hs.length_le
    have h₂ := hkey.parts.length_lt
    have h₃ := hs'.length_le
    have h₄ := hs''.length_le
    rw [List.length_cons] at h₂ h₄
    omega

/-- A value starts with a mark of its own or with a word. -/
theorem Writes.head {v : Value} (h : Writes k d s (.value v) t) :
    ∃ c s', s = c :: s' ∧ (c ∈ ['"', '\'', '[', '\x7b'] ∨ StartsScalar c) := by
  cases h with
  | string h =>
    obtain ⟨quote, s, rfl, hquote⟩ := h.head
    exact ⟨quote, s, rfl, Or.inl (by rcases hquote with rfl | rfl <;> decide)⟩
  | word hw hv =>
    obtain ⟨c, w, rfl, hc⟩ := hv.head
    exact ⟨c, _, rfl, Or.inr hc⟩
  | moment h hdate htime d t =>
    obtain ⟨c, s, heq, hc⟩ := h.head t
    exact ⟨c, s, heq, Or.inr hc⟩
  | array => exact ⟨_, _, rfl, Or.inl (by decide)⟩
  | table => exact ⟨_, _, rfl, Or.inl (by decide)⟩

theorem StartsScalar.ne {c d : Char} (h : StartsScalar c) (hd : d.isAlphanum = false)
    (hplus : d ≠ '+') (hminus : d ≠ '-') : c ≠ d := by
  rintro rfl
  rcases h with h | rfl | rfl
  · exact Bool.false_ne_true (hd.symm.trans h)
  · exact hplus rfl
  · exact hminus rfl

theorem Writes.solid {v : Value} (h : Writes k d s (.value v) t) : Solid s ∧ s.head? ≠ some ']' := by
  obtain ⟨c, s, rfl, hc⟩ := h.head
  have hne : ∀ d ∈ [' ', '\t', '\n', '\r', '#', ']'], c ≠ d := by
    intro d hd
    have hmarks : ∀ d ∈ [' ', '\t', '\n', '\r', '#', ']'],
        d ≠ '"' ∧ d ≠ '\'' ∧ d ≠ '[' ∧ d ≠ '\x7b' := forall_mem_of_all (by decide)
    have hword : ∀ d ∈ [' ', '\t', '\n', '\r', '#', ']'],
        d.isAlphanum = false ∧ d ≠ '+' ∧ d ≠ '-' := forall_mem_of_all (by decide)
    obtain ⟨halphanum, hplus, hminus⟩ := hword d hd
    rcases hc with hc | hc
    · obtain ⟨hquote, hsingle, hbracket, hbrace⟩ := hmarks d hd
      simp only [List.mem_cons, List.not_mem_nil, or_false] at hc
      rcases hc with rfl | rfl | rfl | rfl
      · exact hquote.symm
      · exact hsingle.symm
      · exact hbracket.symm
      · exact hbrace.symm
    · exact hc.ne halphanum hplus hminus
  have hspace : isSpace c = false := by
    rw [isSpace, Bool.or_eq_false_iff, beq_eq_false_iff_ne, beq_eq_false_iff_ne]
    exact ⟨hne ' ' (by decide), hne '\t' (by decide)⟩
  constructor
  · intro d hd
    obtain rfl := Option.some.inj hd
    exact ⟨hspace, hne _ (by decide), hne _ (by decide), hne _ (by decide)⟩
  · intro hhead
    exact hne ']' (by decide) (Option.some.inj hhead)

/-! ## Reading -/

def Reads (d : Nat) (s : List Char) (p : Phrase) (t : List Char) : Prop :=
  ∀ fuel depth, s.length ≤ fuel + t.length → d ≤ depth →
    match p with
    | .value v => Stops t → value? fuel depth s = some (v, t)
    | .items vs => items? fuel depth s = some (vs, t)
    | .pairs ps => ∀ entries entries', enterAll ps entries = some entries' →
        entries? fuel depth entries s = some (entries', t)

theorem value?_of_quoted {s text t : List Char} (h : Quoted s text t) (ht : Stops t)
    (fuel depth : Nat) : value? (fuel + 1) depth s = some (.text (String.ofList text), t) := by
  have hread : anyString? s = some (text, t) := anyString?_of_quoted h fun quote hquote hhead => by
    have hend := ht.endsBare quote hhead
    rcases hquote with rfl | rfl <;> cases hend
  obtain ⟨quote, s, rfl, hquote⟩ := h.head
  rcases hquote with rfl | rfl
  · show (anyString? _).map _ = _
    rw [hread]
    rfl
  · show (anyString? _).map _ = _
    rw [hread]
    rfl

theorem value?_of_startsScalar {c : Char} (hc : StartsScalar c) (s : List Char) (fuel depth : Nat) :
    value? (fuel + 1) depth (c :: s) = bareValue? (c :: s) := by
  have hne : ∀ d ∈ ['"', '\'', '[', '\x7b'], c ≠ d := by
    intro d hd
    have hword : ∀ d ∈ ['"', '\'', '[', '\x7b'], d.isAlphanum = false ∧ d ≠ '+' ∧ d ≠ '-' :=
      forall_mem_of_all (by decide)
    obtain ⟨halphanum, hplus, hminus⟩ := hword d hd
    exact hc.ne halphanum hplus hminus
  unfold value?
  split
  · next heq => exact absurd (List.cons.inj heq).1 (hne _ (by decide))
  · next heq => exact absurd (List.cons.inj heq).1 (hne _ (by decide))
  · next heq => exact absurd (List.cons.inj heq).1 (hne _ (by decide))
  · next heq => exact absurd (List.cons.inj heq).1 (hne _ (by decide))
  · rfl

def behindItem (fuel depth : Nat) (v : Value) : List Char → Option (List Value × List Char)
  | ',' :: rest => (items? fuel depth rest).bind fun (items, rest) => some (v :: items, rest)
  | ']' :: rest => some ([v], rest)
  | _ => none

theorem solid_cons {c : Char} (hc : c ∈ [',', ']', '\x7d']) (t : List Char) : Solid (c :: t) := by
  have hfacts : ∀ c ∈ [',', ']', '\x7d'], isSpace c = false ∧ c ≠ '\n' ∧ c ≠ '\r' ∧ c ≠ '#' :=
    forall_mem_of_all (by decide)
  intro d hd
  exact Option.some.inj hd ▸ hfacts c hc

def fromItem (fuel depth : Nat) : List Char → Option (List Value × List Char)
  | ']' :: rest => some ([], rest)
  | s => (value? fuel depth s).bind fun (v, s) =>
      (skipLines? (s.length + 1) s).bind (behindItem fuel depth v)

theorem items?_of_skipLines? (h : skipLines? (s.length + 1) s = some t) (fuel depth : Nat) :
    items? (fuel + 1) depth s = fromItem fuel depth t := by
  rw [items?, h]
  rfl

theorem items?_of_end (hs : Gap s (']' :: t)) (fuel depth : Nat) :
    items? (fuel + 1) depth s = some ([], t) := by
  have hskip := skipLines?_of_gap hs (solid_cons (by decide) t) (Nat.lt_succ_self _)
  exact items?_of_skipLines? hskip fuel depth

theorem items?_of_value {s s₁ s₂ s₃ : List Char} {v : Value} {fuel depth : Nat} (hs : Gap s s₁)
    (hsolid : Solid s₁) (hne : s₁.head? ≠ some ']') (hv : value? fuel depth s₁ = some (v, s₂))
    (hs' : Gap s₂ s₃) (hsolid' : Solid s₃) :
    items? (fuel + 1) depth s = behindItem fuel depth v s₃ := by
  have hskip := skipLines?_of_gap hs hsolid (Nat.lt_succ_self _)
  have hskip' := skipLines?_of_gap hs' hsolid' (Nat.lt_succ_self _)
  have hitem : ∀ rest, s₁ = ']' :: rest → False := by
    rintro rest rfl
    exact hne rfl
  rw [items?_of_skipLines? hskip, fromItem.eq_2 _ _ _ hitem, hv]
  show (skipLines? (s₂.length + 1) s₂).bind _ = _
  rw [hskip']
  rfl

def behindPair (fuel depth : Nat) (entries : Entries) : List Char → Option (Entries × List Char)
  | ',' :: rest => entries? fuel depth entries rest
  | '\x7d' :: rest => some (entries, rest)
  | _ => none

def behindKey (fuel depth : Nat) (entries : Entries) (key : List String) :
    List Char → Option (Entries × List Char)
  | '=' :: s => (value? fuel depth (skipSpace s)).bind fun (v, s) =>
      (enter v key false entries).bind fun entries =>
        (skipLines? (s.length + 1) s).bind (behindPair fuel depth entries)
  | _ => none

def fromKey (fuel depth : Nat) (entries : Entries) : List Char → Option (Entries × List Char)
  | '\x7d' :: rest => some (entries, rest)
  | s => (key? s).bind fun (key, s) => behindKey fuel depth entries key s

theorem entries?_of_skipLines? (h : skipLines? (s.length + 1) s = some t) (fuel depth : Nat)
    (entries : Entries) : entries? (fuel + 1) depth entries s = fromKey fuel depth entries t := by
  rw [entries?, h]
  rfl

theorem entries?_of_end (hs : Gap s ('\x7d' :: t)) (fuel depth : Nat)
    (entries : Entries) : entries? (fuel + 1) depth entries s = some (entries, t) := by
  have hskip := skipLines?_of_gap hs (solid_cons (by decide) t) (Nat.lt_succ_self _)
  exact entries?_of_skipLines? hskip fuel depth entries

theorem entries?_of_pair {s s₁ s₂ s₃ s₄ s₅ : List Char} {key : List String} {v : Value}
    {entries entries' : Entries} {fuel depth : Nat} (hk : k ≤ maxDepth) (hs : Gap s s₁)
    (hkey : Key k s₁ key ('=' :: s₂)) (hs' : Spaces s₂ s₃) (hsolid : Solid s₃) (hv : value? fuel depth s₃ = some (v, s₄))
    (henter : enter v key false entries = some entries') (hs'' : Gap s₄ s₅) (hsolid' : Solid s₅) :
    entries? (fuel + 1) depth entries s = behindPair fuel depth entries' s₅ := by
  have hskip := skipLines?_of_gap hs hkey.parts.solid (Nat.lt_succ_self _)
  have hread := key?_of_key hkey hk (Or.inl rfl) (Spaces.refl s₁)
  have hspaces : skipSpace s₂ = s₃ := skipSpace_of_spaces hs' fun c hc => (hsolid c hc).1
  have hskip' := skipLines?_of_gap hs'' hsolid' (Nat.lt_succ_self _)
  have hpair : ∀ rest, s₁ = '\x7d' :: rest → False := by
    rintro rest rfl
    exact hkey.parts.head?_ne (by decide) rfl
  rw [entries?_of_skipLines? hskip, fromKey.eq_2 _ _ _ _ hpair, hread]
  show (value? fuel depth (skipSpace s₂)).bind _ = _
  rw [hspaces, hv]
  show (enter v key false entries).bind _ = _
  rw [henter]
  show (skipLines? (s₄.length + 1) s₄).bind _ = _
  rw [hskip']
  rfl

theorem exists_succ_fuel {fuel : Nat} (h : s.length ≤ fuel + t.length)
    (hlt : t.length < s.length) : ∃ k, fuel = k + 1 :=
  ⟨fuel - 1, by omega⟩

theorem reads_string {text : List Char} (h : Quoted s text t) :
    Reads d s (.value (.text (String.ofList text))) t := by
  intro fuel depth hfuel hdepth ht
  obtain ⟨fuel, rfl⟩ := exists_succ_fuel hfuel h.length_lt
  exact value?_of_quoted h ht fuel depth

theorem reads_word {w : List Char} {v : Value} (hw : IsWord w) (hv : Scalar w v) :
    Reads d (w ++ t) (.value v) t := by
  intro fuel depth hfuel hdepth ht
  have hread := bareValue?_of_scalar (bareText_of_word hw ht) hv
  obtain ⟨c, w, rfl, hc⟩ := hv.head
  have hlength : t.length < (c :: w ++ t).length := by
    rw [List.length_append, List.length_cons]
    omega
  obtain ⟨fuel, rfl⟩ := exists_succ_fuel hfuel hlength
  exact (value?_of_startsScalar hc _ fuel depth).trans hread

theorem reads_moment {date time : List Char} (h : IsMoment date time) (hdate : IsWord date)
    (htime : IsWord time) : Reads d (date ++ ' ' :: (time ++ t)) (.value .date) t := by
  intro fuel depth hfuel hdepth ht
  have hlength : t.length < (date ++ ' ' :: (time ++ t)).length := by
    rw [List.length_append, List.length_cons, List.length_append]
    omega
  obtain ⟨fuel, rfl⟩ := exists_succ_fuel hfuel hlength
  have hread := bareValue?_of_scalar (bareText_of_moment h hdate htime ht) (Scalar.date h.isDate)
  obtain ⟨c, s, heq, hc⟩ := h.head t
  rw [heq] at hread ⊢
  exact (value?_of_startsScalar hc s fuel depth).trans hread

theorem Reads.array {vs : List Value} (h : Reads d s (.items vs) t) (hlength : t.length < s.length) :
    Reads (d + 1) ('[' :: s) (.value (.array vs)) t := by
  intro fuel depth hfuel hdepth ht
  rw [List.length_cons] at hfuel
  obtain ⟨fuel, rfl⟩ : ∃ n, fuel = n + 1 := Nat.exists_eq_add_of_le' (by omega)
  obtain ⟨depth, rfl⟩ := Nat.exists_eq_add_of_le' (Nat.le_trans (Nat.le_add_left 1 d) hdepth)
  have hitems := h fuel depth (by omega) (by omega)
  show (items? fuel depth s).map _ = _
  rw [hitems]
  rfl

theorem Reads.table {ps : Pairs} (h : Reads d s (.pairs ps) t) (hlength : t.length < s.length)
    (hps : Distinct ps) : Reads (d + 1) ('\x7b' :: s) (.value (.table .inline (entered ps))) t := by
  intro fuel depth hfuel hdepth ht
  rw [List.length_cons] at hfuel
  obtain ⟨fuel, rfl⟩ : ∃ n, fuel = n + 1 := Nat.exists_eq_add_of_le' (by omega)
  obtain ⟨depth, rfl⟩ := Nat.exists_eq_add_of_le' (Nat.le_trans (Nat.le_add_left 1 d) hdepth)
  have hpairs := h fuel depth (by omega) (by omega) [] _ hps.stands.1
  show (entries? fuel depth [] s).map _ = _
  rw [hpairs]
  rfl

theorem reads_noItem (hs : Gap s (']' :: t)) : Reads d s (.items []) t := by
  intro fuel depth hfuel hdepth
  obtain ⟨fuel, rfl⟩ := exists_succ_fuel hfuel hs.length_le
  exact items?_of_end hs fuel depth

theorem Reads.lastItem {s₁ s₂ : List Char} {v : Value} (h : Reads d s₁ (.value v) s₂)
    (hs : Gap s s₁) (hv : Writes k d s₁ (.value v) s₂) (hs' : Gap s₂ (']' :: t)) :
    Reads d s (.items [v]) t := by
  intro fuel depth hfuel hdepth
  have h₁ := hs.length_le
  have h₂ := hs'.length_le
  have h₃ := hv.length_lt
  rw [List.length_cons] at h₂
  obtain ⟨fuel, rfl⟩ := exists_succ_fuel hfuel (by omega)
  have hvalue := h fuel depth (by omega) hdepth (stops_of_gap hs' (stops_cons (by decide) t))
  exact items?_of_value hs hv.solid.1 hv.solid.2 hvalue hs' (solid_cons (by decide) t)

theorem Reads.item {s₁ s₂ s₃ : List Char} {v : Value} {vs : List Value}
    (hvalue : Reads d s₁ (.value v) s₂) (h : Reads d s₃ (.items vs) t) (hs : Gap s s₁)
    (hv : Writes k d s₁ (.value v) s₂) (hs' : Gap s₂ (',' :: s₃)) (hlength : t.length < s₃.length) :
    Reads d s (.items (v :: vs)) t := by
  intro fuel depth hfuel hdepth
  have h₁ := hs.length_le
  have h₂ := hv.length_lt
  have h₃ := hs'.length_le
  rw [List.length_cons] at h₃
  obtain ⟨fuel, rfl⟩ := exists_succ_fuel hfuel (by omega)
  have hread := hvalue fuel depth (by omega) hdepth (stops_of_gap hs' (stops_cons (by decide) s₃))
  have hitems := h fuel depth (by omega) hdepth
  rw [items?_of_value hs hv.solid.1 hv.solid.2 hread hs' (solid_cons (by decide) s₃)]
  show (items? fuel depth s₃).bind _ = _
  rw [hitems]
  rfl

theorem reads_noPair (hs : Gap s ('\x7d' :: t)) : Reads d s (.pairs []) t := by
  intro fuel depth hfuel hdepth entries entries' hall
  obtain ⟨fuel, rfl⟩ := exists_succ_fuel hfuel hs.length_le
  obtain rfl := Option.some.inj hall
  exact entries?_of_end hs fuel depth entries

theorem Reads.lastPair {s₁ s₂ s₃ s₄ : List Char} {key : List String} {v : Value}
    (h : Reads d s₃ (.value v) s₄) (hk : k ≤ maxDepth) (hs : Gap s s₁)
    (hkey : Key k s₁ key ('=' :: s₂)) (hs' : Spaces s₂ s₃) (hv : Writes k d s₃ (.value v) s₄)
    (hs'' : Gap s₄ ('\x7d' :: t)) : Reads d s (.pairs [(key, v)]) t := by
  intro fuel depth hfuel hdepth entries entries' hall
  obtain ⟨entries₁, henter, hall⟩ := Option.bind_eq_some_iff.mp hall
  obtain rfl := Option.some.inj hall
  have h₁ := hs.length_le
  have h₂ := hkey.parts.length_lt
  have h₃ := hs'.length_le
  have h₄ := hs''.length_le
  have h₅ := hv.length_lt
  rw [List.length_cons] at h₂ h₄
  obtain ⟨fuel, rfl⟩ := exists_succ_fuel hfuel (by omega)
  have hvalue := h fuel depth (by omega) hdepth (stops_of_gap hs'' (stops_cons (by decide) t))
  exact entries?_of_pair hk hs hkey hs' hv.solid.1 hvalue henter hs'' (solid_cons (by decide) t)

theorem Reads.pair {s₁ s₂ s₃ s₄ s₅ : List Char} {key : List String} {v : Value} {ps : Pairs}
    (hvalue : Reads d s₃ (.value v) s₄) (h : Reads d s₅ (.pairs ps) t) (hk : k ≤ maxDepth)
    (hs : Gap s s₁) (hkey : Key k s₁ key ('=' :: s₂)) (hs' : Spaces s₂ s₃)
    (hv : Writes k d s₃ (.value v) s₄) (hs'' : Gap s₄ (',' :: s₅)) (hlength : t.length < s₅.length) :
    Reads d s (.pairs ((key, v) :: ps)) t := by
  intro fuel depth hfuel hdepth entries entries' hall
  obtain ⟨entries₁, henter, hall⟩ := Option.bind_eq_some_iff.mp hall
  have h₁ := hs.length_le
  have h₂ := hkey.parts.length_lt
  have h₃ := hs'.length_le
  have h₄ := hv.length_lt
  have h₅ := hs''.length_le
  rw [List.length_cons] at h₂ h₅
  obtain ⟨fuel, rfl⟩ := exists_succ_fuel hfuel (by omega)
  have hread := hvalue fuel depth (by omega) hdepth
    (stops_of_gap hs'' (stops_cons (by decide) s₅))
  rw [entries?_of_pair hk hs hkey hs' hv.solid.1 hread henter hs'' (solid_cons (by decide) s₅)]
  exact h fuel depth (by omega) hdepth entries₁ entries' hall

theorem reads_of_writes {p : Phrase} (h : Writes k d s p t) (hk : k ≤ maxDepth) :
    Reads d s p t := by
  induction h with
  | string h d => exact reads_string h
  | word hw hv d t => exact reads_word hw hv
  | moment h hdate htime d t => exact reads_moment h hdate htime
  | array h ih => exact ih.array h.length_lt
  | table h hps ih => exact ih.table h.length_lt hps
  | noItem hs d => exact reads_noItem hs
  | lastItem hs hv hs' ih => exact ih.lastItem hs hv hs'
  | item hs hv hs' h ihv ih => exact ihv.item ih hs hv hs' h.length_lt
  | noPair hs d => exact reads_noPair hs
  | lastPair hs hkey hs' hv hs'' ih => exact ih.lastPair hk hs hkey hs' hv hs''
  | pair hs hkey hs' hv hs'' h ihv ih => exact ihv.pair ih hk hs hkey hs' hv hs'' h.length_lt

/-! ## Values that are nested too deep -/

theorem value?_of_deeper (fuel depth : Nat) (s : List Char) :
    value? fuel depth (List.replicate (depth + 1) '[' ++ s) = none := by
  induction depth generalizing fuel with
  | zero => cases fuel <;> rfl
  | succ depth ih =>
    cases fuel with
    | zero => rfl
    | succ fuel =>
      show (items? fuel depth (List.replicate (depth + 1) '[' ++ s)).map _ = none
      have hitems : items? fuel depth (List.replicate (depth + 1) '[' ++ s) = none := by
        cases fuel with
        | zero => rfl
        | succ fuel =>
          have hskip := skipLines?_of_solid (t := List.replicate (depth + 1) '[' ++ s)
            (fun c hc => by rw [← Option.some.inj hc]; decide)
            (List.replicate (depth + 1) '[' ++ s).length
          rw [items?, hskip]
          show (value? fuel depth (List.replicate (depth + 1) '[' ++ s)).bind _ = none
          rw [ih]
          rfl
      rw [hitems]
      rfl

/-- One array more than `n`, each in the one before. -/
def nested : Nat → Value
  | 0 => .array []
  | n + 1 => .array [nested n]

theorem writes_nested (k n : Nat) (t : List Char) :
    Writes k (n + 1) (List.replicate (n + 1) '[' ++ (List.replicate (n + 1) ']' ++ t))
      (.value (nested n)) t := by
  induction n generalizing t with
  | zero => exact Writes.array (Writes.noItem (Gap.none _) 0)
  | succ n ih =>
    have hinner := ih (']' :: t)
    have hclosing : List.replicate (n + 2) ']' ++ t = List.replicate (n + 1) ']' ++ ']' :: t := by
      rw [List.replicate_succ', List.append_assoc]
      rfl
    rw [hclosing, List.replicate_succ, List.cons_append]
    exact Writes.array (Writes.lastItem (Gap.none _) hinner (Gap.none _))

end Toml
end LiveDoc
