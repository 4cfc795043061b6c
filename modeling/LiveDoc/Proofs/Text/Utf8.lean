/-
What lenient decoding does to a byte string.

`Lossy` says it without an automaton.  Where the encoding of a character stands, that character is
read.  Where none does, the longest part that begins the encoding of some character is given up,
or a single byte if there is no such part, and U+FFFD stands for it.  The automaton never looks
ahead: it gives up a sequence at the first byte that no character has in this place.  That the
two agree rests on what the states know: from every state inside a sequence some character can
still be reached (`exists_feed`), and the bytes that lead to a character are its encoding
(`encodeChar_of_feed`), so a byte that does not continue a sequence continues no encoding.
-/
import Mathlib.Data.Nat.Find
import LiveDoc.Text.Utf8

namespace LiveDoc
namespace Utf8

open String (utf8EncodeChar)

/-- Some character is written with these bytes first. -/
def Begins (part : Bytes) : Prop := ∃ c, part <+: utf8EncodeChar c

/-- No character stands at the beginning of `part ++ rest`, and `part` is all that one U+FFFD
stands for: the longest beginning of a character that is there, but at least one byte. -/
structure Broken (part rest : Bytes) : Prop where
  no_char : ∀ c, ¬ utf8EncodeChar c <+: part ++ rest
  ne_nil : part ≠ []
  begins : Begins part ∨ part.length = 1
  longest : ∀ longer, longer <+: part ++ rest → Begins longer → longer.length ≤ part.length

/-- The characters of a byte string, with U+FFFD for each broken part. -/
inductive Lossy : Bytes → List Char → Prop
  | nil : Lossy [] []
  | char (c : Char) {rest : Bytes} {s : List Char} (h : Lossy rest s) :
      Lossy (utf8EncodeChar c ++ rest) (c :: s)
  | broken {part rest : Bytes} {s : List Char} (hpart : Broken part rest) (h : Lossy rest s) :
      Lossy (part ++ rest) (replacement :: s)

theorem mem_encodeChar_ascii {c : Char} {b : UInt8} (hb : b.toNat < 0x80)
    (h : b ∈ utf8EncodeChar c) : c = Char.ofNat b.toNat := by
  rw [utf8EncodeChar] at h
  split at h
  · next hc =>
    rw [List.mem_singleton.mp h, UInt8.toNat_ofNat_of_lt' (Nat.lt_of_le_of_lt hc (by decide))]
    exact (Char.ofNat_toNat c).symm
  · -- All bytes of a longer encoding are above ASCII.
    exfalso
    have hhigh : ∀ n, 0x80 ≤ n → n < 256 → b ≠ UInt8.ofNat n := by
      rintro n hn hlt rfl
      rw [UInt8.toNat_ofNat_of_lt' hlt] at hb
      omega
    split at h
    · simp only [List.mem_cons, List.not_mem_nil, or_false] at h
      rcases h with h | h <;> exact hhigh _ (by omega) (by omega) h
    split at h
    · simp only [List.mem_cons, List.not_mem_nil, or_false] at h
      rcases h with h | h | h <;> exact hhigh _ (by omega) (by omega) h
    · simp only [List.mem_cons, List.not_mem_nil, or_false] at h
      rcases h with h | h | h | h <;> exact hhigh _ (by omega) (by omega) h

theorem mem_of_mem_encode {s : List Char} {b : UInt8} (hb : b.toNat < 0x80)
    (h : b ∈ encode s) : Char.ofNat b.toNat ∈ s := by
  obtain ⟨c, hc, hmem⟩ := List.mem_flatMap.mp h
  rwa [← mem_encodeChar_ascii hb hmem]

/-! ## Reading a character byte by byte -/

/-- What has been read after some more bytes, `none` if one of them does not go on with it. -/
def feed : Lead → Bytes → Option Lead
  | l, [] => some l
  | .sequence s, b :: rest => (s.continue? b).bind fun l => feed l rest
  | .char _, _ :: _ => none
  | .invalid, _ :: _ => none

def decodeAfter (l : Lead) (rest : Bytes) : List Char :=
  match l with
  | .char c => c :: decodeLossyFrom none rest
  | .sequence s => decodeLossyFrom (some s) rest
  | .invalid => replacement :: decodeLossyFrom none rest

theorem feed_append (l : Lead) (a b : Bytes) :
    feed l (a ++ b) = (feed l a).bind fun l => feed l b := by
  induction a generalizing l with
  | nil => rfl
  | cons x rest ih =>
    cases l with
    | char c => rfl
    | invalid => rfl
    | sequence s =>
      rw [List.cons_append, feed, feed]
      cases s.continue? x with
      | none => rfl
      | some l => exact ih l

theorem decodeAfter_of_feed {l l' : Lead} {part : Bytes} (h : feed l part = some l')
    (rest : Bytes) : decodeAfter l (part ++ rest) = decodeAfter l' rest := by
  induction part generalizing l with
  | nil =>
    obtain rfl := Option.some.inj h
    rfl
  | cons b others ih =>
    cases l with
    | char c => cases h
    | invalid => cases h
    | sequence s =>
      obtain ⟨l, hl, hfeed⟩ := Option.bind_eq_some_iff.mp h
      rw [← ih hfeed, decodeAfter, List.cons_append, decodeLossyFrom, Option.bind_some, hl]
      cases l <;> rfl

theorem continue?_eq_some_iff {s : Sequence} {b : UInt8} {l : Lead} :
    s.continue? b = some l ↔ (s.low ≤ b.toNat ∧ b.toNat ≤ s.high) ∧
      l = match s.more with
        | 0 => .char (Char.ofNat (s.value * 64 + (b.toNat - 0x80)))
        | more + 1 => .sequence ⟨s.value * 64 + (b.toNat - 0x80), 0x80, 0xBF, more⟩ := by
  rw [Sequence.continue?]
  split
  · next h =>
    simp only [h, and_self, true_and]
    cases s.more <;> exact ⟨fun h => (Option.some.inj h).symm, fun h => h ▸ rfl⟩
  · next h => simp [h]

theorem toNat_byte {n : Nat} (h : n < 256) : (UInt8.ofNat n).toNat = n :=
  UInt8.toNat_ofNat_of_lt' h

/-- The last byte of a sequence. -/
theorem feed_last_iff {value low high : Nat} {tail : Bytes} {c : Char} :
    feed (.sequence ⟨value, low, high, 0⟩) tail = some (.char c) ↔
      ∃ b, tail = [b] ∧ (low ≤ b.toNat ∧ b.toNat ≤ high) ∧
        c = Char.ofNat (value * 64 + (b.toNat - 0x80)) := by
  constructor
  · intro h
    cases tail with
    | nil => cases h
    | cons b rest =>
      obtain ⟨l, hl, hfeed⟩ := Option.bind_eq_some_iff.mp h
      obtain ⟨hrange, rfl⟩ := continue?_eq_some_iff.mp hl
      cases rest with
      | nil =>
        simp only [feed, Option.some.injEq, Lead.char.injEq] at hfeed
        exact ⟨b, rfl, hrange, hfeed.symm⟩
      | cons b' rest => simp [feed] at hfeed
  · rintro ⟨b, rfl, hrange, hc⟩
    rw [feed, continue?_eq_some_iff.mpr ⟨hrange, rfl⟩, hc]
    rfl

/-- A byte of a sequence that is not the last. -/
theorem feed_more_iff {value low high more : Nat} {tail : Bytes} {c : Char} :
    feed (.sequence ⟨value, low, high, more + 1⟩) tail = some (.char c) ↔
      ∃ b rest, tail = b :: rest ∧ (low ≤ b.toNat ∧ b.toNat ≤ high) ∧
        feed (.sequence ⟨value * 64 + (b.toNat - 0x80), 0x80, 0xBF, more⟩) rest =
          some (.char c) := by
  constructor
  · intro h
    cases tail with
    | nil => cases h
    | cons b rest =>
      obtain ⟨l, hl, hfeed⟩ := Option.bind_eq_some_iff.mp h
      obtain ⟨hrange, rfl⟩ := continue?_eq_some_iff.mp hl
      exact ⟨b, rest, rfl, hrange, hfeed⟩
  · rintro ⟨b, rest, rfl, hrange, hfeed⟩
    rw [feed, continue?_eq_some_iff.mpr ⟨hrange, rfl⟩]
    exact hfeed

/-- From every state inside a sequence some character can be reached. -/
theorem exists_feed {value low high more : Nat} (hle : low ≤ high) (hlt : high < 256) :
    ∃ tail c, feed (.sequence ⟨value, low, high, more⟩) tail = some (.char c) := by
  have hlow : (UInt8.ofNat low).toNat = low := toNat_byte (by omega)
  induction more generalizing value low high with
  | zero => exact ⟨_, _, feed_last_iff.mpr ⟨UInt8.ofNat low, rfl, by omega, rfl⟩⟩
  | succ more ih =>
    obtain ⟨tail, c, hfeed⟩ := @ih (value * 64 + ((UInt8.ofNat low).toNat - 0x80)) 0x80 0xBF
      (by omega) (by omega) (by decide)
    exact ⟨_, c, feed_more_iff.mpr ⟨UInt8.ofNat low, tail, rfl, by omega, hfeed⟩⟩

section
variable {b : UInt8}

theorem lead_ascii (h : b.toNat < 0x80) : lead b = .char (Char.ofNat b.toNat) := by
  rw [lead, if_pos h]

theorem lead_two (h : 0xC2 ≤ b.toNat) (h' : b.toNat < 0xE0) :
    lead b = .sequence ⟨b.toNat - 0xC0, 0x80, 0xBF, 0⟩ := by
  rw [lead, if_neg (by omega), if_neg (by omega), if_pos h']

theorem lead_three (h : 0xE0 ≤ b.toNat) (h' : b.toNat < 0xF0) :
    lead b = .sequence ⟨b.toNat - 0xE0, if b.toNat = 0xE0 then 0xA0 else 0x80,
      if b.toNat = 0xED then 0x9F else 0xBF, 1⟩ := by
  rw [lead, if_neg (by omega), if_neg (by omega), if_neg (by omega), if_pos h']

theorem lead_four (h : 0xF0 ≤ b.toNat) (h' : b.toNat < 0xF5) :
    lead b = .sequence ⟨b.toNat - 0xF0, if b.toNat = 0xF0 then 0x90 else 0x80,
      if b.toNat = 0xF4 then 0x8F else 0xBF, 2⟩ := by
  rw [lead, if_neg (by omega), if_neg (by omega), if_neg (by omega), if_neg (by omega), if_pos h']

theorem lead_invalid (h : 0x80 ≤ b.toNat) (h' : b.toNat < 0xC2 ∨ 0xF5 ≤ b.toNat) :
    lead b = .invalid := by
  rcases h' with h' | h'
  · rw [lead, if_neg (by omega), if_pos h']
  · rw [lead, if_neg (by omega), if_neg (by omega), if_neg (by omega), if_neg (by omega),
      if_neg (by omega)]

/-- All that a byte can be at a boundary. -/
theorem lead_cases (b : UInt8) :
    (b.toNat < 0x80 ∧ lead b = .char (Char.ofNat b.toNat)) ∨ lead b = .invalid ∨
    ((0xC2 ≤ b.toNat ∧ b.toNat < 0xE0) ∧ lead b = .sequence ⟨b.toNat - 0xC0, 0x80, 0xBF, 0⟩) ∨
    ((0xE0 ≤ b.toNat ∧ b.toNat < 0xF0) ∧
      lead b = .sequence ⟨b.toNat - 0xE0, if b.toNat = 0xE0 then 0xA0 else 0x80,
        if b.toNat = 0xED then 0x9F else 0xBF, 1⟩) ∨
    ((0xF0 ≤ b.toNat ∧ b.toNat < 0xF5) ∧
      lead b = .sequence ⟨b.toNat - 0xF0, if b.toNat = 0xF0 then 0x90 else 0x80,
        if b.toNat = 0xF4 then 0x8F else 0xBF, 2⟩) := by
  rcases Nat.lt_or_ge b.toNat 0x80 with hascii | hascii
  · exact Or.inl ⟨hascii, lead_ascii hascii⟩
  refine Or.inr ?_
  rcases Nat.lt_or_ge b.toNat 0xC2 with hone | hone
  · exact Or.inl (lead_invalid hascii (Or.inl hone))
  rcases Nat.lt_or_ge b.toNat 0xE0 with htwo | htwo
  · exact Or.inr (Or.inl ⟨⟨hone, htwo⟩, lead_two hone htwo⟩)
  rcases Nat.lt_or_ge b.toNat 0xF0 with hthree | hthree
  · exact Or.inr (Or.inr (Or.inl ⟨⟨htwo, hthree⟩, lead_three htwo hthree⟩))
  rcases Nat.lt_or_ge b.toNat 0xF5 with hfour | hfour
  · exact Or.inr (Or.inr (Or.inr ⟨⟨hthree, hfour⟩, lead_four hthree hfour⟩))
  · exact Or.inl (lead_invalid hascii (Or.inr hfour))

end

/-- The encoding of a character is read as this character. -/
theorem feed_encodeChar (c : Char) :
    ∃ b tail, utf8EncodeChar c = b :: tail ∧ feed (lead b) tail = some (.char c) := by
  have hvalid : c.toNat < 0xD800 ∨ 0xDFFF < c.toNat ∧ c.toNat < 0x110000 := c.valid
  have hback : c = Char.ofNat c.toNat := (Char.ofNat_toNat c).symm
  rw [utf8EncodeChar]
  simp only [Char.toNat_val]
  generalize c.toNat = n at hvalid hback
  subst hback
  split
  · have h0 : (UInt8.ofNat n).toNat = n := toNat_byte (by omega)
    refine ⟨_, _, rfl, ?_⟩
    rw [lead_ascii (by omega), h0]
    rfl
  split
  · have h0 : (UInt8.ofNat (n / 64 % 32 + 192)).toNat = n / 64 + 192 := by
      rw [toNat_byte (by omega)]
      omega
    have h1 : (UInt8.ofNat (n % 64 + 128)).toNat = n % 64 + 128 :=
      toNat_byte (by omega)
    refine ⟨_, _, rfl, ?_⟩
    rw [lead_two (by omega) (by omega)]
    refine feed_last_iff.mpr ⟨_, rfl, by omega, congrArg Char.ofNat ?_⟩
    omega
  split
  · have h0 : (UInt8.ofNat (n / 4096 % 16 + 224)).toNat = n / 4096 + 224 := by
      rw [toNat_byte (by omega)]
      omega
    have h1 : (UInt8.ofNat (n / 64 % 64 + 128)).toNat = n / 64 % 64 + 128 :=
      toNat_byte (by omega)
    have h2 : (UInt8.ofNat (n % 64 + 128)).toNat = n % 64 + 128 :=
      toNat_byte (by omega)
    refine ⟨_, _, rfl, ?_⟩
    rw [lead_three (by omega) (by omega)]
    refine feed_more_iff.mpr ⟨_, _, rfl, ?_, ?_⟩
    · constructor <;> split <;> omega
    refine feed_last_iff.mpr ⟨_, rfl, by omega, congrArg Char.ofNat ?_⟩
    omega
  · have h0 : (UInt8.ofNat (n / 262144 % 8 + 240)).toNat = n / 262144 + 240 := by
      rw [toNat_byte (by omega)]
      omega
    have h1 : (UInt8.ofNat (n / 4096 % 64 + 128)).toNat = n / 4096 % 64 + 128 :=
      toNat_byte (by omega)
    have h2 : (UInt8.ofNat (n / 64 % 64 + 128)).toNat = n / 64 % 64 + 128 :=
      toNat_byte (by omega)
    have h3 : (UInt8.ofNat (n % 64 + 128)).toNat = n % 64 + 128 :=
      toNat_byte (by omega)
    refine ⟨_, _, rfl, ?_⟩
    rw [lead_four (by omega) (by omega)]
    refine feed_more_iff.mpr ⟨_, _, rfl, ?_, ?_⟩
    · constructor <;> split <;> omega
    refine feed_more_iff.mpr ⟨_, _, rfl, by omega, ?_⟩
    refine feed_last_iff.mpr ⟨_, rfl, by omega, congrArg Char.ofNat ?_⟩
    omega

theorem encodeChar_ofNat {n : Nat} (h : n.isValidChar) :
    utf8EncodeChar (Char.ofNat n) =
      if n ≤ 0x7F then [UInt8.ofNat n]
      else if n ≤ 0x7FF then [UInt8.ofNat (n / 64 % 32 + 192), UInt8.ofNat (n % 64 + 128)]
      else if n ≤ 0xFFFF then
        [UInt8.ofNat (n / 4096 % 16 + 224), UInt8.ofNat (n / 64 % 64 + 128),
          UInt8.ofNat (n % 64 + 128)]
      else
        [UInt8.ofNat (n / 262144 % 8 + 240), UInt8.ofNat (n / 4096 % 64 + 128),
          UInt8.ofNat (n / 64 % 64 + 128), UInt8.ofNat (n % 64 + 128)] := by
  have hn : (Char.ofNat n).toNat = n := by
    rw [Char.ofNat, dif_pos h]
    rfl
  rw [utf8EncodeChar, Char.toNat_val, hn]

theorem byte_eq {n : Nat} {b : UInt8} (h : n = b.toNat) : UInt8.ofNat n = b := by
  rw [h, UInt8.ofNat_toNat]

/-- The range of the second byte of a sequence, with the lead bytes after which it is narrower. -/
theorem second_range {p q : Prop} [Decidable p] [Decidable q] {low high n : Nat}
    (hlow : 0x80 ≤ low) (hhigh : high ≤ 0xBF)
    (h : (if p then low else 0x80) ≤ n ∧ n ≤ if q then high else 0xBF) :
    (p → low ≤ n) ∧ (q → n ≤ high) ∧ 0x80 ≤ n ∧ n ≤ 0xBF := by
  obtain ⟨hl, hh⟩ := h
  refine ⟨fun hp => by rwa [if_pos hp] at hl, fun hq => by rwa [if_pos hq] at hh, ?_, ?_⟩
  · split at hl <;> omega
  · split at hh <;> omega

/-- What is read as a character is its encoding. -/
theorem encodeChar_of_feed {b : UInt8} {tail : Bytes} {c : Char}
    (h : feed (lead b) tail = some (.char c)) : utf8EncodeChar c = b :: tail := by
  rcases lead_cases b with ⟨hb, hlead⟩ | hlead | ⟨hb, hlead⟩ | ⟨hb, hlead⟩ | ⟨hb, hlead⟩
  all_goals rw [hlead] at h
  · cases tail with
    | nil =>
      simp only [feed, Option.some.injEq, Lead.char.injEq] at h
      rw [← h, encodeChar_ofNat (Or.inl (by omega)), if_pos (by omega), byte_eq rfl]
    | cons b' rest => cases h
  · cases tail <;> cases h
  · obtain ⟨b₁, rfl, hb₁, hc⟩ := feed_last_iff.mp h
    rw [hc, encodeChar_ofNat (Or.inl (by omega)), if_neg (by omega), if_pos (by omega)]
    simp only [List.cons.injEq, and_true]
    exact ⟨byte_eq (by omega), byte_eq (by omega)⟩
  · obtain ⟨b₁, _, rfl, hb₁, h₁⟩ := feed_more_iff.mp h
    obtain ⟨b₂, rfl, hb₂, hc⟩ := feed_last_iff.mp h₁
    have hrange := second_range (by decide) (by decide) hb₁
    rw [hc, encodeChar_ofNat (by rw [Nat.isValidChar]; omega), if_neg (by omega), if_neg (by omega),
      if_pos (by omega)]
    simp only [List.cons.injEq, and_true]
    exact ⟨byte_eq (by omega), byte_eq (by omega), byte_eq (by omega)⟩
  · obtain ⟨b₁, _, rfl, hb₁, h₁⟩ := feed_more_iff.mp h
    obtain ⟨b₂, _, rfl, hb₂, h₂⟩ := feed_more_iff.mp h₁
    obtain ⟨b₃, rfl, hb₃, hc⟩ := feed_last_iff.mp h₂
    have hrange := second_range (by decide) (by decide) hb₁
    rw [hc, encodeChar_ofNat (by rw [Nat.isValidChar]; omega), if_neg (by omega), if_neg (by omega),
      if_neg (by omega)]
    simp only [List.cons.injEq, and_true]
    exact ⟨byte_eq (by omega), byte_eq (by omega), byte_eq (by omega), byte_eq (by omega)⟩

/-! ## Bytes that begin a character -/

/-- Bytes that begin a character are read. -/
theorem Begins.exists_feed {b : UInt8} {part : Bytes} (h : Begins (b :: part)) :
    ∃ l, feed (lead b) part = some l ∧ l ≠ .invalid := by
  obtain ⟨c, more, hc⟩ := h
  obtain ⟨b', tail, hencode, hfeed⟩ := feed_encodeChar c
  rw [hencode, List.cons_append] at hc
  obtain ⟨rfl, rfl⟩ := List.cons.inj hc
  rw [feed_append] at hfeed
  obtain ⟨l, hl, hmore⟩ := Option.bind_eq_some_iff.mp hfeed
  refine ⟨l, hl, ?_⟩
  rintro rfl
  cases more <;> cases hmore

/-- Inside a sequence there is always a byte that goes on with it. -/
def Sequence.GoesOn (s : Sequence) : Prop := s.low ≤ s.high ∧ s.high < 256

theorem goesOn_mk {value low high more : Nat} (hle : low ≤ high) (hlt : high < 256) :
    (Sequence.mk value low high more).GoesOn := ⟨hle, hlt⟩

theorem goesOn_of_lead {b : UInt8} {s : Sequence} (h : lead b = .sequence s) : s.GoesOn := by
  rcases lead_cases b with ⟨-, hlead⟩ | hlead | ⟨-, hlead⟩ | ⟨-, hlead⟩ | ⟨-, hlead⟩
  all_goals rw [hlead] at h
  · cases h
  · cases h
  · rw [← Lead.sequence.inj h]
    exact goesOn_mk (by decide) (by decide)
  all_goals
    rw [← Lead.sequence.inj h]
    refine goesOn_mk ?_ ?_
    · split <;> split <;> omega
    · split <;> omega

theorem goesOn_of_feed {l : Lead} {part : Bytes} {s : Sequence}
    (hl : ∀ s', l = .sequence s' → s'.GoesOn) (h : feed l part = some (.sequence s)) :
    s.GoesOn := by
  induction part generalizing l with
  | nil => exact hl s (Option.some.inj h)
  | cons b rest ih =>
    cases l with
    | char c => cases h
    | invalid => cases h
    | sequence s' =>
      obtain ⟨l, hnext, hfeed⟩ := Option.bind_eq_some_iff.mp h
      refine ih (fun s'' hs'' => ?_) hfeed
      rw [hs''] at hnext
      obtain ⟨-, hmore⟩ := continue?_eq_some_iff.mp hnext
      split at hmore
      · cases hmore
      · rw [Lead.sequence.inj hmore]
        exact goesOn_mk (by decide) (by decide)

theorem begins_iff {b : UInt8} {part : Bytes} :
    Begins (b :: part) ↔ ∃ l, feed (lead b) part = some l ∧ l ≠ .invalid := by
  refine ⟨Begins.exists_feed, ?_⟩
  rintro ⟨l, hl, hne⟩
  cases l with
  | invalid => exact absurd rfl hne
  | char c =>
    have hchar : utf8EncodeChar c = b :: part := encodeChar_of_feed hl
    exact ⟨c, [], by rw [List.append_nil, hchar]⟩
  | sequence s =>
    obtain ⟨hle, hlt⟩ := goesOn_of_feed (fun _ => goesOn_of_lead) hl
    obtain ⟨tail, c, hfeed⟩ := exists_feed hle hlt
    have hwhole : feed (lead b) (part ++ tail) = some (.char c) := by
      rw [feed_append, hl]
      exact hfeed
    refine ⟨c, ?_⟩
    rw [encodeChar_of_feed hwhole]
    exact List.prefix_append (b :: part) tail

/-! ## Decoding -/

theorem decodeLossy_encodeChar (c : Char) (rest : Bytes) :
    decodeLossy (utf8EncodeChar c ++ rest) = c :: decodeLossy rest := by
  obtain ⟨b, tail, hencode, hfeed⟩ := feed_encodeChar c
  rw [hencode]
  exact decodeAfter_of_feed hfeed rest

/-- A byte that does not continue a sequence breaks it off and is read at a boundary. -/
theorem decodeLossyFrom_broken {s : Sequence} {b : UInt8} (h : s.continue? b = none)
    (rest : Bytes) :
    decodeLossyFrom (some s) (b :: rest) = replacement :: decodeLossyFrom none (b :: rest) := by
  rw [decodeLossyFrom, Option.bind_some, h]
  rfl

theorem Broken.decodeLossy_eq {part rest : Bytes} (h : Broken part rest) :
    decodeLossy (part ++ rest) = replacement :: decodeLossy rest := by
  obtain ⟨b, tail, rfl⟩ := List.exists_cons_of_ne_nil h.ne_nil
  have hstart : decodeLossy (b :: tail ++ rest) = decodeAfter (lead b) (tail ++ rest) := rfl
  by_cases hbegins : Begins (b :: tail)
  · obtain ⟨l, hl, hne⟩ := begins_iff.mp hbegins
    rw [hstart, decodeAfter_of_feed hl]
    cases l with
    | invalid => exact absurd rfl hne
    | char c =>
      refine absurd ?_ (h.no_char c)
      rw [encodeChar_of_feed hl]
      exact List.prefix_append (b :: tail) rest
    | sequence s =>
      cases rest with
      | nil => rfl
      | cons b' rest =>
        -- If this byte continued the sequence, then the broken part would be longer.
        have hend : s.continue? b' = none := by
          cases hnext : s.continue? b' with
          | none => rfl
          | some l' =>
            have hfeed : feed (lead b) (tail ++ [b']) = some l' := by
              rw [feed_append, hl, Option.bind_some, feed, hnext]
              rfl
            have hlonger : Begins (b :: tail ++ [b']) := by
              refine begins_iff.mpr ⟨l', hfeed, ?_⟩
              obtain ⟨-, rfl⟩ := continue?_eq_some_iff.mp hnext
              split <;> exact fun h => by cases h
            have hle := h.longest (b :: tail ++ [b']) ⟨rest, by simp⟩ hlonger
            rw [List.length_append, List.length_singleton] at hle
            omega
        exact decodeLossyFrom_broken hend rest
  · have htail : tail = [] := by
      have hone := h.begins.resolve_left hbegins
      exact List.length_eq_zero_iff.mp (Nat.succ.inj hone)
    have hinvalid : lead b = .invalid := by
      by_contra hne
      rw [htail] at hbegins
      exact hbegins (begins_iff.mpr ⟨lead b, rfl, hne⟩)
    rw [hstart, hinvalid, htail]
    rfl

theorem exists_broken {bytes : Bytes} (hne : bytes ≠ [])
    (h : ∀ c, ¬ utf8EncodeChar c <+: bytes) :
    ∃ part rest, bytes = part ++ rest ∧ Broken part rest := by
  classical
  let P n := Begins (bytes.take n) ∨ n = 1
  let k := Nat.findGreatest P bytes.length
  have hlength : 1 ≤ bytes.length := List.length_pos_iff.mpr hne
  have hk : k ≤ bytes.length := Nat.findGreatest_le bytes.length
  have hone : 1 ≤ k := Nat.le_findGreatest hlength (Or.inr rfl)
  have hpart : (bytes.take k).length = k := List.length_take_of_le hk
  refine ⟨bytes.take k, bytes.drop k, (List.take_append_drop k bytes).symm, ?_, ?_, ?_, ?_⟩
  · rwa [List.take_append_drop]
  · rw [← List.length_pos_iff, hpart]
    exact hone
  · rw [hpart]
    have hone' : P 1 := Or.inr rfl
    exact Nat.findGreatest_spec hlength hone'
  · intro longer hlonger hbegins
    rw [List.take_append_drop] at hlonger
    rw [hpart]
    refine Nat.le_findGreatest hlonger.length_le (Or.inl ?_)
    rwa [← List.prefix_iff_eq_take.mp hlonger]

theorem lossy_decodeLossy (bytes : Bytes) : Lossy bytes (decodeLossy bytes) := by
  induction hn : bytes.length using Nat.strong_induction_on generalizing bytes with
  | _ n ih =>
    subst hn
    by_cases hne : bytes = []
    · rw [hne]
      exact .nil
    by_cases hchar : ∃ c, utf8EncodeChar c <+: bytes
    · obtain ⟨c, rest, rfl⟩ := hchar
      have hpos : 0 < (utf8EncodeChar c).length :=
        List.length_pos_iff.mpr String.utf8EncodeChar_ne_nil
      rw [decodeLossy_encodeChar]
      refine .char c (ih _ ?_ rest rfl)
      rw [List.length_append]
      omega
    · obtain ⟨part, rest, rfl, hpart⟩ := exists_broken hne (not_exists.mp hchar)
      have hpos := List.length_pos_iff.mpr hpart.ne_nil
      rw [hpart.decodeLossy_eq]
      refine .broken hpart (ih _ ?_ rest rfl)
      rw [List.length_append]
      omega

theorem lossy_iff {bytes : Bytes} {s : List Char} : Lossy bytes s ↔ decodeLossy bytes = s := by
  constructor
  · intro h
    induction h with
    | nil => rfl
    | char c _ ih => rw [decodeLossy_encodeChar, ih]
    | broken hpart _ ih => rw [hpart.decodeLossy_eq, ih]
  · rintro rfl
    exact lossy_decodeLossy bytes

/-- A text is read back. -/
@[simp] theorem decodeLossy_encode (s : List Char) : decodeLossy (encode s) = s := by
  induction s with
  | nil => rfl
  | cons c rest ih => rw [encode_cons, decodeLossy_encodeChar, ih]

theorem encode_inj {s t : List Char} : encode s = encode t ↔ s = t := by
  refine ⟨fun h => ?_, congrArg encode⟩
  rw [← decodeLossy_encode s, h, decodeLossy_encode]

def decodedAfter? (l : Lead) (rest : Bytes) : Option (List Char) :=
  match l with
  | .char c => (decodeFrom none rest).map (c :: ·)
  | .sequence s => decodeFrom (some s) rest
  | .invalid => none

theorem decodedAfter?_of_feed {l l' : Lead} {part : Bytes} (h : feed l part = some l')
    (rest : Bytes) : decodedAfter? l (part ++ rest) = decodedAfter? l' rest := by
  induction part generalizing l with
  | nil =>
    obtain rfl := Option.some.inj h
    rfl
  | cons b others ih =>
    cases l with
    | char c => cases h
    | invalid => cases h
    | sequence s =>
      obtain ⟨l, hl, hfeed⟩ := Option.bind_eq_some_iff.mp h
      rw [← ih hfeed, decodedAfter?, List.cons_append, decodeFrom, hl]
      cases l <;> rfl

theorem decode?_encodeChar (c : Char) (rest : Bytes) :
    decode? (utf8EncodeChar c ++ rest) = (decode? rest).map (c :: ·) := by
  obtain ⟨b, tail, hencode, hfeed⟩ := feed_encodeChar c
  rw [hencode]
  exact decodedAfter?_of_feed hfeed rest

/-- A text is read back strictly too. -/
theorem decode?_encode (s : List Char) : decode? (encode s) = some s := by
  induction s with
  | nil => rfl
  | cons c rest ih =>
    rw [encode_cons, decode?_encodeChar, ih]
    rfl

end Utf8
end LiveDoc
