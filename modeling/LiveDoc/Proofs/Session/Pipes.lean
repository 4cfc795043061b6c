/-
The interpreter on the other side of a session, and the readers in between.

An interpreter prints into two pipes.  A reader on each pipe forwards to the
session's channel what is at the front, in chunks of any size and at any
moment.  So there are three places where a printed byte can be before a session
receives it, and a session sees none of them but the channel.

Bytes in a pipe carry a mark that says whether they were printed after some
moment of interest.  The marks are for proofs only: what arrives does not depend
on them.
-/
import LiveDoc.Process
import LiveDoc.Proofs.Session.Turn

namespace LiveDoc

/-- A byte that has been printed, and whether that was after the moment of interest. -/
structure Print where
  byte : UInt8
  late : Bool
deriving Repr, DecidableEq

def Print.age (b : Print) : Print := { b with late := false }

def printed (text : Bytes) : List Print := text.map fun b => ⟨b, true⟩

@[simp] theorem map_byte_printed (text : Bytes) : (printed text).map Print.byte = text := by
  rw [printed, List.map_map]
  exact List.map_id text

@[simp] theorem length_printed (text : Bytes) : (printed text).length = text.length :=
  List.length_map _

theorem printed_append (a b : Bytes) : printed (a ++ b) = printed a ++ printed b := List.map_append

/-- What the interpreter, the readers and the session do. -/
inductive Moment where
  | prints (stream : Stream) (text : Bytes)
  /-- The interpreter ends its output.  It can still print error messages. -/
  | ends
  /-- A reader forwards what is in front, but not more than some bytes, or the end of the
  output if it has come to it. -/
  | forwards (stream : Stream) (most : Nat)
  | looks
deriving Repr, DecidableEq

def Stream.other : Stream → Stream
  | .output => .error
  | .error => .output

/-- What has been printed and has not been forwarded. -/
structure Pipes where
  held : Stream → List Print
  /-- Has the interpreter ended its output? -/
  ended : Bool
  /-- Has the end of the output been forwarded? -/
  reported : Bool

namespace Pipes

def empty : Pipes := ⟨fun _ => [], false, false⟩

def hold (q : Pipes) (stream : Stream) (bytes : List Print) : Pipes :=
  { q with held := fun other => if other = stream then bytes else q.held other }

def isOpen (q : Pipes) : Stream → Bool
  | .output => !q.ended
  | .error => true

def front (q : Pipes) (stream : Stream) (most : Nat) : List Print := (q.held stream).take most

def atEnd (q : Pipes) (stream : Stream) : Bool :=
  stream = .output && (q.held stream).isEmpty && q.ended && !q.reported

def after (q : Pipes) : Moment → Pipes
  | .prints stream text =>
    if q.isOpen stream then q.hold stream (q.held stream ++ printed text) else q
  | .ends => { q with ended := true }
  | .forwards stream most =>
    { q.hold stream ((q.held stream).drop most) with reported := q.reported || q.atEnd stream }
  | .looks => q

def happenings (q : Pipes) : Moment → List Happening
  | .forwards stream most =>
    if q.atEnd stream then [.arrives .closed]
    else if (q.front stream most).isEmpty then []
    else [.arrives (.data ((q.front stream most).map Print.byte))]
  | .looks => [.looks]
  | _ => []

def arriving (q : Pipes) : Moment → List Print
  | .forwards stream most => q.front stream most
  | _ => []

def afterAll (q : Pipes) (moments : List Moment) : Pipes := moments.foldl after q

def play (q : Pipes) : List Moment → List Happening
  | [] => []
  | m :: rest => q.happenings m ++ play (q.after m) rest

def arrivingIn (q : Pipes) : List Moment → List Print
  | [] => []
  | m :: rest => q.arriving m ++ arrivingIn (q.after m) rest

def age (q : Pipes) : Pipes := { q with held := fun stream => (q.held stream).map Print.age }

variable (q : Pipes)

theorem afterAll_append (a b : List Moment) : q.afterAll (a ++ b) = (q.afterAll a).afterAll b :=
  List.foldl_append

@[simp] theorem afterAll_cons (m : Moment) (rest : List Moment) :
    q.afterAll (m :: rest) = (q.after m).afterAll rest := rfl

theorem play_append (a b : List Moment) : q.play (a ++ b) = q.play a ++ (q.afterAll a).play b := by
  induction a generalizing q with
  | nil => rfl
  | cons m a ih => rw [List.cons_append, play, play, ih, List.append_assoc, afterAll_cons]

theorem arrivingIn_append (a b : List Moment) :
    q.arrivingIn (a ++ b) = q.arrivingIn a ++ (q.afterAll a).arrivingIn b := by
  induction a generalizing q with
  | nil => rfl
  | cons m a ih =>
    rw [List.cons_append, arrivingIn, arrivingIn, ih, List.append_assoc, afterAll_cons]

theorem play_looks (n : Nat) : q.play (List.replicate n .looks) = List.replicate n .looks := by
  induction n with
  | zero => rfl
  | succ n ih =>
    rw [List.replicate_succ, play, after, ih]
    rfl

theorem arrivingIn_looks (n : Nat) : q.arrivingIn (List.replicate n .looks) = [] := by
  induction n with
  | zero => rfl
  | succ n ih =>
    rw [List.replicate_succ, arrivingIn, after, ih]
    rfl

/-! ## What arrives -/

theorem dataOf_happenings (m : Moment) :
    dataOf (arrivalsIn (q.happenings m)) = (q.arriving m).map Print.byte := by
  cases m with
  | prints stream text => rfl
  | ends => rfl
  | looks => rfl
  | forwards stream most =>
    rw [happenings, arriving]
    split
    · next hend =>
      have hempty : q.held stream = [] := by
        rw [atEnd] at hend
        simp only [Bool.and_eq_true, List.isEmpty_iff] at hend
        exact hend.1.1.2
      simp [front, hempty, arrivalsIn, StreamEvent.bytes]
    · split
      · next hnone =>
        rw [List.isEmpty_iff.mp hnone]
        rfl
      · simp [arrivalsIn, StreamEvent.bytes]

theorem dataOf_play (moments : List Moment) :
    dataOf (arrivalsIn (q.play moments)) = (q.arrivingIn moments).map Print.byte := by
  induction moments generalizing q with
  | nil => rfl
  | cons m rest ih =>
    rw [play, arrivingIn, arrivalsIn_append, dataOf_append, dataOf_happenings, ih, List.map_append]

/-- A reader forwards no empty chunks. -/
theorem bytes_ne_nil_of_play {moments : List Moment} {e : StreamEvent}
    (he : e ∈ arrivalsIn (q.play moments)) (hdata : e ≠ .closed) : e.bytes ≠ [] := by
  induction moments generalizing q with
  | nil => cases he
  | cons m rest ih =>
    rw [play, arrivalsIn_append, List.mem_append] at he
    rcases he with hnow | hlater
    · cases m with
      | prints stream text => cases hnow
      | ends => cases hnow
      | looks => cases hnow
      | forwards stream most =>
        rw [happenings] at hnow
        split at hnow
        · exact absurd (List.mem_singleton.mp hnow) hdata
        · split at hnow
          · cases hnow
          · next hsome =>
            obtain rfl := List.mem_singleton.mp hnow
            rw [StreamEvent.bytes, Ne, List.map_eq_nil_iff]
            exact fun hnone => hsome (List.isEmpty_iff.mpr hnone)
    · exact ih (q.after m) hlater

theorem ended_after (m : Moment) (h : q.ended = true) : (q.after m).ended = true := by
  cases m with
  | prints stream text =>
    rw [after]
    split <;> exact h
  | ends => rfl
  | forwards stream most => exact h
  | looks => exact h

theorem ended_afterAll (moments : List Moment) (h : q.ended = true) :
    (q.afterAll moments).ended = true := by
  induction moments generalizing q with
  | nil => exact h
  | cons m rest ih => exact ih (q.after m) (q.ended_after m h)

theorem ended_of_closed {moments : List Moment} (h : .closed ∈ arrivalsIn (q.play moments)) :
    (q.afterAll moments).ended = true := by
  induction moments generalizing q with
  | nil => cases h
  | cons m rest ih =>
    rw [play, arrivalsIn_append, List.mem_append] at h
    rcases h with hnow | hlater
    · refine ended_afterAll _ rest (q.ended_after m ?_)
      cases m with
      | prints stream text => cases hnow
      | ends => cases hnow
      | looks => cases hnow
      | forwards stream most =>
        rw [happenings] at hnow
        split at hnow
        · next hend =>
          rw [atEnd] at hend
          simp only [Bool.and_eq_true] at hend
          exact hend.1.2
        · split at hnow <;> simp [arrivalsIn] at hnow
    · exact ih (q.after m) hlater

/-- The output ends only when the interpreter ends it. -/
theorem ended_afterAll_of_not_mem {moments : List Moment} (h : .ends ∉ moments) :
    (q.afterAll moments).ended = q.ended := by
  induction moments generalizing q with
  | nil => rfl
  | cons m rest ih =>
    rw [List.mem_cons, not_or] at h
    rw [afterAll_cons, ih (q.after m) h.2]
    cases m with
    | prints stream text =>
      rw [after]
      split <;> rfl
    | ends => exact absurd rfl h.1
    | forwards stream most => rfl
    | looks => rfl

/-! ## Marks -/

structure SameBytes (q q' : Pipes) : Prop where
  held : ∀ stream, (q.held stream).map Print.byte = (q'.held stream).map Print.byte
  ended : q.ended = q'.ended
  reported : q.reported = q'.reported

theorem sameBytes_age : SameBytes q.age q := by
  refine ⟨fun stream => ?_, rfl, rfl⟩
  rw [age, List.map_map]
  rfl

variable {q} {q' : Pipes}

theorem SameBytes.atEnd (h : SameBytes q q') (stream : Stream) :
    q.atEnd stream = q'.atEnd stream := by
  have hempty : (q.held stream).isEmpty = (q'.held stream).isEmpty := by
    rw [← List.isEmpty_map (f := Print.byte), h.held, List.isEmpty_map]
  rw [Pipes.atEnd, Pipes.atEnd, hempty, h.ended, h.reported]

theorem SameBytes.hold (h : SameBytes q q') (stream : Stream) {bytes bytes' : List Print}
    (hbytes : bytes.map Print.byte = bytes'.map Print.byte) :
    SameBytes (q.hold stream bytes) (q'.hold stream bytes') := by
  refine ⟨fun other => ?_, h.ended, h.reported⟩
  by_cases hother : other = stream
  · simp only [Pipes.hold, hother, if_true]
    exact hbytes
  · simp only [Pipes.hold, hother, if_false]
    exact h.held other

theorem SameBytes.after (h : SameBytes q q') (m : Moment) : SameBytes (q.after m) (q'.after m) := by
  cases m with
  | prints stream text =>
    have hopen : q.isOpen stream = q'.isOpen stream := by cases stream <;> simp [isOpen, h.ended]
    rw [Pipes.after, Pipes.after, hopen]
    split
    · exact h.hold stream (by rw [List.map_append, List.map_append, h.held])
    · exact h
  | ends => exact ⟨h.held, rfl, h.reported⟩
  | forwards stream most =>
    have hdrop : ((q.held stream).drop most).map Print.byte =
        ((q'.held stream).drop most).map Print.byte := by rw [List.map_drop, List.map_drop, h.held]
    have hkept := h.hold stream hdrop
    exact ⟨hkept.held, hkept.ended, by rw [Pipes.after, Pipes.after, h.atEnd, h.reported]⟩
  | looks => exact h

/-- What happens to the session does not depend on the marks. -/
theorem SameBytes.play (h : SameBytes q q') (moments : List Moment) :
    q.play moments = q'.play moments := by
  induction moments generalizing q q' with
  | nil => rfl
  | cons m rest ih =>
    have hnow : q.happenings m = q'.happenings m := by
      cases m with
      | prints stream text => rfl
      | ends => rfl
      | looks => rfl
      | forwards stream most =>
        have hfront :
            (q.front stream most).map Print.byte = (q'.front stream most).map Print.byte := by
          rw [front, front, List.map_take, List.map_take, h.held]
        have hempty : (q.front stream most).isEmpty = (q'.front stream most).isEmpty := by
          rw [← List.isEmpty_map (f := Print.byte), hfront, List.isEmpty_map]
        rw [happenings, happenings, h.atEnd, hempty, hfront]
    rw [Pipes.play, Pipes.play, hnow, ih (h.after m)]

theorem mem_held_hold {stream other : Stream} {bytes : List Print} {b : Print}
    (h : b ∈ (q.hold stream bytes).held other) : b ∈ bytes ∨ b ∈ q.held other := by
  by_cases hother : other = stream
  · simp only [hold, hother, if_true] at h
    exact Or.inl h
  · simp only [hold, hother, if_false] at h
    exact Or.inr h

/-- A byte in a pipe that was printed before has been there before. -/
theorem mem_held_of_after {m : Moment} {stream : Stream} {b : Print}
    (h : b ∈ (q.after m).held stream) (hearly : b.late = false) : ∃ other, b ∈ q.held other := by
  cases m with
  | prints printed text =>
    rw [after] at h
    split at h
    · rcases mem_held_hold h with hnew | hold
      · rcases List.mem_append.mp hnew with hkept | htext
        · exact ⟨printed, hkept⟩
        · obtain ⟨c, -, rfl⟩ := List.mem_map.mp htext
          cases hearly
      · exact ⟨stream, hold⟩
    · exact ⟨stream, h⟩
  | ends => exact ⟨stream, h⟩
  | forwards other most =>
    rcases mem_held_hold h with hkept | hold
    · exact ⟨other, List.mem_of_mem_drop hkept⟩
    · exact ⟨stream, hold⟩
  | looks => exact ⟨stream, h⟩

/-- A byte that arrives and was printed before comes out of a pipe. -/
theorem mem_held_of_arrivingIn {moments : List Moment} {b : Print} (h : b ∈ q.arrivingIn moments)
    (hearly : b.late = false) : ∃ stream, b ∈ q.held stream := by
  induction moments generalizing q with
  | nil => cases h
  | cons m rest ih =>
    rw [arrivingIn, List.mem_append] at h
    rcases h with hnow | hlater
    · cases m with
      | prints stream text => cases hnow
      | ends => cases hnow
      | looks => cases hnow
      | forwards stream most => exact ⟨stream, List.mem_of_mem_take hnow⟩
    · obtain ⟨stream, hstream⟩ := ih hlater
      exact mem_held_of_after hstream hearly

/-- A moment in which nothing arrives only adds to the pipes. -/
theorem held_after_of_arriving_nil {m : Moment} (hm : q.arriving m = []) (stream : Stream) :
    ∃ more, (q.after m).held stream = q.held stream ++ more := by
  cases m with
  | prints printed text =>
    rw [after]
    split
    · by_cases hstream : stream = printed
      · subst hstream
        exact ⟨printed text, by simp [hold]⟩
      · exact ⟨[], by simp [hold, hstream]⟩
    · exact ⟨[], by simp⟩
  | ends => exact ⟨[], by simp [after]⟩
  | forwards other most =>
    by_cases hstream : stream = other
    · subst hstream
      have hkept := List.take_append_drop most (q.held stream)
      rw [arriving, front] at hm
      rw [hm, List.nil_append] at hkept
      exact ⟨[], by simp [after, hold, hkept]⟩
    · exact ⟨[], by simp [after, hold, hstream]⟩
  | looks => exact ⟨[], by simp [after]⟩

/-- When both pipes hold something, the first byte that arrives is the first of one of them. -/
theorem head_of_arrivingIn {moments : List Moment} {b : Print} {rest : List Print}
    (hheld : ∀ stream, q.held stream ≠ []) (h : q.arrivingIn moments = b :: rest) :
    ∃ stream, (q.held stream).head? = some b := by
  induction moments generalizing q with
  | nil => cases h
  | cons m moments ih =>
    rw [arrivingIn] at h
    cases hnow : q.arriving m with
    | nil =>
      rw [hnow, List.nil_append] at h
      have hgrown := held_after_of_arriving_nil hnow
      have hstill : ∀ stream, (q.after m).held stream ≠ [] := by
        intro stream
        obtain ⟨more, hmore⟩ := hgrown stream
        rw [hmore]
        exact List.append_ne_nil_of_left_ne_nil (hheld stream) more
      obtain ⟨stream, hstream⟩ := ih hstill h
      obtain ⟨more, hmore⟩ := hgrown stream
      obtain ⟨c, tail, hc⟩ := List.exists_cons_of_ne_nil (hheld stream)
      rw [hmore, hc] at hstream
      exact ⟨stream, by rw [hc]; exact hstream⟩
    | cons first more =>
      rw [hnow] at h
      obtain ⟨rfl, -⟩ := List.cons.inj h
      cases m with
      | prints stream text => cases hnow
      | ends => cases hnow
      | looks => cases hnow
      | forwards stream most =>
        have hkept := List.take_append_drop most (q.held stream)
        rw [arriving, front] at hnow
        rw [hnow] at hkept
        exact ⟨stream, by rw [← hkept]; rfl⟩

end Pipes
end LiveDoc
