/-
An interpreter that answers line by line.

It waits for a text, and when it has read the whole of it, it prints the answer
to it.  Nothing is said here about when it reads, in what pieces it prints, and
how the reader of its output cuts them up.  `Listening` and `Speaking` are the
two states of a turn: in the first nothing is coming, and in the second all that
is coming is the rest of the answer.
-/
import LiveDoc.Proofs.Session.Pipes

namespace LiveDoc

structure Responder where
  /-- The texts that it waits for, and its answers. -/
  script : List (Bytes × Bytes)
  /-- What has been written to it and it has not read. -/
  input : Bytes
  /-- What it has read of the text that it waits for. -/
  heard : Bytes
  /-- What it has not printed yet of its answers. -/
  saying : Bytes
deriving DecidableEq

inductive Act where
  | reads (most : Nat)
  | speaks (most : Nat)
  | forwards (most : Nat)
  | looks
deriving Repr, DecidableEq

namespace Responder

def answer (r : Responder) : Responder :=
  match r.script with
  | [] => r
  | (text, reply) :: script =>
    if r.heard = text then { r with script := script, heard := [], saying := r.saying ++ reply }
    else r

def after (r : Responder) : Act → Responder
  | .reads most =>
    { r with input := r.input.drop most, heard := r.heard ++ r.input.take most }.answer
  | .speaks most => { r with saying := r.saying.drop most }
  | .forwards _ => r
  | .looks => r

def moments (r : Responder) : Act → List Moment
  | .reads _ => []
  | .speaks most => [.prints .output (r.saying.take most)]
  | .forwards most => [.forwards .output most]
  | .looks => [.looks]

def momentsIn (r : Responder) : List Act → List Moment
  | [] => []
  | a :: rest => r.moments a ++ momentsIn (r.after a) rest

theorem not_ends_momentsIn (r : Responder) (acts : List Act) : .ends ∉ r.momentsIn acts := by
  induction acts generalizing r with
  | nil => exact List.not_mem_nil
  | cons a rest ih =>
    rw [momentsIn, List.mem_append, not_or]
    exact ⟨by cases a <;> simp [moments], ih (r.after a)⟩

theorem after_reads_of_heard {r : Responder} {text reply : Bytes} {script : List (Bytes × Bytes)}
    {most : Nat} (hscript : r.script = (text, reply) :: script)
    (hheard : r.heard ++ r.input.take most = text) :
    r.after (.reads most) = ⟨script, r.input.drop most, [], r.saying ++ reply⟩ := by
  rw [after, answer]
  simp only [hscript]
  exact if_pos hheard

theorem after_reads_of_not_heard {r : Responder} {text reply : Bytes}
    {script : List (Bytes × Bytes)} {most : Nat} (hscript : r.script = (text, reply) :: script)
    (hheard : r.heard ++ r.input.take most ≠ text) :
    r.after (.reads most) =
      ⟨(text, reply) :: script, r.input.drop most, r.heard ++ r.input.take most, r.saying⟩ := by
  rw [after, answer]
  simp only [hscript]
  exact if_neg hheard

end Responder

structure World where
  responder : Responder
  pipes : Pipes

namespace World

def receive (w : World) (text : Bytes) : World :=
  { w with responder := { w.responder with input := w.responder.input ++ text } }

def after (w : World) (a : Act) : World :=
  ⟨w.responder.after a, w.pipes.afterAll (w.responder.moments a)⟩

def afterAll (w : World) (acts : List Act) : World := acts.foldl after w

def play (w : World) (acts : List Act) : List Happening := w.pipes.play (w.responder.momentsIn acts)

def coming (w : World) : Bytes := (w.pipes.held .output).map Print.byte ++ w.responder.saying

/-- The interpreter waits for a text, of which the rest is in its input. -/
structure Listening (w : World) (text reply : Bytes) (script : List (Bytes × Bytes)) : Prop where
  script_eq : w.responder.script = (text, reply) :: script
  heard_eq : w.responder.heard ++ w.responder.input = text
  input_ne : w.responder.input ≠ []
  coming_eq : w.coming = []
  ended_eq : w.pipes.ended = false

/-- The interpreter has heard all that was written to it, and `rest` is coming. -/
structure Speaking (w : World) (rest : Bytes) (script : List (Bytes × Bytes)) : Prop where
  script_eq : w.responder.script = script
  heard_eq : w.responder.heard = []
  input_eq : w.responder.input = []
  coming_eq : w.coming = rest
  ended_eq : w.pipes.ended = false

variable {w : World}

@[simp] theorem afterAll_nil : w.afterAll [] = w := rfl

@[simp] theorem afterAll_cons (a : Act) (rest : List Act) :
    w.afterAll (a :: rest) = (w.after a).afterAll rest := rfl

theorem play_cons (a : Act) (rest : List Act) :
    w.play (a :: rest) = w.pipes.play (w.responder.moments a) ++ (w.after a).play rest := by
  rw [play, Responder.momentsIn, Pipes.play_append]
  rfl

/-- What an act other than reading brings to the channel was coming. -/
theorem coming_eq_append (hended : w.pipes.ended = false) {a : Act} (ha : ∀ most, a ≠ .reads most) :
    w.coming =
      dataOf (arrivalsIn (w.pipes.play (w.responder.moments a))) ++ (w.after a).coming := by
  rw [Pipes.dataOf_play, coming, coming]
  cases a with
  | reads most => exact absurd rfl (ha most)
  | speaks most =>
    have hopen : w.pipes.isOpen .output = true := by rw [Pipes.isOpen, hended, Bool.not_false]
    simp [after, Responder.after, Responder.moments, Pipes.arrivingIn, Pipes.arriving,
      Pipes.afterAll, Pipes.after, hopen, Pipes.hold]
  | forwards most =>
    simp [after, Responder.after, Responder.moments, Pipes.arrivingIn, Pipes.arriving,
      Pipes.afterAll, Pipes.after, Pipes.front, Pipes.hold, ← List.append_assoc]
  | looks => rfl

theorem ended_after (a : Act) (hended : w.pipes.ended = false) :
    (w.after a).pipes.ended = false := by
  rw [after, Pipes.ended_afterAll_of_not_mem, hended]
  cases a <;> simp [Responder.moments]

/-- With nothing to read, nothing is answered. -/
theorem after_reads_of_input_nil (hinput : w.responder.input = []) (hheard : w.responder.heard = [])
    (htexts : ∀ x ∈ w.responder.script, x.1 ≠ []) (most : Nat) : w.after (.reads most) = w := by
  have hsame : w.responder.after (.reads most) = w.responder := by
    obtain ⟨⟨script, input, heard, saying⟩, pipes⟩ := w
    obtain rfl : input = [] := hinput
    obtain rfl : heard = [] := hheard
    cases script with
    | nil => simp [Responder.after, Responder.answer]
    | cons x script =>
      have hx : ¬ [] = x.1 := fun heq => htexts x List.mem_cons_self heq.symm
      simp [Responder.after, Responder.answer, hx]
  rw [after, hsame]
  rfl

/-- Once everything has been heard, what is coming comes, and nothing else. -/
theorem Speaking.after {rest : Bytes} {script : List (Bytes × Bytes)} (h : w.Speaking rest script)
    (htexts : ∀ x ∈ script, x.1 ≠ []) (a : Act) : ∃ later,
      rest = dataOf (arrivalsIn (w.pipes.play (w.responder.moments a))) ++ later ∧
        (w.after a).Speaking later script := by
  have hended := ended_after a h.ended_eq
  have hcoming := coming_eq_append h.ended_eq (a := a)
  rw [h.coming_eq] at hcoming
  cases a with
  | reads most =>
    rw [after_reads_of_input_nil h.input_eq h.heard_eq (h.script_eq ▸ htexts)]
    exact ⟨rest, rfl, h⟩
  | speaks most =>
    exact ⟨_, hcoming nofun, h.script_eq, h.heard_eq, h.input_eq, rfl, hended⟩
  | forwards most =>
    exact ⟨_, hcoming nofun, h.script_eq, h.heard_eq, h.input_eq, rfl, hended⟩
  | looks =>
    exact ⟨_, hcoming nofun, h.script_eq, h.heard_eq, h.input_eq, rfl, hended⟩

/-- While a text has not been heard to its end, nothing comes.  Then its answer does. -/
theorem Listening.after {text reply : Bytes} {script : List (Bytes × Bytes)}
    (h : w.Listening text reply script) (a : Act) :
    dataOf (arrivalsIn (w.pipes.play (w.responder.moments a))) = [] ∧
      ((w.after a).Listening text reply script ∨ (w.after a).Speaking reply script) := by
  have hended := ended_after a h.ended_eq
  have hcoming := coming_eq_append h.ended_eq (a := a)
  rw [h.coming_eq] at hcoming
  cases a with
  | reads most =>
    refine ⟨rfl, ?_⟩
    have hsplit := List.take_append_drop most w.responder.input
    by_cases hheard : w.responder.heard ++ w.responder.input.take most = text
    · have hread : w.responder.input.drop most = [] := by
        have htext := h.heard_eq
        rw [← hsplit, ← List.append_assoc, hheard] at htext
        exact List.append_right_eq_self.mp htext
      have hafter := Responder.after_reads_of_heard h.script_eq hheard
      rw [hread] at hafter
      refine Or.inr ⟨?_, ?_, ?_, ?_, hended⟩
      · rw [World.after, hafter]
      · rw [World.after, hafter]
      · rw [World.after, hafter]
      · rw [coming, World.after, hafter, ← List.append_assoc]
        exact congrArg (· ++ reply) h.coming_eq
    · have hafter := Responder.after_reads_of_not_heard h.script_eq hheard
      refine Or.inl ⟨?_, ?_, ?_, ?_, hended⟩
      · rw [World.after, hafter]
      · rw [World.after, hafter, List.append_assoc, hsplit]
        exact h.heard_eq
      · rw [World.after, hafter]
        intro (hread : w.responder.input.drop most = [])
        rw [hread, List.append_nil] at hsplit
        rw [hsplit] at hheard
        exact hheard h.heard_eq
      · rw [coming, World.after, hafter]
        exact h.coming_eq
  | speaks most =>
    obtain ⟨hnone, hlater⟩ := List.append_eq_nil_iff.mp (hcoming nofun).symm
    exact ⟨hnone, Or.inl ⟨h.script_eq, h.heard_eq, h.input_ne, hlater, hended⟩⟩
  | forwards most =>
    obtain ⟨hnone, hlater⟩ := List.append_eq_nil_iff.mp (hcoming nofun).symm
    exact ⟨hnone, Or.inl ⟨h.script_eq, h.heard_eq, h.input_ne, hlater, hended⟩⟩
  | looks =>
    obtain ⟨hnone, hlater⟩ := List.append_eq_nil_iff.mp (hcoming nofun).symm
    exact ⟨hnone, Or.inl ⟨h.script_eq, h.heard_eq, h.input_ne, hlater, hended⟩⟩

theorem Speaking.afterAll {rest : Bytes} {script : List (Bytes × Bytes)}
    (h : w.Speaking rest script)
    (htexts : ∀ x ∈ script, x.1 ≠ []) (acts : List Act) : ∃ later,
      rest = dataOf (arrivalsIn (w.play acts)) ++ later ∧
        (w.afterAll acts).Speaking later script := by
  induction acts generalizing w rest with
  | nil => exact ⟨rest, rfl, h⟩
  | cons a acts ih =>
    obtain ⟨between, hrest, hnow⟩ := h.after htexts a
    obtain ⟨later, hbetween, hlater⟩ := ih hnow
    refine ⟨later, ?_, hlater⟩
    rw [play_cons, arrivalsIn_append, dataOf_append, List.append_assoc, ← hbetween, hrest]

/-- An answer is due: it is coming, or its text is being heard. -/
def Answering (w : World) (reply : Bytes) (script : List (Bytes × Bytes)) : Prop :=
  (∃ text, w.Listening text reply script) ∨ w.Speaking reply script

theorem Answering.ended_eq {reply : Bytes} {script : List (Bytes × Bytes)}
    (h : w.Answering reply script) : w.pipes.ended = false := by
  rcases h with ⟨text, hlistening⟩ | hspeaking
  · exact hlistening.ended_eq
  · exact hspeaking.ended_eq

/-- In the course of a turn nothing comes but the answer, from its start. -/
theorem Answering.afterAll {reply : Bytes} {script : List (Bytes × Bytes)}
    (h : w.Answering reply script) (htexts : ∀ x ∈ script, x.1 ≠ []) (acts : List Act) :
    (dataOf (arrivalsIn (w.play acts)) = [] ∧
        ∃ text, (w.afterAll acts).Listening text reply script) ∨
      ∃ later, reply = dataOf (arrivalsIn (w.play acts)) ++ later ∧
        (w.afterAll acts).Speaking later script := by
  rcases h with ⟨text, hlistening⟩ | hspeaking
  · induction acts generalizing w with
    | nil => exact Or.inl ⟨rfl, text, hlistening⟩
    | cons a acts ih =>
      obtain ⟨hnone, hnow⟩ := hlistening.after a
      rw [play_cons, arrivalsIn_append, dataOf_append, hnone, List.nil_append]
      rcases hnow with hstill | hspeaking
      · exact ih hstill
      · exact Or.inr (hspeaking.afterAll htexts acts)
  · exact Or.inr (hspeaking.afterAll htexts acts)

theorem not_closed_play (hended : w.pipes.ended = false) (acts : List Act) :
    .closed ∉ arrivalsIn (w.play acts) := by
  intro hclosed
  have hends := Pipes.ended_of_closed _ hclosed
  rw [Pipes.ended_afterAll_of_not_mem _ (w.responder.not_ends_momentsIn acts), hended] at hends
  cases hends

end World
end LiveDoc
