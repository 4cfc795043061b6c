/-
Whose prompt ends a turn.

A turn begins by discarding what has reached the channel.  It does not see what
is still in a pipe, and what is printed while the code is being written it
receives in the turn.  So a prompt that was printed before the interpreter had
the code can end the turn of that code.  This module says exactly when that can
happen.

The moment of interest is the one at which the code has been written, or any
later moment of the turn.  What is printed from then on is marked late, and a
turn is attributed if only late bytes can make up the prompt that ends it.
-/
import LiveDoc.Proofs.Session.Pipes
import LiveDoc.Proofs.Session.Running

namespace LiveDoc

/-- The sessions that come about with a prompt, and the pipes of their interpreters.  Between
calls everything happens except that the session looks. -/
inductive Situation (p : Prompt) : Session → Pipes → Prop
  | start {command : String} {timeout : Nat} {moments : List Moment} {s : Session}
      (h : Session.start p command timeout (Pipes.empty.play moments) = (.ok s, [])) :
      Situation p s (Pipes.empty.afterAll moments)
  | passes {s : Session} {q : Pipes} {m : Moment} (hm : m ≠ .looks) (h : Situation p s q) :
      Situation p (s.afterAll (q.play [m])) (q.after m)
  | evaluates {s s' : Session} {q : Pipes} {d : Delivery} {moments : List Moment}
      {result : Except SessionError Evaluation} (h : Situation p s q)
      (hturn : s.evaluate d (q.play moments) = (result, s', [])) :
      Situation p s' (q.afterAll moments)

/-- What arrives in a turn, marked by whether it was printed after its early moments. -/
def Pipes.turnStream (q : Pipes) (early late : List Moment) : List Print :=
  (q.arrivingIn early).map Print.age ++ (q.afterAll early).age.arrivingIn late

def promptPrints (p : Prompt) (stream : List Print) (raw : Bytes) : List Print :=
  (stream.drop raw.length).take p.bytes.length

/-- After the early moments of a turn: whatever happens from now on, the turn succeeds only
if its code has been written, and by a prompt that was printed from now on. -/
def Attributed (p : Prompt) (s : Session) (q : Pipes) (d : Delivery) (early : List Moment) : Prop :=
  ∀ late raw s' rest, s.evaluate d (q.play (early ++ late)) = (.ok ⟨.success, raw⟩, s', rest) →
    s.writable = true ∧ d = .delivered ∧
      ∀ b ∈ promptPrints p (q.turnStream early late) raw, b.late = true

/-- No byte that has been printed by now can become part of a prompt: not those that have
arrived since the strays were discarded, and not those in the pipes. -/
structure Clear (p : Prompt) (arrived : Bytes) (q : Pipes) : Prop where
  /-- What has arrived contains no prompt. -/
  no_prompt : p.find arrived = none
  /-- No byte of the marker is on its way. -/
  no_byte : ∀ stream, ∀ b ∈ q.held stream, b.byte ∉ p.bytes
  /-- What has arrived does not end with the start of a prompt, unless both pipes hold bytes
  that must come before the rest of it. -/
  no_start : (∀ stream, q.held stream ≠ []) ∨
    ∀ i < arrived.length, ¬ (Prompt.StartsLine true arrived i ∧ arrived.drop i <+: p.bytes)

namespace Pipes

variable {q : Pipes}

theorem ended_of_afterAll {moments : List Moment} (h : (q.afterAll moments).ended = false) :
    q.ended = false := by
  rw [Bool.eq_false_iff] at h ⊢
  exact fun hended => h (q.ended_afterAll moments hended)

theorem not_closed_of_open {moments : List Moment} (h : (q.afterAll moments).ended = false) :
    .closed ∉ arrivalsIn (q.play moments) := by
  intro hclosed
  rw [q.ended_of_closed hclosed] at h
  cases h

end Pipes

/-- While the interpreter has not ended its output, no session has seen the end of it. -/
theorem Situation.running {p : Prompt} {s : Session} {q : Pipes} (h : Situation p s q) :
    s.prompt = p ∧ (q.ended = false → s.Running) := by
  induction h with
  | @start command timeout moments s h =>
    obtain ⟨s₁, hwait, rfl⟩ := Session.start_ok h
    obtain ⟨done, hdone, rfl, -⟩ := Session.wait_spec hwait
    rw [List.append_nil] at hdone
    subst hdone
    refine ⟨?_, fun hopen => ?_⟩
    · rw [Session.takeTurn_eq]
      exact Session.prompt_afterAll _ _
    · have hnew : (Session.new p).Running := ⟨rfl, List.not_mem_nil⟩
      exact (hnew.afterAll (Pipes.not_closed_of_open hopen)).takeTurn
  | @passes s q m hm h ih =>
    refine ⟨(s.prompt_afterAll _).trans ih.1, fun hopen => ?_⟩
    have hafter : (q.afterAll [m]).ended = false := hopen
    exact (ih.2 (Pipes.ended_of_afterAll hafter)).afterAll (Pipes.not_closed_of_open hafter)
  | @evaluates s s' q d moments result h hturn ih =>
    refine ⟨(Session.prompt_evaluate hturn).trans ih.1, fun hopen => ?_⟩
    exact (ih.2 (Pipes.ended_of_afterAll hopen)).evaluate (Pipes.not_closed_of_open hopen) hturn

/-! ## A clear turn -/

section
variable {p : Prompt} {s : Session} {q : Pipes} {d : Delivery} {early : List Moment}

theorem map_byte_turnStream (late : List Moment) :
    (q.turnStream early late).map Print.byte = dataOf (arrivalsIn (q.play (early ++ late))) := by
  rw [Pipes.turnStream, List.map_append, List.map_map, Pipes.play_append, arrivalsIn_append,
    dataOf_append, Pipes.dataOf_play, ← (Pipes.sameBytes_age _).play, Pipes.dataOf_play]
  rfl

theorem late_eq_false_of_age {bytes : List Print} {b : Print} (h : b ∈ bytes.map Print.age) :
    b.late = false := by
  obtain ⟨c, -, rfl⟩ := List.mem_map.mp h
  rfl

theorem Clear.not_mem (h : Clear p ((q.arrivingIn early).map Print.byte) (q.afterAll early))
    {stream : Stream} {b : Print} (hb : b ∈ (q.afterAll early).age.held stream) :
    b.byte ∉ p.bytes := by
  obtain ⟨c, hc, rfl⟩ := List.mem_map.mp hb
  exact h.no_byte stream c hc

theorem map_byte_promptPrints {stream : List Print} {raw : Bytes}
    (h : p.find (stream.map Print.byte) = some raw.length) :
    (promptPrints p stream raw).map Print.byte = p.bytes := by
  obtain ⟨-, rest, hrest⟩ := Prompt.standsAt_of_find h
  rw [promptPrints, List.map_take, List.map_drop, ← hrest, List.take_left]

/-- The prompt that ends a turn begins behind what had arrived early: a prompt that is
started there cannot be completed. -/
theorem Clear.le_of_find (h : Clear p ((q.arrivingIn early).map Print.byte) (q.afterAll early))
    {late : List Moment} {i : Nat}
    (hfind : p.find ((q.turnStream early late).map Print.byte) = some i) :
    (q.arrivingIn early).length ≤ i := by
  have hbytes : (q.turnStream early late).map Print.byte = (q.arrivingIn early).map Print.byte ++
      ((q.afterAll early).age.arrivingIn late).map Print.byte := by
    rw [Pipes.turnStream, List.map_append, List.map_map]
    rfl
  rw [hbytes] at hfind
  have hstands := Prompt.standsAt_of_find hfind
  have hlength : ((q.arrivingIn early).map Print.byte).length = (q.arrivingIn early).length :=
    List.length_map _
  by_cases hle : (q.arrivingIn early).length ≤ i
  · exact hle
  exfalso
  by_cases hwithin : i + p.bytes.length ≤ (q.arrivingIn early).length
  · exact Prompt.find_eq_none_iff.mp h.no_prompt i (hstands.of_append (by omega))
  obtain ⟨hline, hprefix, b, rest, hnext, hb⟩ := hstands.across (by omega) (by omega)
  rcases h.no_start with hheld | hno
  · -- Both pipes hold something, so the next byte comes out of a pipe.
    have hboth : ∀ stream, (q.afterAll early).age.held stream ≠ [] :=
      fun stream hnone => hheld stream (List.map_eq_nil_iff.mp hnone)
    cases hnow : (q.afterAll early).age.arrivingIn late with
    | nil =>
      rw [hnow] at hnext
      cases hnext
    | cons c more =>
      rw [hnow, List.map_cons] at hnext
      obtain ⟨rfl, -⟩ := List.cons.inj hnext
      obtain ⟨stream, hhead⟩ := Pipes.head_of_arrivingIn hboth hnow
      exact h.not_mem (List.mem_of_head? hhead) hb
  · exact hno i (by omega) ⟨hline, hprefix⟩

theorem Clear.late_of_mem (h : Clear p ((q.arrivingIn early).map Print.byte) (q.afterAll early))
    {late : List Moment} {raw : Bytes}
    (hfind : p.find ((q.turnStream early late).map Print.byte) = some raw.length) {b : Print}
    (hb : b ∈ promptPrints p (q.turnStream early late) raw) : b.late = true := by
  have hle := h.le_of_find hfind
  have hmarker : b.byte ∈ p.bytes := by
    rw [← map_byte_promptPrints hfind]
    exact List.mem_map_of_mem hb
  have harriving : b ∈ (q.afterAll early).age.arrivingIn late := by
    have hdrop := List.mem_of_mem_take hb
    rw [Pipes.turnStream, List.drop_append, List.drop_eq_nil_of_le (by rwa [List.length_map]),
      List.nil_append] at hdrop
    exact List.mem_of_mem_drop hdrop
  cases hlate : b.late with
  | true => rfl
  | false =>
    obtain ⟨stream, hheld⟩ := Pipes.mem_held_of_arrivingIn harriving hlate
    exact absurd hmarker (h.not_mem hheld)

/-- If the code of a turn was written when nothing that had been printed could become part of
a prompt, then the turn is attributed. -/
theorem Clear.attributed
    (h : Clear s.prompt ((q.arrivingIn early).map Print.byte) (q.afterAll early))
    (hwritable : s.writable = true) : Attributed s.prompt s q .delivered early := by
  intro late raw s' rest hturn
  have hfind := Session.find_of_success hturn
  rw [← map_byte_turnStream] at hfind
  exact ⟨hwritable, rfl, fun b hb => h.late_of_mem hfind hb⟩

/-! ## A turn that is not clear -/

namespace Pipes

def flush (q : Pipes) (stream : Stream) (text : Bytes) : List Moment :=
  [.prints stream text, .forwards stream ((q.held stream).length + text.length)]

/-- Of one pipe some bytes are forwarded, and then one more between two texts that are
printed to the other pipe. -/
def splice (q : Pipes) (stream : Stream) (n : Nat) (before behind : Bytes) : List Moment :=
  .forwards stream n :: q.flush stream.other before ++
    [.forwards stream 1, .prints stream.other behind, .forwards stream.other behind.length]

variable {stream : Stream}

theorem isOpen_of_open (h : q.ended = false) : q.isOpen stream = true := by
  cases stream with
  | output => rw [isOpen, h, Bool.not_false]
  | error => rfl

theorem take_all (kept : List Print) (text : Bytes) :
    (kept ++ printed text).take (kept.length + text.length) = kept ++ printed text := by
  rw [← length_printed text, ← List.length_append, List.take_length]

theorem arrivingIn_flush (h : q.ended = false) (text : Bytes) :
    q.arrivingIn (q.flush stream text) = q.held stream ++ printed text := by
  simp [flush, arrivingIn, arriving, front, after, isOpen_of_open h, hold, take_all]

theorem other_ne (stream : Stream) : stream.other ≠ stream := by cases stream <;> decide

theorem arrivingIn_splice (h : q.ended = false) {a c : List Print} {b : Print}
    (hheld : q.held stream = a ++ b :: c) (before behind : Bytes) :
    q.arrivingIn (q.splice stream a.length before behind) =
      a ++ (q.held stream.other ++ (printed before ++ b :: printed behind)) := by
  have hopen : ∀ q' : Pipes, q'.ended = false → q'.isOpen stream.other = true :=
    fun q' h' => isOpen_of_open h'
  have hother := other_ne stream
  have hempty : (printed before).drop before.length = [] := by
    rw [← length_printed before, List.drop_length]
  have hbehind := take_all [] behind
  rw [List.nil_append, List.length_nil, Nat.zero_add] at hbehind
  simp [splice, flush, arrivingIn, arriving, front, after, hold, hopen, h, take_all, hempty,
    hbehind, hother, hother.symm, hheld]

end Pipes

/-- If a turn is attributed then every prompt that can come about in it without the end of
the output is one whose bytes are printed late. -/
theorem Attributed.late_of_find (h : Attributed s.prompt s q d early) (hrunning : s.Running)
    (hd : d ≠ .failed) {late : List Moment} (hopen : (q.afterAll (early ++ late)).ended = false)
    {i : Nat} (hfind : s.prompt.find ((q.turnStream early late).map Print.byte) = some i) :
    s.writable = true ∧ d = .delivered ∧
      ∀ b ∈ ((q.turnStream early late).drop i).take s.prompt.bytes.length, b.late = true := by
  rw [map_byte_turnStream] at hfind
  obtain ⟨n, raw, s', rest, hturn, rfl⟩ :=
    hrunning.evaluate_success hd (Pipes.not_closed_of_open hopen) hfind
  rw [← Pipes.play_looks (q.afterAll (early ++ late)), ← Pipes.play_append,
    List.append_assoc] at hturn
  obtain ⟨hwritable, hdelivered, hlate⟩ := h _ _ _ _ hturn
  have hstream :
      q.turnStream early (late ++ List.replicate n .looks) = q.turnStream early late := by
    rw [Pipes.turnStream, Pipes.arrivingIn_append, Pipes.arrivingIn_looks, List.append_nil]
    rfl
  rw [hstream] at hlate
  exact ⟨hwritable, hdelivered, hlate⟩

/-- In a turn that is attributed the prompt begins behind everything that was printed early
and arrives before it. -/
theorem Attributed.length_le (h : Attributed s.prompt s q d early) (hrunning : s.Running)
    (hd : d ≠ .failed) {late : List Moment} (hopen : (q.afterAll (early ++ late)).ended = false)
    {stale rest : List Print} (hstream : q.turnStream early late = stale ++ rest)
    (hstale : ∀ b ∈ stale, b.late = false) {i : Nat}
    (hfind : s.prompt.find ((stale ++ rest).map Print.byte) = some i) : stale.length ≤ i := by
  rw [← hstream] at hfind
  obtain ⟨-, -, hlate⟩ := h.late_of_find hrunning hd hopen hfind
  rw [hstream] at hlate
  by_cases hle : stale.length ≤ i
  · exact hle
  exfalso
  have hlt : i < stale.length := by omega
  have hpos := s.prompt.bytes_length_pos
  have hfirst : stale[i] ∈ ((stale ++ rest).drop i).take s.prompt.bytes.length := by
    rw [List.drop_append_of_le_length (by omega), List.drop_eq_getElem_cons hlt, List.cons_append]
    obtain ⟨n, hn⟩ := Nat.exists_eq_succ_of_ne_zero (by omega : s.prompt.bytes.length ≠ 0)
    rw [hn, List.take_succ_cons]
    exact List.mem_cons_self
  have hnot := hstale _ (List.getElem_mem hlt)
  rw [hlate _ hfirst] at hnot
  cases hnot

variable (h : Attributed s.prompt s q d early) (hrunning : s.Running) (hd : d ≠ .failed)
  (hopen : (q.afterAll early).ended = false)

include hopen in
theorem open_of_not_ends {late : List Moment} (hlate : .ends ∉ late) :
    (q.afterAll (early ++ late)).ended = false := by
  rw [Pipes.afterAll_append, Pipes.ended_afterAll_of_not_mem _ hlate, hopen]

include hopen in
theorem turnStream_flush (stream : Stream) (text : Bytes) :
    q.turnStream early ((q.afterAll early).age.flush stream text) =
      (q.arrivingIn early).map Print.age ++
        ((q.afterAll early).age.held stream ++ printed text) := by
  have hage : (q.afterAll early).age.ended = false := hopen
  rw [Pipes.turnStream, Pipes.arrivingIn_flush hage]

include h hrunning hd hopen

/-- The interpreter can print a prompt behind everything that it has printed to its output. -/
theorem Attributed.delivered : s.writable = true ∧ d = .delivered := by
  obtain ⟨gap, i, hfind, -⟩ := s.prompt.find_continued
    (((q.arrivingIn early).map Print.age ++ (q.afterAll early).age.held .output).map Print.byte)
  have hstream : (q.turnStream early ((q.afterAll early).age.flush .output (gap ++ s.prompt.bytes))).map
      Print.byte = ((q.arrivingIn early).map Print.age ++ (q.afterAll early).age.held .output).map
        Print.byte ++ (gap ++ s.prompt.bytes) := by
    rw [turnStream_flush hopen, ← List.append_assoc, List.map_append, map_byte_printed]
  rw [← hstream] at hfind
  obtain ⟨hwritable, hdelivered, -⟩ :=
    h.late_of_find hrunning hd (open_of_not_ends hopen (by simp [Pipes.flush])) hfind
  exact ⟨hwritable, hdelivered⟩

theorem Attributed.no_prompt : s.prompt.find ((q.arrivingIn early).map Print.byte) = none := by
  cases hfind : s.prompt.find ((q.arrivingIn early).map Print.byte) with
  | none => rfl
  | some i =>
    have hle := (Prompt.standsAt_of_find hfind).le
    have hpos := s.prompt.bytes_length_pos
    have hbytes : ((q.arrivingIn early).map Print.age ++ []).map Print.byte =
        (q.arrivingIn early).map Print.byte := by
      rw [List.append_nil, List.map_map]
      rfl
    rw [← hbytes] at hfind
    have hlater : (q.afterAll (early ++ [])).ended = false :=
      open_of_not_ends hopen List.not_mem_nil
    have hfirst := h.length_le hrunning hd hlater rfl (fun b hb => late_eq_false_of_age hb) hfind
    rw [List.length_map] at hle hfirst
    omega

/-- The interpreter can print the rest of a prompt that has been started to an empty pipe. -/
theorem Attributed.no_start : (∀ stream, (q.afterAll early).held stream ≠ []) ∨
    ∀ i < ((q.arrivingIn early).map Print.byte).length,
      ¬ (Prompt.StartsLine true ((q.arrivingIn early).map Print.byte) i ∧
        ((q.arrivingIn early).map Print.byte).drop i <+: s.prompt.bytes) := by
  by_cases hheld : ∀ stream, (q.afterAll early).held stream ≠ []
  · exact Or.inl hheld
  obtain ⟨stream, hstream⟩ := Classical.not_forall.mp hheld
  have hempty : (q.afterAll early).age.held stream = [] :=
    List.map_eq_nil_iff.mpr (Classical.not_not.mp hstream)
  refine Or.inr fun i hi ⟨hline, tail, htail⟩ => ?_
  have hturn : q.turnStream early ((q.afterAll early).age.flush stream tail) =
      (q.arrivingIn early).map Print.age ++ printed tail := by
    rw [turnStream_flush hopen, hempty, List.nil_append]
  have hbytes : ((q.arrivingIn early).map Print.age ++ printed tail).map Print.byte =
      (q.arrivingIn early).map Print.byte ++ tail := by
    rw [List.map_append, List.map_map, map_byte_printed]
    rfl
  have hstands : s.prompt.StandsAt ((q.arrivingIn early).map Print.byte ++ tail) i := by
    refine ⟨(Prompt.startsLine_append (by omega)).mpr hline, ?_⟩
    rw [List.drop_append_of_le_length (by omega)]
    exact ⟨[], by rw [List.append_nil, htail]⟩
  obtain ⟨j, hfind, hle⟩ := Prompt.find_le_of_standsAt hstands
  rw [← hbytes] at hfind
  have hfirst := h.length_le hrunning hd (open_of_not_ends hopen (by simp [Pipes.flush])) hturn
    (fun b hb => late_eq_false_of_age hb) hfind
  rw [List.length_map] at hi hfirst
  omega

omit h hrunning hd hopen in
theorem mem_take_drop {before mid behind : List Print} {b : Print} {n : Nat} (hn : mid.length < n) :
    b ∈ ((before ++ (mid ++ b :: behind)).drop before.length).take n := by
  obtain ⟨k, rfl⟩ : ∃ k, n = mid.length + (k + 1) := ⟨n - mid.length - 1, by omega⟩
  rw [List.drop_left, List.take_append, List.mem_append]
  refine Or.inr ?_
  rw [Nat.add_sub_cancel_left, List.take_succ_cons]
  exact List.mem_cons_self

/-- The interpreter can print the bytes around one that is on its way to the other stream, so
that the three make up a prompt. -/
theorem Attributed.no_byte (stream : Stream) {b : Print} (hb : b ∈ (q.afterAll early).held stream) :
    b.byte ∉ s.prompt.bytes := by
  intro hmarker
  obtain ⟨before, behind, hbytes⟩ := List.append_of_mem hmarker
  obtain ⟨a, c, hheld⟩ := List.append_of_mem (List.mem_map_of_mem (f := Print.age) hb)
  obtain ⟨stale, hstaleEq⟩ : ∃ stale, stale =
      (q.arrivingIn early).map Print.age ++ (a ++ (q.afterAll early).age.held stream.other) :=
    ⟨_, rfl⟩
  obtain ⟨gap, i, hfind, hi⟩ := s.prompt.find_continued (stale.map Print.byte)
  let late := (q.afterAll early).age.splice stream a.length (gap ++ before) behind
  have hnot : .ends ∉ late := by simp [late, Pipes.splice, Pipes.flush]
  have hlater := open_of_not_ends hopen hnot
  have hturn : q.turnStream early late =
      stale ++ (printed (gap ++ before) ++ b.age :: printed behind) := by
    have hage : (q.afterAll early).age.ended = false := hopen
    rw [Pipes.turnStream, Pipes.arrivingIn_splice hage hheld]
    simp only [hstaleEq, List.append_assoc]
  have hstale : ∀ c ∈ stale, c.late = false := by
    intro x hx
    rw [hstaleEq] at hx
    rcases List.mem_append.mp hx with harrived | hpipe
    · exact late_eq_false_of_age harrived
    · rcases List.mem_append.mp hpipe with hfront | hother
      · exact late_eq_false_of_age (hheld ▸ List.mem_append_left _ hfront)
      · exact late_eq_false_of_age hother
  have hcompleted : (stale ++ (printed (gap ++ before) ++ b.age :: printed behind)).map Print.byte =
      stale.map Print.byte ++ (gap ++ s.prompt.bytes) := by
    rw [hbytes]
    simp [Print.age]
  rw [← hcompleted] at hfind
  have hfirst := h.length_le hrunning hd hlater hturn hstale hfind
  rw [← hturn] at hfind
  obtain ⟨-, -, hlate⟩ := h.late_of_find hrunning hd hlater hfind
  have hmem : b.age ∈ ((q.turnStream early late).drop i).take s.prompt.bytes.length := by
    rcases hi with hlt | heq
    · rw [List.length_map] at hlt
      omega
    · have hlength : (stale ++ printed gap).length = i := by
        rw [heq, List.length_append, List.length_append, List.length_map, length_printed]
      have hsplit : q.turnStream early late =
          (stale ++ printed gap) ++ (printed before ++ b.age :: printed behind) := by
        rw [hturn, printed_append]
        simp only [List.append_assoc]
      rw [hsplit, ← hlength]
      refine mem_take_drop ?_
      rw [hbytes, length_printed, List.length_append, List.length_cons]
      omega
  have hold : b.age.late = false := rfl
  rw [hlate _ hmem] at hold
  cases hold

end

/-! ## Exactly when a turn is attributed -/

/-- If the code of a turn was written, and nothing that had been printed by then could become
part of a prompt, then no prompt but one that was printed later ends the turn.  For a running
interpreter this is also the only way: else there is a way for things to go on in which the turn
succeeds and its prompt is not wholly its own. -/
theorem attributed_iff_clear {p : Prompt} {s : Session} {q : Pipes} (h : Situation p s q)
    (d : Delivery) (early : List Moment) :
    (s.writable = true ∧ d = .delivered ∧
        Clear p ((q.arrivingIn early).map Print.byte) (q.afterAll early) →
      Attributed p s q d early) ∧
    (d ≠ .failed → (q.afterAll early).ended = false → Attributed p s q d early →
      s.writable = true ∧ d = .delivered ∧
        Clear p ((q.arrivingIn early).map Print.byte) (q.afterAll early)) := by
  obtain ⟨rfl, hrunning⟩ := h.running
  constructor
  · rintro ⟨hwritable, rfl, hclear⟩
    exact hclear.attributed hwritable
  · intro hd hopen hattributed
    have hrun := hrunning (Pipes.ended_of_afterAll hopen)
    obtain ⟨hwritable, hdelivered⟩ := hattributed.delivered hrun hd hopen
    exact ⟨hwritable, hdelivered, hattributed.no_prompt hrun hd hopen,
      hattributed.no_byte hrun hd hopen, hattributed.no_start hrun hd hopen⟩

/-- An interpreter is started, evaluates one form of a code, and then a second one, while the
code of the next turn is being written. -/
def firstPrompt : List Moment := [.prints .output [42, 32], .forwards .output 2, .looks]

def firstForm : List Moment := [.prints .output [97, 10, 42, 32], .forwards .output 4, .looks]

def secondForm : List Moment := [.prints .output [98, 10, 42, 32]]

theorem situation_firstForm : Situation .star ⟨.star, [], [], false, true⟩
    ((Pipes.empty.afterAll firstPrompt).afterAll firstForm) := by
  have hstart : Session.start .star "sh" 5000 (Pipes.empty.play firstPrompt) =
      (.ok ⟨.star, [], [], false, true⟩, []) := rfl
  exact .evaluates (d := .delivered) (.start hstart) rfl

theorem attributed_iff_clear_secondForm :
    Situation .star ⟨.star, [], [], false, true⟩
      ((Pipes.empty.afterAll firstPrompt).afterAll firstForm) ∧
    Attributed .star ⟨.star, [], [], false, true⟩
      ((Pipes.empty.afterAll firstPrompt).afterAll firstForm) .delivered [] ∧
    ¬ Attributed .star ⟨.star, [], [], false, true⟩
      ((Pipes.empty.afterAll firstPrompt).afterAll firstForm) .delivered secondForm := by
  refine ⟨situation_firstForm, ?_, fun hattributed => ?_⟩
  · refine (attributed_iff_clear situation_firstForm .delivered []).1 ⟨rfl, rfl, rfl, ?_, Or.inr ?_⟩
    · intro stream b hb
      cases stream <;> cases hb
    · intro i hi
      exact absurd hi (Nat.not_lt_zero i)
  · obtain ⟨-, -, hclear⟩ := (attributed_iff_clear situation_firstForm .delivered secondForm).2
      Delivery.noConfusion rfl hattributed
    exact hclear.no_byte .output ⟨42, true⟩ (by decide) (by decide)

/-- The second prompt of two forms, printed before the next code had been written, ends the
turn of that code. -/
theorem leftover_prompt_ends_turn : ¬ ∀ p s q, Situation p s q → s.writable = true →
    ∀ early late raw s' rest, s.evaluate .delivered (q.play (early ++ late)) =
        (.ok ⟨.success, raw⟩, s', rest) →
      ∀ b ∈ promptPrints p (q.turnStream early late) raw, b.late = true := by
  intro h
  have hlate := h .star _ _ situation_firstForm rfl secondForm [.forwards .output 4, .looks]
    [98, 10] ⟨.star, [], [], false, true⟩ [] rfl ⟨42, false⟩ (by decide)
  cases hlate

end LiveDoc
