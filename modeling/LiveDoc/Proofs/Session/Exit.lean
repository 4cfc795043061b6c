/-
Turns with an interpreter that has gone.

An interpreter can go in two ways.  If it ends its output, the session learns of it from the
end that comes through the channel, and from then on every turn is over before anything is
written.  If it only stops reading, the session learns of it when a code cannot be written.
That is not the end of the turn: the session goes on to wait, and what it waits for depends
on the output alone.  So a turn whose code has not been delivered ends as if it had been.

Both are invariants of the session, kept by every event and every turn.  `turns_of_kept` is
the induction over all later turns.
-/
import LiveDoc.Proofs.Session.Attribution
import LiveDoc.Proofs.Verifier.FailFast
import LiveDoc.Session.Live

namespace LiveDoc

inductive Visit where
  | arrives (e : StreamEvent)
  /-- A code is to be evaluated.  If it is written then `d` says what becomes of it. -/
  | evaluates (code : String) (d : Delivery) (schedule : List Happening)

structure Turn where
  before : Session
  schedule : List Happening
  /-- What the session tries to write to the interpreter. -/
  offered : Option Bytes
  result : Except SessionError Evaluation
  after : Session

namespace Session

def turn (s : Session) (code : String) (d : Delivery) (schedule : List Happening) : Turn :=
  let (result, s', _) := s.evaluate d schedule
  ⟨s, schedule, s.offer code, result, s'⟩

def turns (s : Session) : List Visit → List Turn
  | [] => []
  | .arrives e :: rest => turns (s.arrive e) rest
  | .evaluates code d schedule :: rest =>
    s.turn code d schedule :: turns (s.turn code d schedule).after rest

/-- What holds of every turn of a session with a property that all events and turns keep. -/
theorem turns_of_kept {I : Session → Prop} {Q : Turn → Prop}
    (harrive : ∀ s e, I s → I (s.arrive e))
    (hturn : ∀ s code d schedule, I s →
      Q (s.turn code d schedule) ∧ I (s.turn code d schedule).after)
    {s : Session} (h : I s) (visits : List Visit) : ∀ t ∈ s.turns visits, Q t := by
  induction visits generalizing s with
  | nil => exact fun t ht => absurd ht List.not_mem_nil
  | cons visit rest ih =>
    cases visit with
    | arrives e => exact ih (harrive s e h)
    | evaluates code d schedule =>
      obtain ⟨hnow, hafter⟩ := hturn s code d schedule h
      intro t ht
      rcases List.mem_cons.mp ht with rfl | hlater
      · exact hnow
      · exact ih hafter t hlater

/-! ## The end of the output -/

/-- The end of the output has been received, or is in the channel. -/
def Gone (s : Session) : Prop := s.exited = true ∨ .closed ∈ s.channel

variable {s : Session}

theorem deliver_of_unwritten (h : (s.exited || !s.writable) = true) (d : Delivery) :
    s.deliver d = .ok s := by
  unfold deliver
  exact if_pos h

theorem Gone.arrive (h : s.Gone) (e : StreamEvent) : (s.arrive e).Gone :=
  h.imp_right fun hmem => List.mem_append_left [e] hmem

/-- What is discarded at the beginning of a turn reaches to the end of the output. -/
theorem Gone.discardStray (h : s.Gone) : s.discardStray.exited = true := by
  obtain ⟨-, received, hchannel, -, hexited⟩ := s.discardStray_spec
  rcases h with h | h
  · exact hexited.mpr (Or.inl h)
  · cases hopen : s.discardStray.exited with
    | true => rfl
    | false =>
      -- Then nothing is left in the channel, so the end of the output was received.
      rw [channel_discardStray hopen, List.append_nil] at hchannel
      rw [hexited.mpr (Or.inr (hchannel ▸ h))] at hopen
      cases hopen

theorem Gone.unwritten (h : s.Gone) :
    (s.discardStray.exited || !s.discardStray.writable) = true := by
  rw [h.discardStray, Bool.true_or]

theorem wait_of_exited (hexited : s.exited = true) (hpending : s.pending = [])
    (schedule : List Happening) : s.wait schedule = (.exited, s, schedule) := by
  have hend : s.waitEnd? = some .exited := by
    rw [waitEnd?_of_not_find (by rw [hpending, Prompt.find_nil]), hexited]
    rfl
  cases schedule with
  | nil => rw [wait, hend, Option.getD_some]
  | cons h rest => rw [wait, hend]

theorem Gone.evaluate (h : s.Gone) (d : Delivery) (schedule : List Happening) :
    s.evaluate d schedule = (.ok ⟨.exited, []⟩, s.discardStray, schedule) := by
  have hwait := wait_of_exited h.discardStray s.pending_discardStray schedule
  have htake : s.discardStray.takeTurn = ([], s.discardStray) := by
    rw [takeTurn_of_not_find (by rw [pending_discardStray, Prompt.find_nil]),
      pending_discardStray, ← s.pending_discardStray]
  rw [evaluate_of_deliver (deliver_of_unwritten h.unwritten d) hwait, htake]
  rfl

theorem Gone.offer (h : s.Gone) (code : String) : s.offer code = none := if_pos h.unwritten

theorem Gone.turn (h : s.Gone) (code : String) (d : Delivery) (schedule : List Happening) :
    s.turn code d schedule = ⟨s, schedule, none, .ok ⟨.exited, []⟩, s.discardStray⟩ := by
  rw [Session.turn, h.evaluate, h.offer]

/-- The end of the output is final.  If it has come to a session by the time a turn begins, then
this turn and all later ones report it and nothing else, whatever is pending or in the channel and
whatever happens.  Nothing is written to the interpreter any more. -/
theorem exit_absorbing (h : s.exited = true ∨ .closed ∈ s.channel) (visits : List Visit) :
    ∀ t ∈ s.turns visits,
      t.offered = none ∧ t.result = .ok ⟨.exited, []⟩ ∧ t.after.exited = true := by
  refine turns_of_kept (I := Gone) (fun s e hs => hs.arrive e) (fun s code d schedule hs => ?_) h visits
  rw [hs.turn]
  exact ⟨⟨rfl, rfl, hs.discardStray⟩, Or.inl hs.discardStray⟩

def promptsLeft : Session :=
  ⟨.star, [98, 10, 42, 32], [.data [42, 32], .closed, .data [42, 32]], false, true⟩

def visitsTooLate : List Visit :=
  [.evaluates "(+ 2 2)" .delivered [.arrives (.data [42, 32]), .looks], .arrives (.data [42, 32]),
    .evaluates "(+ 3 3)" .delivered [.looks]]

theorem exit_absorbing_promptsLeft :
    (promptsLeft.exited = true ∨ .closed ∈ promptsLeft.channel) ∧
      promptsLeft.prompt.find promptsLeft.pending = some 2 ∧
      (promptsLeft.turns visitsTooLate).length = 2 ∧
      ∀ t ∈ promptsLeft.turns visitsTooLate,
        t.offered = none ∧ t.result = .ok ⟨.exited, []⟩ ∧ t.after.exited = true := by
  have hclosed : promptsLeft.exited = true ∨ .closed ∈ promptsLeft.channel := Or.inr (by decide)
  exact ⟨hclosed, rfl, rfl, exit_absorbing hclosed visitsTooLate⟩

theorem gone_afterAll (schedule : List Happening) :
    (s.afterAll schedule).Gone ↔ s.Gone ∨ .closed ∈ arrivalsIn schedule := by
  obtain ⟨received, hchannel, -, hexited⟩ := s.afterAll_spec schedule
  have hmem : .closed ∈ s.channel ++ arrivalsIn schedule ↔
      .closed ∈ received ++ (s.afterAll schedule).channel := by rw [hchannel]
  rw [List.mem_append, List.mem_append] at hmem
  rw [Gone, Gone, hexited, or_assoc, ← hmem, or_assoc]

theorem gone_takeTurn : s.takeTurn.2.Gone ↔ s.Gone := by
  rw [takeTurn_eq]
  rfl

theorem gone_discardStray : s.discardStray.Gone ↔ s.Gone := by
  obtain ⟨-, received, hchannel, -, hexited⟩ := s.discardStray_spec
  rw [Gone, Gone, hexited, hchannel, List.mem_append, or_assoc]

theorem gone_evaluate {s' : Session} {d : Delivery} {schedule : List Happening}
    {result : Except SessionError Evaluation} (h : s.evaluate d schedule = (result, s', [])) :
    s'.Gone ↔ s.Gone ∨ .closed ∈ arrivalsIn schedule := by
  cases result with
  | error err =>
    obtain ⟨rfl, rfl⟩ := evaluate_error h
    rw [gone_discardStray, arrivalsIn, or_iff_left List.not_mem_nil]
  | ok ev =>
    obtain ⟨w, e, s₁, hwait, -, rfl⟩ := evaluate_ok h
    obtain ⟨done, hdone, rfl, -⟩ := wait_spec hwait
    rw [List.append_nil] at hdone
    have hdiscarded : ({ s.discardStray with writable := w } : Session).Gone ↔ s.Gone :=
      gone_discardStray
    rw [gone_takeTurn, gone_afterAll, hdiscarded, hdone]

end Session

theorem Pipes.reported_after (q : Pipes) (m : Moment) :
    (q.after m).reported = true ↔ q.reported = true ∨ .closed ∈ arrivalsIn (q.happenings m) := by
  cases m with
  | prints stream text =>
    have hquiet : q.happenings (.prints stream text) = [] := rfl
    rw [after, hquiet]
    split <;> simp [hold, arrivalsIn]
  | ends => simp [after, happenings, arrivalsIn]
  | looks => simp [after, happenings, arrivalsIn]
  | forwards stream most =>
    rw [after, happenings]
    cases hend : q.atEnd stream with
    | true => simp [arrivalsIn]
    | false =>
      rw [if_neg Bool.false_ne_true]
      split <;> simp [arrivalsIn]

theorem Pipes.reported_afterAll (q : Pipes) (moments : List Moment) :
    (q.afterAll moments).reported = true ↔
      q.reported = true ∨ .closed ∈ arrivalsIn (q.play moments) := by
  induction moments generalizing q with
  | nil => simp [afterAll, play, arrivalsIn]
  | cons m rest ih =>
    rw [afterAll_cons, ih, reported_after, play, arrivalsIn_append, List.mem_append, or_assoc]

/-- The end of the output has come to a session exactly when it has been forwarded. -/
theorem Situation.gone_iff_reported {p : Prompt} {s : Session} {q : Pipes} (h : Situation p s q) :
    s.Gone ↔ q.reported = true := by
  induction h with
  | @start command timeout moments s h =>
    obtain ⟨s₁, hwait, rfl⟩ := Session.start_ok h
    obtain ⟨done, hdone, rfl, -⟩ := Session.wait_spec hwait
    rw [List.append_nil] at hdone
    have hnew : ¬ (Session.new p).Gone := by simp [Session.Gone, Session.new]
    rw [Session.gone_takeTurn, Session.gone_afterAll, Pipes.reported_afterAll, hdone,
      or_iff_right hnew]
    simp [Pipes.empty]
  | @passes s q m hm h ih =>
    rw [Session.gone_afterAll, ih, Pipes.reported_after]
    simp [Pipes.play]
  | @evaluates s s' q d moments result h hturn ih =>
    rw [Session.gone_evaluate hturn, ih, Pipes.reported_afterAll]

/-! ## Runs of examples -/

theorem Live.gone_settle {l : Live} (h : l.session.Gone) : l.settle.session.Gone := by
  have hall : ∀ (events : List (Nat × StreamEvent)) (s : Session), s.Gone →
      (events.foldl (fun s e => s.arrive e.2) s).Gone := by
    intro events
    induction events with
    | nil => exact fun _ hs => hs
    | cons e rest ih => exact fun s hs => ih (s.arrive e.2) (hs.arrive e.2)
  exact hall _ l.session h

/-- Once the end of the output has come, no example passes, whatever prompts have been printed
before it. -/
theorem Verifier.run_of_gone {τ : Type} {sink : Sink τ} (hsink : sink.Reliable)
    {v : Verifier Live τ} (h : v.interpreter.session.Gone) (e : Example) (rest : List Example) :
    (v.run .live sink (e :: rest)).1 = .ok ⟨0, some ⟨1, e, .exited, v.evaluated⟩⟩ := by
  have hsettled := Live.gone_settle h
  obtain ⟨s, hreply⟩ : ∃ s, Interpreter.live.evaluate v.interpreter e.code =
      (.ok ⟨.exited, []⟩, s) := by
    refine ⟨_, Prod.ext ?_ rfl⟩
    simp only [Interpreter.live, Live.evaluate]
    rw [hsettled.evaluate]
  have hverify := verify_of_reliable hsink hreply
  have hverdict : e.verdictOn ⟨.exited, []⟩ = .exited := rfl
  have hrejected : ¬ e.Accepts ⟨.exited, []⟩ := fun h => Verdict.noConfusion h.1
  rw [hverdict, if_neg hrejected] at hverify
  rw [run, runFrom_rejected hverify Verdict.noConfusion]

end LiveDoc
