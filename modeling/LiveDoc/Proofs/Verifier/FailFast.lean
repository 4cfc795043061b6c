/-
A run takes one turn for each example and ends with the first turn that is not accepted.

Which turns there are is up to the interpreter alone: `Answers` relates its state,
the examples whose code it is sent with what it makes of them, and its state then.
`runFrom_accepted` is the induction: accepted turns are passed over.  What the next
example does to the run is then one step.
-/
import LiveDoc.Interpreter.Scripted
import LiveDoc.Proofs.Verifier.Turn

namespace LiveDoc

/-- Sent the code of some examples one after the other, the interpreter makes of each what
stands beside it. -/
inductive Interpreter.Answers {σ ε : Type} (repl : Interpreter σ ε) :
    σ → List (Example × Evaluation) → σ → Prop
  | nil (s : σ) : Answers repl s [] s
  | cons {s s₁ s₂ : σ} {e : Example} {ev : Evaluation} {turns : List (Example × Evaluation)}
      (first : repl.evaluate s e.code = (.ok ev, s₁)) (others : Answers repl s₁ turns s₂) :
      Answers repl s ((e, ev) :: turns) s₂

def codesOf (turns : List (Example × Evaluation)) : List String := turns.map fun t => t.1.code

def Sink.afterTurns {τ : Type} (sink : Sink τ) (prompt : String)
    (turns : List (Example × Evaluation)) (s : τ) : τ :=
  turns.foldl (fun s t => (sink.writeTurn prompt t.1.code (Capture.text t.2.raw) s).1) s

theorem Sink.afterTurns_append {τ : Type} (sink : Sink τ) (prompt : String)
    (a b : List (Example × Evaluation)) (s : τ) :
    sink.afterTurns prompt (a ++ b) s = sink.afterTurns prompt b (sink.afterTurns prompt a s) :=
  List.foldl_append

def transcriptOf (prompt : String) (turns : List (Example × Evaluation)) : List Char :=
  turns.flatMap fun t => turnText prompt t.1.code (Capture.text t.2.raw)

namespace Interpreter

variable {σ ε : Type} {repl : Interpreter σ ε}

theorem Answers.recording {s s' : σ} {turns : List (Example × Evaluation)}
    (h : repl.Answers s turns s') (sent : List String) :
    repl.recording.Answers (s, sent) turns (s', sent ++ codesOf turns) := by
  induction h generalizing sent with
  | nil s =>
    rw [codesOf, List.map_nil, List.append_nil]
    exact .nil _
  | @cons s s₁ s₂ e ev turns first others ih =>
    have hrest := ih (sent ++ [e.code])
    rw [List.append_assoc] at hrest
    exact .cons (evaluate_recording first sent) hrest

/-- How far examples are accepted: all of them, or up to one whose turn is not accepted or in
which the interpreter fails. -/
theorem answers_cases (repl : Interpreter σ ε) (s : σ) (examples : List Example) :
    ∃ turns s', repl.Answers s turns s' ∧ (∀ t ∈ turns, t.1.Accepts t.2) ∧
      (examples = turns.map Prod.fst ∨
        ∃ e rest, examples = turns.map Prod.fst ++ e :: rest ∧
          ((∃ ev s'', repl.evaluate s' e.code = (.ok ev, s'') ∧ ¬ e.Accepts ev) ∨
            ∃ err s'', repl.evaluate s' e.code = (.error err, s''))) := by
  induction examples generalizing s with
  | nil => exact ⟨[], s, .nil s, nofun, Or.inl rfl⟩
  | cons e rest ih =>
    rcases hreply : repl.evaluate s e.code with ⟨err | ev, s₁⟩
    · exact ⟨[], s, .nil s, nofun, Or.inr ⟨e, rest, rfl, Or.inr ⟨err, s₁, hreply⟩⟩⟩
    · by_cases haccepts : e.Accepts ev
      · obtain ⟨turns, s', hturns, haccepted, hend⟩ := ih s₁
        refine ⟨(e, ev) :: turns, s', .cons hreply hturns, ?_, ?_⟩
        · rintro t (_ | ⟨_, ht⟩)
          · exact haccepts
          · exact haccepted t ht
        · rcases hend with hall | ⟨e', rest', hrest, hfails⟩
          · exact Or.inl (by rw [hall]; rfl)
          · exact Or.inr ⟨e', rest', by rw [hrest]; rfl, hfails⟩
      · exact ⟨[], s, .nil s, nofun, Or.inr ⟨e, rest, rfl, Or.inl ⟨ev, s₁, hreply, haccepts⟩⟩⟩

end Interpreter

namespace Verifier

variable {σ τ ε : Type} {repl : Interpreter σ ε} {sink : Sink τ}

def afterTurns (sink : Sink τ) (v : Verifier σ τ) (turns : List (Example × Evaluation)) (s : σ) :
    Verifier σ τ :=
  ⟨s, sink.afterTurns v.prompt turns v.transcript, v.prompt, v.evaluated ++ codesOf turns⟩

theorem afterTurns_nil (v : Verifier σ τ) : v.afterTurns sink [] v.interpreter = v := by
  rw [afterTurns, codesOf, List.map_nil, List.append_nil]
  rfl

theorem verify_of_reliable (hsink : sink.Reliable) {v : Verifier σ τ} {e : Example}
    {ev : Evaluation} {s : σ} (hreply : repl.evaluate v.interpreter e.code = (.ok ev, s)) :
    v.verify repl sink e = (.ok (e.verdictOn ev),
      ⟨s, sink.afterTurns v.prompt [(e, ev)] v.transcript, v.prompt,
        if e.Accepts ev then v.evaluated ++ [e.code] else v.evaluated⟩) :=
  verify_of_reply hreply (Prod.ext rfl (hsink.writeTurn _ _ _ _))

/-- A run passes over turns that are accepted. -/
theorem runFrom_accepted (hsink : sink.Reliable) {v : Verifier σ τ} {s : σ}
    {turns : List (Example × Evaluation)} (hturns : repl.Answers v.interpreter turns s)
    (haccepted : ∀ t ∈ turns, t.1.Accepts t.2) (passed : Nat) (rest : List Example) :
    v.runFrom repl sink passed (turns.map Prod.fst ++ rest) =
      (v.afterTurns sink turns s).runFrom repl sink (passed + turns.length) rest := by
  -- Each turn moves the verifier and the count, so the induction on turns leaves both open.
  induction turns generalizing v passed with
  | nil =>
    cases hturns
    rw [afterTurns_nil]
    rfl
  | cons t turns ih =>
    cases hturns with
    | @cons _ s₁ _ e ev _ first others =>
      have haccepts := haccepted _ List.mem_cons_self
      have hverify := verify_of_reliable hsink first
      rw [(e.verdictOn_eq_success_iff ev).mpr haccepts, if_pos haccepts] at hverify
      rw [List.map_cons, List.cons_append, runFrom_success hverify,
        ih others (fun t ht => haccepted t (List.mem_cons_of_mem _ ht)), List.length_cons,
        Nat.add_assoc, Nat.add_comm 1, afterTurns, afterTurns, List.append_assoc]
      rfl

variable {v : Verifier σ τ} {s s' : σ} {turns : List (Example × Evaluation)}

theorem run_all_accepted (hsink : sink.Reliable) (hturns : repl.Answers v.interpreter turns s)
    (haccepted : ∀ t ∈ turns, t.1.Accepts t.2) :
    v.run repl sink (turns.map Prod.fst) =
      (.ok ⟨turns.length, none⟩, v.afterTurns sink turns s) := by
  have hpassed := runFrom_accepted hsink hturns haccepted 0 []
  rw [List.append_nil, Nat.zero_add] at hpassed
  exact hpassed

theorem run_rejected (hsink : sink.Reliable) (hturns : repl.Answers v.interpreter turns s)
    (haccepted : ∀ t ∈ turns, t.1.Accepts t.2) {e : Example} {ev : Evaluation}
    (hreply : repl.evaluate s e.code = (.ok ev, s')) (hrejected : ¬ e.Accepts ev)
    (rest : List Example) :
    v.run repl sink (turns.map Prod.fst ++ e :: rest) =
      (.ok ⟨turns.length,
          some ⟨turns.length + 1, e, ev.rejection, v.evaluated ++ codesOf turns⟩⟩,
        ⟨s', sink.afterTurns v.prompt (turns ++ [(e, ev)]) v.transcript, v.prompt,
          v.evaluated ++ codesOf turns⟩) := by
  have hverify := verify_of_reliable (v := v.afterTurns sink turns s) hsink hreply
  rw [e.verdictOn_eq ev, if_neg hrejected, if_neg hrejected] at hverify
  rw [run, runFrom_accepted hsink hturns haccepted, Nat.zero_add,
    runFrom_rejected hverify ev.rejection_ne_success, Sink.afterTurns_append]
  rfl

/-- Let the transcript take every text.  A run of examples whose turns are all accepted passes:
each code is sent once and in order, and all codes are kept behind those of earlier runs.  A run
in which an example comes next whose turn is not accepted, and whatever is behind it, counts the
examples before that one as passed and reports that one under its number, with the verdict on its
turn and with the code kept before it; its code is the last that is sent, and the verifier has
kept what the report says.  Every run is one of these unless the interpreter fails.  The record
that shows what is sent changes nothing about any run. -/
theorem run_fail_fast (repl : Interpreter σ ε) (hsink : sink.Reliable)
    (v : Verifier (σ × List String) τ) :
    (∀ turns s, repl.Answers v.interpreter.1 turns s → (∀ t ∈ turns, t.1.Accepts t.2) →
      v.run repl.recording sink (turns.map Prod.fst) =
        (.ok ⟨turns.length, none⟩,
          ⟨(s, v.interpreter.2 ++ codesOf turns), sink.afterTurns v.prompt turns v.transcript,
            v.prompt, v.evaluated ++ codesOf turns⟩) ∧
      ∀ (e : Example) (ev : Evaluation) (s' : σ) (rest : List Example),
        repl.evaluate s e.code = (.ok ev, s') → ¬ e.Accepts ev →
        v.run repl.recording sink (turns.map Prod.fst ++ e :: rest) =
          (.ok ⟨turns.length, some
              ⟨turns.length + 1, e,
                if ev.verdict = .success then .mismatch (Capture.text ev.raw) else ev.verdict,
                v.evaluated ++ codesOf turns⟩⟩,
            ⟨(s', v.interpreter.2 ++ codesOf turns ++ [e.code]),
              sink.afterTurns v.prompt (turns ++ [(e, ev)]) v.transcript, v.prompt,
              v.evaluated ++ codesOf turns⟩)) ∧
    (∀ examples, ∃ turns s, repl.Answers v.interpreter.1 turns s ∧
      (∀ t ∈ turns, t.1.Accepts t.2) ∧
      (examples = turns.map Prod.fst ∨
        ∃ e rest, examples = turns.map Prod.fst ++ e :: rest ∧
          ((∃ ev s', repl.evaluate s e.code = (.ok ev, s') ∧ ¬ e.Accepts ev) ∨
            ∃ err s', repl.evaluate s e.code = (.error err, s')))) ∧
    ∀ examples, v.forget.run repl sink examples =
      ((v.run repl.recording sink examples).1, (v.run repl.recording sink examples).2.forget) := by
  refine ⟨?_, repl.answers_cases v.interpreter.1, runFrom_forget repl sink v 0⟩
  intro turns s hturns haccepted
  have hrecorded := hturns.recording v.interpreter.2
  refine ⟨run_all_accepted hsink hrecorded haccepted, ?_⟩
  intro e ev s' rest hreply hrejected
  exact run_rejected hsink hrecorded haccepted
    (Interpreter.evaluate_recording hreply _) hrejected rest

/-- A verifier that has kept one code before, and an interpreter that answers three times. -/
def resumed : Verifier (Playback × List String) (List Char) :=
  ⟨(⟨[⟨.success, [52, 13, 10]⟩, ⟨.success, [62]⟩, ⟨.success, [53, 10]⟩], []⟩, ["(z)"]), [], "* ",
    ["(z)"]⟩

/-- Two turns that are accepted: with the documented output up to its line end, and with an
empty output block. -/
def acceptedTurns : List (Example × Evaluation) :=
  [(⟨"(a)", some "4\n"⟩, ⟨.success, [52, 13, 10]⟩), (⟨"(b)", some ""⟩, ⟨.success, [62]⟩)]

theorem run_fail_fast_mismatch :
    Sink.unlimited.Reliable ∧
    Interpreter.scripted.Answers resumed.interpreter.1 acceptedTurns
      ⟨[⟨.success, [53, 10]⟩], ["(a)", "(b)"]⟩ ∧
    (∀ t ∈ acceptedTurns, t.1.Accepts t.2) ∧
    (resumed.run Interpreter.scripted.recording .unlimited
        (acceptedTurns.map Prod.fst ++ [⟨"(c)", some "4\n"⟩, ⟨"(d)", none⟩])).1 =
      .ok ⟨2, some ⟨3, ⟨"(c)", some "4\n"⟩, .mismatch "5\n", ["(z)", "(a)", "(b)"]⟩⟩ ∧
    (resumed.run Interpreter.scripted.recording .unlimited
        (acceptedTurns.map Prod.fst ++ [⟨"(c)", some "4\n"⟩, ⟨"(d)", none⟩])).2.interpreter.2 =
      ["(z)", "(a)", "(b)", "(c)"] := by
  have hturns : Interpreter.scripted.Answers resumed.interpreter.1 acceptedTurns
      ⟨[⟨.success, [53, 10]⟩], ["(a)", "(b)"]⟩ := .cons rfl (.cons rfl (.nil _))
  have haccepted : ∀ t ∈ acceptedTurns, t.1.Accepts t.2 := by decide
  obtain ⟨hruns, -, -⟩ := run_fail_fast Interpreter.scripted Sink.reliable_unlimited resumed
  obtain ⟨-, hrejected⟩ := hruns acceptedTurns _ hturns haccepted
  have hrun := hrejected ⟨"(c)", some "4\n"⟩ ⟨.success, [53, 10]⟩ _ [⟨"(d)", none⟩] rfl (by decide)
  rw [hrun]
  exact ⟨Sink.reliable_unlimited, hturns, haccepted, rfl, rfl⟩

end Verifier
end LiveDoc
