/-
One example is one turn with the interpreter.

`verify_cases` says all that verifying an example can do: the interpreter fails,
the transcript fails, or there is a verdict.  `verdictOn_eq` says which verdict.
To speak about what an interpreter has been sent, whatever state it keeps, it is
replaced by one that also keeps a record, and nothing else changes by that.
-/
import LiveDoc.Verifier

namespace LiveDoc

/-! ## Transcripts that take every text -/

/-- Neither a write nor a flush fails. -/
structure Sink.Reliable {τ : Type} (sink : Sink τ) : Prop where
  write : ∀ s text, (sink.write s text).2 = true
  flush : ∀ s, (sink.flush s).2 = true

namespace Sink

variable {τ : Type} {sink : Sink τ}

theorem Reliable.writeAll (h : sink.Reliable) (pieces : List (List Char)) (s : τ) :
    (sink.writeAll pieces s).2 = true := by
  induction pieces generalizing s with
  | nil => rfl
  | cons piece rest ih =>
    have hwrite := h.write s piece
    rw [Sink.writeAll]
    split
    · exact ih _
    · next hfailed =>
      rw [hfailed] at hwrite
      cases hwrite

theorem Reliable.writeTurn (h : sink.Reliable) (prompt code actual : String) (s : τ) :
    (sink.writeTurn prompt code actual s).2 = true := by
  have hall := h.writeAll (turnPieces prompt code actual) s
  rw [Sink.writeTurn]
  split
  · exact h.flush _
  · next hfailed =>
    rw [hfailed] at hall
    cases hall

theorem reliable_unlimited : unlimited.Reliable := ⟨fun _ _ => rfl, fun _ => rfl⟩

end Sink

/-! ## Verdicts -/

/-- The turn with an example is accepted: the prompt came back, and the output is the
documented one if there is any to compare with. -/
def Example.Accepts (e : Example) (ev : Evaluation) : Prop :=
  ev.verdict = .success ∧
    (e.expected = none ∨ e.expected = some "" ∨ e.expected = some (Capture.text ev.raw))

instance (e : Example) (ev : Evaluation) : Decidable (e.Accepts ev) :=
  inferInstanceAs (Decidable (_ ∧ _))

def Evaluation.rejection (ev : Evaluation) : Verdict :=
  if ev.verdict = .success then .mismatch (Capture.text ev.raw) else ev.verdict

def Example.verdictOn (e : Example) (ev : Evaluation) : Verdict :=
  match ev.verdict with
  | .success => compareOutput e.expected (Capture.text ev.raw)
  | other => other

theorem compareOutput_eq (expected : Option String) (actual : String) :
    compareOutput expected actual =
      if expected = none ∨ expected = some "" ∨ expected = some actual then .success
      else .mismatch actual := by
  cases expected with
  | none => simp [compareOutput]
  | some text =>
    by_cases hempty : text = ""
    · simp [compareOutput, hempty]
    · by_cases hsame : text = actual <;> simp [compareOutput, hempty, hsame]

theorem Example.verdictOn_eq (e : Example) (ev : Evaluation) :
    e.verdictOn ev = if e.Accepts ev then .success else ev.rejection := by
  by_cases hverdict : ev.verdict = .success
  · have hcompared : e.verdictOn ev = compareOutput e.expected (Capture.text ev.raw) := by
      rw [verdictOn, hverdict]
    rw [hcompared, compareOutput_eq]
    simp only [Accepts, Evaluation.rejection, hverdict, true_and, if_true]
  · have hkept : e.verdictOn ev = ev.verdict := by
      rw [verdictOn]
      split
      · next h => exact absurd h hverdict
      · rfl
    rw [hkept, if_neg (fun h => hverdict h.1), Evaluation.rejection, if_neg hverdict]

theorem Evaluation.rejection_ne_success (ev : Evaluation) : ev.rejection ≠ .success := by
  rw [rejection]
  split
  · exact Verdict.noConfusion
  · assumption

theorem Example.verdictOn_eq_success_iff (e : Example) (ev : Evaluation) :
    e.verdictOn ev = .success ↔ e.Accepts ev := by
  rw [verdictOn_eq]
  split
  · simpa
  · next h => simpa [h] using ev.rejection_ne_success

theorem Verdict.isSuccess_iff (verdict : Verdict) : verdict.isSuccess = true ↔ verdict = .success := by
  cases verdict <;> simp [isSuccess]

/-! ## Verifying one example -/

namespace Verifier

variable {σ τ ε : Type} {repl : Interpreter σ ε} {sink : Sink τ}

theorem verify_of_error {v : Verifier σ τ} {e : Example} {err : ε} {s : σ}
    (hreply : repl.evaluate v.interpreter e.code = (.error err, s)) :
    v.verify repl sink e = (.error (.interpreter err), { v with interpreter := s }) := by
  rw [verify, hreply]

theorem verify_of_unwritten {v : Verifier σ τ} {e : Example} {ev : Evaluation} {s : σ} {t : τ}
    (hreply : repl.evaluate v.interpreter e.code = (.ok ev, s))
    (hwrite : sink.writeTurn v.prompt e.code (Capture.text ev.raw) v.transcript = (t, false)) :
    v.verify repl sink e = (.error .transcript, { v with interpreter := s, transcript := t }) := by
  rw [verify, hreply]
  simp only [hwrite]

/-- A turn in which nothing fails. -/
theorem verify_of_reply {v : Verifier σ τ} {e : Example} {ev : Evaluation} {s : σ} {t : τ}
    (hreply : repl.evaluate v.interpreter e.code = (.ok ev, s))
    (hwrite : sink.writeTurn v.prompt e.code (Capture.text ev.raw) v.transcript = (t, true)) :
    v.verify repl sink e = (.ok (e.verdictOn ev),
      ⟨s, t, v.prompt, if e.Accepts ev then v.evaluated ++ [e.code] else v.evaluated⟩) := by
  rw [verify, hreply]
  simp only [hwrite]
  show (Except.ok (e.verdictOn ev), _) = _
  congr 2
  show (if (e.verdictOn ev).isSuccess = true then _ else _) = _
  simp only [Verdict.isSuccess_iff, e.verdictOn_eq_success_iff]

/-- All that verifying an example can do. -/
theorem verify_cases (repl : Interpreter σ ε) (sink : Sink τ) (v : Verifier σ τ) (e : Example) :
    (∃ err s, repl.evaluate v.interpreter e.code = (.error err, s) ∧
      v.verify repl sink e = (.error (.interpreter err), { v with interpreter := s })) ∨
    (∃ ev s t, repl.evaluate v.interpreter e.code = (.ok ev, s) ∧
      sink.writeTurn v.prompt e.code (Capture.text ev.raw) v.transcript = (t, false) ∧
      v.verify repl sink e = (.error .transcript, { v with interpreter := s, transcript := t })) ∨
    (∃ ev s t, repl.evaluate v.interpreter e.code = (.ok ev, s) ∧
      sink.writeTurn v.prompt e.code (Capture.text ev.raw) v.transcript = (t, true) ∧
      v.verify repl sink e = (.ok (e.verdictOn ev),
        ⟨s, t, v.prompt, if e.Accepts ev then v.evaluated ++ [e.code] else v.evaluated⟩)) := by
  rcases hreply : repl.evaluate v.interpreter e.code with ⟨err | ev, s⟩
  · exact Or.inl ⟨err, s, rfl, verify_of_error hreply⟩
  · rcases hwrite : sink.writeTurn v.prompt e.code (Capture.text ev.raw) v.transcript
      with ⟨t, _ | _⟩
    · exact Or.inr (Or.inl ⟨ev, s, t, rfl, hwrite, verify_of_unwritten hreply hwrite⟩)
    · exact Or.inr (Or.inr ⟨ev, s, t, rfl, hwrite, verify_of_reply hreply hwrite⟩)

theorem interpreter_verify (v : Verifier σ τ) (e : Example) :
    (v.verify repl sink e).2.interpreter = (repl.evaluate v.interpreter e.code).2 := by
  rcases v.verify_cases repl sink e with ⟨err, s, hreply, hverify⟩ |
    ⟨ev, s, t, hreply, -, hverify⟩ | ⟨ev, s, t, hreply, -, hverify⟩
  all_goals rw [hverify, hreply]

/-! ## Steps of a run -/

variable {v v' : Verifier σ τ} {e : Example}

theorem runFrom_success (h : v.verify repl sink e = (.ok .success, v')) (passed : Nat)
    (rest : List Example) :
    v.runFrom repl sink passed (e :: rest) = v'.runFrom repl sink (passed + 1) rest := by
  rw [runFrom, h]

theorem runFrom_rejected {verdict : Verdict} (h : v.verify repl sink e = (.ok verdict, v'))
    (hverdict : verdict ≠ .success) (passed : Nat) (rest : List Example) :
    v.runFrom repl sink passed (e :: rest) =
      (.ok ⟨passed, some ⟨passed + 1, e, verdict, v'.evaluated⟩⟩, v') := by
  rw [runFrom, h]
  cases verdict with
  | success => exact absurd rfl hverdict
  | mismatch actual => rfl
  | exited => rfl
  | timeout => rfl

theorem runFrom_error {err : VerifyError ε} (h : v.verify repl sink e = (.error err, v'))
    (passed : Nat) (rest : List Example) :
    v.runFrom repl sink passed (e :: rest) = (.error err, v') := by
  rw [runFrom, h]

/-- After its first example a run is over, or it is the run of the others. -/
theorem runFrom_cons_cases (repl : Interpreter σ ε) (sink : Sink τ) (v : Verifier σ τ)
    (passed : Nat) (e : Example) (rest : List Example) :
    (v.runFrom repl sink passed (e :: rest)).2 = (v.verify repl sink e).2 ∨
      (v.runFrom repl sink passed (e :: rest)).2 =
        ((v.verify repl sink e).2.runFrom repl sink (passed + 1) rest).2 := by
  rcases hverify : v.verify repl sink e with ⟨err | verdict, v'⟩
  · rw [runFrom_error hverify]
    exact Or.inl rfl
  · by_cases hverdict : verdict = .success
    · subst hverdict
      rw [runFrom_success hverify]
      exact Or.inr rfl
    · rw [runFrom_rejected hverify hverdict]
      exact Or.inl rfl

end Verifier

/-! ## Recording what is sent -/

/-- The interpreter that also keeps all code it has been sent, in order. -/
def Interpreter.recording {σ ε : Type} (repl : Interpreter σ ε) :
    Interpreter (σ × List String) ε where
  evaluate s code :=
    let (reply, s') := repl.evaluate s.1 code
    (reply, s', s.2 ++ [code])

theorem Interpreter.evaluate_recording {σ ε : Type} {repl : Interpreter σ ε} {s s' : σ}
    {code : String} {reply : Except ε Evaluation} (h : repl.evaluate s code = (reply, s'))
    (sent : List String) : repl.recording.evaluate (s, sent) code = (reply, s', sent ++ [code]) := by
  rw [recording]
  simp only [h]

namespace Verifier

variable {σ τ ε : Type}

def forget (v : Verifier (σ × List String) τ) : Verifier σ τ :=
  ⟨v.interpreter.1, v.transcript, v.prompt, v.evaluated⟩

variable (repl : Interpreter σ ε) (sink : Sink τ)

theorem verify_forget (v : Verifier (σ × List String) τ) (e : Example) :
    v.forget.verify repl sink e =
      ((v.verify repl.recording sink e).1, (v.verify repl.recording sink e).2.forget) := by
  obtain ⟨⟨s, sent⟩, t, prompt, evaluated⟩ := v
  let v : Verifier (σ × List String) τ := ⟨(s, sent), t, prompt, evaluated⟩
  rcases hreply : repl.evaluate s e.code with ⟨err | ev, s'⟩
  · have hrecorded := Interpreter.evaluate_recording hreply sent
    rw [verify_of_error (v := v.forget) hreply, verify_of_error (v := v) hrecorded]
    rfl
  · have hrecorded := Interpreter.evaluate_recording hreply sent
    rcases hwrite : sink.writeTurn prompt e.code (Capture.text ev.raw) t with ⟨t', _ | _⟩
    · rw [verify_of_unwritten (v := v.forget) hreply hwrite,
        verify_of_unwritten (v := v) hrecorded hwrite]
      rfl
    · rw [verify_of_reply (v := v.forget) hreply hwrite, verify_of_reply (v := v) hrecorded hwrite]
      rfl

/-- Keeping a record changes nothing about a run. -/
theorem runFrom_forget (v : Verifier (σ × List String) τ) (passed : Nat)
    (examples : List Example) :
    v.forget.runFrom repl sink passed examples =
      ((v.runFrom repl.recording sink passed examples).1,
        (v.runFrom repl.recording sink passed examples).2.forget) := by
  induction examples generalizing v passed with
  | nil => rfl
  | cons e rest ih =>
    have hforget := verify_forget repl sink v e
    rcases hverify : v.verify repl.recording sink e with ⟨err | verdict, v'⟩
    · rw [hverify] at hforget
      rw [runFrom_error hverify, runFrom_error hforget]
    · rw [hverify] at hforget
      by_cases hverdict : verdict = .success
      · subst hverdict
        rw [runFrom_success hverify, runFrom_success hforget]
        exact ih v' (passed + 1)
      · rw [runFrom_rejected hverify hverdict, runFrom_rejected hforget hverdict]
        rfl

end Verifier
end LiveDoc
