/-
What a verifier has kept after any history of calls, errors among them.

Every call amounts to some verifications, one after the other: a single one, or
those of a run, which ends with the first that does not succeed.  `Verifies` is the
relation, `runFrom_verifies` says which ones a run makes, and the invariant is then
an induction over verifications: the code is kept of just those that succeed, and
the interpreter is sent the code of all of them.
-/
import LiveDoc.Proofs.Verifier.Turn

namespace LiveDoc
namespace Verifier

abbrev Verified (ε : Type) := Example × Except (VerifyError ε) Verdict

def passes {ε : Type} (examples : List Example) : List (Verified ε) :=
  examples.map fun e => (e, .ok .success)

def isPass {ε : Type} : Verified ε → Bool
  | (_, .ok .success) => true
  | _ => false

def succeeded {ε : Type} (log : List (Verified ε)) : List String :=
  (log.filter isPass).map fun entry => entry.1.code

def attempted {ε : Type} (log : List (Verified ε)) : List String :=
  log.map fun entry => entry.1.code

variable {σ τ ε : Type}

/-- Verifying some examples one after the other, with what comes of each, makes one verifier
the other. -/
inductive Verifies (repl : Interpreter σ ε) (sink : Sink τ) :
    Verifier σ τ → List (Verified ε) → Verifier σ τ → Prop
  | nil (v : Verifier σ τ) : Verifies repl sink v [] v
  | cons {v v₁ v₂ : Verifier σ τ} {e : Example} {r : Except (VerifyError ε) Verdict}
      {log : List (Verified ε)} (first : v.verify repl sink e = (r, v₁))
      (others : Verifies repl sink v₁ log v₂) : Verifies repl sink v ((e, r) :: log) v₂

theorem succeeded_append (a b : List (Verified ε)) :
    succeeded (a ++ b) = succeeded a ++ succeeded b := by
  rw [succeeded, List.filter_append, List.map_append]
  rfl

theorem attempted_append (a b : List (Verified ε)) :
    attempted (a ++ b) = attempted a ++ attempted b :=
  List.map_append

theorem isPass_iff (entry : Verified ε) : isPass entry = true ↔ entry.2 = .ok .success := by
  rcases entry with ⟨e, err | _ | _ | _ | _⟩ <;> simp [isPass]

theorem succeeded_passes (examples : List Example) :
    succeeded (passes examples : List (Verified ε)) = examples.map Example.code := by
  rw [succeeded, passes, List.filter_eq_self.mpr (by simp [isPass]), List.map_map]
  rfl

theorem attempted_passes (examples : List Example) :
    attempted (passes examples : List (Verified ε)) = examples.map Example.code := by
  rw [attempted, passes, List.map_map]
  rfl

/-! ## One verification -/

/-- The interpreter is sent the code once, and the code is kept if the verification succeeds. -/
theorem verify_recorded {repl : Interpreter σ ε} {sink : Sink τ}
    {v v' : Verifier (σ × List String) τ} {e : Example} {r : Except (VerifyError ε) Verdict}
    (h : v.verify repl.recording sink e = (r, v')) :
    v'.interpreter =
        ((repl.evaluate v.interpreter.1 e.code).2, v.interpreter.2 ++ [e.code]) ∧
      v'.evaluated = v.evaluated ++ succeeded [(e, r)] := by
  have hsent : ∀ reply s, repl.recording.evaluate v.interpreter e.code = (reply, s) →
      s = ((repl.evaluate v.interpreter.1 e.code).2, v.interpreter.2 ++ [e.code]) :=
    fun reply s hreply => (congrArg Prod.snd hreply).symm
  rcases v.verify_cases repl.recording sink e with ⟨err, s, hreply, hverify⟩ |
    ⟨ev, s, t, hreply, -, hverify⟩ | ⟨ev, s, t, hreply, -, hverify⟩
  · cases hverify.symm.trans h
    exact ⟨hsent _ _ hreply, (List.append_nil _).symm⟩
  · cases hverify.symm.trans h
    exact ⟨hsent _ _ hreply, (List.append_nil _).symm⟩
  · cases hverify.symm.trans h
    refine ⟨hsent _ _ hreply, ?_⟩
    by_cases haccepts : e.Accepts ev
    · rw [if_pos haccepts, (e.verdictOn_eq_success_iff ev).mpr haccepts]
      rfl
    · have hpass : isPass ((e, .ok (e.verdictOn ev)) : Verified ε) = false := by
        rw [Bool.eq_false_iff, Ne, isPass_iff, Except.ok.injEq, e.verdictOn_eq_success_iff]
        exact haccepts
      rw [if_neg haccepts, succeeded, List.filter_cons_of_neg (by simp [hpass])]
      exact (List.append_nil _).symm

/-! ## Many verifications -/

theorem Verifies.append {repl : Interpreter σ ε} {sink : Sink τ} {v v₁ v₂ : Verifier σ τ}
    {a b : List (Verified ε)} (ha : Verifies repl sink v a v₁) (hb : Verifies repl sink v₁ b v₂) :
    Verifies repl sink v (a ++ b) v₂ := by
  induction ha with
  | nil v => exact hb
  | cons first _ ih => exact .cons first (ih hb)

theorem Verifies.recorded {repl : Interpreter σ ε} {sink : Sink τ}
    {v v' : Verifier (σ × List String) τ} {log : List (Verified ε)}
    (h : Verifies repl.recording sink v log v') :
    v'.evaluated = v.evaluated ++ succeeded log ∧
      v'.interpreter.2 = v.interpreter.2 ++ attempted log := by
  induction h with
  | nil v => exact ⟨(List.append_nil _).symm, (List.append_nil _).symm⟩
  | @cons v v₁ v₂ e r log first _ ih =>
    obtain ⟨hsent, hkept⟩ := verify_recorded first
    rw [ih.1, ih.2, hsent, hkept, List.append_assoc, List.append_assoc, ← succeeded_append]
    exact ⟨rfl, rfl⟩

/-- The verifications of a run.  All succeed, or the last one does not and the examples behind
it are left alone. -/
theorem runFrom_verifies (repl : Interpreter σ ε) (sink : Sink τ) (v : Verifier σ τ)
    (passed : Nat) (examples : List Example) :
    (∃ v', Verifies repl sink v (passes examples) v' ∧
      v.runFrom repl sink passed examples = (.ok ⟨passed + examples.length, none⟩, v')) ∨
    (∃ before e after verdict v', examples = before ++ e :: after ∧ verdict ≠ .success ∧
      Verifies repl sink v (passes before ++ [(e, .ok verdict)]) v' ∧
      ∃ result, v.runFrom repl sink passed examples = (.ok result, v')) ∨
    (∃ before e after err v', examples = before ++ e :: after ∧
      Verifies repl sink v (passes before ++ [(e, .error err)]) v' ∧
      v.runFrom repl sink passed examples = (.error err, v')) := by
  induction examples generalizing v passed with
  | nil => exact Or.inl ⟨v, .nil v, rfl⟩
  | cons e rest ih =>
    rcases hverify : v.verify repl sink e with ⟨err | verdict, v₁⟩
    · exact Or.inr (Or.inr ⟨[], e, rest, err, v₁, rfl, .cons hverify (.nil v₁),
        runFrom_error hverify passed rest⟩)
    · by_cases hverdict : verdict = .success
      · subst hverdict
        -- The run goes on, so it ends the way the run of the others does.
        rw [runFrom_success hverify]
        rcases ih v₁ (passed + 1) with ⟨v', hlog, hrun⟩ |
          ⟨before, e', after, verdict, v', hrest, hverdict, hlog, hrun⟩ |
            ⟨before, e', after, err, v', hrest, hlog, hrun⟩
        · refine Or.inl ⟨v', .cons hverify hlog, ?_⟩
          rw [hrun, List.length_cons, Nat.add_assoc, Nat.add_comm 1]
        · exact Or.inr (Or.inl ⟨e :: before, e', after, verdict, v', by rw [hrest]; rfl, hverdict,
            .cons hverify hlog, hrun⟩)
        · exact Or.inr (Or.inr ⟨e :: before, e', after, err, v', by rw [hrest]; rfl,
            .cons hverify hlog, hrun⟩)
      · exact Or.inr (Or.inl ⟨[], e, rest, verdict, v₁, rfl, hverdict, .cons hverify (.nil v₁), _,
          runFrom_rejected hverify hverdict passed rest⟩)

/-! ## Histories -/

inductive Call where
  | verify (e : Example)
  | run (examples : List Example)

def perform (repl : Interpreter σ ε) (sink : Sink τ) (v : Verifier σ τ) : Call → Verifier σ τ
  | .verify e => (v.verify repl sink e).2
  | .run examples => (v.run repl sink examples).2

def performAll (repl : Interpreter σ ε) (sink : Sink τ) (v : Verifier σ τ) (calls : List Call) :
    Verifier σ τ :=
  calls.foldl (perform repl sink) v

def Call.Logs : Call → List (Verified ε) → Prop
  | .verify e, log => ∃ r, log = [(e, r)]
  | .run examples, log => log = passes examples ∨
      ∃ before e after r, examples = before ++ e :: after ∧ r ≠ .ok .success ∧
        log = passes before ++ [(e, r)]

/-- The verifications that calls can amount to, call by call. -/
inductive Amounts : List Call → List (Verified ε) → Prop
  | nil : Amounts [] []
  | cons {call : Call} {calls : List Call} {log rest : List (Verified ε)} (first : call.Logs log)
      (others : Amounts calls rest) : Amounts (call :: calls) (log ++ rest)

theorem perform_verifies (repl : Interpreter σ ε) (sink : Sink τ) (v : Verifier σ τ)
    (call : Call) : ∃ log, call.Logs log ∧ Verifies repl sink v log (v.perform repl sink call) := by
  cases call with
  | verify e => exact ⟨_, ⟨(v.verify repl sink e).1, rfl⟩, .cons rfl (.nil _)⟩
  | run examples =>
    rw [perform, run]
    rcases runFrom_verifies repl sink v 0 examples with ⟨v', hlog, hrun⟩ |
      ⟨before, e, after, verdict, v', hexamples, hverdict, hlog, result, hrun⟩ |
        ⟨before, e, after, err, v', hexamples, hlog, hrun⟩
    · rw [hrun]
      exact ⟨_, Or.inl rfl, hlog⟩
    · rw [hrun]
      refine ⟨_, Or.inr ⟨before, e, after, _, hexamples, ?_, rfl⟩, hlog⟩
      exact fun h => hverdict (Except.ok.inj h)
    · rw [hrun]
      refine ⟨_, Or.inr ⟨before, e, after, .error err, hexamples, ?_, rfl⟩, hlog⟩
      nofun

theorem performAll_verifies (repl : Interpreter σ ε) (sink : Sink τ) (v : Verifier σ τ)
    (calls : List Call) :
    ∃ log, Amounts calls log ∧ Verifies repl sink v log (v.performAll repl sink calls) := by
  induction calls generalizing v with
  | nil => exact ⟨[], .nil, .nil v⟩
  | cons call calls ih =>
    obtain ⟨log, hcall, hlog⟩ := perform_verifies repl sink v call
    obtain ⟨rest, hcalls, hrest⟩ := ih (v.perform repl sink call)
    exact ⟨log ++ rest, .cons hcall hcalls, hlog.append hrest⟩

theorem performAll_forget (repl : Interpreter σ ε) (sink : Sink τ)
    (v : Verifier (σ × List String) τ) (calls : List Call) :
    v.forget.performAll repl sink calls = (v.performAll repl.recording sink calls).forget := by
  induction calls generalizing v with
  | nil => rfl
  | cons call calls ih =>
    have hcall : v.forget.perform repl sink call = (v.perform repl.recording sink call).forget := by
      cases call with
      | verify e => exact congrArg Prod.snd (verify_forget repl sink v e)
      | run examples => exact congrArg Prod.snd (runFrom_forget repl sink v 0 examples)
    show (v.forget.perform repl sink call).performAll repl sink calls = _
    rw [hcall]
    exact ih (v.perform repl.recording sink call)

/-- Whatever the interpreter and the transcript do, verifying an example sends its code, once,
and keeps it behind the others if the verification succeeds, and else keeps nothing.  A run that
ends in an error sends the code up to the example at which the error arises, keeps what is before
that one, all of which has succeeded, and verifies nothing behind it.  After any calls the code
is kept, in order and behind what was there, of just the examples that were verified with
success, and what has been sent is the code of all that were verified.  The record that shows
what is sent changes nothing about any calls. -/
theorem evaluated_of_calls (repl : Interpreter σ ε) (sink : Sink τ)
    (v : Verifier (σ × List String) τ) :
    (∀ e r v', v.verify repl.recording sink e = (r, v') →
      v'.interpreter =
        ((repl.evaluate v.interpreter.1 e.code).2, v.interpreter.2 ++ [e.code]) ∧
      (r = .ok .success → v'.evaluated = v.evaluated ++ [e.code]) ∧
      (r ≠ .ok .success → v'.evaluated = v.evaluated)) ∧
    (∀ examples err v', v.run repl.recording sink examples = (.error err, v') →
      ∃ before e after, examples = before ++ e :: after ∧
        Verifies repl.recording sink v (passes before ++ [(e, .error err)]) v' ∧
        v'.interpreter.2 = v.interpreter.2 ++ before.map Example.code ++ [e.code] ∧
        v'.evaluated = v.evaluated ++ before.map Example.code) ∧
    (∀ calls, ∃ log, Amounts calls log ∧
      Verifies repl.recording sink v log (v.performAll repl.recording sink calls) ∧
      (v.performAll repl.recording sink calls).evaluated =
        v.evaluated ++ (log.filter isPass).map (fun entry => entry.1.code) ∧
      (v.performAll repl.recording sink calls).interpreter.2 =
        v.interpreter.2 ++ log.map (fun entry => entry.1.code)) ∧
    ∀ calls, v.forget.performAll repl sink calls =
      (v.performAll repl.recording sink calls).forget := by
  refine ⟨?_, ?_, ?_, performAll_forget repl sink v⟩
  · intro e r v' hverify
    obtain ⟨hsent, hkept⟩ := verify_recorded hverify
    refine ⟨hsent, ?_, fun hr => ?_⟩
    · rintro rfl
      exact hkept
    · rw [hkept, succeeded, List.filter_cons_of_neg (fun h => hr ((isPass_iff _).mp h))]
      exact List.append_nil _
  · intro examples err v' hrun
    rcases runFrom_verifies repl.recording sink v 0 examples with ⟨v₁, -, hrun'⟩ |
      ⟨before, e, after, verdict, v₁, -, -, -, result, hrun'⟩ |
        ⟨before, e, after, err', v₁, hexamples, hlog, hrun'⟩
    · cases hrun'.symm.trans hrun
    · cases hrun'.symm.trans hrun
    · cases hrun'.symm.trans hrun
      obtain ⟨hkept, hsent⟩ := hlog.recorded
      refine ⟨before, e, after, hexamples, hlog, ?_, ?_⟩
      · rw [hsent, attempted_append, attempted_passes, List.append_assoc]
        rfl
      · rw [hkept, succeeded_append, succeeded_passes]
        exact congrArg (v.evaluated ++ ·) (List.append_nil _)
  · intro calls
    obtain ⟨log, hcalls, hlog⟩ := performAll_verifies repl.recording sink v calls
    exact ⟨log, hcalls, hlog, hlog.recorded⟩

end Verifier
end LiveDoc
