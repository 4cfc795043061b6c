/-
The transcript after any history of calls.

A writer takes bytes piecemeal and may fail at any write, so the text of a turn comes in many
writes, of which the last may have failed inside the text.  Up to the first write that fails,
what the writer has taken is a beginning of the turns that the interpreter has answered, one
behind the other.
-/
import LiveDoc.Proofs.Text.Lines
import LiveDoc.Proofs.Verifier.History

namespace LiveDoc

/-! ## Writers -/

structure Write where
  taken : Bytes
  ok : Bool
deriving Repr, DecidableEq

/-- A place that bytes are written to, with states `ω`.  A write says how many of the bytes on
offer it has taken and whether it succeeded; one that fails may have taken some, too.  A write
that is interrupted takes nothing and is made again, so it is a part of the next one. -/
structure Writer (ω : Type) where
  write : ω → Bytes → ω × Nat × Bool
  flush : ω → ω × Bool

namespace Writer

/-- Offers bytes until all are taken.  All writes are kept in order.  Taking nothing of what is on
offer is a failure, too. -/
def offer {ω : Type} (w : Writer ω) (s : ω × List Write) (bytes : Bytes) : (ω × List Write) × Bool :=
  if bytes = [] then (s, true)
  else
    let (t, n, ok) := w.write s.1 bytes
    if ok = true ∧ 0 < n then w.offer (t, s.2 ++ [⟨bytes.take n, true⟩]) (bytes.drop n)
    else ((t, s.2 ++ [⟨bytes.take n, false⟩]), false)
termination_by bytes.length
decreasing_by
  rename_i hne hn
  have hlength := List.length_pos_iff.mpr hne
  rw [List.length_drop]
  omega

def sink {ω : Type} (w : Writer ω) : Sink (ω × List Write) where
  write s text := w.offer s (Utf8.encode text)
  flush s := (((w.flush s.1).1, s.2), (w.flush s.1).2)

end Writer

def AllOk (writes : List Write) : Prop := ∀ x ∈ writes, x.ok = true

def totalOf (writes : List Write) : Bytes := writes.flatMap Write.taken

/-- The writes up to the first that fails take the bytes one behind the other, and the one that
fails takes a part of what is left of them.  The writes behind that one may be any. -/
inductive Tells : List Write → Bytes → Prop
  | nil : Tells [] []
  | ok {taken : Bytes} {writes : List Write} {text : Bytes} (others : Tells writes text) :
      Tells (⟨taken, true⟩ :: writes) (taken ++ text)
  | failed {taken text : Bytes} (h : taken <+: text) (others : List Write) :
      Tells (⟨taken, false⟩ :: others) text

namespace Tells

variable {a b : List Write} {s t : Bytes}

theorem append (ha : Tells a s) (hb : Tells b t) : Tells (a ++ b) (s ++ t) := by
  induction ha with
  | nil => exact hb
  | ok _ ih =>
    rw [List.append_assoc]
    exact .ok ih
  | failed h others => exact .failed (h.trans (List.prefix_append _ t)) (others ++ b)

/-- Once a write has failed, it does not matter which bytes were to come. -/
theorem extend (ha : Tells a s) (hfailed : ¬ AllOk a) : Tells a (s ++ t) := by
  induction ha with
  | nil => exact absurd (List.forall_mem_nil _) hfailed
  | ok _ ih =>
    rw [List.append_assoc]
    refine .ok (ih fun hall => hfailed ?_)
    exact List.forall_mem_cons.mpr ⟨rfl, hall⟩
  | failed h others => exact .failed (h.trans (List.prefix_append _ t)) others

theorem total (ha : Tells a s) (hall : AllOk a) : totalOf a = s := by
  induction ha with
  | nil => rfl
  | @ok taken writes text _ ih =>
    have hrest := ih (List.forall_mem_cons.mp hall).2
    show taken ++ totalOf writes = taken ++ text
    rw [hrest]
  | failed h others => exact absurd (List.forall_mem_cons.mp hall).1 Bool.false_ne_true

theorem before (ha : Tells a s) {before after : List Write} {last : Write}
    (hsplit : a = before ++ last :: after) (hall : AllOk before) :
    totalOf (before ++ [last]) <+: s := by
  induction ha generalizing before with
  | nil => cases before <;> cases hsplit
  | @ok taken writes text _ ih =>
    cases before with
    | nil =>
      cases hsplit
      exact ⟨text, by simp [totalOf]⟩
    | cons first rest =>
      obtain ⟨rfl, hwrites⟩ := List.cons.inj hsplit
      have hrest := ih hwrites (List.forall_mem_cons.mp hall).2
      show taken ++ totalOf (rest ++ [last]) <+: taken ++ text
      exact (List.prefix_append_right_inj taken).mpr hrest
  | @failed taken text h others =>
    cases before with
    | nil =>
      cases hsplit
      simpa [totalOf] using h
    | cons first rest =>
      obtain ⟨rfl, -⟩ := List.cons.inj hsplit
      exact absurd (List.forall_mem_cons.mp hall).1 Bool.false_ne_true

end Tells

/-! ## Writing a turn -/

/-- The writes that lead from one state to another tell the bytes, and none has failed if the
result is a success. -/
def Takes {ω : Type} (s : ω × List Write) (result : (ω × List Write) × Bool) (text : Bytes) : Prop :=
  ∃ writes, result.1.2 = s.2 ++ writes ∧ Tells writes text ∧ (result.2 = false → ¬ AllOk writes)

section
variable {ω : Type} (w : Writer ω)

theorem Writer.takes_offer (s : ω × List Write) (bytes : Bytes) :
    Takes s (w.offer s bytes) bytes := by
  fun_induction w.offer s bytes with
  | case1 s => exact ⟨[], (List.append_nil _).symm, .nil, nofun⟩
  | case2 s bytes hne t n ok hwrite hn ih =>
    obtain ⟨writes, hwrites, htells, hfailed⟩ := ih
    refine ⟨⟨bytes.take n, true⟩ :: writes, ?_, ?_, ?_⟩
    · rw [hwrites, List.append_assoc]
      rfl
    · have htold : Tells (⟨bytes.take n, true⟩ :: writes) (bytes.take n ++ bytes.drop n) := .ok htells
      rwa [List.take_append_drop] at htold
    · intro hresult hall
      exact hfailed hresult (List.forall_mem_cons.mp hall).2
  | case3 s bytes hne t n ok hwrite hn =>
    refine ⟨[⟨bytes.take n, false⟩], rfl, .failed (List.take_prefix n bytes) [], ?_⟩
    intro _ hall
    exact absurd (hall _ List.mem_cons_self) Bool.false_ne_true

theorem Writer.takes_writeAll (pieces : List (List Char)) (s : ω × List Write) :
    Takes s (w.sink.writeAll pieces s) (Utf8.encode pieces.flatten) := by
  induction pieces generalizing s with
  | nil => exact ⟨[], (List.append_nil _).symm, .nil, nofun⟩
  | cons piece rest ih =>
    obtain ⟨writes, hwrites, htells, hfailed⟩ := w.takes_offer s (Utf8.encode piece)
    rw [List.flatten_cons, Utf8.encode_append, Sink.writeAll]
    rcases hresult : w.sink.write s piece with ⟨s₁, _ | _⟩
    · have hresult' : w.offer s (Utf8.encode piece) = (s₁, false) := hresult
      rw [hresult'] at hwrites hfailed
      exact ⟨writes, hwrites, htells.extend (hfailed rfl), fun _ => hfailed rfl⟩
    · have hresult' : w.offer s (Utf8.encode piece) = (s₁, true) := hresult
      rw [hresult'] at hwrites
      obtain ⟨more, hmore, htold, hlost⟩ := ih s₁
      refine ⟨writes ++ more, ?_, htells.append htold, ?_⟩
      · show (w.sink.writeAll rest s₁).1.2 = _
        rw [hmore, hwrites, List.append_assoc]
      · intro hrest hall
        exact hlost hrest fun x hx => hall x (List.mem_append_right _ hx)

/-- All of a turn is written, or a write has failed.  A flush that fails leaves all of it there. -/
theorem Writer.tells_writeTurn (prompt code actual : String) (s : ω × List Write) :
    ∃ writes, (w.sink.writeTurn prompt code actual s).1.2 = s.2 ++ writes ∧
      Tells writes (Utf8.encode (turnText prompt code actual)) := by
  obtain ⟨writes, hwrites, htells, -⟩ := w.takes_writeAll (turnPieces prompt code actual) s
  refine ⟨writes, ?_, htells⟩
  rw [Sink.writeTurn]
  split
  · next s₁ hall =>
    rw [hall] at hwrites
    exact hwrites
  · next s₁ hall =>
    rw [hall] at hwrites
    exact hwrites

end

/-! ## Histories -/

variable {σ ω ε : Type}

def Interpreter.replies (repl : Interpreter σ ε) : σ → List String →
    List (String × Except ε Evaluation)
  | _, [] => []
  | s, code :: rest => (code, (repl.evaluate s code).1) :: repl.replies (repl.evaluate s code).2 rest

/-- What the transcript has of an answer: the turn, whatever its verdict, and nothing if there was
none. -/
def replyText (prompt : String) : String × Except ε Evaluation → List Char
  | (code, .ok ev) => turnText prompt code (Capture.text ev.raw)
  | (_, .error _) => []

namespace Verifier

variable {repl : Interpreter σ ε} {w : Writer ω}

theorem tells_verify {v v' : Verifier (σ × List String) (ω × List Write)} {e : Example}
    {r : Except (VerifyError ε) Verdict} (h : v.verify repl.recording w.sink e = (r, v')) :
    v'.prompt = v.prompt ∧ ∃ writes, v'.transcript.2 = v.transcript.2 ++ writes ∧
      Tells writes (Utf8.encode
        (replyText v.prompt (e.code, (repl.evaluate v.interpreter.1 e.code).1))) := by
  have hanswer : ∀ reply s, repl.recording.evaluate v.interpreter e.code = (reply, s) →
      (repl.evaluate v.interpreter.1 e.code).1 = reply := fun reply s hreply => congrArg Prod.fst hreply
  have hwritten : ∀ (ev : Evaluation) t b,
      w.sink.writeTurn v.prompt e.code (Capture.text ev.raw) v.transcript = (t, b) →
      ∃ writes, t.2 = v.transcript.2 ++ writes ∧
        Tells writes (Utf8.encode (turnText v.prompt e.code (Capture.text ev.raw))) := by
    intro ev t b hwrite
    have htells := w.tells_writeTurn v.prompt e.code (Capture.text ev.raw) v.transcript
    rwa [hwrite] at htells
  rcases v.verify_cases repl.recording w.sink e with ⟨err, s, hreply, hverify⟩ |
    ⟨ev, s, t, hreply, hwrite, hverify⟩ | ⟨ev, s, t, hreply, hwrite, hverify⟩
  · cases hverify.symm.trans h
    rw [hanswer _ _ hreply]
    exact ⟨rfl, [], (List.append_nil _).symm, .nil⟩
  · cases hverify.symm.trans h
    rw [hanswer _ _ hreply]
    exact ⟨rfl, hwritten ev t false hwrite⟩
  · cases hverify.symm.trans h
    rw [hanswer _ _ hreply]
    exact ⟨rfl, hwritten ev t true hwrite⟩

theorem Verifies.tells {v v' : Verifier (σ × List String) (ω × List Write)}
    {log : List (Verified ε)} (h : Verifies repl.recording w.sink v log v') :
    ∃ writes, v'.transcript.2 = v.transcript.2 ++ writes ∧
      Tells writes (Utf8.encode
        ((repl.replies v.interpreter.1 (attempted log)).flatMap (replyText v.prompt))) := by
  induction h with
  | nil v => exact ⟨[], (List.append_nil _).symm, .nil⟩
  | @cons v v₁ v₂ e r log first _ ih =>
    obtain ⟨hprompt, writes, hwrites, htells⟩ := tells_verify first
    obtain ⟨more, hmore, htold⟩ := ih
    have hsent := (verify_recorded first).1
    refine ⟨writes ++ more, ?_, ?_⟩
    · rw [hmore, hwrites, List.append_assoc]
    · rw [hprompt, hsent] at htold
      have hboth := htells.append htold
      rwa [← Utf8.encode_append] at hboth

/-- After any calls, whatever the interpreter and the writer do, the interpreter has been sent the
code of the verifications that the calls amount to.  The bytes that the writer has taken up to and
with its first failure are a beginning of the turns that the interpreter has answered, in order and
whatever their verdicts, and they are all of it if no write has failed. -/
theorem transcript_of_calls (repl : Interpreter σ ε) (w : Writer ω)
    (v : Verifier (σ × List String) (ω × List Write)) (calls : List Call) :
    (∃ (log : List (Verified ε)) (codes : List String) (writes : List Write),
      Amounts calls log ∧ codes = attempted log ∧
      Verifies repl.recording w.sink v log (v.performAll repl.recording w.sink calls) ∧
      (v.performAll repl.recording w.sink calls).interpreter.2 = v.interpreter.2 ++ codes ∧
      (v.performAll repl.recording w.sink calls).transcript.2 = v.transcript.2 ++ writes ∧
      (∀ before last after, writes = before ++ last :: after → AllOk before →
        totalOf (before ++ [last]) <+: Utf8.encode
          ((repl.replies v.interpreter.1 codes).flatMap (replyText v.prompt))) ∧
      (AllOk writes → totalOf writes = Utf8.encode
        ((repl.replies v.interpreter.1 codes).flatMap (replyText v.prompt)))) ∧
    (∀ code ev, ∃ lines, Splits code.toList lines ∧
      replyText v.prompt (code, (.ok ev : Except ε Evaluation)) =
        v.prompt.toList ++
          List.intercalate ('\n' :: List.replicate v.prompt.length ' ') lines ++ ['\n'] ++
          (Capture.text ev.raw).toList ++ ['\n']) ∧
    v.forget.performAll repl w.sink calls =
      (v.performAll repl.recording w.sink calls).forget := by
  refine ⟨?_, ?_, performAll_forget repl w.sink v calls⟩
  · obtain ⟨log, hcalls, hlog⟩ := performAll_verifies repl.recording w.sink v calls
    obtain ⟨writes, hwrites, htells⟩ := hlog.tells
    exact ⟨log, attempted log, writes, hcalls, rfl, hlog, hlog.recorded.2, hwrites,
      fun before last after hsplit hall => htells.before hsplit hall, htells.total⟩
  · intro code ev
    refine ⟨linesOf code.toList, splits_linesOf _, ?_⟩
    rw [replyText, turnText, turnPieces, shownCode, joinWith_eq_intercalate]
    simp

def saysTwo : Interpreter Unit Unit := ⟨fun s _ => (.ok ⟨.success, [50, 10]⟩, s)⟩

def brokenWriter : Writer Unit := ⟨fun s _ => (s, 1, false), fun s => (s, true)⟩

def newVerifier : Verifier (Unit × List String) (Unit × List Write) :=
  ⟨((), []), ((), []), "* ", []⟩

def runOfTwo : List Call := [.run [⟨"1", none⟩, ⟨"2", none⟩]]

/-- The run ends with its first turn, of which the transcript has a byte. -/
theorem transcript_of_calls_brokenWriter :
    let v := newVerifier.performAll saysTwo.recording brokenWriter.sink runOfTwo
    v.interpreter.2 = ["1"] ∧ v.transcript.2 = [⟨[42], false⟩] ∧
      totalOf v.transcript.2 <+: Utf8.encode "* 1\n2\n\n".toList := by
  have hwrite : brokenWriter.sink.write ((), []) "* ".toList = (((), [⟨[42], false⟩]), false) := by
    show brokenWriter.offer _ _ = _
    rw [Writer.offer]
    rfl
  have hturn (code actual : String) : brokenWriter.sink.writeTurn "* " code actual ((), []) =
      (((), [⟨[42], false⟩]), false) := by
    rw [Sink.writeTurn, turnPieces, Sink.writeAll, hwrite]
  have hrun : newVerifier.performAll saysTwo.recording brokenWriter.sink runOfTwo =
      ⟨((), ["1"]), ((), [⟨[42], false⟩]), "* ", []⟩ := by
    simp [performAll, runOfTwo, perform, run, runFrom, verify, Interpreter.recording, saysTwo,
      newVerifier, hturn]
  obtain ⟨⟨log, codes, writes, -, -, -, hsent, hwrites, hfirst, -⟩, -⟩ :=
    transcript_of_calls saysTwo brokenWriter newVerifier runOfTwo
  rw [hrun] at hsent hwrites ⊢
  obtain rfl : ["1"] = codes := hsent
  obtain rfl : [⟨[42], false⟩] = writes := hwrites
  exact ⟨rfl, rfl, hfirst [] _ [] rfl (List.forall_mem_nil _)⟩

end Verifier
end LiveDoc
