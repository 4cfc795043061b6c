/-
Line ends do not influence a turn.

Put CRs in front of some LFs of what an interpreter prints.  Every offset behind
the first of them changes, and one may come directly before a prompt.  Still the
prompt is found in the one output exactly if it is found in the other, and what
stands in front of it is the same text.  All that a verifier sees of a turn is how
it ends and the text of its capture, so two runs whose turns receive such outputs
are the same run.

What a turn receives is known only when it is over.  A run is therefore made with
a listener, which keeps a record of it, and two runs are compared turn by turn as
far as both records go.
-/
import LiveDoc.Proofs.Session.Running
import LiveDoc.Proofs.Session.Scan
import LiveDoc.Proofs.Text.AddedCr
import LiveDoc.Proofs.Text.Utf8
import LiveDoc.Proofs.Verifier.Turn

namespace LiveDoc

/-! ## Markers -/

/-- The marker stands within one line. -/
def Prompt.InLine (p : Prompt) : Prop := '\r' ∉ p.marker.toList ∧ '\n' ∉ p.marker.toList

theorem Prompt.InLine.bytes {p : Prompt} (h : p.InLine) : 13 ∉ p.bytes ∧ 10 ∉ p.bytes :=
  ⟨fun hmem => h.1 (Utf8.mem_of_mem_encode (by decide) hmem),
    fun hmem => h.2 (Utf8.mem_of_mem_encode (by decide) hmem)⟩

namespace CrAdded

variable {before : Option UInt8} {s t marker : Bytes}

theorem not_isPrefixOf_cons {b : UInt8} (hne : marker ≠ []) (hb : b ∉ marker) (rest : Bytes) :
    marker.isPrefixOf (b :: rest) = false := by
  cases marker with
  | nil => exact absurd rfl hne
  | cons c marker =>
    rw [List.mem_cons, not_or] at hb
    rw [List.isPrefixOf, beq_false_of_ne (Ne.symm hb.1), Bool.false_and]

theorem isPrefixOf_eq (h : CrAdded 13 10 before s t) (hcr : 13 ∉ marker) (hlf : 10 ∉ marker) :
    marker.isPrefixOf s = marker.isPrefixOf t := by
  induction h generalizing marker with
  | nil => rfl
  | same b _ ih =>
    cases marker with
    | nil => rfl
    | cons c marker =>
      rw [List.mem_cons, not_or] at hcr hlf
      rw [List.isPrefixOf, List.isPrefixOf, ih hcr.2 hlf.2]
  | added _ _ _ =>
    by_cases hne : marker = []
    · rw [hne]
      rfl
    · rw [not_isPrefixOf_cons hne hcr, not_isPrefixOf_cons hne hlf]

theorem findFrom_cons_of_not_mem {b : UInt8} (hne : marker ≠ []) (hb : b ∉ marker)
    (lineStart : Bool) (a : Nat) (rest : Bytes) :
    Prompt.findFrom marker lineStart a (b :: rest) =
      Prompt.findFrom marker (b == 10) (a + 1) rest := by
  rw [Prompt.findFrom, not_isPrefixOf_cons hne hb, Bool.and_false, if_neg Bool.false_ne_true]

/-- The search finds a marker in both outputs or in neither, and what stands in front of it
differs in CRs only. -/
theorem findFrom_cases (h : CrAdded 13 10 before s t) (hne : marker ≠ []) (hcr : 13 ∉ marker)
    (hlf : 10 ∉ marker) (lineStart : Bool) (a b : Nat) :
    (Prompt.findFrom marker lineStart a s = none ∧ Prompt.findFrom marker lineStart b t = none) ∨
    ∃ i j, Prompt.findFrom marker lineStart a s = some (a + i) ∧
      Prompt.findFrom marker lineStart b t = some (b + j) ∧
      CrAdded 13 10 before (s.take i) (t.take j) := by
  induction h generalizing lineStart a b with
  | nil => exact Or.inl ⟨rfl, rfl⟩
  | @same before s t c rest ih =>
    have hsame : CrAdded 13 10 before (c :: s) (c :: t) := .same c rest
    have hprefix := hsame.isPrefixOf_eq hcr hlf
    rw [Prompt.findFrom, Prompt.findFrom, ← hprefix]
    by_cases hhere : (lineStart && marker.isPrefixOf (c :: s)) = true
    · rw [if_pos hhere, if_pos hhere]
      exact Or.inr ⟨0, 0, rfl, rfl, .nil before⟩
    · rw [if_neg hhere, if_neg hhere]
      rcases ih (c == 10) (a + 1) (b + 1) with hnone | ⟨i, j, hi, hj, hfront⟩
      · exact Or.inl hnone
      · refine Or.inr ⟨i + 1, j + 1, ?_, ?_, .same c hfront⟩
        · rw [hi, Nat.add_right_comm, Nat.add_assoc]
        · rw [hj, Nat.add_right_comm, Nat.add_assoc]
  | @added before s t hbefore rest ih =>
    rw [findFrom_cons_of_not_mem hne hlf, findFrom_cons_of_not_mem hne hcr,
      findFrom_cons_of_not_mem hne hlf]
    rcases ih true (a + 1) (b + 1 + 1) with hnone | ⟨i, j, hi, hj, hfront⟩
    · exact Or.inl hnone
    · refine Or.inr ⟨i + 1, j + 2, ?_, ?_, .added hbefore hfront⟩
      · exact hi.trans (congrArg some (by omega))
      · exact hj.trans (congrArg some (by omega))

end CrAdded

/-! ## One output -/

namespace AddsCr

variable {p : Prompt} {s t : Bytes}

theorem find_cases (h : AddsCr s t) (hp : p.InLine) :
    (p.find s = none ∧ p.find t = none) ∨
    ∃ i j, p.find s = some i ∧ p.find t = some j ∧ AddsCr (s.take i) (t.take j) := by
  rcases CrAdded.findFrom_cases h p.bytes_ne_nil hp.bytes.1 hp.bytes.2 true 0 0 with
    hnone | ⟨i, j, hi, hj, hfront⟩
  · exact Or.inl hnone
  · rw [Nat.zero_add] at hi hj
    exact Or.inr ⟨i, j, hi, hj, hfront⟩

/-- The scans of the two end alike and print the same text, if they end alike when there is no
prompt. -/
theorem scan_eq (h : AddsCr s t) (hp : p.InLine) (ended ended' : Bool)
    (hended : p.find s = none → ended' = ended) :
    (p.scan t ended').1 = (p.scan s ended).1 ∧
      Capture.text (p.scan t ended').2.1 = Capture.text (p.scan s ended).2.1 := by
  rcases h.find_cases hp with ⟨hs, ht⟩ | ⟨i, j, hs, ht, hfront⟩
  · rw [Prompt.scan_of_not_find hs, Prompt.scan_of_not_find ht, hended hs]
    exact ⟨rfl, h.text_eq.symm⟩
  · rw [Prompt.scan_of_find hs, Prompt.scan_of_find ht]
    exact ⟨rfl, hfront.text_eq.symm⟩

end AddsCr

/-! ## What a turn receives -/

structure Reception where
  bytes : Bytes
  /-- Is the end of the output among it? -/
  ended : Bool

def Reception.evaluation (p : Prompt) (r : Reception) : Evaluation :=
  ⟨Session.verdictOf (p.scan r.bytes r.ended).1, (p.scan r.bytes r.ended).2.1⟩

namespace Session

def reception (s : Session) (d : Delivery) (schedule : List Happening) :
    Except SessionError Reception :=
  (s.discardStray.deliver d).map fun s =>
    ⟨(s.wait schedule).2.1.pending, (s.wait schedule).2.1.exited⟩

theorem evaluation_of_wait {s s' : Session} {e : WaitEnd} {schedule rest : List Happening}
    (h : s.wait schedule = (e, s', rest)) :
    Reception.evaluation s.prompt ⟨s'.pending, s'.exited⟩ = ⟨verdictOf e, s'.takeTurn.1⟩ := by
  have hprompt : s'.prompt = s.prompt := by
    obtain ⟨done, -, rfl, -⟩ := wait_spec h
    exact s.prompt_afterAll done
  rw [Reception.evaluation, ← hprompt]
  rcases wait_cases h with ⟨rfl, i, hfind⟩ | ⟨rfl, hfind, hexited⟩ | ⟨rfl, hfind, hexited, -⟩
  · rw [Prompt.scan_of_find hfind, takeTurn_of_find hfind]
  · rw [Prompt.scan_of_not_find hfind, takeTurn_of_not_find hfind, hexited]
    rfl
  · rw [Prompt.scan_of_not_find hfind, takeTurn_of_not_find hfind, hexited]
    rfl

theorem evaluate_eq_reception (s : Session) (d : Delivery) (schedule : List Happening) :
    (s.evaluate d schedule).1 =
      (s.reception d schedule).map (Reception.evaluation s.prompt) := by
  rw [reception]
  cases hdeliver : s.discardStray.deliver d with
  | error err =>
    rw [evaluate, hdeliver]
    rfl
  | ok s₀ =>
    rcases hwait : s₀.wait schedule with ⟨e, s₁, rest⟩
    have hprompt : s₀.prompt = s.prompt := by
      obtain ⟨w, rfl⟩ := deliver_ok hdeliver
      exact s.prompt_discardStray
    have hevaluation := evaluation_of_wait hwait
    rw [hprompt] at hevaluation
    rw [evaluate_of_deliver hdeliver hwait, ← hevaluation, Except.map, Except.map, hwait]

end Session

/-- The stream is what the turn received, or goes on behind that if there was a prompt in it. -/
def Reception.PartOf (r : Reception) (p : Prompt) (stream : Bytes) : Prop :=
  r.bytes <+: stream ∧ (p.find r.bytes = none → r.bytes = stream)

theorem Reception.PartOf.evaluation_eq {r : Reception} {p : Prompt} {stream : Bytes}
    (h : r.PartOf p stream) : r.evaluation p =
      ⟨Session.verdictOf (p.scan stream r.ended).1, (p.scan stream r.ended).2.1⟩ := by
  obtain ⟨⟨more, rfl⟩, hall⟩ := h
  cases hfind : p.find r.bytes with
  | none =>
    rw [← hall hfind]
    rfl
  | some i =>
    have hle := (Prompt.standsAt_of_find hfind).le
    rw [evaluation, Prompt.scan_of_find hfind, Prompt.scan_of_find (Prompt.find_append hfind more),
      List.take_append_of_le_length (by omega)]

/-- Either the code could be written in neither turn, or the turns received two outputs that
differ in their line ends: both come of one output by added CRs.  Where that has no prompt, both
turns saw the end of the output or neither did. -/
inductive Alike (p : Prompt) :
    Except SessionError Reception → Except SessionError Reception → Prop
  | unwritten (err : SessionError) : Alike p (.error err) (.error err)
  | received {r r' : Reception} {output s t : Bytes} (hs : r.PartOf p s) (ht : r'.PartOf p t)
      (hadds : AddsCr output s) (hadds' : AddsCr output t)
      (hended : p.find output = none → r'.ended = r.ended) : Alike p (.ok r) (.ok r')

/-- Two replies of which a verifier sees the same. -/
inductive SameReply {ε : Type} : Except ε Evaluation → Except ε Evaluation → Prop
  | failed (err : ε) : SameReply (.error err) (.error err)
  | replied {ev ev' : Evaluation} (hverdict : ev'.verdict = ev.verdict)
      (htext : Capture.text ev'.raw = Capture.text ev.raw) : SameReply (.ok ev) (.ok ev')

theorem Alike.sameReply {p : Prompt} {a b : Except SessionError Reception} (h : Alike p a b)
    (hp : p.InLine) :
    SameReply (a.map (Reception.evaluation p)) (b.map (Reception.evaluation p)) := by
  cases h with
  | unwritten err => exact .failed err
  | @received r r' output s t hs ht hadds hadds' hended =>
    have hfirst := hadds.scan_eq hp r.ended r.ended (fun _ => rfl)
    have hsecond := hadds'.scan_eq hp r.ended r'.ended hended
    rw [Except.map, Except.map, hs.evaluation_eq, ht.evaluation_eq]
    refine .replied ?_ ?_
    · rw [hsecond.1, hfirst.1]
    · rw [hsecond.2, hfirst.2]

/-! ## Two runs -/

namespace Verifier

variable {σ τ ε : Type} {repl : Interpreter σ ε} {sink : Sink τ}

structure Twins (v w : Verifier σ τ) : Prop where
  transcript_eq : w.transcript = v.transcript
  prompt_eq : w.prompt = v.prompt
  evaluated_eq : w.evaluated = v.evaluated

theorem Twins.verify {v w : Verifier σ τ} (h : Twins v w) {e : Example}
    (hreply : SameReply (repl.evaluate v.interpreter e.code).1
      (repl.evaluate w.interpreter e.code).1) :
    (w.verify repl sink e).1 = (v.verify repl sink e).1 ∧
      Twins (v.verify repl sink e).2 (w.verify repl sink e).2 := by
  rcases hv : repl.evaluate v.interpreter e.code with ⟨reply, s⟩
  rcases hw : repl.evaluate w.interpreter e.code with ⟨reply', s'⟩
  rw [hv, hw] at hreply
  cases hreply with
  | failed err =>
    rw [verify_of_error hv, verify_of_error hw]
    exact ⟨rfl, h.transcript_eq, h.prompt_eq, h.evaluated_eq⟩
  | @replied ev ev' hverdict htext =>
    have hsame : e.verdictOn ev' = e.verdictOn ev := by
      rw [Example.verdictOn, Example.verdictOn, hverdict, htext]
    have haccepts : e.Accepts ev' ↔ e.Accepts ev := by
      rw [← e.verdictOn_eq_success_iff, ← e.verdictOn_eq_success_iff, hsame]
    rcases hwrite : sink.writeTurn v.prompt e.code (Capture.text ev.raw) v.transcript
      with ⟨t, _ | _⟩
    · have hwrite' := hwrite
      rw [← htext, ← h.prompt_eq, ← h.transcript_eq] at hwrite'
      rw [verify_of_unwritten hv hwrite, verify_of_unwritten hw hwrite']
      exact ⟨rfl, rfl, h.prompt_eq, h.evaluated_eq⟩
    · have hwrite' := hwrite
      rw [← htext, ← h.prompt_eq, ← h.transcript_eq] at hwrite'
      rw [verify_of_reply hv hwrite, verify_of_reply hw hwrite', hsame]
      refine ⟨rfl, rfl, h.prompt_eq, ?_⟩
      simp only [haccepts, h.evaluated_eq]

end Verifier

/-! ## Listening to a session -/

/-- What comes to a session between the end of a turn and that of the next.  If the turn ends
before all of the schedule has happened, it is the later rounds that say what happens then. -/
structure Round where
  /-- What arrives before the turn begins. -/
  arriving : List StreamEvent
  delivery : Delivery
  schedule : List Happening

/-- A session with what will come to it, and with a record of what its turns have received. -/
structure Listener where
  session : Session
  rounds : List Round
  received : List (Except SessionError Reception)

namespace Listener

/-- When there are no more rounds, nothing comes before the deadline. -/
def round (l : Listener) : Round := l.rounds.headD ⟨[], .delivered, []⟩

def opening (l : Listener) : Session := l.round.arriving.foldl Session.arrive l.session

def reception (l : Listener) : Except SessionError Reception :=
  l.opening.reception l.round.delivery l.round.schedule

def evaluate (l : Listener) : Except SessionError Evaluation × Listener :=
  let (result, s, _) := l.opening.evaluate l.round.delivery l.round.schedule
  (result, ⟨s, l.rounds.tail, l.received ++ [l.reception]⟩)

theorem prompt_opening (l : Listener) : l.opening.prompt = l.session.prompt := by
  have hall : ∀ (events : List StreamEvent) (s : Session),
      (events.foldl Session.arrive s).prompt = s.prompt := by
    intro events
    induction events with
    | nil => exact fun _ => rfl
    | cons e rest ih => exact fun s => ih (s.arrive e)
  exact hall _ _

theorem prompt_evaluate (l : Listener) : l.evaluate.2.session.prompt = l.session.prompt := by
  rcases hturn : l.opening.evaluate l.round.delivery l.round.schedule with ⟨result, s, rest⟩
  rw [evaluate, hturn]
  exact (Session.prompt_evaluate hturn).trans l.prompt_opening

theorem result_evaluate (l : Listener) :
    l.evaluate.1 = l.reception.map (Reception.evaluation l.session.prompt) := by
  rw [← l.prompt_opening, reception, ← Session.evaluate_eq_reception]
  rfl

theorem received_evaluate (l : Listener) : l.evaluate.2.received = l.received ++ [l.reception] :=
  rfl

end Listener

def Interpreter.listening : Interpreter Listener SessionError := ⟨fun l _ => l.evaluate⟩

namespace Verifier

variable {τ : Type} {sink : Sink τ}

theorem received_verify (sink : Sink τ) (v : Verifier Listener τ) (e : Example) :
    (v.verify .listening sink e).2.interpreter.received =
      v.interpreter.received ++ [v.interpreter.reception] := by
  rw [interpreter_verify]
  exact v.interpreter.received_evaluate

/-- A run adds to the record and takes nothing from it. -/
theorem received_runFrom (v : Verifier Listener τ) (passed : Nat) (examples : List Example) :
    v.interpreter.received <+:
      (v.runFrom .listening sink passed examples).2.interpreter.received := by
  induction examples generalizing v passed with
  | nil => exact List.prefix_rfl
  | cons e rest ih =>
    have hfirst : v.interpreter.received <+:
        (v.verify .listening sink e).2.interpreter.received := by
      rw [received_verify]
      exact List.prefix_append _ _
    rcases v.runFrom_cons_cases .listening sink passed e rest with h | h
    · rw [h]
      exact hfirst
    · rw [h]
      exact hfirst.trans (ih _ (passed + 1))

theorem received_first (v : Verifier Listener τ) (passed : Nat) (e : Example)
    (rest : List Example) :
    (v.runFrom .listening sink passed (e :: rest)).2.interpreter.received[
      v.interpreter.received.length]? = some v.interpreter.reception := by
  have hfirst : v.interpreter.received ++ [v.interpreter.reception] <+:
      (v.runFrom .listening sink passed (e :: rest)).2.interpreter.received := by
    rw [← v.received_verify sink e]
    rcases v.runFrom_cons_cases .listening sink passed e rest with h | h
    · simp only [h, List.prefix_rfl]
    · rw [h]
      exact received_runFrom _ _ _
  obtain ⟨later, hlater⟩ := hfirst
  rw [← hlater, List.append_assoc, List.getElem?_append_right (Nat.le_refl _), Nat.sub_self]
  rfl

structure InStep (p : Prompt) (v w : Verifier Listener τ) : Prop where
  twins : Twins v w
  prompt_left : v.interpreter.session.prompt = p
  prompt_right : w.interpreter.session.prompt = p
  length_eq : w.interpreter.received.length = v.interpreter.received.length

theorem InStep.verify {p : Prompt} {v w : Verifier Listener τ} (h : InStep p v w)
    (hp : p.InLine) (halike : Alike p v.interpreter.reception w.interpreter.reception)
    (sink : Sink τ) (e : Example) :
    (w.verify .listening sink e).1 = (v.verify .listening sink e).1 ∧
      InStep p (v.verify .listening sink e).2 (w.verify .listening sink e).2 := by
  have hreply : SameReply (Interpreter.listening.evaluate v.interpreter e.code).1
      (Interpreter.listening.evaluate w.interpreter e.code).1 := by
    show SameReply v.interpreter.evaluate.1 w.interpreter.evaluate.1
    rw [Listener.result_evaluate, Listener.result_evaluate, h.prompt_left, h.prompt_right]
    exact halike.sameReply hp
  obtain ⟨hresult, htwins⟩ := h.twins.verify hreply
  refine ⟨hresult, htwins, ?_, ?_, ?_⟩
  · rw [interpreter_verify]
    exact v.interpreter.prompt_evaluate.trans h.prompt_left
  · rw [interpreter_verify]
    exact w.interpreter.prompt_evaluate.trans h.prompt_right
  · rw [received_verify, received_verify, List.length_append, List.length_append, h.length_eq]
    rfl

/-- Two verifiers stay in step as long as their turns receive the same but for line ends. -/
theorem InStep.runFrom {p : Prompt} {v w : Verifier Listener τ} (h : InStep p v w)
    (hp : p.InLine) (passed : Nat) (examples : List Example)
    (halike : ∀ (k : Nat) a b,
      (v.runFrom .listening sink passed examples).2.interpreter.received[k]? = some a →
      (w.runFrom .listening sink passed examples).2.interpreter.received[k]? = some b →
      Alike p a b) :
    (w.runFrom .listening sink passed examples).1 =
        (v.runFrom .listening sink passed examples).1 ∧
      Twins (v.runFrom .listening sink passed examples).2
        (w.runFrom .listening sink passed examples).2 := by
  induction examples generalizing v w passed with
  | nil => exact ⟨rfl, h.twins⟩
  | cons e rest ih =>
    have hnow : Alike p v.interpreter.reception w.interpreter.reception := by
      refine halike v.interpreter.received.length _ _ (v.received_first passed e rest) ?_
      rw [← h.length_eq]
      exact w.received_first passed e rest
    obtain ⟨hresult, hafter⟩ := h.verify hp hnow sink e
    rcases hv : v.verify .listening sink e with ⟨result, v'⟩
    rcases hw : w.verify .listening sink e with ⟨result', w'⟩
    rw [hv, hw] at hresult hafter
    obtain rfl : result' = result := hresult
    cases result' with
    | error err =>
      rw [runFrom_error hv, runFrom_error hw]
      exact ⟨rfl, hafter.twins⟩
    | ok verdict =>
      by_cases hverdict : verdict = .success
      · subst hverdict
        rw [runFrom_success hv, runFrom_success hw] at halike ⊢
        exact ih hafter (passed + 1) halike
      · rw [runFrom_rejected hv hverdict, runFrom_rejected hw hverdict]
        exact ⟨by rw [hafter.twins.evaluated_eq], hafter.twins⟩

end Verifier

/-- Let the marker stand within one line.  If CRs are put in front of some LFs of an output,
a prompt is found after it just if one was found before, and what stands before the first prompt,
or all of it if there is none, is the same text.  So two runs of the same examples, with the same
transcript and the same code kept so far, have the same result and leave the same transcript and
the same code, if in every turn that both make they receive outputs that differ in such CRs. -/
theorem line_ends_ignored {p : Prompt} (hp : p.InLine) :
    (∀ s t, AddsCr s t →
      ((p.find t).isSome ↔ (p.find s).isSome) ∧
      (∀ i j, p.find s = some i → p.find t = some j →
        Capture.text (t.take j) = Capture.text (s.take i)) ∧
      (p.find s = none → Capture.text t = Capture.text s)) ∧
    ∀ (τ : Type) (sink : Sink τ) (s t : Session) (rounds rounds' : List Round) (transcript : τ)
      (prompt : String) (evaluated : List String) (examples : List Example),
      s.prompt = p → t.prompt = p →
      let run := (⟨⟨s, rounds, []⟩, transcript, prompt, evaluated⟩ : Verifier Listener τ).run
        .listening sink examples
      let run' := (⟨⟨t, rounds', []⟩, transcript, prompt, evaluated⟩ : Verifier Listener τ).run
        .listening sink examples
      (∀ (k : Nat) a b, run.2.interpreter.received[k]? = some a →
        run'.2.interpreter.received[k]? = some b → Alike p a b) →
      run'.1 = run.1 ∧ run'.2.transcript = run.2.transcript ∧
        run'.2.evaluated = run.2.evaluated := by
  constructor
  · intro s t h
    rcases h.find_cases hp with ⟨hs, ht⟩ | ⟨i, j, hs, ht, hfront⟩
    · rw [hs, ht]
      exact ⟨Iff.rfl, nofun, fun _ => h.text_eq.symm⟩
    · rw [hs, ht]
      refine ⟨Iff.rfl, fun i' j' hi hj => ?_, nofun⟩
      obtain rfl := Option.some.inj hi
      obtain rfl := Option.some.inj hj
      exact hfront.text_eq.symm
  · intro τ sink s t rounds rounds' transcript prompt evaluated examples hs ht run run' halike
    have hstart : Verifier.InStep p
        (⟨⟨s, rounds, []⟩, transcript, prompt, evaluated⟩ : Verifier Listener τ)
        ⟨⟨t, rounds', []⟩, transcript, prompt, evaluated⟩ :=
      ⟨⟨rfl, rfl, rfl⟩, hs, ht, rfl⟩
    obtain ⟨hresult, htwins⟩ := hstart.runFrom hp 0 examples halike
    exact ⟨hresult, htwins.transcript_eq, htwins.evaluated_eq⟩

/-- An output with a sequence that a LF breaks off, two lines and the prompt. -/
def brokenOutput : Bytes := [0xE2, 10, 97, 10, 13, 10, 42, 32]

/-- The same with CRs in front of the LFs that had none. -/
def brokenOutputCr : Bytes := [0xE2, 13, 10, 97, 13, 10, 13, 10, 42, 32]

/-- Two turns.  The output of the first comes at once, and the second hears no prompt. -/
def roundsAtOnce : List Round :=
  [⟨[], .delivered, [.arrives (.data brokenOutput), .looks]⟩,
    ⟨[.data [33]], .delivered, [.arrives (.data [98, 10]), .looks]⟩]

/-- Two turns in which the chunks end between CR and LF, and within the marker. -/
def roundsInPieces : List Round :=
  [⟨[.data [33]], .delivered, [.arrives (.data [0xE2, 13]), .looks,
      .arrives (.data [10, 97, 13, 10, 13]), .arrives (.data [10, 42]), .looks, .looks,
      .arrives (.data [32]), .looks]⟩,
    ⟨[], .brokenPipe, [.arrives (.data [98, 13]), .looks, .arrives (.data [10]), .looks]⟩]

theorem line_ends_ignored_broken :
    let run := (⟨⟨.new .star, roundsAtOnce, []⟩, [], "* ", []⟩ : Verifier Listener (List Char)).run
      .listening .unlimited [⟨"1", none⟩, ⟨"2", none⟩]
    let run' := (⟨⟨.new .star, roundsInPieces, []⟩, [], "* ", []⟩ :
      Verifier Listener (List Char)).run .listening .unlimited [⟨"1", none⟩, ⟨"2", none⟩]
    Prompt.star.InLine ∧ AddsCr brokenOutput brokenOutputCr ∧
      Capture.text (brokenOutputCr.take 8) = Capture.text (brokenOutput.take 6) ∧
      (∀ (k : Nat) a b, run.2.interpreter.received[k]? = some a →
        run'.2.interpreter.received[k]? = some b → Alike .star a b) ∧
      run'.1 = .ok ⟨1, some ⟨2, ⟨"2", none⟩, .timeout, ["1"]⟩⟩ ∧
      run'.2.transcript = run.2.transcript := by
  intro run run'
  have hmarker : Prompt.star.InLine := ⟨by decide, by decide⟩
  have hadds : AddsCr brokenOutput brokenOutputCr :=
    .same 0xE2 (.added (by decide) (.same 97 (.added (by decide)
      (.same 13 (.same 10 (.same 42 (.same 32 (.nil _))))))))
  have hadds' : AddsCr [98, 10] [98, 13, 10] := .same 98 (.added (by decide) (.nil _))
  have hreceived : run.2.interpreter.received =
      [.ok ⟨brokenOutput, false⟩, .ok ⟨[98, 10], false⟩] := rfl
  have hreceived' : run'.2.interpreter.received =
      [.ok ⟨brokenOutputCr, false⟩, .ok ⟨[98, 13, 10], false⟩] := rfl
  have halike : ∀ (k : Nat) a b, run.2.interpreter.received[k]? = some a →
      run'.2.interpreter.received[k]? = some b → Alike .star a b := by
    intro k a b ha hb
    rw [hreceived] at ha
    rw [hreceived'] at hb
    match k with
    | 0 =>
      obtain rfl := Option.some.inj ha
      obtain rfl := Option.some.inj hb
      exact .received ⟨List.prefix_rfl, fun _ => rfl⟩ ⟨List.prefix_rfl, fun _ => rfl⟩
        (.refl none _) hadds fun _ => rfl
    | 1 =>
      obtain rfl := Option.some.inj ha
      obtain rfl := Option.some.inj hb
      exact .received ⟨List.prefix_rfl, fun _ => rfl⟩ ⟨List.prefix_rfl, fun _ => rfl⟩
        (.refl none _) hadds' fun _ => rfl
    | k + 2 => cases ha
  obtain ⟨houtputs, hruns⟩ := line_ends_ignored hmarker
  obtain ⟨hresult, htranscript, -⟩ := hruns _ .unlimited (.new .star) (.new .star) roundsAtOnce
    roundsInPieces [] "* " [] [⟨"1", none⟩, ⟨"2", none⟩] rfl rfl halike
  refine ⟨hmarker, hadds, ?_, halike, hresult.trans rfl, htranscript⟩
  exact (houtputs _ _ hadds).2.1 6 8 (by decide) (by decide)

end LiveDoc
