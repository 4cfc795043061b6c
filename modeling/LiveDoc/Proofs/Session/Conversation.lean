/-
Conversations with an interpreter that answers.

The interpreter prints a banner and the prompt, and then for each code, when it
has read all of it, a reply and the prompt.  Each reply with the prompt behind it
contains no earlier prompt.  However the printed bytes are cut up and delayed, if
before each deadline all has been heard, printed, forwarded and looked at, then the
session is the new session again after each turn.  This is what carries the
induction.
-/
import LiveDoc.Proofs.Session.Running
import LiveDoc.Proofs.Session.Responder
import LiveDoc.Session.Live

namespace LiveDoc

/-- A code, what is printed for it before the prompt, and what happens in its turn. -/
structure Exchange where
  code : String
  reply : Bytes
  acts : List Act

structure Conversation where
  banner : Bytes
  /-- What happens until the interpreter has started. -/
  opening : List Act
  exchanges : List Exchange

structure TurnView where
  /-- What is pending and what is in the channel as the turn begins. -/
  pending : Bytes
  channel : List StreamEvent
  stray : Bytes
  sent : Option Bytes
  result : Except SessionError Evaluation

def scriptOf (p : Prompt) (exchanges : List Exchange) : List (Bytes × Bytes) :=
  exchanges.map fun x => (Session.line x.code, x.reply ++ p.bytes)

namespace World

/-- Nothing is to be heard, and nothing is on its way. -/
def Silent (w : World) : Prop := w.responder.input = [] ∧ w.coming = []

/-- With these acts the world becomes silent, and after each arrival there is a look for it. -/
def Settles (w : World) (acts : List Act) : Prop :=
  (w.afterAll acts).Silent ∧ Session.backlog 0 (w.play acts) = 0

/-- The world settles in each turn, after the code has been written. -/
def SettlesEach (w : World) : List Exchange → Prop
  | [] => True
  | x :: rest =>
    (w.receive (Session.line x.code)).Settles x.acts ∧
      ((w.receive (Session.line x.code)).afterAll x.acts).SettlesEach rest

end World

namespace Session

def arriveAll (s : Session) (later : List Happening) : Session := (arrivalsIn later).foldl arrive s

/-- What is seen of a turn, and the session and the world after it. -/
def exchange (s : Session) (w : World) (x : Exchange) : TurnView × Session × World :=
  let sent := s.offer x.code
  let w := w.receive (sent.getD [])
  let (result, s', later) := s.evaluate .delivered (w.play x.acts)
  (⟨s.pending, s.channel, s.stray, sent, result⟩, s'.arriveAll later, w.afterAll x.acts)

def converse (s : Session) (w : World) : List Exchange → List TurnView
  | [] => []
  | x :: rest =>
    (s.exchange w x).1 :: converse (s.exchange w x).2.1 (s.exchange w x).2.2 rest

end Session

namespace Conversation

def world (c : Conversation) (p : Prompt) : World where
  responder := {
    script := scriptOf p c.exchanges
    input := []
    heard := []
    saying := c.banner ++ p.bytes }
  pipes := .empty

/-- Behind the banner and behind each reply stands the first prompt. -/
def Exact (c : Conversation) (p : Prompt) : Prop :=
  p.find (c.banner ++ p.bytes) = some c.banner.length ∧
    ∀ x ∈ c.exchanges, p.find (x.reply ++ p.bytes) = some x.reply.length

/-- All comes in time, before the deadline of the start and before that of each turn. -/
def InTime (c : Conversation) (p : Prompt) : Prop :=
  (c.world p).Settles c.opening ∧ ((c.world p).afterAll c.opening).SettlesEach c.exchanges

end Conversation

/-! ## One turn -/

namespace Session

theorem line_ne_nil (code : String) : line code ≠ [] := by
  rw [line]
  split
  · next hlast =>
    rw [bytesOf]
    cases hcode : code.toList with
    | nil =>
      rw [hcode] at hlast
      cases hlast
    | cons c rest =>
      rw [Utf8.encode_cons, List.append_assoc]
      exact List.append_ne_nil_of_left_ne_nil String.utf8EncodeChar_ne_nil _
  · exact List.append_ne_nil_of_right_ne_nil _ (List.cons_ne_nil _ _)

theorem ne_nil_of_scriptOf (p : Prompt) (exchanges : List Exchange) :
    ∀ y ∈ scriptOf p exchanges, y.1 ≠ [] := by
  intro y hy
  obtain ⟨x, -, rfl⟩ := List.mem_map.mp hy
  exact line_ne_nil x.code

theorem eq_nil_of_dataOf {events : List StreamEvent}
    (hbytes : ∀ e ∈ events, e.bytes ≠ []) (h : dataOf events = []) : events = [] := by
  cases events with
  | nil => rfl
  | cons e rest =>
    rw [dataOf_cons, List.append_eq_nil_iff] at h
    exact absurd h.1 (hbytes e List.mem_cons_self)

/-- What has happened to a new session when no end of the output has arrived. -/
theorem afterAll_new (p : Prompt) {schedule : List Happening}
    (hopen : .closed ∉ arrivalsIn schedule) :
    ∃ received channel, (new p).afterAll schedule = ⟨p, dataOf received, channel, false, true⟩ ∧
      arrivalsIn schedule = received ++ channel := by
  obtain ⟨received, harrived, hpending, -⟩ := (new p).afterAll_spec schedule
  have hrunning : ((new p).afterAll schedule).Running :=
    Running.afterAll ⟨rfl, List.not_mem_nil⟩ hopen
  refine ⟨received, ((new p).afterAll schedule).channel, ?_, harrived⟩
  rw [← hrunning.1, ← (show _ = dataOf received from hpending)]
  show _ = Session.mk (new p).prompt _ _ _ (new p).writable
  rw [← prompt_afterAll (new p) schedule, ← writable_afterAll (new p) schedule]

/-- When an answer is due, the wait for it ends with the prompt and with nothing else on its
way. -/
theorem wait_answer {p : Prompt} {w : World} {reply : Bytes} {script : List (Bytes × Bytes)}
    {acts : List Act} {e : WaitEnd} {s' : Session} {later : List Happening}
    (hfind : p.find (reply ++ p.bytes) = some reply.length)
    (hanswer : w.Answering (reply ++ p.bytes) script) (htexts : ∀ x ∈ script, x.1 ≠ [])
    (htime : w.Settles acts) (hwait : (new p).wait (w.play acts) = (e, s', later)) :
    e = .matched ∧ s' = { new p with pending := reply ++ p.bytes } ∧ arrivalsIn later = [] ∧
      (w.afterAll acts).Speaking [] script := by
  have hclosed := World.not_closed_play hanswer.ended_eq acts
  have hcourse := hanswer.afterAll htexts acts
  have hevents : ∀ e ∈ arrivalsIn (w.play acts), e.bytes ≠ [] := by
    intro e he
    exact Pipes.bytes_ne_nil_of_play _ he (fun h => hclosed (h ▸ he))
  obtain ⟨done, hschedule, hs', -⟩ := wait_spec hwait
  rw [hschedule, arrivalsIn_append] at hclosed hcourse hevents
  obtain ⟨received, channel, hafter, harrived⟩ :=
    afterAll_new p (fun h => hclosed (List.mem_append_left _ h))
  rw [hafter] at hs'
  subst hs'
  rw [harrived, dataOf_append, dataOf_append] at hcourse
  rcases wait_cases hwait with ⟨rfl, i, hi⟩ | ⟨-, -, hexited⟩ | ⟨rfl, hno, -, rfl⟩
  · rcases hcourse with ⟨hnone, -⟩ | ⟨rest, hwhole, hspeaking⟩
    · -- What is pending is nothing, and no prompt stands there.
      simp only [List.append_eq_nil_iff] at hnone
      rw [hnone.1.1, Prompt.find_nil] at hi
      cases hi
    · -- What is pending holds the prompt, so it is all there is.
      rw [List.append_assoc, List.append_assoc] at hwhole
      have hnone := Prompt.eq_nil_of_find_last hi hwhole.symm hfind
      rw [hnone, List.append_nil] at hwhole
      simp only [List.append_eq_nil_iff] at hnone
      obtain ⟨hchannel, hlater, rfl⟩ := hnone
      have hempty : channel = [] := by
        refine eq_nil_of_dataOf (fun e he => hevents e (List.mem_append_left _ ?_)) hchannel
        rw [harrived]
        exact List.mem_append_right _ he
      refine ⟨rfl, ?_, ?_, hspeaking⟩
      · rw [hempty, hwhole]
        rfl
      · exact eq_nil_of_dataOf (fun e he => hevents e (List.mem_append_right _ he)) hlater
  · cases hexited
  · obtain ⟨⟨hinput, hcoming⟩, hlooks⟩ := htime
    -- The deadline has passed, so all of the acts have happened.
    rw [hschedule, List.append_nil] at hlooks
    have hlength := length_channel_le_backlog (new p) (Nat.le_refl 0) done
    rw [hlooks, hafter] at hlength
    rcases hcourse with ⟨-, text, hlistening⟩ | ⟨rest, hwhole, hspeaking⟩
    · exact absurd hinput hlistening.input_ne
    · -- What is pending is all of the answer, so the prompt would have been found.
      obtain rfl : channel = [] := List.length_eq_zero_iff.mp (Nat.le_zero.mp hlength)
      obtain rfl : [] = rest := hcoming.symm.trans hspeaking.coming_eq
      simp only [dataOf_nil, arrivalsIn, List.append_nil] at hwhole
      rw [← hwhole] at hno
      rw [show p.find (reply ++ p.bytes) = none from hno] at hfind
      cases hfind

theorem takeTurn_answer {p : Prompt} {reply : Bytes}
    (hfind : p.find (reply ++ p.bytes) = some reply.length) :
    ({ new p with pending := reply ++ p.bytes } : Session).takeTurn = (reply, new p) := by
  have htake := takeTurn_of_find (s := { new p with pending := reply ++ p.bytes }) hfind
  rw [htake, List.take_left]
  show (reply, { new p with pending := (reply ++ p.bytes).drop (reply.length + p.bytes.length) }) = _
  rw [← List.length_append, List.drop_length]
  rfl

theorem exchange_answer {p : Prompt} {w : World} {x : Exchange} {script : List (Bytes × Bytes)}
    (hfind : p.find (x.reply ++ p.bytes) = some x.reply.length)
    (hspeaking : w.Speaking [] ((line x.code, x.reply ++ p.bytes) :: script))
    (htexts : ∀ y ∈ script, y.1 ≠ [])
    (htime : (w.receive (line x.code)).Settles x.acts) :
    (new p).exchange w x =
        (⟨[], [], [], some (line x.code), .ok ⟨.success, x.reply⟩⟩, new p,
          (w.receive (line x.code)).afterAll x.acts) ∧
      ((w.receive (line x.code)).afterAll x.acts).Speaking [] script := by
  have hlistening :
      (w.receive (line x.code)).Listening (line x.code) (x.reply ++ p.bytes) script := by
    refine ⟨hspeaking.script_eq, ?_, ?_, hspeaking.coming_eq, hspeaking.ended_eq⟩
    · simp [World.receive, hspeaking.heard_eq, hspeaking.input_eq]
    · simp [World.receive, line_ne_nil]
  let w₁ := w.receive (line x.code)
  cases hwait : (new p).wait (w₁.play x.acts) with
  | mk e outcome =>
    obtain ⟨s₁, later⟩ := outcome
    have hdeliver : (new p).discardStray.deliver .delivered = .ok (new p) := rfl
    have hexchange : (new p).exchange w x =
        (⟨[], [], [], some (line x.code), .ok ⟨verdictOf e, s₁.takeTurn.1⟩⟩,
          s₁.takeTurn.2.arriveAll later, w₁.afterAll x.acts) := by
      have hturn := evaluate_of_deliver hdeliver hwait
      have hoffer : (new p).offer x.code = some (line x.code) := rfl
      rw [exchange, hoffer, Option.getD_some, hturn]
      rfl
    obtain ⟨rfl, rfl, hlater, hafter⟩ :=
      wait_answer hfind (Or.inl ⟨_, hlistening⟩) htexts htime hwait
    refine ⟨?_, hafter⟩
    rw [hexchange, takeTurn_answer hfind, arriveAll, hlater]
    rfl

theorem converse_answers {p : Prompt} {w : World} {exchanges : List Exchange}
    (hfind : ∀ x ∈ exchanges, p.find (x.reply ++ p.bytes) = some x.reply.length)
    (hspeaking : w.Speaking [] (scriptOf p exchanges))
    (htime : w.SettlesEach exchanges) :
    (new p).converse w exchanges =
      exchanges.map fun x => ⟨[], [], [], some (line x.code), .ok ⟨.success, x.reply⟩⟩ := by
  induction exchanges generalizing w with
  | nil => rfl
  | cons x rest ih =>
    obtain ⟨hnow, hthen⟩ := htime
    obtain ⟨hexchange, hafter⟩ :=
      exchange_answer (hfind x List.mem_cons_self) hspeaking (ne_nil_of_scriptOf p rest) hnow
    have hlater := ih (fun y hy => hfind y (List.mem_cons_of_mem _ hy)) hafter hthen
    rw [converse, hexchange, List.map_cons, ← hlater]

end Session

/-! ## Whole conversations -/

theorem Prompt.ofMarker_marker {p : Prompt} (hsize : p.marker.utf8ByteSize ≤ maxMarkerBytes) :
    ofMarker p.marker = .ok p := by
  rw [ofMarker, dif_neg p.marker_ne, if_neg (by omega)]

theorem Conversation.speaking_world (c : Conversation) (p : Prompt) :
    (c.world p).Speaking (c.banner ++ p.bytes) (scriptOf p c.exchanges) :=
  ⟨rfl, rfl, rfl, rfl, rfl⟩

/-- Let the marker be one that can be searched for, and let all come before the deadlines.  Then
the session starts, and however the output is cut up and delayed, each turn begins with nothing
pending and nothing in the channel, discards nothing, sends the whole of its code and succeeds with
exactly the reply. -/
theorem conversation_exact {p : Prompt} (hsize : p.marker.utf8ByteSize ≤ Prompt.maxMarkerBytes)
    {c : Conversation} (hexact : c.Exact p) (htime : c.InTime p)
    (command : String) (timeout : Nat) :
    Prompt.ofMarker p.marker = .ok p ∧
    ∃ s later, Session.start p command timeout ((c.world p).play c.opening) = (.ok s, later) ∧
      (s.arriveAll later).converse ((c.world p).afterAll c.opening) c.exchanges =
        c.exchanges.map fun x =>
          ⟨[], [], [], some (Session.line x.code), .ok ⟨.success, x.reply⟩⟩ := by
  refine ⟨Prompt.ofMarker_marker hsize, ?_⟩
  obtain ⟨hstart, hturns⟩ := htime
  cases hwait : (Session.new p).wait ((c.world p).play c.opening) with
  | mk e outcome =>
    obtain ⟨s₁, later⟩ := outcome
    obtain ⟨rfl, rfl, hlater, hafter⟩ := Session.wait_answer hexact.1
      (Or.inr (c.speaking_world p)) (Session.ne_nil_of_scriptOf p _) hstart hwait
    have hnew : (Session.new p).arriveAll later = Session.new p := by
      rw [Session.arriveAll, hlater, List.foldl_nil]
    refine ⟨Session.new p, later, ?_, ?_⟩
    · rw [Session.start_of_wait hwait, Session.takeTurn_answer hexact.1]
    · rw [hnew]
      exact Session.converse_answers hexact.2 hafter hturns

/-- A conversation of two turns.  The code of the first is read in two pieces, the marker comes
in two chunks, and the reader lags behind. -/
def shortConversation : Conversation where
  banner := [104, 105, 10]
  opening := [.speaks 9, .forwards 9, .looks]
  exchanges := [
    ⟨"1", [49, 10], [.reads 1, .looks, .reads 9, .speaks 3, .forwards 3, .looks, .speaks 9,
      .forwards 9, .looks, .forwards 9]⟩,
    ⟨"", [], [.reads 9, .speaks 9, .forwards 1, .forwards 1, .looks, .looks]⟩]

theorem conversation_exact_short :
    shortConversation.Exact .star ∧ shortConversation.InTime .star ∧
      ∃ s later, Session.start .star "sh" 5000
          ((shortConversation.world .star).play shortConversation.opening) = (.ok s, later) ∧
        ((s.arriveAll later).converse ((shortConversation.world .star).afterAll
          shortConversation.opening) shortConversation.exchanges).map TurnView.result =
            [.ok ⟨.success, [49, 10]⟩, .ok ⟨.success, []⟩] := by
  have hexact : shortConversation.Exact .star := by
    refine ⟨by decide, fun x hx => ?_⟩
    rcases List.mem_cons.mp hx with rfl | hx
    · decide
    · obtain rfl := List.mem_singleton.mp hx
      decide
  have htime : shortConversation.InTime .star :=
    ⟨⟨⟨rfl, rfl⟩, rfl⟩, ⟨⟨rfl, rfl⟩, rfl⟩, ⟨⟨rfl, rfl⟩, rfl⟩, trivial⟩
  obtain ⟨-, s, later, hstart, hturns⟩ :=
    conversation_exact (p := .star) (by decide) hexact htime "sh" 5000
  refine ⟨hexact, htime, s, later, hstart, ?_⟩
  rw [hturns]
  rfl

def longMarker : String := "".pushn 'a' 500000

theorem utf8ByteSize_pushn (n : Nat) : ("".pushn 'a' n).utf8ByteSize = n := by
  rw [String.pushn_eq_repeat_push]
  induction n with
  | zero => rfl
  | succ n ih =>
    rw [Nat.repeat, String.utf8ByteSize_push, ih]
    rfl

/-- Whatever interpreter is launched, no session starts with a marker that is too long. -/
theorem start_of_longMarker : longMarker ≠ "" ∧ ∀ launch (r : SessionRequest),
    r.prompt = longMarker → Live.start launch r = .error (.prompt (.tooLong longMarker)) := by
  have hsize : longMarker.utf8ByteSize = 500000 := utf8ByteSize_pushn 500000
  have hne : longMarker ≠ "" := by
    intro h
    rw [h] at hsize
    cases hsize
  refine ⟨hne, fun launch r hr => ?_⟩
  have hrefused : Prompt.ofMarker r.prompt = .error (.tooLong longMarker) := by
    rw [hr, Prompt.ofMarker, dif_neg hne, if_pos]
    rw [hsize]
    decide
  rw [Live.start, hrefused]

end LiveDoc
