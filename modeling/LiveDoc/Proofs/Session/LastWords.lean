/-
The last words of an interpreter.

Two readers send to one channel, and only the one for the output reports an end.  So error
messages can come behind the end, and a session that has received the end may have left some of
them in the channel.  Of the output it has left nothing.  The look that receives the end is the
last one of its wait, and before it no prompt was found.  So a prompt that is found then reaches
past all output, and whatever ends the turn, the turn takes it all.
-/
import LiveDoc.Proofs.Session.Course
import LiveDoc.Proofs.Session.Undelivered

namespace LiveDoc
namespace Session

variable {s s₁ : Session}

/-! ## The look that receives the end -/

theorem channel_of_look_exited (hopen : s.exited = false) (hexited : s.look.exited = true) :
    ∃ queued, s.channel = .closed :: queued := by
  cases hchannel : s.channel with
  | nil =>
    rw [s.look_nil hchannel, hopen] at hexited
    cases hexited
  | cons e queued =>
    cases e with
    | data chunk =>
      rw [s.look_data hchannel] at hexited
      exact absurd (hopen.symm.trans hexited) Bool.false_ne_true
    | closed => exact ⟨queued, rfl⟩

/-- A wait that receives the end does so at its last look. -/
theorem wait_exits {e : WaitEnd} {schedule rest : List Happening} (hopen : s.exited = false)
    (h : s.wait schedule = (e, s₁, rest)) (hexited : s₁.exited = true) :
    ∃ init queued, happened schedule rest = init ++ [.looks] ∧
      s.prompt.find (s.afterAll init).pending = none ∧
      (s.afterAll init).channel = .closed :: queued ∧ s₁ = (s.afterAll init).look := by
  obtain ⟨done, rfl, hs₁, -⟩ := wait_spec h
  rw [happened_append]
  rcases List.eq_nil_or_concat done with rfl | ⟨init, last, rfl⟩
  · rw [hs₁, afterAll_nil, hopen] at hexited
    cases hexited
  · rw [List.concat_eq_append] at h hs₁ ⊢
    have hwaits := waitEnd?_before h (n := init.length) (by simp)
    rw [List.take_left] at hwaits
    obtain ⟨hfind, hstill⟩ := waitEnd?_eq_none hwaits
    rw [prompt_afterAll] at hfind
    rw [afterAll_append, afterAll_cons, afterAll_nil] at hs₁
    cases last with
    | arrives e =>
      have hsame : s₁.exited = (s.afterAll init).exited := by rw [hs₁]; rfl
      rw [hsame, hstill] at hexited
      cases hexited
    | looks =>
      rw [after_looks] at hs₁
      rw [hs₁] at hexited
      obtain ⟨queued, hqueued⟩ := channel_of_look_exited hstill hexited
      exact ⟨init, queued, rfl, hfind, hqueued, hs₁⟩

/-- With the end comes data from behind it, and all of it if there is no second end. -/
theorem look_closed_spec {queued : List StreamEvent} (h : s.channel = .closed :: queued) :
    (∃ words, queued = words ++ s.look.channel ∧ s.look.pending = s.pending ++ dataOf words) ∧
      (.closed ∉ queued → s.look.channel = []) := by
  constructor
  · obtain ⟨received, hchannel, hpending, -⟩ := s.look_spec
    have hshorter := s.length_look
    rw [h] at hchannel hshorter
    cases received with
    | nil =>
      rw [← List.nil_append s.look.channel, ← hchannel, List.length_cons] at hshorter
      omega
    | cons e words =>
      obtain ⟨rfl, hqueued⟩ := List.cons.inj hchannel
      exact ⟨words, hqueued, hpending⟩
  · intro hlast
    rw [s.look_closed h, splitData_of_not_closed hlast]
    rfl

/-- What was pending when no prompt had been found is taken when the turn ends. -/
theorem prefix_takeTurn {e : WaitEnd} {schedule rest : List Happening} {before more : Bytes}
    (h : s.wait schedule = (e, s₁, rest)) (hpending : s₁.pending = before ++ more)
    (hnone : s₁.prompt.find before = none) : before <+: s₁.takeTurn.1 ++ closing s₁.prompt e := by
  obtain ⟨htaken, -⟩ := takeTurn_of_wait h
  have hbefore : before <+: s₁.pending := hpending ▸ List.prefix_append before more
  have htake : s₁.takeTurn.1 ++ closing s₁.prompt e <+: s₁.pending :=
    ⟨s₁.takeTurn.2.pending, htaken.symm⟩
  refine List.prefix_of_prefix_length_le hbefore htake ?_
  cases hfind : s₁.prompt.find s₁.pending with
  | none =>
    have hlength := congrArg List.length hpending
    rw [takeTurn_of_not_find hfind]
    show before.length ≤ (s₁.pending ++ closing s₁.prompt e).length
    rw [List.length_append] at hlength ⊢
    omega
  | some i =>
    have hmatched := matched_of_find h hfind
    have hstands := Prompt.standsAt_of_find hfind
    have hle := hstands.le
    -- A prompt that ended in what was pending before would have been found before.
    have hpast : ¬ i + s₁.prompt.bytes.length ≤ before.length := by
      intro hwithin
      rw [hpending] at hstands
      exact Prompt.find_eq_none_iff.mp hnone i (hstands.of_append hwithin)
    rw [takeTurn_of_find hfind, hmatched, closing, List.length_append, List.length_take]
    omega

/-- When a wait receives the end, the turn takes all bytes that came before it. -/
theorem wait_spends {e : WaitEnd} {schedule rest : List Happening} (hopen : s.exited = false)
    (h : s.wait schedule = (e, s₁, rest)) (hexited : s₁.exited = true) :
    ∃ before words, s.channel ++ arrivalsIn (happened schedule rest) =
        before ++ .closed :: words ++ s₁.channel ∧
      s.pending ++ dataOf before <+: s₁.takeTurn.1 ++ closing s.prompt e := by
  obtain ⟨init, queued, hinit, hfind, hqueued, hlook⟩ := wait_exits hopen h hexited
  obtain ⟨before, hchannel, hpending, -⟩ := s.afterAll_spec init
  obtain ⟨⟨words, hwords, hmore⟩, -⟩ := look_closed_spec hqueued
  rw [← hlook] at hwords hmore
  have hprompt : s₁.prompt = s.prompt := by
    rw [hlook, prompt_look, prompt_afterAll]
  rw [hpending] at hfind hmore
  refine ⟨before, words, ?_, ?_⟩
  · rw [hinit, arrivalsIn_append, arrivalsIn, arrivalsIn, List.append_nil, hchannel, hqueued, hwords,
      List.append_assoc, List.cons_append]
  · rw [← hprompt] at hfind ⊢
    exact prefix_takeTurn h hmore hfind

/-- A wait that begins with nothing and is ended by the end of the output takes all that has
arrived, also what was queued behind the end when it was received. -/
theorem wait_exited {schedule rest : List Happening} (hopen : s.exited = false)
    (hnothing : s.unread = []) (h : s.wait schedule = (.exited, s₁, rest)) :
    ∃ init queued, happened schedule rest = init ++ [.looks] ∧
      (s.afterAll init).channel = .closed :: queued ∧
      (.closed ∉ queued → s₁.takeTurn.1 = (s.afterAll init).pending ++ dataOf queued ∧
        s₁.takeTurn.1 = dataOf (arrivalsIn (happened schedule rest)) ∧ s₁.channel = []) := by
  rcases wait_cases h with ⟨he, -⟩ | ⟨-, hfind, hexited⟩ | ⟨he, -⟩
  · cases he
  · obtain ⟨init, queued, hinit, -, hqueued, hlook⟩ := wait_exits hopen h hexited
    refine ⟨init, queued, hinit, hqueued, fun hlast => ?_⟩
    have hempty : s₁.channel = [] := hlook ▸ (look_closed_spec hqueued).2 hlast
    have hwhole := s.unread_afterAll (happened schedule rest)
    have hafter : s.afterAll (happened schedule rest) = s₁ := by
      rw [hinit, afterAll_append, hlook]
      rfl
    rw [hafter, hnothing, List.nil_append, unread, hempty, dataOf_nil, List.append_nil] at hwhole
    rw [takeTurn_of_not_find hfind]
    refine ⟨?_, hwhole, hempty⟩
    rw [hlook, look_closed _ hqueued, splitData_of_not_closed hlast]
  · cases he

/-- What a turn leaves in the channel is an end of what it found there and of what arrived. -/
theorem evaluate_receives {s' : Session} {d : Delivery} {schedule rest : List Happening}
    {result : Except SessionError Evaluation} (h : s.evaluate d schedule = (result, s', rest)) :
    ∃ received, s.discardStray.channel ++ arrivalsIn (happened schedule rest) =
      received ++ s'.channel := by
  cases result with
  | error err =>
    obtain ⟨rfl, rfl⟩ := evaluate_error h
    exact ⟨[], by simp [happened, arrivalsIn]⟩
  | ok ev =>
    obtain ⟨w, e, s₁, hwait, -, rfl⟩ := evaluate_ok h
    obtain ⟨received, harrived, -⟩ := wait_takes hwait
    exact ⟨received, harrived⟩

end Session

/-! ## What is booked when the end has been received -/

theorem dataOf_mono {a b : List StreamEvent} (h : a <+: b) : dataOf a <+: dataOf b := by
  obtain ⟨more, rfl⟩ := h
  rw [dataOf_append]
  exact List.prefix_append _ _

/-- All bytes before an end of the output are spent. -/
def EndSpent (received : List StreamEvent) (spent : Bytes) : Prop :=
  ∃ before behind, received = before ++ .closed :: behind ∧ dataOf before <+: spent

theorem EndSpent.mono {received received' : List StreamEvent} {spent spent' : Bytes}
    (h : EndSpent received spent) (hreceived : received <+: received') (hspent : spent <+: spent') :
    EndSpent received' spent' := by
  obtain ⟨before, behind, rfl, hbefore⟩ := h
  obtain ⟨more, rfl⟩ := hreceived
  exact ⟨before, behind ++ more, by simp, hbefore.trans hspent⟩

theorem EndSpent.of_mem {received : List StreamEvent} (h : .closed ∈ received) :
    EndSpent received (dataOf received) := by
  obtain ⟨before, behind, rfl⟩ := List.append_of_mem h
  exact ⟨before, behind, rfl, dataOf_mono (List.prefix_append _ _)⟩

namespace Account

/-- All that came before an end of the output is booked. -/
def EndBooked (p : Prompt) (a : Account) : Prop := EndSpent a.received (a.spentOn p a.turns)

variable {p : Prompt} {a : Account}

/-- The end was received before a turn or is among its strays. -/
theorem Balanced.endBooked_of_stray (h : a.Balanced p)
    (hbooked : a.session.exited = true → a.EndBooked p)
    (hexited : a.session.discardStray.exited = true) (d : Delivery) (schedule : List Happening) :
    (a.evaluate schedule (a.session.evaluate d schedule)).EndBooked p := by
  obtain ⟨-, taken, hchannel, hstray, hend⟩ := a.session.discardStray_spec
  have hdata : dataOf (a.received ++ taken) = a.spentOn p a.turns ++ a.session.stray := by
    rw [dataOf_append, h.received_eq, hstray, List.append_assoc]
  have hspent : EndSpent (a.received ++ taken) (a.spentOn p a.turns ++ a.session.stray) := by
    rcases hend.mp hexited with hbefore | hmem
    · exact (hbooked hbefore).mono (List.prefix_append _ _) (List.prefix_append _ _)
    · rw [← hdata]
      exact .of_mem (List.mem_append_right _ hmem)
  rcases hturn : a.session.evaluate d schedule with ⟨result, s', rest⟩
  obtain ⟨more, hmore⟩ := Session.evaluate_receives hturn
  have harrived : (a.evaluate schedule (result, s', rest)).arrived =
      a.received ++ taken ++ more ++ s'.channel := by
    show a.arrived ++ arrivalsIn (happened schedule rest) = _
    rw [h.arrived_eq, hchannel, List.append_assoc, List.append_assoc, hmore]
    simp only [List.append_assoc]
  rw [EndBooked, received_of_append harrived]
  refine hspent.mono (List.prefix_append _ _) ?_
  show _ <+: a.spentOn p (a.turns ++ [_])
  rw [spentOn_append, List.prefix_append_right_inj]
  exact List.prefix_append _ _

/-- The end is received in a turn that waits. -/
theorem Balanced.endBooked_of_wait (h : a.Balanced p) {d : Delivery}
    {schedule rest : List Happening} {ev : Evaluation} {s' : Session}
    (hopen : a.session.discardStray.exited = false)
    (hturn : a.session.evaluate d schedule = (.ok ev, s', rest)) (hexited : s'.exited = true) :
    (a.evaluate schedule (.ok ev, s', rest)).EndBooked p := by
  obtain ⟨seen, hseen, hdata⟩ := h.discardStray
  obtain ⟨w, e, s₁, hwait, rfl, rfl⟩ := Session.evaluate_ok hturn
  rw [Session.takeTurn_eq] at hexited
  obtain ⟨before, words, harrived, htaken⟩ := Session.wait_spends
    (s := { a.session.discardStray with writable := w }) hopen hwait hexited
  rw [Session.pending_discardStray, List.nil_append] at htaken
  have hprompt : a.session.discardStray.prompt = p :=
    a.session.prompt_discardStray.trans h.prompt_eq
  have hreceived : (a.evaluate schedule (.ok ⟨Session.verdictOf e, s₁.takeTurn.1⟩,
      s₁.takeTurn.2, rest)).received = seen ++ before ++ .closed :: words := by
    refine received_of_append ?_
    show a.arrived ++ arrivalsIn (happened schedule rest) = _ ++ s₁.takeTurn.2.channel
    rw [hseen, Session.takeTurn_eq, List.append_assoc, harrived]
    simp only [List.append_assoc]
  refine ⟨seen ++ before, words, hreceived, ?_⟩
  rw [dataOf_append, hdata]
  show _ <+: a.spentOn p (a.turns ++ [_])
  rw [spentOn_append, TurnRecord.bytes_evaluated, List.append_assoc,
    List.prefix_append_right_inj, List.prefix_append_right_inj, ← hprompt]
  exact htaken

end Account

theorem Course.endBooked {p : Prompt} {a : Account} (h : Course p a)
    (hexited : a.session.exited = true) : a.EndBooked p := by
  induction h with
  | @start command timeout schedule rest s hstart =>
    obtain ⟨s₁, hwait, rfl⟩ := Session.start_ok hstart
    rw [Session.takeTurn_eq] at hexited
    obtain ⟨before, words, harrived, htaken⟩ := Session.wait_spends rfl hwait hexited
    have hchannel : s₁.takeTurn.2.channel = s₁.channel := by rw [Session.takeTurn_eq]
    rw [← hchannel] at harrived
    rw [hwait]
    refine ⟨before, words, Account.received_of_append harrived, ?_⟩
    rw [Account.spentOn, List.flatMap_nil, List.append_nil]
    exact htaken
  | @arrives a e hcourse ih =>
    have harrived : (a.arrive e).arrived = a.received ++ (a.arrive e).session.channel := by
      rw [Account.arrive, Session.arrive, hcourse.balanced.arrived_eq, List.append_assoc]
    rw [Account.EndBooked, Account.received_of_append harrived]
    exact ih hexited
  | @evaluates a d schedule hcourse ih =>
    cases hopen : a.session.discardStray.exited with
    | true => exact hcourse.balanced.endBooked_of_stray ih hopen d schedule
    | false =>
      rcases hturn : a.session.evaluate d schedule with ⟨err | ev, s', rest⟩
      · rw [hturn] at hexited
        obtain ⟨rfl, -⟩ := Session.evaluate_error hturn
        exact absurd (hopen.symm.trans hexited) Bool.false_ne_true
      · rw [hturn] at hexited
        exact hcourse.balanced.endBooked_of_wait hopen hturn hexited

/-! ## Two senders -/

def sentBy (stream : Stream) (sent : List (Stream × StreamEvent)) : List StreamEvent :=
  (sent.filter fun e => e.1 = stream).map Prod.snd

/-- What is sent to a channel by the reader of the output, in chunks and then the end, and by the
reader of the error messages, in chunks only.  The two come in any order. -/
structure Merges (sent : List (Stream × StreamEvent)) (output errors : List Bytes) : Prop where
  output_eq : sentBy .output sent = output.map .data ++ [.closed]
  errors_eq : sentBy .error sent = errors.map .data

def markedBytes (sent : List (Stream × StreamEvent)) : List (Stream × UInt8) :=
  sent.flatMap fun e => e.2.bytes.map fun b => (e.1, b)

def bytesOn (stream : Stream) (marked : List (Stream × UInt8)) : Bytes :=
  (marked.filter fun b => b.1 = stream).map Prod.snd

/-- The bytes are the first of all that are sent, among them the whole output. -/
def HasOutput (sent : List (Stream × StreamEvent)) (output errors : List Bytes)
    (taken : Bytes) : Prop :=
  ∃ marked, marked <+: markedBytes sent ∧ marked.map Prod.snd = taken ∧
    bytesOn .output marked = output.flatten ∧ bytesOn .error marked <+: errors.flatten

section
variable {sent front back : List (Stream × StreamEvent)} {stream : Stream}

theorem sentBy_append (stream : Stream) (a b : List (Stream × StreamEvent)) :
    sentBy stream (a ++ b) = sentBy stream a ++ sentBy stream b := by
  rw [sentBy, List.filter_append, List.map_append]
  rfl

theorem mem_sentBy {e : StreamEvent} (h : (stream, e) ∈ sent) : e ∈ sentBy stream sent :=
  List.mem_map.mpr ⟨(stream, e), List.mem_filter.mpr ⟨h, by simp⟩, rfl⟩

theorem markedBytes_append (a b : List (Stream × StreamEvent)) :
    markedBytes (a ++ b) = markedBytes a ++ markedBytes b :=
  List.flatMap_append

theorem bytesOn_append (stream : Stream) (a b : List (Stream × UInt8)) :
    bytesOn stream (a ++ b) = bytesOn stream a ++ bytesOn stream b := by
  rw [bytesOn, List.filter_append, List.map_append]
  rfl

theorem map_markedBytes (sent : List (Stream × StreamEvent)) :
    (markedBytes sent).map Prod.snd = dataOf (sent.map Prod.snd) := by
  induction sent with
  | nil => rfl
  | cons e rest ih =>
    rw [markedBytes, List.flatMap_cons, List.map_append, List.map_map, List.map_cons, dataOf_cons]
    exact congr (congrArg _ (List.map_id _)) ih

theorem bytesOn_markedBytes (stream : Stream) (sent : List (Stream × StreamEvent)) :
    bytesOn stream (markedBytes sent) = dataOf (sentBy stream sent) := by
  induction sent with
  | nil => rfl
  | cons e rest ih =>
    have hone : bytesOn stream (e.2.bytes.map fun b => (e.1, b)) =
        dataOf (sentBy stream [e]) := by
      by_cases hstream : e.1 = stream
      · simp [bytesOn, sentBy, hstream, List.filter_map, Function.comp_def]
      · simp [bytesOn, sentBy, hstream, List.filter_map, Function.comp_def]
    have hsplit : sentBy stream (e :: rest) = sentBy stream [e] ++ sentBy stream rest :=
      sentBy_append stream [e] rest
    rw [hsplit, dataOf_append, ← hone, ← ih, ← bytesOn_append]
    rfl

theorem bytesOn_mono {a b : List (Stream × UInt8)} (h : a <+: b) (stream : Stream) :
    bytesOn stream a <+: bytesOn stream b :=
  (h.filter _).map _

theorem dataOf_map_data (chunks : List Bytes) : dataOf (chunks.map .data) = chunks.flatten := by
  induction chunks with
  | nil => rfl
  | cons chunk rest ih =>
    rw [List.map_cons, dataOf_cons, ih]
    rfl

theorem closed_not_mem_data (chunks : List Bytes) : .closed ∉ chunks.map StreamEvent.data := by
  intro hmem
  obtain ⟨chunk, -, hchunk⟩ := List.mem_map.mp hmem
  cases hchunk

/-- An element that is the last and stands nowhere else is found at the end. -/
theorem eq_of_append_last {α : Type} {a : α} {before behind init : List α} (hnot : a ∉ init)
    (h : before ++ a :: behind = init ++ [a]) : before = init ∧ behind = [] := by
  rcases List.append_eq_append_iff.mp h with ⟨more, hinit, htail⟩ | ⟨more, hbefore, htail⟩
  · cases more with
    | nil =>
      rw [List.append_nil] at hinit
      exact ⟨hinit.symm, (List.cons.inj htail).2⟩
    | cons b more =>
      obtain ⟨rfl, -⟩ := List.cons.inj htail
      exact absurd (hinit ▸ List.mem_append_right _ List.mem_cons_self) hnot
  · cases more with
    | nil =>
      rw [List.append_nil] at hbefore
      exact ⟨hbefore, (List.cons.inj htail).2.symm⟩
    | cons b more =>
      have hlength := congrArg List.length htail
      simp at hlength

theorem Merges.output_of_closed {output errors : List Bytes} (h : Merges sent output errors)
    (hmem : (stream, .closed) ∈ sent) : stream = .output := by
  cases stream with
  | output => rfl
  | error =>
    have hclosed := mem_sentBy hmem
    rw [h.errors_eq] at hclosed
    exact absurd hclosed (closed_not_mem_data errors)

/-- When the end is sent, the whole output has been, and there is no further end. -/
theorem Merges.at_end {output errors : List Bytes} (h : Merges sent output errors)
    (hsent : sent = front ++ (stream, .closed) :: back) :
    sentBy .output front = output.map .data ∧ .closed ∉ back.map Prod.snd := by
  have hstream : stream = .output := h.output_of_closed (by rw [hsent]; simp)
  have hsplit : sentBy .output front ++ .closed :: sentBy .output back =
      output.map .data ++ [.closed] := by
    rw [← h.output_eq, hsent, hstream, sentBy_append]
    rfl
  obtain ⟨hfront, hback⟩ := eq_of_append_last (closed_not_mem_data output) hsplit
  refine ⟨hfront, fun hmem => ?_⟩
  obtain ⟨⟨stream', e⟩, hlater, rfl⟩ := List.mem_map.mp hmem
  have hmem' : (stream', .closed) ∈ sent := by
    rw [hsent]
    simp [hlater]
  obtain rfl := h.output_of_closed hmem'
  have hlate := mem_sentBy hlater
  rw [hback] at hlate
  cases hlate

theorem exists_sent_closed {before behind : List StreamEvent}
    (h : before ++ .closed :: behind <+: sent.map Prod.snd) :
    ∃ front stream back, sent = front ++ (stream, .closed) :: back ∧
      front.map Prod.snd = before ∧ behind <+: back.map Prod.snd := by
  obtain ⟨later, hlater⟩ := h
  rw [List.append_assoc, List.cons_append] at hlater
  obtain ⟨front, rest, hsent, hfront, hrest⟩ := List.map_eq_append_iff.mp hlater.symm
  obtain ⟨⟨stream, e⟩, back, rfl, rfl, hback⟩ := List.map_eq_cons_iff.mp hrest
  exact ⟨front, stream, back, hsent, hfront, later, hback.symm⟩

theorem Merges.closed_not_mem {output errors : List Bytes} (h : Merges sent output errors)
    {before queued : List StreamEvent}
    (harrived : before ++ .closed :: queued <+: sent.map Prod.snd) : .closed ∉ queued := by
  obtain ⟨front, stream, back, hsent, -, hback⟩ := exists_sent_closed harrived
  exact fun hmem => (h.at_end hsent).2 (hback.mem hmem)

/-- Bytes that reach past all that came before the end contain the whole output. -/
theorem Merges.hasOutput {output errors : List Bytes} (h : Merges sent output errors)
    {received : List StreamEvent} {taken : Bytes} (hreceived : received <+: sent.map Prod.snd)
    (hspent : EndSpent received taken) (htaken : taken <+: dataOf received) :
    HasOutput sent output errors taken := by
  obtain ⟨before, behind, rfl, hbefore⟩ := hspent
  obtain ⟨front, stream, back, hsent, hfront, -⟩ := exists_sent_closed hreceived
  obtain ⟨houtput, -⟩ := h.at_end hsent
  have hall : taken <+: (markedBytes sent).map Prod.snd := by
    rw [map_markedBytes]
    exact htaken.trans (dataOf_mono hreceived)
  -- The marks of the bytes that are taken, which are between those before the end and all.
  let marked := (markedBytes sent).take taken.length
  have hmarked : marked <+: markedBytes sent := List.take_prefix _ _
  have hlow : markedBytes front <+: marked := by
    refine List.prefix_of_prefix_length_le ?_ hmarked ?_
    · rw [hsent, markedBytes_append]
      exact List.prefix_append _ _
    · have hlength := congrArg List.length (map_markedBytes front)
      have hmore := hbefore.length_le
      have hwhole := hall.length_le
      rw [List.length_map, hfront] at hlength
      rw [List.length_map] at hwhole
      rw [List.length_take]
      omega
  refine ⟨marked, hmarked, ?_, ?_, ?_⟩
  · rw [List.map_take]
    exact (List.prefix_iff_eq_take.mp hall).symm
  · have hless := bytesOn_mono hlow .output
    have hmost := bytesOn_mono hmarked .output
    rw [bytesOn_markedBytes, houtput, dataOf_map_data] at hless
    rw [bytesOn_markedBytes, h.output_eq, dataOf_append, dataOf_map_data, dataOf_cons,
      dataOf_nil, StreamEvent.bytes, List.append_nil, List.append_nil] at hmost
    exact hmost.eq_of_length_le hless.length_le
  · have hmost := bytesOn_mono hmarked .error
    rwa [bytesOn_markedBytes, h.errors_eq, dataOf_map_data] at hmost

end

/-! ## Runs -/

section
variable {sent : List (Stream × StreamEvent)} {output errors : List Bytes}

theorem Course.hasOutput {p : Prompt} {a : Account} (hsent : Merges sent output errors)
    (h : Course p a) (harrived : a.arrived <+: sent.map Prod.snd)
    (hexited : a.session.exited = true) :
    HasOutput sent output errors
      (a.banner ++ p.bytes ++ a.turns.flatMap (TurnRecord.bytes p)) := by
  have hbalanced := h.balanced
  have hreceived : a.received <+: a.arrived := hbalanced.arrived_eq ▸ List.prefix_append _ _
  refine hsent.hasOutput (hreceived.trans harrived) (h.endBooked hexited) ?_
  rw [hbalanced.received_eq]
  exact List.prefix_append _ _

/-- A wait that the end of the output ends, in a session to which nothing had come. -/
theorem Merges.wait_exited (h : Merges sent output errors) {s s₁ : Session}
    {schedule rest : List Happening} (earlier : List StreamEvent) (hopen : s.exited = false)
    (hpending : s.pending = []) (hchannel : s.channel = [])
    (hwait : s.wait schedule = (.exited, s₁, rest))
    (harrived : earlier ++ arrivalsIn (happened schedule rest) <+: sent.map Prod.snd) :
    .closed ∈ arrivalsIn (happened schedule rest) ∧
      s₁.takeTurn.1 = dataOf (arrivalsIn (happened schedule rest)) ∧ s₁.channel = [] ∧
      ∃ init queued, happened schedule rest = init ++ [.looks] ∧
        (s.afterAll init).channel = .closed :: queued ∧
        s₁.takeTurn.1 = (s.afterAll init).pending ++ dataOf queued := by
  have hnothing : s.unread = [] := by rw [Session.unread, hpending, hchannel]; rfl
  obtain ⟨init, queued, hinit, hqueued, htaken⟩ := Session.wait_exited hopen hnothing hwait
  obtain ⟨before, hinto, -⟩ := s.afterAll_spec init
  have hall : arrivalsIn (happened schedule rest) = before ++ .closed :: queued := by
    rw [hinit, arrivalsIn_append, arrivalsIn, arrivalsIn, List.append_nil, ← hqueued, ← hinto,
      hchannel, List.nil_append]
  have hlast : .closed ∉ queued := by
    rw [hall, ← List.append_assoc] at harrived
    exact h.closed_not_mem harrived
  obtain ⟨hraw, hwhole, hempty⟩ := htaken hlast
  exact ⟨by rw [hall]; simp, hwhole, hempty, init, queued, hinit, hqueued, hraw⟩

theorem Session.start_exited {p : Prompt} {command command' text : String} {timeout : Nat}
    {schedule rest : List Happening}
    (h : Session.start p command timeout schedule = (.error (.exited command' text), rest)) :
    ∃ s₁, (Session.new p).wait schedule = (.exited, s₁, rest) ∧
      text = String.ofList (Utf8.decodeLossy s₁.takeTurn.1) := by
  unfold Session.start at h
  split at h
  next e s₁ rest' hwait =>
  cases e with
  | matched => cases h
  | timedOut => cases h
  | exited =>
    obtain ⟨herror, rfl⟩ := Prod.mk.inj h
    obtain ⟨-, htext⟩ := StartError.exited.inj (Except.error.inj herror)
    exact ⟨s₁, hwait, htext.symm⟩

/-- However the two readers' chunks come to the channel and whenever the session looks: as soon as
it has received the end of the output, what has been booked is the first of all that was sent, in
order, with the whole output and a beginning of the error messages.  If the end comes before the
first prompt, then so is the text that the start reports, and it is all that has arrived.  A turn
that the end of the output ends while it waits takes all that has arrived since its strays were
discarded, also what was queued behind the end when that was received. -/
theorem last_words (hsent : Merges sent output errors) (p : Prompt) :
    (∀ a, Course p a → a.arrived <+: sent.map Prod.snd → a.session.exited = true →
      HasOutput sent output errors
        (a.banner ++ p.bytes ++ a.turns.flatMap (TurnRecord.bytes p))) ∧
    (∀ command timeout schedule command' text rest,
      Session.start p command timeout schedule = (.error (.exited command' text), rest) →
      arrivalsIn (happened schedule rest) <+: sent.map Prod.snd →
      text = String.ofList
          (Utf8.decodeLossy (dataOf (arrivalsIn (happened schedule rest)))) ∧
        HasOutput sent output errors (dataOf (arrivalsIn (happened schedule rest)))) ∧
    ∀ a d schedule raw s' rest, Course p a → a.session.discardStray.exited = false →
      a.session.evaluate d schedule = (.ok ⟨.exited, raw⟩, s', rest) →
      a.arrived ++ arrivalsIn (happened schedule rest) <+: sent.map Prod.snd →
      raw = dataOf (arrivalsIn (happened schedule rest)) ∧ s'.channel = [] ∧
        ∃ init queued, happened schedule rest = init ++ [.looks] ∧
          (a.session.discardStray.afterAll init).channel = .closed :: queued ∧
          raw = (a.session.discardStray.afterAll init).pending ++ dataOf queued := by
  refine ⟨fun a h harrived hexited => h.hasOutput hsent harrived hexited, ?_, ?_⟩
  · intro command timeout schedule command' text rest hstart harrived
    obtain ⟨s₁, hwait, htext⟩ := Session.start_exited hstart
    obtain ⟨hclosed, hbanner, -⟩ := hsent.wait_exited [] rfl rfl rfl hwait harrived
    rw [hbanner] at htext
    exact ⟨htext, hsent.hasOutput harrived (.of_mem hclosed) List.prefix_rfl⟩
  · intro a d schedule raw s' rest hcourse hopen hturn harrived
    obtain ⟨w, e, s₁, hwait, hev, rfl⟩ := Session.evaluate_ok hturn
    obtain ⟨hverdict, rfl⟩ := Evaluation.mk.inj hev
    obtain rfl : e = .exited := by cases e <;> first | rfl | cases hverdict
    -- Whether the code could be written does not matter to the wait.
    have hopened : (a.session.discardStray.opened w).wait schedule = (.exited, s₁, rest) := hwait
    rw [Session.wait_opened] at hopened
    obtain ⟨he, houtcome⟩ := Prod.mk.inj hopened
    obtain ⟨rfl, hrest⟩ := Prod.mk.inj houtcome
    have hwaits : a.session.discardStray.wait schedule =
        (.exited, (a.session.discardStray.wait schedule).2.1, rest) := by
      rw [← he, ← hrest]
    obtain ⟨-, hraw, hempty, hlook⟩ := hsent.wait_exited a.arrived hopen
      a.session.pending_discardStray (Session.channel_discardStray hopen) hwaits harrived
    rw [Session.takeTurn_opened, Session.takeTurn_eq]
    exact ⟨hraw, hempty, hlook⟩

/-- The output ends between error messages, of which one more comes too late. -/
def lastSent : List (Stream × StreamEvent) :=
  [(.output, .data [42, 32]), (.error, .data [119]), (.output, .data [97]), (.output, .closed),
    (.error, .data [120]), (.error, .data [121])]

def lastTurn : List Happening :=
  [.arrives (.data [119]), .looks, .arrives (.data [97]), .arrives .closed, .arrives (.data [120]),
    .looks, .looks]

theorem last_words_queued :
    Merges lastSent [[42, 32], [97]] [[119], [120], [121]] ∧
      HasOutput lastSent [[42, 32], [97]] [[119], [120], [121]] [42, 32, 119, 97, 120] ∧
      ∃ init queued, happened lastTurn [] = init ++ [.looks] ∧
        ((⟨.star, [], [], false, true⟩ : Session).discardStray.afterAll init).channel =
          .closed :: queued ∧
        [119, 97, 120] =
          ((⟨.star, [], [], false, true⟩ : Session).discardStray.afterAll init).pending ++
            dataOf queued := by
  have hsent : Merges lastSent [[42, 32], [97]] [[119], [120], [121]] := ⟨by decide, by decide⟩
  have hstart : Session.start .star "sh" 5000 [.arrives (.data [42, 32]), .looks] =
      (.ok ⟨.star, [], [], false, true⟩, []) := rfl
  have hturn : (⟨.star, [], [], false, true⟩ : Session).evaluate .delivered lastTurn =
      (.ok ⟨.exited, [119, 97, 120]⟩, ⟨.star, [], [], true, true⟩, []) := rfl
  obtain ⟨hbooked, -, hwaits⟩ := last_words hsent .star
  obtain ⟨-, -, hlook⟩ := hwaits _ .delivered lastTurn _ _ _ (.start hstart) rfl hturn (by decide)
  exact ⟨hsent, hbooked _ ((Course.start hstart).evaluates .delivered lastTurn) (by decide)
    (by decide), hlook⟩

end

end LiveDoc
