/-
What becomes of the bytes that an interpreter prints.

A course is a session that has been started and any sequence of calls of
`evaluate` on it, with events that arrive between the calls and during them and
with deadlines that pass at any moment.  Its account books every byte that has
been received, once and in order: to the banner and the first prompt, to the
strays of a turn, to a turn's output and its prompt, or to what is pending.
-/
import LiveDoc.Proofs.Session.Turn

namespace LiveDoc

/-- What of a schedule has happened when `rest` has not. -/
def happened (schedule rest : List Happening) : List Happening :=
  schedule.take (schedule.length - rest.length)

@[simp] theorem happened_append (done rest : List Happening) :
    happened (done ++ rest) rest = done := by
  rw [happened, List.length_append, Nat.add_sub_cancel, List.take_left]

/-- What has been received of everything that has arrived, if `channel` is left. -/
def receivedOf (arrived channel : List StreamEvent) : List StreamEvent :=
  arrived.take (arrived.length - channel.length)

@[simp] theorem receivedOf_append (received channel : List StreamEvent) :
    receivedOf (received ++ channel) channel = received := by
  rw [receivedOf, List.length_append, Nat.add_sub_cancel, List.take_left]

structure TurnRecord where
  /-- All bytes that had been received when the turn had discarded its strays. -/
  seen : Bytes
  stray : Bytes
  result : Except SessionError Evaluation

def TurnRecord.bytes (p : Prompt) (t : TurnRecord) : Bytes :=
  t.stray ++ match t.result with
    | .ok ev => ev.raw ++ if ev.verdict = .success then p.bytes else []
    | .error _ => []

/-- A session with everything that has come to it and everything that it has taken. -/
structure Account where
  session : Session
  arrived : List StreamEvent
  banner : Bytes
  turns : List TurnRecord

namespace Account

def received (a : Account) : List StreamEvent := receivedOf a.arrived a.session.channel

def spentOn (a : Account) (p : Prompt) (turns : List TurnRecord) : Bytes :=
  a.banner ++ p.bytes ++ turns.flatMap (TurnRecord.bytes p)

def arrive (a : Account) (e : StreamEvent) : Account :=
  { a with session := a.session.arrive e, arrived := a.arrived ++ [e] }

def evaluate (a : Account) (schedule : List Happening)
    (outcome : Except SessionError Evaluation × Session × List Happening) : Account where
  session := outcome.2.1
  arrived := a.arrived ++ arrivalsIn (happened schedule outcome.2.2)
  banner := a.banner
  turns := a.turns ++
    [⟨dataOf (receivedOf a.arrived a.session.discardStray.channel), a.session.stray, outcome.1⟩]

end Account

inductive Course (p : Prompt) : Account → Prop
  | start {command : String} {timeout : Nat} {schedule rest : List Happening} {s : Session}
      (h : Session.start p command timeout schedule = (.ok s, rest)) :
      Course p ⟨s, arrivalsIn (happened schedule rest),
        ((Session.new p).wait schedule).2.1.takeTurn.1, []⟩
  | arrives {a : Account} (e : StreamEvent) (h : Course p a) : Course p (a.arrive e)
  | evaluates {a : Account} (d : Delivery) (schedule : List Happening) (h : Course p a) :
      Course p (a.evaluate schedule (a.session.evaluate d schedule))

/-! ## One account -/

/-- Every byte that has been received is booked once, in order, and no output contains a
prompt. -/
structure Account.Balanced (p : Prompt) (a : Account) : Prop where
  prompt_eq : a.session.prompt = p
  arrived_eq : a.arrived = a.received ++ a.session.channel
  received_eq : dataOf a.received = a.spentOn p a.turns ++ a.session.pending
  find_banner : p.find a.banner = none
  seen_eq : ∀ before t after, a.turns = before ++ t :: after →
    t.seen = a.spentOn p before ++ t.stray
  find_raw : ∀ t ∈ a.turns, ∀ ev, t.result = .ok ev → p.find ev.raw = none

theorem Account.received_of_append {a : Account} {received : List StreamEvent}
    (h : a.arrived = received ++ a.session.channel) : a.received = received := by
  rw [Account.received, h, receivedOf_append]

theorem TurnRecord.bytes_evaluated (p : Prompt) (seen stray raw : Bytes) (e : WaitEnd) :
    TurnRecord.bytes p ⟨seen, stray, .ok ⟨Session.verdictOf e, raw⟩⟩ =
      stray ++ (raw ++ Session.closing p e) := by
  cases e <;> rfl

theorem TurnRecord.bytes_failed (p : Prompt) (seen stray : Bytes) (err : SessionError) :
    TurnRecord.bytes p ⟨seen, stray, .error err⟩ = stray :=
  List.append_nil stray

namespace Session

/-- What a wait receives is what is taken at its end and what is pending then. -/
theorem wait_takes {s s₁ : Session} {e : WaitEnd} {schedule rest : List Happening}
    (h : s.wait schedule = (e, s₁, rest)) :
    ∃ received, s.channel ++ arrivalsIn (happened schedule rest) =
        received ++ s₁.takeTurn.2.channel ∧
      s.pending ++ dataOf received =
        s₁.takeTurn.1 ++ closing s.prompt e ++ s₁.takeTurn.2.pending ∧
      s.prompt.find s₁.takeTurn.1 = none ∧ s₁.takeTurn.2.prompt = s.prompt := by
  obtain ⟨done, rfl, hs₁, -⟩ := wait_spec h
  obtain ⟨hpending, hfind, -⟩ := takeTurn_of_wait h
  obtain ⟨received, hchannel, hreceived, -⟩ := s.afterAll_spec done
  have hprompt := s.prompt_afterAll done
  rw [← hs₁] at hchannel hreceived hprompt
  refine ⟨received, ?_, ?_, ?_, ?_⟩
  · rw [happened_append, hchannel, takeTurn_eq]
  · rw [← hreceived, ← hprompt]
    exact hpending
  · rw [← hprompt]
    exact hfind
  · rw [takeTurn_eq]
    exact hprompt

end Session

theorem balanced_start {p : Prompt} {command : String} {timeout : Nat}
    {schedule rest : List Happening} {s : Session}
    (h : Session.start p command timeout schedule = (.ok s, rest)) :
    Account.Balanced p ⟨s, arrivalsIn (happened schedule rest),
      ((Session.new p).wait schedule).2.1.takeTurn.1, []⟩ := by
  obtain ⟨s₁, hwait, rfl⟩ := Session.start_ok h
  obtain ⟨received, harrived, hreceived, hfind, hprompt⟩ := Session.wait_takes hwait
  rw [hwait]
  have hall := Account.received_of_append
    (a := ⟨s₁.takeTurn.2, arrivalsIn (happened schedule rest), s₁.takeTurn.1, []⟩) harrived
  refine ⟨hprompt, ?_, ?_, hfind, ?_, ?_⟩
  · rw [hall]
    exact harrived
  · rw [hall]
    simpa [Account.spentOn, Session.closing, Session.new] using hreceived
  · intro before t after hturns
    simp at hturns
  · intro t ht
    cases ht

theorem Account.Balanced.arrive {p : Prompt} {a : Account} (h : a.Balanced p) (e : StreamEvent) :
    (a.arrive e).Balanced p := by
  have harrived : (a.arrive e).arrived = a.received ++ (a.arrive e).session.channel := by
    rw [Account.arrive, Session.arrive, h.arrived_eq, List.append_assoc]
  have hall := received_of_append harrived
  refine ⟨h.prompt_eq, ?_, ?_, h.find_banner, h.seen_eq, h.find_raw⟩
  · rw [hall]
    exact harrived
  · rw [hall]
    exact h.received_eq

/-- What had been received when a turn had discarded its strays. -/
theorem Account.Balanced.discardStray {p : Prompt} {a : Account} (h : a.Balanced p) :
    ∃ received, a.arrived = received ++ a.session.discardStray.channel ∧
      dataOf received = a.spentOn p a.turns ++ a.session.stray := by
  obtain ⟨-, received, hchannel, hstray, -⟩ := a.session.discardStray_spec
  refine ⟨a.received ++ received, ?_, ?_⟩
  · rw [List.append_assoc, ← hchannel]
    exact h.arrived_eq
  · rw [dataOf_append, h.received_eq, hstray, List.append_assoc]

theorem Account.spentOn_append (a : Account) (p : Prompt) (turns : List TurnRecord)
    (t : TurnRecord) : a.spentOn p (turns ++ [t]) = a.spentOn p turns ++ t.bytes p := by
  simp [spentOn, List.flatMap_append]

/-- A turn can be booked if it takes the strays and what it received since, and leaves what
is pending then. -/
theorem Account.Balanced.book {p : Prompt} {a : Account} (h : a.Balanced p) {s : Session}
    {events : List StreamEvent} (received : List StreamEvent) {t : TurnRecord}
    (hprompt : s.prompt = p)
    (harrived : a.arrived ++ events = received ++ s.channel)
    (hreceived : dataOf received = a.spentOn p a.turns ++ t.bytes p ++ s.pending)
    (hseen : t.seen = a.spentOn p a.turns ++ t.stray)
    (hraw : ∀ ev, t.result = .ok ev → p.find ev.raw = none) :
    Account.Balanced p ⟨s, a.arrived ++ events, a.banner, a.turns ++ [t]⟩ := by
  have hall := received_of_append (a := ⟨s, a.arrived ++ events, a.banner, a.turns ++ [t]⟩) harrived
  refine ⟨hprompt, ?_, ?_, h.find_banner, ?_, ?_⟩
  · rw [hall]
    exact harrived
  · rw [hall, spentOn_append]
    exact hreceived
  · intro before t' after hturns
    rcases List.eq_nil_or_concat after with rfl | ⟨after, last, rfl⟩
    · obtain ⟨rfl, ht⟩ := List.append_inj' hturns rfl
      obtain rfl := List.singleton_inj.mp ht
      exact hseen
    · rw [List.concat_eq_append, ← List.cons_append, ← List.append_assoc] at hturns
      obtain ⟨hturns, -⟩ := List.append_inj' hturns rfl
      exact h.seen_eq before t' after hturns
  · intro t' ht'
    rcases List.mem_append.mp ht' with hold | hnew
    · exact h.find_raw t' hold
    · obtain rfl := List.mem_singleton.mp hnew
      exact hraw

theorem Account.Balanced.evaluate {p : Prompt} {a : Account} (h : a.Balanced p) (d : Delivery)
    (schedule : List Happening) :
    (a.evaluate schedule (a.session.evaluate d schedule)).Balanced p := by
  obtain ⟨seen, hseen, hdata⟩ := h.discardStray
  have hprompt := (Session.prompt_discardStray a.session).trans h.prompt_eq
  cases houtcome : a.session.evaluate d schedule with
  | mk result outcome =>
    obtain ⟨s', rest⟩ := outcome
    have hrecord : dataOf (receivedOf a.arrived a.session.discardStray.channel) =
        a.spentOn p a.turns ++ a.session.stray := by rw [hseen, receivedOf_append, hdata]
    cases result with
    | error err =>
      obtain ⟨rfl, rfl⟩ := Session.evaluate_error houtcome
      refine h.book seen hprompt ?_ ?_ hrecord (fun ev hev => by cases hev)
      · simp [happened, arrivalsIn, ← hseen]
      · rw [TurnRecord.bytes_failed, hdata]
        simp
    | ok ev =>
      obtain ⟨w, e, s₁, hwait, rfl, rfl⟩ := Session.evaluate_ok houtcome
      obtain ⟨received, harrived, hreceived, hfind, hkept⟩ := Session.wait_takes hwait
      rw [hprompt] at hreceived hfind hkept
      rw [Session.pending_discardStray, List.nil_append] at hreceived
      refine h.book (seen ++ received) hkept ?_ ?_ hrecord ?_
      · rw [List.append_assoc, ← harrived, ← List.append_assoc, ← hseen]
      · rw [TurnRecord.bytes_evaluated, dataOf_append, hdata, hreceived]
        simp only [List.append_assoc]
      · rintro ev hev
        obtain rfl := Except.ok.inj hev
        exact hfind

theorem Course.balanced {p : Prompt} {a : Account} (h : Course p a) : a.Balanced p := by
  induction h with
  | start hstart => exact balanced_start hstart
  | arrives e _ ih => exact ih.arrive e
  | evaluates d schedule _ ih => exact ih.evaluate d schedule

/-- Since a turn's strays were discarded, its output is what has been received first. -/
theorem Account.Balanced.seen_append {p : Prompt} {a : Account} (h : a.Balanced p)
    {before after : List TurnRecord} {t : TurnRecord} (hturns : a.turns = before ++ t :: after)
    {ev : Evaluation} (hev : t.result = .ok ev) : t.seen ++ ev.raw <+: dataOf a.received := by
  rw [h.received_eq, h.seen_eq before t after hturns, hturns, spentOn, spentOn, List.flatMap_append,
    List.flatMap_cons, TurnRecord.bytes, hev]
  simp only [List.append_assoc, List.prefix_append_right_inj]
  exact List.prefix_append _ _

/-- While a further turn is under way, its strays are booked behind those that are over. -/
theorem Account.Balanced.under_way {p : Prompt} {a : Account} (h : a.Balanced p) (w : Bool)
    (schedule : List Happening) :
    let s := ({ a.session.discardStray with writable := w } : Session).afterAll schedule
    ∃ received, a.arrived ++ arrivalsIn schedule = received ++ s.channel ∧
      dataOf received = a.spentOn p a.turns ++ a.session.stray ++ s.pending := by
  intro s
  obtain ⟨seen, hseen, hdata⟩ := h.discardStray
  obtain ⟨received, hchannel, hpending, -⟩ :=
    ({ a.session.discardStray with writable := w } : Session).afterAll_spec schedule
  refine ⟨seen ++ received, ?_, ?_⟩
  · rw [hseen, List.append_assoc, List.append_assoc]
    exact congrArg (seen ++ ·) hchannel
  · have hreceived : s.pending = dataOf received := by
      rw [show s.pending = _ from hpending, Session.pending_discardStray, List.nil_append]
    rw [dataOf_append, hdata, hreceived]

/-- Whatever arrives and however often deadlines pass: what has been received is what the
channel does not hold any more, and its bytes are the banner and the first prompt, then for each
turn its strays, its output and the prompt if one ended it, and then what is pending.  The same
holds at any moment of a further turn, whose strays come before what is pending.  A turn's output
begins with the first byte that was received after the strays had been discarded.  Neither the
banner nor an output contains a prompt. -/
theorem received_bytes_accounted {p : Prompt} {a : Account} (h : Course p a) :
    a.arrived = a.received ++ a.session.channel ∧
    dataOf a.received =
      a.banner ++ p.bytes ++ a.turns.flatMap (TurnRecord.bytes p) ++ a.session.pending ∧
    (∀ w schedule,
      let s := ({ a.session.discardStray with writable := w } : Session).afterAll schedule
      ∃ received, a.arrived ++ arrivalsIn schedule = received ++ s.channel ∧
        dataOf received = a.banner ++ p.bytes ++ a.turns.flatMap (TurnRecord.bytes p) ++
          a.session.stray ++ s.pending) ∧
    (∀ before t after, a.turns = before ++ t :: after →
      t.seen = a.banner ++ p.bytes ++ before.flatMap (TurnRecord.bytes p) ++ t.stray ∧
        ∀ ev, t.result = .ok ev → t.seen ++ ev.raw <+: dataOf a.received) ∧
    p.find a.banner = none ∧
    ∀ t ∈ a.turns, ∀ ev, t.result = .ok ev → p.find ev.raw = none := by
  have hbalanced := h.balanced
  refine ⟨hbalanced.arrived_eq, hbalanced.received_eq, hbalanced.under_way,
    fun before t after hturns => ?_, hbalanced.find_banner, hbalanced.find_raw⟩
  exact ⟨hbalanced.seen_eq before t after hturns, fun ev hev => hbalanced.seen_append hturns hev⟩

/-- The account of a short course: a banner, a stray, a turn whose marker comes in two chunks,
and a turn that times out. -/
def shortAccount : Account :=
  let started : Account := ⟨⟨.star, [], [], false, true⟩, [.data [104, 10, 42, 32]], [104, 10], []⟩
  let first := [.arrives (.data [97, 10, 42]), .looks, .arrives (.data [32]), .looks]
  let a := started.arrive (.data [33])
  let a := a.evaluate first (a.session.evaluate .delivered first)
  let second := [.arrives (.data [98]), .looks]
  a.evaluate second (a.session.evaluate .delivered second)

theorem received_bytes_accounted_short :
    Course .star shortAccount ∧ shortAccount.turns.map TurnRecord.stray = [[33], []] ∧
      dataOf shortAccount.received =
        [104, 10] ++ [42, 32] ++ ([33] ++ [97, 10] ++ [42, 32]) ++ [98] := by
  have hstart : Session.start .star "sh" 5000 [.arrives (.data [104, 10, 42, 32]), .looks] =
      (.ok ⟨.star, [], [], false, true⟩, []) := rfl
  have hcourse : Course .star shortAccount :=
    (((Course.start hstart).arrives (.data [33])).evaluates .delivered _).evaluates .delivered _
  refine ⟨hcourse, by decide, ?_⟩
  rw [(received_bytes_accounted hcourse).2.1]
  decide

end LiveDoc
