/-
Turns whose code has not been delivered.

When a code cannot be written because the interpreter has closed its input, the session goes
on to wait as if it had been written, and it writes nothing more in later turns.  What ends
such a turn is what the interpreter, or another process that shares its output, happens to
print: the end of the output, a prompt, or nothing before the deadline.  `FindsPrompt` and
`FindsEnd` say which of these comes first, in terms of what the session would receive if it
went on looking through the whole schedule.
-/
import LiveDoc.Proofs.Session.Exit

namespace LiveDoc
namespace Session

variable {s : Session}

/-! ## What the delivery does not change -/

def opened (s : Session) (w : Bool) : Session := { s with writable := w }

theorem after_opened (w : Bool) (h : Happening) : (s.opened w).after h = (s.after h).opened w := by
  cases h with
  | arrives e => rfl
  | looks =>
    obtain ⟨p, pending, channel, exited, w'⟩ := s
    cases channel with
    | nil => rfl
    | cons e rest => cases e <;> rfl

theorem wait_opened (w : Bool) (schedule : List Happening) :
    (s.opened w).wait schedule =
      ((s.wait schedule).1, (s.wait schedule).2.1.opened w, (s.wait schedule).2.2) := by
  induction schedule generalizing s with
  | nil => rfl
  | cons h rest ih =>
    have hend : (s.opened w).waitEnd? = s.waitEnd? := rfl
    rw [wait, wait, hend, after_opened]
    cases s.waitEnd? with
    | some e => rfl
    | none => exact ih

theorem takeTurn_opened (w : Bool) : (s.opened w).takeTurn.1 = s.takeTurn.1 := by
  obtain ⟨p, pending, channel, exited, w'⟩ := s
  simp only [opened, takeTurn]
  split <;> rfl

theorem discardStray_opened (w : Bool) : (s.opened w).discardStray = s.discardStray.opened w := by
  obtain ⟨p, pending, channel, exited, w'⟩ := s
  simp only [opened, discardStray]
  split <;> rfl

/-- What comes of a turn in which writing the code does not fail with an error. -/
def evaluation (s : Session) (schedule : List Happening) : Evaluation :=
  ⟨verdictOf (s.discardStray.wait schedule).1, (s.discardStray.wait schedule).2.1.takeTurn.1⟩

theorem evaluation_opened (w : Bool) (schedule : List Happening) :
    (s.opened w).evaluation schedule = s.evaluation schedule := by
  simp only [evaluation, discardStray_opened, wait_opened, takeTurn_opened]

theorem result_of_deliver {s' : Session} {d : Delivery} (h : s.discardStray.deliver d = .ok s')
    (schedule : List Happening) : (s.evaluate d schedule).1 = .ok (s.evaluation schedule) := by
  obtain ⟨w, rfl⟩ := deliver_ok h
  rw [evaluate_of_deliver h (wait_opened w schedule), takeTurn_opened]
  rfl

/-! ## What ends a wait -/

theorem waitEnd?_eq_none (h : s.waitEnd? = none) :
    s.prompt.find s.pending = none ∧ s.exited = false := by
  cases hfind : s.prompt.find s.pending with
  | some i =>
    rw [waitEnd?_of_find hfind] at h
    cases h
  | none =>
    rw [waitEnd?_of_not_find hfind] at h
    cases hexited : s.exited with
    | true =>
      rw [hexited] at h
      cases h
    | false => exact ⟨rfl, rfl⟩

/-- A wait does not go past a moment at which it can end. -/
theorem waitEnd?_before {s' : Session} {e : WaitEnd} {done rest : List Happening}
    (h : s.wait (done ++ rest) = (e, s', rest)) {n : Nat} (hn : n < done.length) :
    (s.afterAll (done.take n)).waitEnd? = none := by
  induction done generalizing s n with
  | nil => exact absurd hn (Nat.not_lt_zero n)
  | cons first done ih =>
    rw [List.cons_append, wait] at h
    cases hend : s.waitEnd? with
    | some e' =>
      rw [hend] at h
      have hlength := congrArg (fun outcome => outcome.2.2.length) h
      simp only [List.length_cons, List.length_append] at hlength
      omega
    | none =>
      rw [hend] at h
      cases n with
      | zero => exact hend
      | succ n => exact ih h (Nat.lt_of_succ_lt_succ hn)

end Session

/-! ## Which comes first -/

namespace Turn

variable (t : Turn)

/-- The session when so much has happened in the turn, if it looks on even after a prompt. -/
def during (n : Nat) : Session := t.before.discardStray.afterAll (t.schedule.take n)

def Prompted (n : Nat) : Prop := ∃ i, t.before.prompt.find (t.during n).pending = some i

/-- A prompt is received, and the end of the output not before it. -/
def FindsPrompt : Prop := ∃ n, t.Prompted n ∧ ∀ m < n, (t.during m).exited = false

/-- The end of the output is received, and no prompt by then. -/
def FindsEnd : Prop := ∃ n, (t.during n).exited = true ∧ ¬ t.Prompted n

variable {t}

theorem during_add (n m : Nat) :
    t.during (n + m) = (t.during n).afterAll ((t.schedule.drop n).take m) := by
  rw [during, during, List.take_add, Session.afterAll_append]

theorem Prompted.mono {n m : Nat} (h : t.Prompted n) (hle : n ≤ m) : t.Prompted m := by
  obtain ⟨k, rfl⟩ := Nat.exists_eq_add_of_le hle
  obtain ⟨i, hi⟩ := h
  obtain ⟨received, -, hpending, -⟩ := (t.during n).afterAll_spec ((t.schedule.drop n).take k)
  refine ⟨i, ?_⟩
  rw [during_add, hpending]
  exact Prompt.find_append hi _

theorem FindsPrompt.not_findsEnd (h : t.FindsPrompt) : ¬ t.FindsEnd := by
  obtain ⟨n, hprompted, hopen⟩ := h
  rintro ⟨m, hexited, hnone⟩
  by_cases hlt : m < n
  · rw [hopen m hlt] at hexited
    cases hexited
  · exact hnone (hprompted.mono (Nat.le_of_not_lt hlt))

/-- How a wait ends is told by what would be received in the whole schedule. -/
theorem ends_of_wait {e : WaitEnd} {s' : Session} {rest : List Happening}
    (h : t.before.discardStray.wait t.schedule = (e, s', rest)) :
    (e = .matched ∧ t.FindsPrompt) ∨ (e = .exited ∧ t.FindsEnd) ∨
      (e = .timedOut ∧ ¬ t.FindsPrompt ∧ ¬ t.FindsEnd) := by
  obtain ⟨done, hschedule, rfl, -⟩ := Session.wait_spec h
  have hprompt (n : Nat) : (t.during n).prompt = t.before.prompt :=
    (Session.prompt_afterAll _ _).trans t.before.prompt_discardStray
  have hend : t.during done.length = t.before.discardStray.afterAll done := by
    rw [during, hschedule, List.take_left]
  have hbefore {n : Nat} (hn : n < done.length) :
      ¬ t.Prompted n ∧ (t.during n).exited = false := by
    have hwait := h
    rw [hschedule] at hwait
    have htake : t.schedule.take n = done.take n := by
      rw [hschedule, List.take_append_of_le_length (Nat.le_of_lt hn)]
    have hnone := Session.waitEnd?_before hwait hn
    rw [← htake] at hnone
    obtain ⟨hfind, hopen⟩ := Session.waitEnd?_eq_none hnone
    refine ⟨fun ⟨i, hi⟩ => ?_, hopen⟩
    rw [← hprompt n] at hi
    rw [show (t.during n).prompt.find (t.during n).pending = none from hfind] at hi
    cases hi
  have hcases := Session.wait_cases h
  rw [← hend, hprompt] at hcases
  rcases hcases with ⟨rfl, hfind⟩ | ⟨rfl, hfind, hexited⟩ | ⟨rfl, hfind, hopen, rfl⟩
  · exact Or.inl ⟨rfl, done.length, hfind, fun m hm => (hbefore hm).2⟩
  · refine Or.inr (Or.inl ⟨rfl, done.length, hexited, fun ⟨i, hi⟩ => ?_⟩)
    rw [hfind] at hi
    cases hi
  · -- Everything has happened, so nothing changes any more.
    have hall (n : Nat) : ¬ t.Prompted n ∧ (t.during n).exited = false := by
      by_cases hn : n < done.length
      · exact hbefore hn
      · have hsame : t.during n = t.during done.length := by
          rw [hend, during, hschedule, List.append_nil, List.take_of_length_le (by omega)]
        rw [Prompted, hsame, hfind]
        exact ⟨by simp, hopen⟩
    refine Or.inr (Or.inr ⟨rfl, fun ⟨n, hn, _⟩ => (hall n).1 hn, fun ⟨n, hn, _⟩ => ?_⟩)
    rw [(hall n).2] at hn
    cases hn

/-- The verdict of a turn says what comes first. -/
theorem verdict_iff {ev : Evaluation} (hev : t.before.evaluation t.schedule = ev) :
    (ev.verdict = .exited ↔ t.FindsEnd) ∧ (ev.verdict = .success ↔ t.FindsPrompt) ∧
      (ev.verdict = .timeout ↔ ¬ t.FindsEnd ∧ ¬ t.FindsPrompt) := by
  obtain ⟨⟨e, s', rest⟩, hwait⟩ : ∃ outcome, t.before.discardStray.wait t.schedule = outcome :=
    ⟨_, rfl⟩
  have hverdict : ev.verdict = Session.verdictOf e := by
    rw [← hev, Session.evaluation, hwait]
  rw [hverdict]
  rcases ends_of_wait hwait with ⟨rfl, hends⟩ | ⟨rfl, hends⟩ | ⟨rfl, hnot⟩
  · simp [Session.verdictOf, hends, hends.not_findsEnd]
  · have hno : ¬ t.FindsPrompt := fun h => h.not_findsEnd hends
    simp [Session.verdictOf, hends, hno]
  · simp [Session.verdictOf, hnot]

end Turn

/-! ## An interpreter that reads no more -/

namespace Session

variable {s : Session}

/-- Nothing will be written any more: the input is closed, or the end of the output has come. -/
def Mute (s : Session) : Prop := s.writable = false ∨ s.Gone

theorem writable_discardStray : s.discardStray.writable = s.writable := by
  rw [discardStray]
  split <;> rfl

theorem Mute.unwritten (h : s.Mute) :
    (s.discardStray.exited || !s.discardStray.writable) = true := by
  rcases h with hclosed | hgone
  · rw [writable_discardStray, hclosed, Bool.not_false, Bool.or_true]
  · exact hgone.unwritten

theorem Mute.arrive (h : s.Mute) (e : StreamEvent) : (s.arrive e).Mute :=
  h.imp id fun hgone => hgone.arrive e

theorem Mute.deliver (h : s.Mute) (d : Delivery) :
    ∃ s₀, s.discardStray.deliver d = .ok s₀ ∧ s₀.Mute := by
  refine ⟨s.discardStray, deliver_of_unwritten h.unwritten d, ?_⟩
  exact h.imp (fun hclosed => writable_discardStray.trans hclosed) gone_discardStray.mpr

theorem deliver_brokenPipe (s : Session) :
    ∃ s₀, s.discardStray.deliver .brokenPipe = .ok s₀ ∧ s₀.Mute := by
  by_cases hunwritten : (s.discardStray.exited || !s.discardStray.writable) = true
  · refine ⟨s.discardStray, deliver_of_unwritten hunwritten .brokenPipe, ?_⟩
    rw [Bool.or_eq_true, Bool.not_eq_true'] at hunwritten
    exact hunwritten.symm.imp id Or.inl
  · refine ⟨s.discardStray.opened false, ?_, Or.inl rfl⟩
    unfold Session.deliver
    rw [if_neg hunwritten]
    rfl

theorem mute_of_deliver {s₀ : Session} {d : Delivery}
    (hdeliver : s.discardStray.deliver d = .ok s₀) (hmute : s₀.Mute) (schedule : List Happening) :
    (s.evaluate d schedule).2.1.Mute := by
  obtain ⟨⟨e, s₁, rest⟩, hwait⟩ : ∃ outcome, s₀.wait schedule = outcome := ⟨_, rfl⟩
  obtain ⟨done, -, rfl, -⟩ := wait_spec hwait
  rw [evaluate_of_deliver hdeliver hwait]
  refine hmute.imp (fun hclosed => ?_) fun hgone => ?_
  · rw [takeTurn_eq]
    exact (s₀.writable_afterAll done).trans hclosed
  · exact gone_takeTurn.mpr ((gone_afterAll done).mpr (Or.inl hgone))

/-- The end of a turn whose code is not delivered is what comes first in the output, just as
if it had been. -/
theorem turn_of_deliver {s₀ : Session} {d : Delivery}
    (hdeliver : s.discardStray.deliver d = .ok s₀) (code : String) (schedule : List Happening) :
    let t := s.turn code d schedule
    ∃ ev, t.result = .ok ev ∧ (ev.verdict = .exited ↔ t.FindsEnd) ∧
      (ev.verdict = .success ↔ t.FindsPrompt) ∧
      (ev.verdict = .timeout ↔ ¬ t.FindsEnd ∧ ¬ t.FindsPrompt) ∧
      t.result = ((s.opened true).evaluate .delivered schedule).1 := by
  intro t
  have hresult : t.result = .ok (s.evaluation schedule) := result_of_deliver hdeliver schedule
  have hdelivered : (s.opened true).discardStray.deliver .delivered =
      .ok (s.opened true).discardStray := by
    unfold Session.deliver
    split <;> rfl
  obtain ⟨hexited, hsuccess, htimeout⟩ := Turn.verdict_iff (t := t) rfl
  refine ⟨s.evaluation schedule, hresult, hexited, hsuccess, htimeout, ?_⟩
  rw [hresult, result_of_deliver hdelivered, evaluation_opened]

/-- When a code cannot be written because the interpreter has closed its input, in this turn or
in an earlier one, then that is no error, neither in this turn nor in later ones, and nothing
is written in later turns.  But the verdict does not depend on it.  Each of these turns ends as
it would if its code had been delivered: the exit is reported exactly if the end of the output
is received and no prompt by then, and a prompt that is received before makes the turn succeed. -/
theorem undelivered_turns {d : Delivery} (h : s.writable = false ∨ d = .brokenPipe)
    (code : String) (schedule : List Happening) (later : List Visit) :
    (∀ t ∈ s.turns (.evaluates code d schedule :: later), ∃ ev, t.result = .ok ev ∧
      (ev.verdict = .exited ↔ t.FindsEnd) ∧ (ev.verdict = .success ↔ t.FindsPrompt) ∧
      (ev.verdict = .timeout ↔ ¬ t.FindsEnd ∧ ¬ t.FindsPrompt) ∧
      t.result = ((t.before.opened true).evaluate .delivered t.schedule).1) ∧
    ∀ t ∈ (s.turn code d schedule).after.turns later, t.offered = none := by
  obtain ⟨s₀, hdeliver, hmute⟩ : ∃ s₀, s.discardStray.deliver d = .ok s₀ ∧ s₀.Mute := by
    rcases h with hclosed | rfl
    · exact Mute.deliver (Or.inl hclosed) d
    · exact s.deliver_brokenPipe
  have hafter : (s.turn code d schedule).after.Mute := mute_of_deliver hdeliver hmute schedule
  have harrive : ∀ (s : Session) (e : StreamEvent), s.Mute → (s.arrive e).Mute :=
    fun s e hs => hs.arrive e
  constructor
  · rw [turns, List.forall_mem_cons]
    refine ⟨turn_of_deliver hdeliver code schedule, turns_of_kept (I := Mute) harrive ?_ hafter later⟩
    intro s code d schedule hs
    obtain ⟨s₀, hdeliver, hmute⟩ := hs.deliver d
    exact ⟨turn_of_deliver hdeliver code schedule, mute_of_deliver hdeliver hmute schedule⟩
  · refine turns_of_kept (I := Mute) harrive (fun s code d schedule hs => ?_) hafter later
    obtain ⟨s₀, hdeliver, hmute⟩ := hs.deliver d
    exact ⟨if_pos hs.unwritten, mute_of_deliver hdeliver hmute schedule⟩

def promptAlone : List Happening := [.arrives (.data [42, 32]), .looks]

def visitsUnread : List Visit :=
  [.evaluates "(+ 3 3)" .delivered [],
    .evaluates "(+ 4 4)" .delivered [.arrives (.data [98]), .arrives .closed, .looks, .looks]]

theorem undelivered_turns_promptAlone :
    ((new .star).writable = false ∨ Delivery.brokenPipe = .brokenPipe) ∧
      ((new .star).turn "(+ 2 2)" .brokenPipe promptAlone).result = .ok ⟨.success, []⟩ ∧
      ((new .star).turn "(+ 2 2)" .brokenPipe promptAlone).FindsPrompt ∧
      (((new .star).turn "(+ 2 2)" .brokenPipe promptAlone).after.turns visitsUnread).map
        Turn.result = [.ok ⟨.timeout, []⟩, .ok ⟨.exited, [98]⟩] ∧
      ∀ t ∈ ((new .star).turn "(+ 2 2)" .brokenPipe promptAlone).after.turns visitsUnread,
        t.offered = none := by
  have hbroken : (new .star).writable = false ∨ Delivery.brokenPipe = .brokenPipe := Or.inr rfl
  obtain ⟨hall, hlater⟩ := undelivered_turns hbroken "(+ 2 2)" promptAlone visitsUnread
  obtain ⟨ev, hev, -, hsuccess, -⟩ := hall _ List.mem_cons_self
  have hresult : ((new .star).turn "(+ 2 2)" .brokenPipe promptAlone).result =
      .ok ⟨.success, []⟩ := rfl
  rw [hresult] at hev
  obtain rfl := Except.ok.inj hev
  exact ⟨hbroken, hresult, hsuccess.mp rfl, rfl, hlater⟩

end Session

/-- An interpreter that closes its input, and a prompt that is printed behind it: the turn whose
code could not be written succeeds. -/
theorem undelivered_turn_succeeds : ¬ ∀ p s q, Situation p s q →
    ∀ moments ev s' rest, s.evaluate .brokenPipe (q.play moments) = (.ok ev, s', rest) →
      ev.verdict = .exited := by
  intro h
  have hstart : Session.start .star "sh" 5000 (Pipes.empty.play firstPrompt) =
      (.ok ⟨.star, [], [], false, true⟩, []) := rfl
  have hverdict := h .star _ _ (.start hstart) firstPrompt ⟨.success, []⟩
    ⟨.star, [], [], false, false⟩ [] rfl
  cases hverdict

end LiveDoc
