/-
What a turn does to a session.

A turn discards the strays, writes the code, waits and takes what is its own.
The lemmas here say what each of these does in terms of the events that are
received and of the bytes that are pending, and what follows about the end of a
wait from the way it ended.  `wait_spec` carries the induction over the
schedule.  The rest are case distinctions.
-/
import LiveDoc.Session.Start
import LiveDoc.Proofs.Session.Unread

namespace LiveDoc
namespace Session

/-! ## Discarding strays -/

/-- With the strays go all pending bytes and everything up to the end of the output. -/
theorem discardStray_spec (s : Session) : s.discardStray.pending = [] ∧
    ∃ received, s.channel = received ++ s.discardStray.channel ∧
      s.stray = s.pending ++ dataOf received ∧
        (s.discardStray.exited = true ↔ s.exited = true ∨ .closed ∈ received) := by
  obtain ⟨front, hchannel, hdata, hclosed, hbehind⟩ := splitData_spec s.channel
  rw [discardStray, stray]
  rcases hbehind with hnone | ⟨rest, hrest⟩
  · rw [hnone] at hchannel ⊢
    refine ⟨rfl, front, hchannel, by rw [hdata], ?_⟩
    simp [hclosed]
  · rw [hrest] at hchannel ⊢
    refine ⟨rfl, front ++ [.closed], by simpa using hchannel, ?_, by simp⟩
    simp [hdata, StreamEvent.bytes]

@[simp] theorem pending_discardStray (s : Session) : s.discardStray.pending = [] :=
  s.discardStray_spec.1

@[simp] theorem prompt_discardStray (s : Session) : s.discardStray.prompt = s.prompt := by
  rw [discardStray]
  split <;> rfl

/-- If the end of the output has not been received then the strays were all there was. -/
theorem channel_discardStray {s : Session} (h : s.discardStray.exited = false) :
    s.discardStray.channel = [] := by
  obtain ⟨front, hchannel, hdata, hclosed, hbehind⟩ := splitData_spec s.channel
  rw [discardStray] at h ⊢
  rcases hbehind with hnone | ⟨rest, hrest⟩
  · rw [hnone]
  · rw [hrest] at h
    cases h

/-! ## Writing the code -/

theorem deliver_ok {s s' : Session} {d : Delivery} (h : s.deliver d = .ok s') :
    ∃ w, s' = { s with writable := w } := by
  unfold deliver at h
  split at h
  · obtain rfl := Except.ok.inj h
    exact ⟨s.writable, rfl⟩
  · cases d with
    | delivered =>
      obtain rfl := Except.ok.inj h
      exact ⟨s.writable, rfl⟩
    | brokenPipe =>
      obtain rfl := Except.ok.inj h
      exact ⟨false, rfl⟩
    | failed => cases h

theorem deliver_of_ne_failed {d : Delivery} (h : d ≠ .failed) (s : Session) :
    ∃ w, s.deliver d = .ok { s with writable := w } := by
  have hok : ∃ s', s.deliver d = .ok s' := by
    unfold deliver
    split
    · exact ⟨s, rfl⟩
    · cases d with
      | delivered => exact ⟨s, rfl⟩
      | brokenPipe => exact ⟨{ s with writable := false }, rfl⟩
      | failed => exact absurd rfl h
  obtain ⟨s', hs'⟩ := hok
  obtain ⟨w, rfl⟩ := deliver_ok hs'
  exact ⟨w, hs'⟩

/-! ## Waiting -/

theorem waitEnd?_of_find {s : Session} {i : Nat} (h : s.prompt.find s.pending = some i) :
    s.waitEnd? = some .matched := by
  rw [waitEnd?, h]
  rfl

theorem waitEnd?_of_not_find {s : Session} (h : s.prompt.find s.pending = none) :
    s.waitEnd? = if s.exited then some .exited else none := by
  rw [waitEnd?, h]
  rfl

/-- A wait stops at the first moment at which it can end, or at its deadline. -/
theorem wait_spec {s s' : Session} {e : WaitEnd} {schedule rest : List Happening}
    (h : s.wait schedule = (e, s', rest)) : ∃ done, schedule = done ++ rest ∧ s' = s.afterAll done ∧
      (s'.waitEnd? = some e ∨ s'.waitEnd? = none ∧ e = .timedOut ∧ rest = []) := by
  induction schedule generalizing s with
  | nil =>
    obtain ⟨rfl, rfl, rfl⟩ := h
    refine ⟨[], rfl, rfl, ?_⟩
    cases hend : s'.waitEnd? with
    | none => exact Or.inr ⟨rfl, rfl, rfl⟩
    | some e => exact Or.inl rfl
  | cons happening schedule ih =>
    rw [wait] at h
    split at h
    · next e' hend =>
      obtain ⟨rfl, rfl, rfl⟩ := h
      exact ⟨[], rfl, rfl, Or.inl hend⟩
    · next hend =>
      obtain ⟨done, hschedule, hs', hwait⟩ := ih h
      exact ⟨happening :: done, by rw [hschedule, List.cons_append], hs', hwait⟩

/-- The three ways in which a wait ends, and what holds of the session then. -/
theorem wait_cases {s s' : Session} {e : WaitEnd} {schedule rest : List Happening}
    (h : s.wait schedule = (e, s', rest)) :
    (e = .matched ∧ ∃ i, s'.prompt.find s'.pending = some i) ∨
    (e = .exited ∧ s'.prompt.find s'.pending = none ∧ s'.exited = true) ∨
    (e = .timedOut ∧ s'.prompt.find s'.pending = none ∧ s'.exited = false ∧ rest = []) := by
  obtain ⟨done, -, -, hend⟩ := wait_spec h
  cases hfind : s'.prompt.find s'.pending with
  | some i =>
    rw [waitEnd?_of_find hfind] at hend
    rcases hend with hend | ⟨hend, -⟩
    · exact Or.inl ⟨(Option.some.inj hend).symm, i, rfl⟩
    · cases hend
  | none =>
    rw [waitEnd?_of_not_find hfind] at hend
    cases hexited : s'.exited with
    | true =>
      rw [hexited] at hend
      rcases hend with hend | ⟨hend, -⟩
      · exact Or.inr (Or.inl ⟨(Option.some.inj hend).symm, rfl, rfl⟩)
      · cases hend
    | false =>
      rw [hexited] at hend
      rcases hend with hend | ⟨-, he, hrest⟩
      · cases hend
      · exact Or.inr (Or.inr ⟨he, rfl, rfl, hrest⟩)

theorem matched_of_find {s s' : Session} {e : WaitEnd} {schedule rest : List Happening} {i : Nat}
    (h : s.wait schedule = (e, s', rest)) (hfind : s'.prompt.find s'.pending = some i) :
    e = .matched := by
  rcases wait_cases h with ⟨he, -⟩ | ⟨-, hno, -⟩ | ⟨-, hno, -, -⟩
  · exact he
  · rw [hfind] at hno
    cases hno
  · rw [hfind] at hno
    cases hno

/-! ## Taking what belongs to the turn -/

/-- The bytes that end a turn and belong to nobody: the marker's, if a prompt ended it. -/
def closing (p : Prompt) : WaitEnd → Bytes
  | .matched => p.bytes
  | _ => []

theorem takeTurn_of_find {s : Session} {i : Nat} (h : s.prompt.find s.pending = some i) :
    s.takeTurn = (s.pending.take i,
      { s with pending := s.pending.drop (i + s.prompt.bytes.length) }) := by
  rw [takeTurn, h]

theorem takeTurn_of_not_find {s : Session} (h : s.prompt.find s.pending = none) :
    s.takeTurn = (s.pending, { s with pending := [] }) := by
  rw [takeTurn, h]

theorem takeTurn_eq (s : Session) :
    s.takeTurn.2 = { s with pending := s.takeTurn.2.pending } := by
  cases hfind : s.prompt.find s.pending with
  | some i => rw [takeTurn_of_find hfind]
  | none => rw [takeTurn_of_not_find hfind]

/-- A turn that ends takes its output and the prompt off the front of what is pending, and
there is no prompt in its output. -/
theorem takeTurn_of_wait {s s' : Session} {e : WaitEnd} {schedule rest : List Happening}
    (h : s.wait schedule = (e, s', rest)) :
    s'.pending = s'.takeTurn.1 ++ closing s'.prompt e ++ s'.takeTurn.2.pending ∧
      s'.prompt.find s'.takeTurn.1 = none ∧
        (e = .matched → s'.prompt.find s'.pending = some s'.takeTurn.1.length) := by
  rcases wait_cases h with ⟨rfl, i, hfind⟩ | ⟨rfl, hfind, -⟩ | ⟨rfl, hfind, -, -⟩
  · have hle := (Prompt.standsAt_of_find hfind).le
    rw [takeTurn_of_find hfind]
    refine ⟨Prompt.eq_take_append_of_find hfind, Prompt.find_take hfind, fun _ => ?_⟩
    rw [List.length_take, Nat.min_eq_left (by omega), hfind]
  · rw [takeTurn_of_not_find hfind]
    exact ⟨by simp [closing], hfind, fun h => by cases h⟩
  · rw [takeTurn_of_not_find hfind]
    exact ⟨by simp [closing], hfind, fun h => by cases h⟩

/-! ## Starting and evaluating -/

/-- A start that succeeds is a wait that ends with the first prompt. -/
theorem start_ok {p : Prompt} {command : String} {timeout : Nat}
    {schedule rest : List Happening} {s : Session}
    (h : Session.start p command timeout schedule = (.ok s, rest)) :
    ∃ s₁, (Session.new p).wait schedule = (.matched, s₁, rest) ∧ s = s₁.takeTurn.2 := by
  unfold Session.start at h
  split at h
  next e s₁ rest' hwait =>
  cases e with
  | matched =>
    obtain ⟨hs, rfl⟩ := Prod.mk.inj h
    exact ⟨s₁, hwait, (Except.ok.inj hs).symm⟩
  | exited => cases h
  | timedOut => cases h

theorem start_of_wait {p : Prompt} {schedule rest : List Happening} {s₁ : Session}
    (h : (Session.new p).wait schedule = (.matched, s₁, rest)) (command : String) (timeout : Nat) :
    Session.start p command timeout schedule = (.ok s₁.takeTurn.2, rest) := by
  rw [Session.start, h]

theorem evaluate_ok {s s' : Session} {d : Delivery} {schedule rest : List Happening}
    {ev : Evaluation} (h : s.evaluate d schedule = (.ok ev, s', rest)) :
    ∃ w e s₁, { s.discardStray with writable := w }.wait schedule = (e, s₁, rest) ∧
      ev = ⟨verdictOf e, s₁.takeTurn.1⟩ ∧ s' = s₁.takeTurn.2 := by
  rw [evaluate] at h
  split at h
  · cases h
  · next s₀ hdeliver =>
    obtain ⟨w, rfl⟩ := deliver_ok hdeliver
    obtain ⟨hev, hs', hrest⟩ := h
    exact ⟨w, _, _, rfl, rfl, rfl⟩

theorem evaluate_error {s s' : Session} {d : Delivery} {schedule rest : List Happening}
    {err : SessionError} (h : s.evaluate d schedule = (.error err, s', rest)) :
    s' = s.discardStray ∧ rest = schedule := by
  rw [evaluate] at h
  split at h
  · obtain ⟨-, rfl, rfl⟩ := h
    exact ⟨rfl, rfl⟩
  · cases h

/-- When the code could be written, or need not be, evaluating it is waiting in the turn. -/
theorem evaluate_of_deliver {s s₀ s₁ : Session} {d : Delivery} {schedule rest : List Happening}
    {e : WaitEnd} (hdeliver : s.discardStray.deliver d = .ok s₀)
    (hwait : s₀.wait schedule = (e, s₁, rest)) :
    s.evaluate d schedule = (.ok ⟨verdictOf e, s₁.takeTurn.1⟩, s₁.takeTurn.2, rest) := by
  rw [evaluate, hdeliver]
  simp only [hwait]

end Session
end LiveDoc
