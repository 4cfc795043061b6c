/-
Turns of an interpreter that goes on running.

A session is running until it learns of the end of the output.  A wait in a
running session does not end without a prompt before its deadline, so it ends
with the first prompt in what arrives if everything is received in time.
-/
import LiveDoc.Proofs.Session.Turn

namespace LiveDoc

def Session.Running (s : Session) : Prop := s.exited = false ∧ .closed ∉ s.channel

namespace Session

variable {s s' : Session}

theorem Running.discardStray (h : s.Running) :
    s.discardStray.Running ∧ s.discardStray.channel = [] := by
  have hexited : s.discardStray.exited = false := by
    rw [Session.discardStray, splitData_of_not_closed h.2]
    exact h.1
  have hchannel := channel_discardStray hexited
  exact ⟨⟨hexited, by rw [hchannel]; exact List.not_mem_nil⟩, hchannel⟩

/-- A session stays running until the end of the output arrives. -/
theorem Running.afterAll (h : s.Running) {schedule : List Happening}
    (hopen : .closed ∉ arrivalsIn schedule) : (s.afterAll schedule).Running := by
  obtain ⟨received, hchannel, -, hexited⟩ := s.afterAll_spec schedule
  have hall : .closed ∉ received ++ (s.afterAll schedule).channel := by
    rw [← hchannel, List.mem_append]
    exact fun hmem => hmem.elim h.2 hopen
  rw [List.mem_append, not_or] at hall
  refine ⟨?_, hall.2⟩
  rw [Bool.eq_false_iff]
  intro hexit
  rcases hexited.mp hexit with hbefore | hnow
  · rw [h.1] at hbefore
    cases hbefore
  · exact hall.1 hnow

theorem Running.takeTurn (h : s.Running) : s.takeTurn.2.Running := by
  rw [takeTurn_eq]
  exact h

theorem Running.with_writable (h : s.Running) (w : Bool) : { s with writable := w }.Running := h

theorem Running.evaluate (h : s.Running) {d : Delivery} {schedule rest : List Happening}
    {result : Except SessionError Evaluation} (hopen : .closed ∉ arrivalsIn schedule)
    (hturn : s.evaluate d schedule = (result, s', rest)) : s'.Running := by
  cases result with
  | error err =>
    obtain ⟨rfl, -⟩ := evaluate_error hturn
    exact h.discardStray.1
  | ok ev =>
    obtain ⟨w, e, s₁, hwait, -, rfl⟩ := evaluate_ok hturn
    obtain ⟨done, rfl, rfl, -⟩ := wait_spec hwait
    rw [arrivalsIn_append, List.mem_append, not_or] at hopen
    exact ((h.discardStray.1.with_writable w).afterAll hopen.1).takeTurn

theorem prompt_evaluate {d : Delivery} {schedule rest : List Happening}
    {result : Except SessionError Evaluation}
    (hturn : s.evaluate d schedule = (result, s', rest)) : s'.prompt = s.prompt := by
  cases result with
  | error err =>
    obtain ⟨rfl, -⟩ := evaluate_error hturn
    exact s.prompt_discardStray
  | ok ev =>
    obtain ⟨w, e, s₁, hwait, -, rfl⟩ := evaluate_ok hturn
    obtain ⟨done, -, rfl, -⟩ := wait_spec hwait
    rw [takeTurn_eq]
    exact (prompt_afterAll _ done).trans s.prompt_discardStray

/-! ## Turns that succeed -/

/-- A turn that succeeds ends with the first prompt in what arrives during it. -/
theorem find_of_success {s s' : Session} {d : Delivery} {schedule rest : List Happening}
    {raw : Bytes}
    (h : s.evaluate d schedule = (.ok ⟨.success, raw⟩, s', rest)) :
    s.prompt.find (dataOf (arrivalsIn schedule)) = some raw.length := by
  obtain ⟨w, e, s₁, hwait, hev, -⟩ := evaluate_ok h
  obtain ⟨hverdict, rfl⟩ := Evaluation.mk.inj hev
  obtain rfl : e = .matched := by cases e <;> first | rfl | cases hverdict
  obtain ⟨done, rfl, hs₁, -⟩ := wait_spec hwait
  have hfind := (takeTurn_of_wait hwait).2.2 rfl
  have hprompt : s₁.prompt = s.prompt := by
    rw [hs₁, prompt_afterAll]
    exact s.prompt_discardStray
  cases hexited : s.discardStray.exited with
  | true =>
    -- The wait does not even begin, and no prompt stands in nothing.
    have hend : ({ s.discardStray with writable := w }).waitEnd? = some .exited := by
      rw [waitEnd?_of_not_find (by simp)]
      simp [hexited]
    cases hrest : done ++ rest with
    | nil =>
      rw [hrest, wait, hend] at hwait
      cases hwait
    | cons happening more =>
      rw [hrest, wait, hend] at hwait
      cases hwait
  | false =>
    have hunread := unread_afterAll { s.discardStray with writable := w } done
    have hnothing : ({ s.discardStray with writable := w }).unread = [] := by
      simp [unread, channel_discardStray hexited]
    rw [← hs₁, hnothing, List.nil_append, unread] at hunread
    rw [arrivalsIn_append, dataOf_append, ← hunread, ← hprompt, List.append_assoc]
    exact Prompt.find_append hfind _

/-- A wait ends with a prompt if one comes and everything is received before the deadline. -/
theorem Running.wait_matched (h : s.Running) {e : WaitEnd} {schedule rest : List Happening}
    {i : Nat}
    (hopen : .closed ∉ arrivalsIn schedule) (hall : (s.afterAll schedule).channel = [])
    (hfind : s.prompt.find (s.unread ++ dataOf (arrivalsIn schedule)) = some i)
    (hwait : s.wait schedule = (e, s', rest)) : e = .matched := by
  obtain ⟨done, hschedule, hs', -⟩ := wait_spec hwait
  rcases wait_cases hwait with ⟨he, -⟩ | ⟨-, -, hexited⟩ | ⟨-, hno, -, hrest⟩
  · exact he
  · rw [hschedule, arrivalsIn_append, List.mem_append, not_or] at hopen
    rw [hs', (h.afterAll hopen.1).1] at hexited
    cases hexited
  · rw [hrest, List.append_nil] at hschedule
    subst hschedule
    have hunread := s.unread_afterAll schedule
    rw [unread, hall, dataOf_nil, List.append_nil] at hunread
    rw [hs', prompt_afterAll, hunread, hfind] at hno
    cases hno

/-- If the session looks often enough, a prompt in what arrives ends the turn. -/
theorem Running.evaluate_success (h : s.Running) {d : Delivery} (hd : d ≠ .failed)
    {schedule : List Happening} (hopen : .closed ∉ arrivalsIn schedule) {i : Nat}
    (hfind : s.prompt.find (dataOf (arrivalsIn schedule)) = some i) : ∃ n raw s' rest,
      s.evaluate d (schedule ++ List.replicate n .looks) = (.ok ⟨.success, raw⟩, s', rest) ∧
        raw.length = i := by
  obtain ⟨w, hdeliver⟩ := deliver_of_ne_failed hd s.discardStray
  obtain ⟨hrunning, hchannel⟩ := h.discardStray
  let n := (arrivalsIn schedule).length
  let s₀ := { s.discardStray with writable := w }
  have harrivals : arrivalsIn (schedule ++ List.replicate n .looks) = arrivalsIn schedule := by
    rw [arrivalsIn_append, arrivalsIn_looks, List.append_nil]
  have hall : (s₀.afterAll (schedule ++ List.replicate n .looks)).channel = [] := by
    rw [afterAll_append]
    refine channel_afterAll_looks _ ?_
    have hlength := s₀.length_channel_afterAll schedule
    have hnone : s₀.channel.length = 0 := by rw [hchannel, List.length_nil]
    omega
  have hnothing : s₀.unread = [] := by simp [s₀, unread, hchannel]
  have hprompt : s₀.prompt = s.prompt := s.prompt_discardStray
  have hwhole : s₀.prompt.find (s₀.unread ++
      dataOf (arrivalsIn (schedule ++ List.replicate n .looks))) = some i := by
    rw [harrivals, hnothing, hprompt, List.nil_append, hfind]
  rw [← harrivals] at hopen
  cases hwait : s₀.wait (schedule ++ List.replicate n .looks) with
  | mk e outcome =>
    obtain ⟨s₁, rest⟩ := outcome
    obtain rfl := (hrunning.with_writable w).wait_matched hopen hall hwhole hwait
    have hturn := evaluate_of_deliver hdeliver hwait
    refine ⟨n, _, _, _, hturn, ?_⟩
    have hlater := find_of_success hturn
    rw [harrivals, hfind] at hlater
    exact (Option.some.inj hlater).symm

end Session
end LiveDoc
