/-
A turn over a queue that is complete is one scan of one piece of output.

The wait searches again after every chunk, in a buffer that grows.  When
everything is in the channel as the wait begins and nothing more arrives, it
ends as a single search through all the bytes would: chunk boundaries do not
show, not even inside a marker, error messages behind the end of the output
count, and a prompt comes before the end of the output.
-/
import LiveDoc.Proofs.Session.Turn

namespace LiveDoc

/-- One scan of all output there is: how a turn ends, what is printed in it, and what is left.
`ended` says whether the end of the output is known. -/
def Prompt.scan (p : Prompt) (stream : Bytes) (ended : Bool) : WaitEnd × Bytes × Bytes :=
  match p.find stream with
  | some i => (.matched, stream.take i, stream.drop (i + p.bytes.length))
  | none => (if ended then .exited else .timedOut, stream, [])

theorem Prompt.scan_of_find {p : Prompt} {stream : Bytes} {i : Nat} (h : p.find stream = some i)
    (ended : Bool) :
    p.scan stream ended = (.matched, stream.take i, stream.drop (i + p.bytes.length)) := by
  rw [scan, h]

theorem Prompt.scan_of_not_find {p : Prompt} {stream : Bytes} (h : p.find stream = none)
    (ended : Bool) : p.scan stream ended = (if ended then .exited else .timedOut, stream, []) := by
  rw [scan, h]

namespace Session

/-- Once the end of the output has been received, a channel to which nothing is added is
empty: the look that received it took what was behind it too. -/
theorem channel_of_exited {s : Session} {schedule : List Happening}
    (hnone : arrivalsIn schedule = []) (hclosed : s.channel.count .closed ≤ 1)
    (hstart : s.exited = true → s.channel = [])
    (hexited : (s.afterAll schedule).exited = true) : (s.afterAll schedule).channel = [] := by
  induction schedule generalizing s with
  | nil => exact hstart hexited
  | cons h rest ih =>
    cases h with
    | arrives e => cases hnone
    | looks =>
      rw [afterAll_cons, after_looks] at hexited ⊢
      cases hchannel : s.channel with
      | nil =>
        rw [s.look_nil hchannel] at hexited ⊢
        exact ih hnone hclosed hstart hexited
      | cons e channel =>
        rw [hchannel] at hclosed hstart
        cases e with
        | data chunk =>
          rw [s.look_data hchannel] at hexited ⊢
          refine ih hnone ?_ (fun h => ?_) hexited
          · rwa [List.count_cons_of_ne StreamEvent.noConfusion] at hclosed
          · cases hstart h
        | closed =>
          have hrest : .closed ∉ channel := by
            rw [List.count_cons_self] at hclosed
            exact List.count_eq_zero.mp (by omega)
          rw [s.look_closed hchannel, splitData_of_not_closed hrest] at hexited ⊢
          exact ih hnone (by simp) (fun _ => rfl) hexited

/-- How many looks it takes to receive all there is in a channel.  The one that receives the
end of the output takes what is behind it too. -/
def looksFor : List StreamEvent → Nat
  | [] => 0
  | .data _ :: rest => looksFor rest + 1
  | .closed :: _ => 1

theorem looksFor_look {s : Session} (hclosed : s.channel.count .closed ≤ 1) :
    looksFor s.look.channel = looksFor s.channel - 1 := by
  cases hchannel : s.channel with
  | nil =>
    rw [s.look_nil hchannel, hchannel]
    rfl
  | cons e rest =>
    cases e with
    | data chunk =>
      rw [s.look_data hchannel]
      rfl
    | closed =>
      rw [hchannel, List.count_cons_self] at hclosed
      have hrest : .closed ∉ rest := List.count_eq_zero.mp (by omega)
      rw [s.look_closed hchannel, splitData_of_not_closed hrest]
      rfl

theorem count_closed_look (s : Session) :
    s.look.channel.count .closed ≤ s.channel.count .closed := by
  obtain ⟨received, hchannel, -⟩ := s.look_spec
  rw [hchannel, List.count_append]
  omega

theorem eq_nil_of_looksFor {channel : List StreamEvent} (h : looksFor channel = 0) :
    channel = [] := by
  cases channel with
  | nil => rfl
  | cons e rest => cases e <;> cases h

/-- A schedule with enough looks and no arrivals empties the channel. -/
theorem channel_afterAll_of_looksFor {s : Session} {schedule : List Happening}
    (hclosed : s.channel.count .closed ≤ 1) (hnone : arrivalsIn schedule = [])
    (hlooks : looksFor s.channel ≤ schedule.length) : (s.afterAll schedule).channel = [] := by
  induction schedule generalizing s with
  | nil => exact eq_nil_of_looksFor (Nat.le_zero.mp hlooks)
  | cons h rest ih =>
    cases h with
    | arrives e => cases hnone
    | looks =>
      refine ih ((count_closed_look s).trans hclosed) hnone ?_
      rw [after_looks, looksFor_look hclosed]
      rw [List.length_cons] at hlooks
      omega

/-- What a wait over a complete queue has done by its end. -/
theorem wait_queued_spec {s s' : Session} {e : WaitEnd} {schedule rest : List Happening}
    (hexited : s.exited = false) (hclosed : s.channel.count .closed ≤ 1)
    (hnone : arrivalsIn schedule = []) (hlooks : looksFor s.channel ≤ schedule.length)
    (h : s.wait schedule = (e, s', rest)) :
    s'.prompt = s.prompt ∧ s'.unread = s.unread ∧
      (s'.prompt.find s'.pending = none → s'.channel = [] ∧
        e = if .closed ∈ s.channel then .exited else .timedOut) := by
  obtain ⟨done, hschedule, rfl, -⟩ := wait_spec h
  have hdone : arrivalsIn done = [] := by
    rw [hschedule, arrivalsIn_append] at hnone
    exact (List.append_eq_nil_iff.mp hnone).1
  refine ⟨s.prompt_afterAll done, ?_, fun hfind => ?_⟩
  · rw [s.unread_afterAll, hdone, dataOf_nil, List.append_nil]
  · obtain ⟨received, hchannel, -, hends⟩ := s.afterAll_spec done
    rw [hdone, List.append_nil] at hchannel
    rcases wait_cases h with ⟨-, i, hsome⟩ | ⟨rfl, -, hexit⟩ | ⟨rfl, -, hopen, rfl⟩
    · rw [hfind] at hsome
      cases hsome
    · have hempty := channel_of_exited hdone hclosed (fun h => by rw [hexited] at h; cases h) hexit
      have hmem : .closed ∈ received := by
        rcases hends.mp hexit with h | h
        · rw [hexited] at h
          cases h
        · exact h
      rw [hempty, List.append_nil] at hchannel
      rw [hchannel, if_pos hmem]
      exact ⟨hempty, rfl⟩
    · -- The deadline has passed, so all of the schedule has happened.
      rw [List.append_nil] at hschedule
      rw [hschedule] at hlooks
      have hempty := channel_afterAll_of_looksFor hclosed hdone hlooks
      have hmem : .closed ∉ received := fun hmem => by
        rw [hends.mpr (Or.inr hmem)] at hopen
        cases hopen
      rw [hempty, List.append_nil] at hchannel
      rw [hchannel, if_neg hmem]
      exact ⟨hempty, rfl⟩

/-- A turn over a complete queue ends as one scan of all its bytes does. -/
theorem scan_of_wait {s s' : Session} {e : WaitEnd} {schedule rest : List Happening}
    (hexited : s.exited = false) (hclosed : s.channel.count .closed ≤ 1)
    (hnone : arrivalsIn schedule = []) (hlooks : looksFor s.channel ≤ schedule.length)
    (h : s.wait schedule = (e, s', rest)) :
    s.prompt.scan s.unread (s.channel.contains .closed) =
      (e, s'.takeTurn.1, s'.takeTurn.2.unread) := by
  obtain ⟨hprompt, hunread, hend⟩ := wait_queued_spec hexited hclosed hnone hlooks h
  cases hfind : s'.prompt.find s'.pending with
  | some i =>
    -- The rest of the channel does not move the prompt that has been found.
    have hwhole : s.prompt.find s.unread = some i := by
      rw [← hprompt, ← hunread]
      exact Prompt.find_append hfind _
    have hle := (Prompt.standsAt_of_find hfind).le
    have htake : s'.pending.take i = s.unread.take i := by
      rw [← hunread, unread, List.take_append_of_le_length (by omega)]
    have hdrop : s'.pending.drop (i + s'.prompt.bytes.length) ++ dataOf s'.channel =
        s.unread.drop (i + s.prompt.bytes.length) := by
      rw [← hunread, ← hprompt, unread, List.drop_append_of_le_length hle]
    rw [Prompt.scan_of_find hwhole, takeTurn_of_find hfind, matched_of_find h hfind, ← htake,
      ← hdrop]
    rfl
  | none =>
    obtain ⟨hempty, he⟩ := hend hfind
    have hpending : s'.pending = s.unread := by
      rw [← hunread, unread, hempty, dataOf_nil, List.append_nil]
    have hwhole : s.prompt.find s.unread = none := by rw [← hprompt, ← hpending, hfind]
    rw [Prompt.scan_of_not_find hwhole, takeTurn_of_not_find hfind, he, hpending]
    simp [unread, hempty]

/-- Let everything be in the channel when the wait begins, let nothing more arrive, and let
there be time before the deadline to look at all of it.  Then the turn ends as one scan of all
the bytes would: with a prompt exactly if one stands anywhere in them, cut at the first one, and
else with all of them, by the end of the output or by the deadline. -/
theorem wait_eq_scan {s s' : Session} {e : WaitEnd} {schedule rest : List Happening}
    (hexited : s.exited = false) (hclosed : s.channel.count .closed ≤ 1)
    (hnone : arrivalsIn schedule = []) (hlooks : looksFor s.channel ≤ schedule.length)
    (h : s.wait schedule = (e, s', rest)) :
    s.prompt.scan s.unread (s.channel.contains .closed) =
        (e, s'.takeTurn.1, s'.takeTurn.2.unread) ∧
    (e = .matched ↔ ∃ i, s.prompt.StandsAt s.unread i) ∧
    (∀ i, s.prompt.FirstAt s.unread i → s'.takeTurn.1 = s.unread.take i ∧
      s'.takeTurn.2.unread = s.unread.drop (i + s.prompt.bytes.length)) ∧
    ((∀ i, ¬ s.prompt.StandsAt s.unread i) → s'.takeTurn.1 = s.unread ∧
      e = if .closed ∈ s.channel then .exited else .timedOut) := by
  have hscan := scan_of_wait hexited hclosed hnone hlooks h
  cases hfind : s.prompt.find s.unread with
  | some i =>
    have hstands := Prompt.standsAt_of_find hfind
    rw [Prompt.scan_of_find hfind] at hscan ⊢
    simp only [Prod.mk.injEq] at hscan
    obtain ⟨he, hraw, hrest⟩ := hscan
    refine ⟨by rw [he, hraw, hrest], ⟨fun _ => ⟨i, hstands⟩, fun _ => he.symm⟩, fun j hj => ?_,
      fun hno => absurd hstands (hno i)⟩
    rw [Prompt.find_eq_some_iff.mpr hj] at hfind
    obtain rfl := Option.some.inj hfind
    exact ⟨hraw.symm, hrest.symm⟩
  | none =>
    have hnowhere := Prompt.find_eq_none_iff.mp hfind
    rw [Prompt.scan_of_not_find hfind] at hscan ⊢
    simp only [Prod.mk.injEq, List.contains_iff_mem] at hscan
    obtain ⟨he, hraw, hrest⟩ := hscan
    refine ⟨by rw [← he, hraw, hrest]; simp,
      ⟨fun hmatched => ?_, fun ⟨i, hi⟩ => absurd hi (hnowhere i)⟩,
      fun i hi => absurd hi.1 (hnowhere i), fun _ => ⟨hraw.symm, he.symm⟩⟩
    rw [hmatched] at he
    split at he <;> cases he

/-- A session in front of a marker that is cut in two: its second half is behind the end of the
output, with one more byte. -/
def beforeCutMarker : Session :=
  ⟨.star, [97], [.data [10, 42], .closed, .data [32, 98]], false, true⟩

/-- The turn ends with the prompt, and the byte behind it is left. -/
theorem wait_eq_scan_cut_marker :
    let w := beforeCutMarker.wait [.looks, .looks]
    beforeCutMarker.exited = false ∧ beforeCutMarker.channel.count .closed ≤ 1 ∧
      arrivalsIn [.looks, .looks] = [] ∧ looksFor beforeCutMarker.channel ≤ 2 ∧
      w.1 = .matched ∧ w.2.1.takeTurn.1 = [97, 10] ∧ w.2.1.takeTurn.2.unread = [98] := by
  have hlooks : looksFor beforeCutMarker.channel ≤ 2 := by decide
  have hfirst : beforeCutMarker.prompt.FirstAt beforeCutMarker.unread 2 :=
    Prompt.find_eq_some_iff.mp (by decide)
  have hwait : beforeCutMarker.wait [.looks, .looks] = (_, _, _) := rfl
  obtain ⟨-, hmatched, hcut, -⟩ := wait_eq_scan rfl (by decide) rfl hlooks hwait
  obtain ⟨hraw, hrest⟩ := hcut 2 hfirst
  exact ⟨rfl, by decide, rfl, hlooks, hmatched.mpr ⟨2, hfirst.1⟩, hraw, hrest⟩

end Session
end LiveDoc
