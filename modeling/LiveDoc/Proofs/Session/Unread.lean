/-
What a session has not attributed yet.

Bytes that have arrived are in the channel or pending until a turn, a prompt or
the strays of a turn take them.  `unread` is all of them, in order of arrival.
`look_spec` says what a look does: it takes events off the front of the channel
and puts their bytes behind what is pending.  `afterAll_spec` says the same of
any schedule.  Nothing later opens these operations again.
-/
import LiveDoc.Session
import LiveDoc.Proofs.Prompt.Search

namespace LiveDoc

def StreamEvent.bytes : StreamEvent → Bytes
  | .data chunk => chunk
  | .closed => []

def dataOf (events : List StreamEvent) : Bytes := events.flatMap StreamEvent.bytes

@[simp] theorem dataOf_nil : dataOf [] = [] := rfl

@[simp] theorem dataOf_cons (e : StreamEvent) (events : List StreamEvent) :
    dataOf (e :: events) = e.bytes ++ dataOf events := rfl

@[simp] theorem dataOf_append (a b : List StreamEvent) : dataOf (a ++ b) = dataOf a ++ dataOf b :=
  List.flatMap_append

def arrivalsIn : List Happening → List StreamEvent
  | [] => []
  | .arrives e :: rest => e :: arrivalsIn rest
  | .looks :: rest => arrivalsIn rest

theorem arrivalsIn_append (a b : List Happening) :
    arrivalsIn (a ++ b) = arrivalsIn a ++ arrivalsIn b := by
  induction a with
  | nil => rfl
  | cons h rest ih => cases h <;> simp [arrivalsIn, ih]

namespace Session

/-- Everything that has arrived and belongs to no turn yet. -/
def unread (s : Session) : Bytes := s.pending ++ dataOf s.channel

def stray (s : Session) : Bytes := s.pending ++ (splitData s.channel).1

def afterAll (s : Session) (schedule : List Happening) : Session := schedule.foldl after s

@[simp] theorem afterAll_nil (s : Session) : s.afterAll [] = s := rfl

@[simp] theorem afterAll_cons (s : Session) (h : Happening) (rest : List Happening) :
    s.afterAll (h :: rest) = (s.after h).afterAll rest := rfl

@[simp] theorem after_arrives (s : Session) (e : StreamEvent) :
    s.after (.arrives e) = s.arrive e := rfl

@[simp] theorem after_looks (s : Session) : s.after .looks = s.look := rfl

theorem afterAll_append (s : Session) (a b : List Happening) :
    s.afterAll (a ++ b) = (s.afterAll a).afterAll b :=
  List.foldl_append

/-! ## Splitting the channel -/

theorem splitData_data (chunk : Bytes) (rest : List StreamEvent) :
    splitData (.data chunk :: rest) = (chunk ++ (splitData rest).1, (splitData rest).2) := rfl

/-- The chunks at the front of a channel are data, and what is behind them is empty or
starts with the end of the output. -/
theorem splitData_spec (channel : List StreamEvent) :
    ∃ front, channel = front ++ (splitData channel).2 ∧ (splitData channel).1 = dataOf front ∧
      .closed ∉ front ∧
        ((splitData channel).2 = [] ∨ ∃ rest, (splitData channel).2 = .closed :: rest) := by
  induction channel with
  | nil => exact ⟨[], rfl, rfl, List.not_mem_nil, Or.inl rfl⟩
  | cons e channel ih =>
    cases e with
    | closed => exact ⟨[], rfl, rfl, List.not_mem_nil, Or.inr ⟨channel, rfl⟩⟩
    | data chunk =>
      obtain ⟨front, hchannel, hdata, hclosed, hrest⟩ := ih
      refine ⟨.data chunk :: front, ?_, ?_, ?_, hrest⟩
      · rw [splitData_data, List.cons_append, ← hchannel]
      · rw [splitData_data, hdata]
        rfl
      · simpa using hclosed

theorem splitData_of_not_closed {channel : List StreamEvent} (h : .closed ∉ channel) :
    splitData channel = (dataOf channel, []) := by
  induction channel with
  | nil => rfl
  | cons e channel ih =>
    cases e with
    | closed => exact absurd List.mem_cons_self h
    | data chunk =>
      rw [splitData_data, ih (fun hmem => h (List.mem_cons_of_mem _ hmem))]
      rfl

/-! ## Happenings -/

variable (s : Session)

theorem look_nil (h : s.channel = []) : s.look = s := by
  rw [look, h]

theorem look_data {chunk : Bytes} {rest : List StreamEvent} (h : s.channel = .data chunk :: rest) :
    s.look = { s with pending := s.pending ++ chunk, channel := rest } := by
  rw [look, h]

theorem look_closed {rest : List StreamEvent} (h : s.channel = .closed :: rest) :
    s.look = { s with
      pending := s.pending ++ (splitData rest).1
      channel := (splitData rest).2.drop 1
      exited := true } := by
  rw [look, h]

/-- A look takes events off the front of the channel and loses none of their bytes. -/
theorem look_spec : ∃ received, s.channel = received ++ s.look.channel ∧
    s.look.pending = s.pending ++ dataOf received ∧
      (s.look.exited = true ↔ s.exited = true ∨ .closed ∈ received) := by
  cases hchannel : s.channel with
  | nil =>
    rw [s.look_nil hchannel]
    exact ⟨[], by simp [hchannel]⟩
  | cons e rest =>
    cases e with
    | data chunk =>
      rw [s.look_data hchannel]
      exact ⟨[.data chunk], by simp [StreamEvent.bytes]⟩
    | closed =>
      rw [s.look_closed hchannel]
      obtain ⟨front, hrest, hdata, -, hbehind⟩ := splitData_spec rest
      -- A second end of the output is dropped with the first, and it has no bytes.
      refine ⟨.closed :: (front ++ (splitData rest).2.take 1), ?_, ?_, by simp⟩
      · rw [List.cons_append, List.append_assoc, List.take_append_drop, ← hrest]
      · rcases hbehind with hnone | ⟨more, hmore⟩
        · simp [hdata, hnone, StreamEvent.bytes]
        · simp [hdata, hmore, StreamEvent.bytes]

@[simp] theorem prompt_look : s.look.prompt = s.prompt := by
  rw [look]
  split <;> rfl

@[simp] theorem writable_look : s.look.writable = s.writable := by
  rw [look]
  split <;> rfl

theorem prompt_afterAll (schedule : List Happening) : (s.afterAll schedule).prompt = s.prompt := by
  induction schedule generalizing s with
  | nil => rfl
  | cons h rest ih => cases h <;> simp [after, arrive, ih]

theorem writable_afterAll (schedule : List Happening) :
    (s.afterAll schedule).writable = s.writable := by
  induction schedule generalizing s with
  | nil => rfl
  | cons h rest ih => cases h <;> simp [after, arrive, ih]

/-- Happenings take from the front of what has arrived and append what arrives. -/
theorem afterAll_spec (schedule : List Happening) :
    ∃ received, s.channel ++ arrivalsIn schedule = received ++ (s.afterAll schedule).channel ∧
      (s.afterAll schedule).pending = s.pending ++ dataOf received ∧
        ((s.afterAll schedule).exited = true ↔ s.exited = true ∨ .closed ∈ received) := by
  induction schedule generalizing s with
  | nil => exact ⟨[], by simp [arrivalsIn]⟩
  | cons h rest ih =>
    cases h with
    | arrives e =>
      obtain ⟨received, hchannel, hpending, hexited⟩ := ih (s.arrive e)
      refine ⟨received, ?_, hpending, hexited⟩
      rw [afterAll_cons, after_arrives, ← hchannel, arrivalsIn, arrive, List.append_assoc]
      rfl
    | looks =>
      obtain ⟨first, hfirst, hpending, hexited⟩ := s.look_spec
      obtain ⟨received, hchannel', hpending', hexited'⟩ := ih s.look
      refine ⟨first ++ received, ?_, ?_, ?_⟩
      · rw [afterAll_cons, after_looks, List.append_assoc, ← hchannel', arrivalsIn, hfirst,
          List.append_assoc]
      · rw [afterAll_cons, after_looks, hpending', hpending, dataOf_append, List.append_assoc]
      · rw [afterAll_cons, after_looks, hexited', hexited, List.mem_append, or_assoc]

theorem unread_afterAll (schedule : List Happening) :
    (s.afterAll schedule).unread = s.unread ++ dataOf (arrivalsIn schedule) := by
  obtain ⟨received, hchannel, hpending, -⟩ := s.afterAll_spec schedule
  rw [unread, unread, hpending, List.append_assoc, ← dataOf_append, ← hchannel, dataOf_append,
    List.append_assoc]

/-! ## Looking often enough -/

theorem length_look : s.look.channel.length ≤ s.channel.length - 1 := by
  cases hchannel : s.channel with
  | nil => simp [s.look_nil hchannel, hchannel]
  | cons e rest =>
    cases e with
    | data chunk => simp [s.look_data hchannel]
    | closed =>
      obtain ⟨front, hrest, -⟩ := splitData_spec rest
      have hlength := congrArg List.length hrest
      rw [List.length_append] at hlength
      rw [s.look_closed hchannel, List.length_drop, List.length_cons]
      omega

theorem channel_afterAll_looks {n : Nat} (h : s.channel.length ≤ n) :
    (s.afterAll (List.replicate n .looks)).channel = [] := by
  induction n generalizing s with
  | zero => exact List.length_eq_zero_iff.mp (Nat.le_zero.mp h)
  | succ n ih =>
    have hlength := s.length_look
    exact ih s.look (by omega)

/-- How many of so many events, and of those that arrive, a session can have left when it
receives one at each look. -/
def backlog : Nat → List Happening → Nat
  | n, [] => n
  | n, .arrives _ :: rest => backlog (n + 1) rest
  | n, .looks :: rest => backlog (n - 1) rest

theorem length_channel_le_backlog {n : Nat} (h : s.channel.length ≤ n)
    (schedule : List Happening) : (s.afterAll schedule).channel.length ≤ backlog n schedule := by
  induction schedule generalizing s n with
  | nil => exact h
  | cons happening rest ih =>
    cases happening with
    | arrives e =>
      refine ih (s.arrive e) ?_
      rw [arrive, List.length_append, List.length_singleton]
      omega
    | looks =>
      have hlength := s.length_look
      exact ih s.look (by omega)

theorem length_channel_afterAll (schedule : List Happening) :
    (s.afterAll schedule).channel.length ≤ s.channel.length + (arrivalsIn schedule).length := by
  obtain ⟨received, hchannel, -⟩ := s.afterAll_spec schedule
  have hlength := congrArg List.length hchannel
  rw [List.length_append, List.length_append] at hlength
  omega

theorem arrivalsIn_looks (n : Nat) : arrivalsIn (List.replicate n .looks) = [] := by
  induction n with
  | zero => rfl
  | succ n ih => rw [List.replicate_succ, arrivalsIn, ih]

end Session
end LiveDoc
