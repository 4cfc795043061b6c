/-
The examples of an outline, place by place.

The place of a node is the way to it from the root: the number of a child, of a child of that
one, and so on.  In the order of lists of numbers a container comes before what is in it, and
what is in it before the next sibling, so places are in this order just as their nodes are in
the document.  `walk` goes through an outline and comes to every place in it once, in order.
The examples are what is left of this walk if only the code blocks with the tag and some text
are kept, each with the output that its siblings document.
-/
import Mathlib.Data.List.Forall2
import LiveDoc.Outline

namespace LiveDoc

def Node.at? : Node → List Nat → Option Node
  | node, [] => some node
  | .container children, i :: way => (children[i]?).bind fun child => child.at? way
  | _, _ :: _ => none

/-- A node with its place and the siblings behind it. -/
structure Placed where
  place : List Nat
  node : Node
  behind : List Node

/-- Does the node stand at its place below `root`, in front of these siblings? -/
def Placed.StandsIn (s : Placed) (root : Node) : Prop :=
  ∃ parent front, root.at? parent = some (.container (front ++ s.node :: s.behind)) ∧
    s.place = parent ++ [front.length]

/-- Is the text that of an untagged code block which comes first among these siblings, blanks
aside? -/
def Documents (siblings : List Node) (text : String) : Prop :=
  ∃ blanks after, (∀ n ∈ blanks, n = Node.blank) ∧ siblings = blanks ++ .code "" text :: after

/-- What stands below the child with the number `i`, as it stands below the parent. -/
def Placed.under (i : Nat) (s : Placed) : Placed := ⟨i :: s.place, s.node, s.behind⟩

mutual

/-- Everything below a node, depth first and from left to right. -/
def Node.walk : Node → List Placed
  | .code _ _ => []
  | .blank => []
  | .container children => walkFrom 0 children

def walkFrom (i : Nat) : List Node → List Placed
  | [] => []
  | node :: rest => ⟨[i], node, rest⟩ :: node.walk.map (Placed.under i) ++ walkFrom (i + 1) rest

end

/-- The example that a node is by its tag, its text and the siblings behind it. -/
def Placed.example? (tag : String) (s : Placed) : Option Example :=
  match s.node with
  | .code tag' text => if tag' = tag ∧ text ≠ "" then some ⟨text, outputAmong s.behind⟩ else none
  | _ => none

/-! ## The walk comes to every place -/

theorem Placed.StandsIn.under {s : Placed} {node : Node} (h : s.StandsIn node)
    (front rest : List Node) :
    (s.under front.length).StandsIn (.container (front ++ node :: rest)) := by
  obtain ⟨parent, before, hat, hplace⟩ := h
  refine ⟨front.length :: parent, before, ?_, ?_⟩
  · simpa [Node.at?, Placed.under] using hat
  · rw [Placed.under, hplace, List.cons_append]

mutual

theorem Node.standsIn_of_mem_walk : (root : Node) → ∀ s ∈ root.walk, s.StandsIn root
  | .code _ _ => fun _ h => absurd h List.not_mem_nil
  | .blank => fun _ h => absurd h List.not_mem_nil
  | .container children => fun s h => standsIn_of_mem_walkFrom [] children s h

theorem standsIn_of_mem_walkFrom (front : List Node) : (rest : List Node) →
    ∀ s ∈ walkFrom front.length rest, s.StandsIn (.container (front ++ rest))
  | [] => fun _ h => absurd h List.not_mem_nil
  | node :: rest => by
    intro s h
    rw [walkFrom, List.mem_append, List.mem_cons, List.mem_map] at h
    rcases h with (rfl | ⟨t, ht, rfl⟩) | hrest
    · exact ⟨[], front, rfl, rfl⟩
    · exact (node.standsIn_of_mem_walk t ht).under front rest
    · have hlength : front.length + 1 = (front ++ [node]).length := by
        rw [List.length_append, List.length_singleton]
      rw [hlength] at hrest
      have hstands := standsIn_of_mem_walkFrom (front ++ [node]) rest s hrest
      rwa [List.append_assoc, List.singleton_append] at hstands

end

theorem walkFrom_suffix (i : Nat) (front rest : List Node) :
    walkFrom (i + front.length) rest <:+ walkFrom i (front ++ rest) := by
  induction front generalizing i with
  | nil => exact List.suffix_refl _
  | cons node others ih =>
    rw [List.length_cons, Nat.add_comm others.length, ← Nat.add_assoc, List.cons_append, walkFrom]
    exact (ih (i + 1)).trans (List.suffix_append _ _)

theorem mem_walk_of_at? {root : Node} {parent : List Nat} {front rest : List Node} {node : Node}
    (h : root.at? parent = some (.container (front ++ node :: rest))) :
    ⟨parent ++ [front.length], node, rest⟩ ∈ root.walk := by
  induction parent generalizing root with
  | nil =>
    obtain rfl := Option.some.inj h
    have hsuffix := walkFrom_suffix 0 front (node :: rest)
    rw [Nat.zero_add] at hsuffix
    exact hsuffix.subset List.mem_cons_self
  | cons i way ih =>
    cases root with
    | code tag text => cases h
    | blank => cases h
    | container children =>
      obtain ⟨child, hchild, hat⟩ := Option.bind_eq_some_iff.mp h
      obtain ⟨hi, rfl⟩ := List.getElem?_eq_some_iff.mp hchild
      have hsuffix := walkFrom_suffix 0 (children.take i) (children.drop i)
      rw [List.take_append_drop, List.length_take, Nat.min_eq_left (Nat.le_of_lt hi), Nat.zero_add,
        List.drop_eq_getElem_cons hi, walkFrom] at hsuffix
      refine hsuffix.subset (List.mem_append_left _ (List.mem_cons_of_mem _ ?_))
      exact List.mem_map.mpr ⟨_, ih hat, rfl⟩

theorem mem_walk_iff {root : Node} {s : Placed} : s ∈ root.walk ↔ s.StandsIn root := by
  refine ⟨root.standsIn_of_mem_walk s, fun h => ?_⟩
  obtain ⟨parent, front, hat, hplace⟩ := h
  have hmem := mem_walk_of_at? hat
  rwa [← hplace] at hmem

/-! ## The order of the walk -/

theorem place_of_mem_walkFrom {i : Nat} {nodes : List Node} {s : Placed}
    (h : s ∈ walkFrom i nodes) : ∃ j way, s.place = j :: way ∧ i ≤ j := by
  induction nodes generalizing i with
  | nil => cases h
  | cons node rest ih =>
    rw [walkFrom, List.mem_append, List.mem_cons, List.mem_map] at h
    rcases h with (rfl | ⟨t, -, rfl⟩) | hrest
    · exact ⟨i, [], rfl, Nat.le_refl i⟩
    · exact ⟨i, t.place, rfl, Nat.le_refl i⟩
    · obtain ⟨j, way, hplace, hle⟩ := ih hrest
      exact ⟨j, way, hplace, by omega⟩

theorem place_ne_nil {root : Node} {s : Placed} (h : s ∈ root.walk) : s.place ≠ [] := by
  obtain ⟨parent, front, -, hplace⟩ := mem_walk_iff.mp h
  rw [hplace]
  exact List.append_ne_nil_of_right_ne_nil _ (List.cons_ne_nil _ _)

mutual

theorem Node.pairwise_walk : (root : Node) → root.walk.Pairwise fun s t => s.place < t.place
  | .code _ _ => .nil
  | .blank => .nil
  | .container children => pairwise_walkFrom 0 children

theorem pairwise_walkFrom (i : Nat) : (nodes : List Node) →
    (walkFrom i nodes).Pairwise fun s t => s.place < t.place
  | [] => .nil
  | node :: rest => by
    rw [walkFrom, List.cons_append, List.pairwise_cons, List.pairwise_append, List.pairwise_map]
    have hlater : ∀ way, ∀ t ∈ walkFrom (i + 1) rest, i :: way < t.place := by
      intro way t ht
      obtain ⟨j, way', hplace, hle⟩ := place_of_mem_walkFrom ht
      rw [hplace]
      exact List.cons_lt_cons_iff.mpr (Or.inl (by omega))
    refine ⟨fun t ht => ?_, ?_, pairwise_walkFrom (i + 1) rest, ?_⟩
    · rcases List.mem_append.mp ht with hbelow | hrest
      · obtain ⟨u, hu, rfl⟩ := List.mem_map.mp hbelow
        obtain ⟨j, way, hplace⟩ := List.exists_cons_of_ne_nil (place_ne_nil hu)
        rw [Placed.under, hplace]
        exact List.cons_lt_cons_iff.mpr (Or.inr ⟨rfl, List.nil_lt_cons j way⟩)
      · exact hlater [] t hrest
    · exact node.pairwise_walk.imp fun hlt => List.cons_lt_cons_iff.mpr (Or.inr ⟨rfl, hlt⟩)
    · intro s hs t ht
      obtain ⟨u, -, rfl⟩ := List.mem_map.mp hs
      exact hlater u.place t ht

end

/-! ## The examples on the walk -/

mutual

theorem Node.examples_eq_walk (tag : String) : (root : Node) →
    root.examples tag = root.walk.filterMap (Placed.example? tag)
  | .code _ _ => rfl
  | .blank => rfl
  | .container children => examplesAmong_eq_walkFrom tag 0 children

theorem examplesAmong_eq_walkFrom (tag : String) (i : Nat) : (nodes : List Node) →
    examplesAmong tag nodes = (walkFrom i nodes).filterMap (Placed.example? tag)
  | [] => rfl
  | node :: rest => by
    -- Nothing below a child is an example by its place, so the numbers do not matter.
    have hunder : (node.walk.map (Placed.under i)).filterMap (Placed.example? tag) =
        node.examples tag := by
      rw [List.filterMap_map, node.examples_eq_walk tag]
      rfl
    have hrest := examplesAmong_eq_walkFrom tag (i + 1) rest
    rw [walkFrom, List.cons_append, List.filterMap_cons, List.filterMap_append, hunder, ← hrest]
    cases node with
    | code tag' text =>
      by_cases hexample : tag' = tag ∧ text ≠ ""
      · simp only [examplesAmong, Placed.example?, if_pos hexample]
        rfl
      · simp only [examplesAmong, Placed.example?, if_neg hexample]
        rfl
    | blank => rfl
    | container children => rfl

end

theorem documents_blank {rest : List Node} {text : String} :
    Documents (.blank :: rest) text ↔ Documents rest text := by
  constructor
  · rintro ⟨_ | ⟨b, blanks⟩, after, hblanks, heq⟩
    · cases heq
    · exact ⟨blanks, after, (List.forall_mem_cons.mp hblanks).2, (List.cons.inj heq).2⟩
  · rintro ⟨blanks, after, hblanks, rfl⟩
    exact ⟨.blank :: blanks, after, List.forall_mem_cons.mpr ⟨rfl, hblanks⟩, rfl⟩

theorem documents_of_ne_blank {n : Node} (hn : n ≠ .blank) {rest : List Node} {text : String} :
    Documents (n :: rest) text ↔ n = .code "" text := by
  constructor
  · rintro ⟨_ | ⟨b, blanks⟩, after, hblanks, heq⟩
    · exact (List.cons.inj heq).1
    · exact absurd ((List.cons.inj heq).1.trans (hblanks b List.mem_cons_self)) hn
  · rintro rfl
    exact ⟨[], rest, fun _ h => absurd h List.not_mem_nil, rfl⟩

theorem outputAmong_eq_some_iff {siblings : List Node} {text : String} :
    outputAmong siblings = some text ↔ Documents siblings text := by
  induction siblings with
  | nil => simp [outputAmong, Documents]
  | cons n rest ih =>
    cases n with
    | blank => rw [outputAmong, ih, documents_blank]
    | code tag' text' =>
      rw [outputAmong, documents_of_ne_blank (fun h => by cases h), Node.code.injEq]
      split
      · next htag => simp [htag]
      · next htag => simp [htag]
    | container children =>
      rw [outputAmong, documents_of_ne_blank (fun h => by cases h)]
      simp

theorem Placed.example?_eq_some_iff {tag : String} {s : Placed} {e : Example} :
    s.example? tag = some e ↔
      s.node = .code tag e.code ∧ e.code ≠ "" ∧ e.expected = outputAmong s.behind := by
  obtain ⟨place, node, behind⟩ := s
  obtain ⟨code, expected⟩ := e
  cases node with
  | code tag' text =>
    simp only [example?]
    constructor
    · intro h
      split at h
      · next hexample =>
        cases h
        obtain ⟨rfl, hne⟩ := hexample
        exact ⟨rfl, hne, rfl⟩
      · cases h
    · rintro ⟨hnode, hne, rfl⟩
      obtain ⟨rfl, rfl⟩ := Node.code.inj hnode
      rw [if_pos ⟨rfl, hne⟩]
  | blank => simp [example?]
  | container children => simp [example?]

theorem forall₂_filterMap {α β : Type} (f : α → Option β) (l : List α) :
    List.Forall₂ (fun a b => f a = some b) (l.filter fun a => (f a).isSome) (l.filterMap f) := by
  induction l with
  | nil => exact .nil
  | cons a rest ih =>
    rw [List.filter_cons, List.filterMap_cons]
    cases hf : f a with
    | none => exact ih
    | some b => exact .cons hf ih

/-- The examples of an outline with any tag are its code blocks below the root that have this tag
and some text, each once and in the order of the document.  The output documented for one is
that of the untagged code block which is the next of its siblings, blanks aside, and there is
none if this sibling is anything else or is not there. -/
theorem examples_in_order (root : Node) (tag : String) :
    ∃ spots : List Placed,
      spots.Pairwise (fun s t => s.place < t.place) ∧
      (∀ s, s ∈ spots ↔ s.StandsIn root ∧ ∃ text, s.node = .code tag text ∧ text ≠ "") ∧
      List.Forall₂
        (fun s e => s.node = .code tag e.code ∧
          ∀ text, e.expected = some text ↔ Documents s.behind text)
        spots (root.examples tag) := by
  refine ⟨root.walk.filter fun s => (s.example? tag).isSome, root.pairwise_walk.filter _, ?_, ?_⟩
  · intro s
    rw [List.mem_filter, mem_walk_iff, Option.isSome_iff_exists]
    refine and_congr_right fun _ => ⟨?_, ?_⟩
    · rintro ⟨e, he⟩
      obtain ⟨hnode, hne, -⟩ := Placed.example?_eq_some_iff.mp he
      exact ⟨e.code, hnode, hne⟩
    · rintro ⟨text, hnode, hne⟩
      exact ⟨⟨text, outputAmong s.behind⟩, Placed.example?_eq_some_iff.mpr ⟨hnode, hne, rfl⟩⟩
  · rw [root.examples_eq_walk tag]
    refine (forall₂_filterMap _ _).imp fun s e he => ?_
    obtain ⟨hnode, -, hexpected⟩ := Placed.example?_eq_some_iff.mp he
    refine ⟨hnode, fun text => ?_⟩
    rw [hexpected]
    exact outputAmong_eq_some_iff

end LiveDoc
