/-
The two sides of an edit script.

A script leads from one sequence to another if what it keeps and deletes is the
old one and what it keeps and inserts is the new one.  Finding a script divides
the two sequences and joins what leads from part to part, and where they are
divided does not matter here.  Moving an insertion changes neither side, because
it takes in on one side of it what it gives back on the other.
-/
import LiveDoc.Diff

namespace LiveDoc
namespace Diff

variable {α : Type}

structure Leads (script : List (Segment α)) (old new : List α) : Prop where
  old_eq : oldSide script = old
  new_eq : newSide script = new

/-! ## Sides -/

section
variable (items : List α) (script rest : List (Segment α)) (s : Segment α)

@[simp] theorem oldSide_nil : oldSide ([] : List (Segment α)) = [] := rfl

@[simp] theorem newSide_nil : newSide ([] : List (Segment α)) = [] := rfl

@[simp] theorem oldSide_cons : oldSide (s :: rest) = s.old ++ oldSide rest := rfl

@[simp] theorem newSide_cons : newSide (s :: rest) = s.new ++ newSide rest := rfl

@[simp] theorem oldSide_append : oldSide (script ++ rest) = oldSide script ++ oldSide rest :=
  List.flatMap_append

@[simp] theorem newSide_append : newSide (script ++ rest) = newSide script ++ newSide rest :=
  List.flatMap_append

@[simp] theorem old_keep : (Segment.mk .keep items).old = items := rfl

@[simp] theorem new_keep : (Segment.mk .keep items).new = items := rfl

@[simp] theorem old_delete : (Segment.mk .delete items).old = items := rfl

@[simp] theorem new_delete : (Segment.mk .delete items).new = [] := rfl

@[simp] theorem old_insert : (Segment.mk .insert items).old = [] := rfl

@[simp] theorem new_insert : (Segment.mk .insert items).new = items := rfl

@[simp] theorem oldSide_before : oldSide (s.before script) = s.old ++ oldSide script := by
  obtain ⟨change, items⟩ := s
  cases items with
  | nil => cases change <;> rfl
  | cons a items => rfl

@[simp] theorem newSide_before : newSide (s.before script) = s.new ++ newSide script := by
  obtain ⟨change, items⟩ := s
  cases items with
  | nil => cases change <;> rfl
  | cons a items => rfl

end

namespace Leads

variable {script script' : List (Segment α)} {old new old' new' : List α}

theorem refl (script : List (Segment α)) : Leads script (oldSide script) (newSide script) :=
  ⟨rfl, rfl⟩

theorem append (h : Leads script old new) (h' : Leads script' old' new') :
    Leads (script ++ script') (old ++ old') (new ++ new') := by
  refine ⟨?_, ?_⟩
  · rw [oldSide_append, h.old_eq, h'.old_eq]
  · rw [newSide_append, h.new_eq, h'.new_eq]

theorem joined {x y : Nat} (h : Leads script (old.take x) (new.take y))
    (h' : Leads script' (old.drop x) (new.drop y)) : Leads (script ++ script') old new := by
  have hjoined := h.append h'
  rw [List.take_append_drop, List.take_append_drop] at hjoined
  exact hjoined

/-- What both sequences start with can be kept. -/
theorem keep (items : List α) (h : Leads script old new) :
    Leads (Segment.before ⟨.keep, items⟩ script) (items ++ old) (items ++ new) := by
  refine ⟨?_, ?_⟩
  · rw [oldSide_before, old_keep, h.old_eq]
  · rw [newSide_before, new_keep, h.new_eq]

theorem of_sides (h : Leads script old new) (hold : oldSide script' = oldSide script)
    (hnew : newSide script' = newSide script) : Leads script' old new :=
  ⟨hold.trans h.old_eq, hnew.trans h.new_eq⟩

end Leads

@[simp] theorem oldSide_keepBefore (items : List α) (script : List (Segment α)) :
    oldSide (keepBefore items script) = items ++ oldSide script := by
  rw [keepBefore.eq_def]
  split <;> simp

@[simp] theorem newSide_keepBefore (items : List α) (script : List (Segment α)) :
    newSide (keepBefore items script) = items ++ newSide script := by
  rw [keepBefore.eq_def]
  split <;> simp

/-- `keepBehind` works on a reversed script. -/
@[simp] theorem oldSide_reverse_keepBehind (items : List α) (script : List (Segment α)) :
    oldSide (keepBehind items script).reverse = oldSide script.reverse ++ items := by
  rw [keepBehind.eq_def]
  split <;> simp

@[simp] theorem newSide_reverse_keepBehind (items : List α) (script : List (Segment α)) :
    newSide (keepBehind items script).reverse = newSide script.reverse ++ items := by
  rw [keepBehind.eq_def]
  split <;> simp

@[simp] theorem oldSide_reverse_before (s : Segment α) (script : List (Segment α)) :
    oldSide (s.before script).reverse = oldSide script.reverse ++ s.old := by
  obtain ⟨change, items⟩ := s
  cases items with
  | nil => cases change <;> simp [Segment.before]
  | cons a items => simp [Segment.before]

@[simp] theorem newSide_reverse_before (s : Segment α) (script : List (Segment α)) :
    newSide (s.before script).reverse = newSide script.reverse ++ s.new := by
  obtain ⟨change, items⟩ := s
  cases items with
  | nil => cases change <;> simp [Segment.before]
  | cons a items => simp [Segment.before]

theorem Focus.oldSide_script (f : Focus α) :
    oldSide f.script = oldSide f.before.reverse ++ oldSide f.behind := by
  simp [script]

theorem Focus.newSide_script (f : Focus α) :
    newSide f.script = newSide f.before.reverse ++ (f.items ++ newSide f.behind) := by
  simp [script]

theorem leads_replaced (old new : List α) : Leads (replaced old new) old new := by
  refine ⟨?_, ?_⟩ <;> simp [replaced]

theorem take_append_drop_append (n : Nat) (items more : List α) :
    items.take n ++ (items.drop n ++ more) = items ++ more := by
  rw [← List.append_assoc, List.take_append_drop]

/-! ## What two sequences have in common at their ends -/

variable [DecidableEq α]

theorem take_commonPrefix (as bs : List α) :
    as.take (commonPrefix as bs) = bs.take (commonPrefix as bs) := by
  induction as generalizing bs with
  | nil => rfl
  | cons a as ih =>
    cases bs with
    | nil => rfl
    | cons b bs =>
      rw [commonPrefix]
      by_cases hab : a = b
      · rw [if_pos hab, List.take_succ_cons, List.take_succ_cons, ih bs, hab]
      · rw [if_neg hab]
        rfl

theorem commonPrefix_self (as : List α) : commonPrefix as as = as.length := by
  induction as with
  | nil => rfl
  | cons a as ih => rw [commonPrefix, if_pos rfl, ih, List.length_cons]

theorem drop_commonSuffix (as bs : List α) :
    as.drop (as.length - commonSuffix as bs) = bs.drop (bs.length - commonSuffix as bs) := by
  have htake := take_commonPrefix as.reverse bs.reverse
  rw [List.take_reverse, List.take_reverse] at htake
  exact List.reverse_inj.mp htake

/-! ## Finding a script -/

/-- A script for what is between the ends, with the ends kept. -/
theorem leads_between {old new : List α} {inner : List (Segment α)} {n m : Nat}
    (hn : n = commonPrefix old new) (hm : m = commonSuffix (old.drop n) (new.drop n))
    (hinner : Leads inner ((old.drop n).take ((old.drop n).length - m))
      ((new.drop n).take ((new.drop n).length - m))) :
    Leads (Segment.before ⟨.keep, old.take n⟩
      (inner ++ Segment.before ⟨.keep, (old.drop n).drop ((old.drop n).length - m)⟩ [])) old new := by
  have hprefix : old.take n = new.take n := hn ▸ take_commonPrefix old new
  have hsuffix : (old.drop n).drop ((old.drop n).length - m) =
      (new.drop n).drop ((new.drop n).length - m) := hm ▸ drop_commonSuffix _ _
  have hends := Leads.keep ((old.drop n).drop ((old.drop n).length - m)) (Leads.refl [])
  have hall := (hinner.append hends).keep (old.take n)
  refine ⟨?_, ?_⟩
  · rw [hall.old_eq, oldSide_nil, List.append_nil, List.take_append_drop, List.take_append_drop]
  · rw [hall.new_eq, newSide_nil, List.append_nil, hsuffix, List.take_append_drop, hprefix,
      List.take_append_drop]

theorem leads_scriptFrom (fuel : Nat) (old new : List α) :
    Leads (scriptFrom fuel old new) old new := by
  induction fuel generalizing old new with
  | zero => exact leads_replaced old new
  | succ fuel ih =>
    rw [scriptFrom]
    refine leads_between rfl rfl ?_
    split
    · exact leads_replaced _ _
    · split
      · next x y _ =>
        -- A shortest path passes through the point, but any point would do.
        exact Leads.joined (ih _ _) (ih _ _)
      · exact leads_replaced _ _

theorem leads_script (old new : List α) : Leads (script old new) old new :=
  leads_scriptFrom _ old new

/-! ## Moving insertions -/

namespace Focus

variable {f : Focus α} {old new : List α}

theorem leads_up (fuel : Nat) (h : Leads f.script old new) :
    Leads (f.up fuel).script old new := by
  induction fuel generalizing f with
  | zero => exact h
  | succ fuel ih =>
    obtain ⟨before, items, behind⟩ := f
    rw [up]
    split
    · exact h
    · next kept rest hbefore =>
      obtain rfl : before = ⟨.keep, kept⟩ :: rest := hbefore
      dsimp only
      split
      · exact h
      · -- What is taken in above is the same as what is given back below.
        have hmoved := drop_commonSuffix kept items
        refine ih (h.of_sides ?_ ?_)
        · simp [oldSide_script, take_append_drop_append]
        · simp only [newSide_script, newSide_reverse_before, newSide_keepBefore, new_keep,
            List.append_assoc, take_append_drop_append]
          rw [hmoved, take_append_drop_append]
          simp
    · next more rest hbefore =>
      obtain rfl : before = ⟨.insert, more⟩ :: rest := hbefore
      refine ih (h.of_sides ?_ ?_)
      · simp [oldSide_script]
      · simp [newSide_script]
    · next gone rest hbefore =>
      obtain rfl : before = ⟨.delete, gone⟩ :: rest := hbefore
      refine ih (h.of_sides ?_ ?_)
      · simp [oldSide_script]
      · simp [newSide_script]

theorem leads_down (fuel : Nat) (h : Leads f.script old new) :
    Leads (f.down fuel).script old new := by
  induction fuel generalizing f with
  | zero => exact h
  | succ fuel ih =>
    obtain ⟨before, items, behind⟩ := f
    rw [down]
    split
    · exact h
    · next kept rest hbehind =>
      obtain rfl : behind = ⟨.keep, kept⟩ :: rest := hbehind
      dsimp only
      split
      · exact h
      · have hmoved := take_commonPrefix kept items
        refine ih (h.of_sides ?_ ?_)
        · simp [oldSide_script, take_append_drop_append]
        · simp only [newSide_script, newSide_reverse_keepBehind, newSide_before, newSide_cons,
            new_keep, List.append_assoc, take_append_drop_append]
          rw [hmoved, take_append_drop_append]
    · next more rest hbehind =>
      obtain rfl : behind = ⟨.insert, more⟩ :: rest := hbehind
      refine ih (h.of_sides ?_ ?_)
      · simp [oldSide_script]
      · simp [newSide_script]
    · next gone rest hbehind =>
      obtain rfl : behind = ⟨.delete, gone⟩ :: rest := hbehind
      refine ih (h.of_sides ?_ ?_)
      · simp [oldSide_script]
      · simp [newSide_script]

end Focus

theorem leads_compactFrom {old new : List α} (fuel : Nat) {before script : List (Segment α)}
    (h : Leads (before.reverse ++ script) old new) :
    Leads (compactFrom fuel before script) old new := by
  induction fuel generalizing before script with
  | zero => exact h
  | succ fuel ih =>
    cases script with
    | nil =>
      rw [List.append_nil] at h
      exact h
    | cons s rest =>
      rw [compactFrom]
      by_cases hinsert : s.change = .insert
      · obtain ⟨change, items⟩ := s
        obtain rfl : change = .insert := hinsert
        rw [if_pos rfl]
        refine ih ?_
        rw [List.reverse_cons, List.append_assoc]
        exact Focus.leads_down _ (Focus.leads_up _ h)
      · rw [if_neg hinsert]
        refine ih ?_
        rw [List.reverse_cons, List.append_assoc]
        exact h

theorem leads_compact {script : List (Segment α)} {old new : List α} (h : Leads script old new) :
    Leads (compact script) old new :=
  leads_compactFrom _ h

/-- Where nothing is inserted there is nothing to move. -/
theorem compactFrom_of_not_insert (fuel : Nat) {before script : List (Segment α)}
    (h : ∀ s ∈ script, s.change ≠ .insert) :
    compactFrom fuel before script = before.reverse ++ script := by
  induction fuel generalizing before script with
  | zero => rfl
  | succ fuel ih =>
    cases script with
    | nil => simp [compactFrom]
    | cons s rest =>
      rw [List.forall_mem_cons] at h
      rw [compactFrom, if_neg h.1, ih h.2, List.reverse_cons, List.append_assoc]
      rfl

/-! ## Marked elements -/

omit [DecidableEq α]

def oldPieces (pieces : List (Change × α)) : List α :=
  (pieces.filter fun piece => piece.1 ≠ .insert).map Prod.snd

def newPieces (pieces : List (Change × α)) : List α :=
  (pieces.filter fun piece => piece.1 ≠ .delete).map Prod.snd

theorem oldPieces_append (a b : List (Change × α)) :
    oldPieces (a ++ b) = oldPieces a ++ oldPieces b := by
  rw [oldPieces, List.filter_append, List.map_append]
  rfl

theorem newPieces_append (a b : List (Change × α)) :
    newPieces (a ++ b) = newPieces a ++ newPieces b := by
  rw [newPieces, List.filter_append, List.map_append]
  rfl

theorem oldPieces_map (change : Change) (items : List α) :
    oldPieces (items.map (change, ·)) = if change = .insert then [] else items := by
  induction items with
  | nil => cases change <;> rfl
  | cons a items ih => cases change <;> simp_all [oldPieces]

theorem newPieces_map (change : Change) (items : List α) :
    newPieces (items.map (change, ·)) = if change = .delete then [] else items := by
  induction items with
  | nil => cases change <;> rfl
  | cons a items ih => cases change <;> simp_all [newPieces]

/-- The marks move deletions before insertions, but never past one another. -/
theorem pieces_marksFrom (deleted inserted : List α) (script : List (Segment α)) :
    oldPieces (marksFrom deleted inserted script) = deleted ++ oldSide script ∧
      newPieces (marksFrom deleted inserted script) = inserted ++ newSide script := by
  induction script generalizing deleted inserted with
  | nil => simp [marksFrom, oldPieces_append, newPieces_append, oldPieces_map, newPieces_map]
  | cons s rest ih =>
    obtain ⟨change, items⟩ := s
    cases change with
    | keep =>
      obtain ⟨hold, hnew⟩ := ih [] []
      simp [marksFrom, oldPieces_append, newPieces_append, oldPieces_map, newPieces_map, hold, hnew]
    | delete =>
      obtain ⟨hold, hnew⟩ := ih (deleted ++ items) inserted
      simp [marksFrom, hold, hnew]
    | insert =>
      obtain ⟨hold, hnew⟩ := ih deleted (inserted ++ items)
      simp [marksFrom, hold, hnew]

theorem Leads.pieces_marks {script : List (Segment α)} {old new : List α}
    (h : Leads script old new) :
    oldPieces (marks script) = old ∧ newPieces (marks script) = new := by
  obtain ⟨hold, hnew⟩ := pieces_marksFrom [] [] script
  exact ⟨hold.trans h.old_eq, hnew.trans h.new_eq⟩

/-- If nothing but kept elements is marked then the two sides are the same. -/
theorem oldPieces_eq_newPieces {pieces : List (Change × α)} (h : ∀ piece ∈ pieces, piece.1 = .keep) :
    oldPieces pieces = newPieces pieces := by
  have hfilter : ∀ change, change ≠ .keep →
      (pieces.filter fun piece => piece.1 ≠ change) = pieces := by
    intro change hchange
    rw [List.filter_eq_self]
    intro piece hpiece
    rw [h piece hpiece]
    exact decide_eq_true hchange.symm
  rw [oldPieces, newPieces, hfilter .insert Change.noConfusion, hfilter .delete Change.noConfusion]

/-! ## A sequence and itself -/

variable [DecidableEq α]

theorem script_self (items : List α) : script items items = Segment.before ⟨.keep, items⟩ [] := by
  rw [script, scriptFrom, commonPrefix_self]
  simp [replaced, Segment.before]

theorem marks_compact_script_self (items : List α) :
    marks (compact (script items items)) = items.map (.keep, ·) := by
  have hkept : ∀ s ∈ script items items, s.change ≠ .insert := by
    rw [script_self, Segment.before]
    split <;> simp
  rw [compact, compactFrom_of_not_insert _ hkept, script_self]
  cases items with
  | nil => rfl
  | cons a items => simp [Segment.before, marks, marksFrom]

end Diff
end LiveDoc
