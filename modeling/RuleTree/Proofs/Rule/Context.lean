import RuleTree.Proofs.Rule.Stumbling

/-!
# Contexts

A rule tree with a hole. What fills the hole occurs in the filled tree, and nothing around it turns a rejection by it into a
success: if the hole accepts less, then the whole tree accepts nothing that it rejected before.
-/

namespace RuleTree

/-- A group of rules that reject less: on a value that it accepts with some rules, it holds or stumbles with others, if this is
so of all of the rules in turn, and of one of them, on every genuine value. Only such values are ever looked at inside one. -/
theorem Group.holds_or_stumbles {g : Group} {all all' each each' one one' stopped stopped' : Value → Prop}
    (hall : ∀ w, w.Genuine → all' w → ¬each' w → all w ∨ each w)
    (hone : ∀ w, w.Genuine → one' w → ¬stopped' w → one w ∨ stopped w) {v : Value} (hv : v.Genuine)
    (h : g.Holds all' one' v) (hs : ¬g.Stumbles all' each' stopped' v) :
    g.Holds all one v ∨ g.Stumbles all each stopped v := by
  cases g with
  | any => exact hone v hv h hs
  | union =>
    rcases h with hnull | h
    · exact .inl (.inl hnull)
    · by_cases hnull : v = .null
      · exact .inl (.inl hnull)
      · exact (hone v hv h fun h => hs ⟨hnull, h⟩).imp .inr fun h => ⟨hnull, h⟩
  | container p =>
    rcases h with hnull | ⟨seen, hseen, h⟩
    · exact .inl (.inl hnull)
    · have hgenuine : seen.Genuine := by
        cases hseen with
        | written s m hm => exact trivial
        | _ => exact hv
      exact (hall seen hgenuine h fun h => hs ⟨seen, hseen, h⟩).imp (fun h => .inr ⟨seen, hseen, h⟩) fun h => ⟨seen, hseen, h⟩
  | prop name =>
    obtain ⟨key, es, hname, rfl, h⟩ := h
    exact (hall _ (Value.genuine_property hv key) h fun h => hs ⟨key, es, hname, rfl, .inl h⟩).imp
      (fun h => ⟨key, es, hname, rfl, h⟩) fun h => ⟨key, es, hname, rfl, .inl h⟩
  | item =>
    obtain ⟨items, hitems, h⟩ := h
    have heach : ∀ w ∈ items, all w ∨ each w := fun w hw =>
      hall w (Value.genuine_of_items hv hitems w hw) (h w hw) fun hstop => hs ⟨items, hitems, reaches_of_mem hw h hstop⟩
    exact (forall_or_reaches heach).imp (fun h => ⟨items, hitems, h⟩) fun h => ⟨items, hitems, h⟩
  | required m => exact (hall v hv h.2 fun hstop => hs ⟨h.1, hstop⟩).imp (fun hr => ⟨h.1, hr⟩) fun hr => ⟨h.1, hr⟩
  | kindless name => exact h.elim

namespace Tree

theorem proper_insert {t : Tree} (h : t.isMismatch = false) (before after : List Tree) :
    proper (before ++ t :: after) = proper before ++ t :: proper after := by
  rw [proper, List.filter_append, ← proper, ← proper, proper_cons h]

theorem mismatches_insert {t : Tree} (h : t.isMismatch = false) (before after : List Tree) :
    mismatches (before ++ t :: after) = mismatches before ++ mismatches after := by
  rw [mismatches, List.filterMap_append, ← mismatches, ← mismatches, mismatches_cons h]

/-- A tree with one hole, at its root or among the children of a group. -/
inductive Context
  | hole
  | group (g : Group) (row : Row) (before : List Tree) (inner : Context) (after : List Tree)

namespace Context

def fill : Context → Tree → Tree
  | .hole, s => s
  | .group g row before inner after, s => .group g row (before ++ inner.fill s :: after)

variable {s s' : Tree}

theorem kind?_fill (h : s'.kind? = s.kind?) (C : Context) : (C.fill s').kind? = (C.fill s).kind? := by
  cases C with
  | hole => exact h
  | group g row before inner after => rfl

theorem isMismatch_fill (h : s.isMismatch = false) (C : Context) : (C.fill s).isMismatch = false := by
  cases C with
  | hole => exact h
  | group g row before inner after => rfl

end Context

/-- One member of a row is exchanged for a related one: every member has a related one in the new row. -/
theorem exists_of_mem_insert {α : Type} {R : α → α → Prop} {x y : α} (hrefl : ∀ u, R u u) (h : R x y) (before after : List α) :
    ∀ u ∈ before ++ x :: after, ∃ u' ∈ before ++ y :: after, R u u' := by
  intro u hu
  rcases List.mem_append.mp hu with hu | hu
  · exact ⟨u, List.mem_append_left _ hu, hrefl u⟩
  · rcases List.mem_cons.mp hu with rfl | hu
    · exact ⟨y, List.mem_append_right _ List.mem_cons_self, h⟩
    · exact ⟨u, List.mem_append_right _ (List.mem_cons_of_mem _ hu), hrefl u⟩

variable [Text.CharacterNames]

/-- One tree rejects no genuine value that another accepts: it holds of the value, or stumbles. -/
def Covers (s s' : Tree) : Prop := ∀ w : Value, w.Genuine → s'.Holds w → ¬s'.Stumbles w → s.Holds w ∨ s.Stumbles w

theorem covers_refl (s : Tree) : s.Covers s := fun _ _ h _ => .inl h

section Rows

variable {ts ts' : List Tree} {w : Value}

/-- Of two rows where every tree of one covers one of the other: on a value that these accept, those hold, or one is reached
that stumbles. -/
theorem forall_or_reaches_of_covers (h : ∀ s ∈ ts, ∃ s' ∈ ts', s.Covers s') (hw : w.Genuine)
    (hholds : ∀ s ∈ ts', s.Holds w) (hstop : ¬Reaches (fun s : Tree => s.Holds w) (fun s => s.Stumbles w) ts') :
    (∀ s ∈ ts, s.Holds w) ∨ Reaches (fun s : Tree => s.Holds w) (fun s => s.Stumbles w) ts := by
  refine forall_or_reaches fun s hs => ?_
  obtain ⟨s', hs', hcovers⟩ := h s hs
  exact hcovers w hw (hholds s' hs') fun hstumbles => hstop (reaches_of_mem hs' hholds hstumbles)

/-- The same of alternatives, where every tree of the row that accepts is covered. -/
theorem exists_or_reaches_of_covers (h : ∀ s' ∈ ts', ∃ s ∈ ts, s.Covers s') (hw : w.Genuine)
    (hholds : ∃ s ∈ ts', s.Holds w) (hstop : ¬Reaches (fun s : Tree => ¬s.Holds w) (fun s => s.Stumbles w) ts') :
    (∃ s ∈ ts, s.Holds w) ∨ Reaches (fun s : Tree => ¬s.Holds w) (fun s => s.Stumbles w) ts := by
  obtain ⟨s', hs', hheld', hgoes⟩ := exists_not_of_not_reaches hholds hstop
  obtain ⟨s, hs, hcovers⟩ := h s' hs'
  rcases hcovers w hw hheld' hgoes with hheld | hstumbles
  · exact .inl ⟨s, hs, hheld⟩
  · by_cases hany : ∃ s ∈ ts, s.Holds w
    · exact .inl hany
    · exact .inr (reaches_of_mem hs (fun u hu hheld => hany ⟨u, hu, hheld⟩) hstumbles)

end Rows

namespace Context

/-- What covers another tree in the hole of a context makes the whole cover the other whole. -/
theorem covers_fill (hs : s.isMismatch = false) (hs' : s'.isMismatch = false) (h : s.Covers s') (C : Context) :
    (C.fill s).Covers (C.fill s') := by
  induction C with
  | hole => exact h
  | group g row before inner after ih =>
    intro v hv
    rw [fill, fill, holds_of_comprises (.group g row _), holds_of_comprises (.group g row _),
      stumbles_of_comprises (.group g row _), stumbles_of_comprises (.group g row _),
      proper_insert (isMismatch_fill hs inner), proper_insert (isMismatch_fill hs' inner)]
    have hrow := exists_of_mem_insert covers_refl ih (proper before) (proper after)
    have hrow' := exists_of_mem_insert (R := fun u' u => u.Covers u') covers_refl ih (proper before) (proper after)
    exact Group.holds_or_stumbles (fun w hw => forall_or_reaches_of_covers hrow hw)
      (fun w hw => exists_or_reaches_of_covers hrow' hw) hv

end Context

end Tree

end RuleTree
