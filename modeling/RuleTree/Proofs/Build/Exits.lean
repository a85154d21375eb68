import RuleTree.Proofs.Build.Trail
import RuleTree.Text.CommonNames

/-!
# Builds that give neither a validator nor a fault

A build ends in one of three ways: with a validator, with a fault of the tree, or by an exit that is no fault of the tree. The
third way is taken exactly if the first thing that is wrong is an expression in which a number is out of bounds, a value that
is to be shown and cannot be written, or a fault behind a property whose name cannot be written.
-/

namespace RuleTree

open Validator (Exit CheckExits ofNode) in
/-- The build of a tree leaves by an exit: there is a leaf with this exit, or an integer name that cannot be written with a fault
behind it, and it is reached. On the way to it every rule may stand where it stands, and all entries before the ones that
lead to it are in order. -/
inductive Tree.Exits [Text.CharacterNames] : Site → Tree → Exit → Prop
  | check {site : Site} {c : Check} {m : Value} {k : RuleKind} {exit : Exit} (hk : c.kind? = some k)
      (hsite : k ∈ site.allowed) (h : CheckExits site.parent c exit) : Exits site (.check c m) exit
  | entry {site inner : Site} {t s : Tree} {g : Group} {k : RuleKind} {before after : List Tree} {exit : Exit}
      (h : t.Comprises g (before ++ s :: after)) (hk : g.kind? = some k) (hsite : k ∈ site.allowed)
      (hrow : Site.ofRow? site.parent g = some inner) (hbefore : inner.LegalRow before)
      (hs : Exits inner s exit) : Exits site t exit
  | property {site : Site} {t s : Tree} {key : Key} {exit : Exit} (h : t.Comprises (.prop key.toValue) [s])
      (hsite : .prop ∈ site.allowed) (hkey : key ≠ .text "") (hs : Exits (.bound .prop) s exit) : Exits site t exit
  | name {site : Site} {t s : Tree} {key : Key} {e : SchemaError} (h : t.Comprises (.prop key.toValue) [s])
      (hsite : .prop ∈ site.allowed) (hrule : s.isRule = true) (hkey : key.isWritable = false)
      (hs : ofNode RuleKind.bindable (some .prop) s = .error (.schema e)) : Exits site t .unwritable
  | element {site : Site} {t s : Tree} {exit : Exit} (h : t.Comprises .item [s]) (hsite : .item ∈ site.allowed)
      (hs : Exits (.bound .item) s exit) : Exits site t exit
  | required {site : Site} {t s : Tree} {m : Value} {exit : Exit} (h : t.Comprises (.required m) [s])
      (hsite : .required ∈ site.allowed) (hs : Exits .wrapped s exit) : Exits site t exit

namespace Validator

open RuleTree.Tree (Exits)

/-! ### Steps -/

section Steps

variable {α β : Type} {x : Build α} {f : α → Build β} {exit : Exit} {step : Step}

theorem exit_behind_within (hx : Simple x) (hstep : step.isWritable = true) :
    within step x >>= f = .error exit.error ↔ ∃ a, x = .ok a ∧ f a = .error exit.error := by
  rw [bind_eq_error_iff, within_eq_exit_iff_of_writable hstep]
  simp only [within_eq_ok_iff]
  exact or_iff_right (hx.ne_exit exit)

theorem gate_behind {site : Site} {t : Tree} {γ : Type} {f : RuleKind → Build γ} :
    gate t site.allowed >>= f = .error exit.error ↔
      ∃ k, t.kind? = some k ∧ k ∈ site.allowed ∧ f k = .error exit.error := by
  rw [exit_behind (simple_gate _ _)]
  simp only [gate_eq_ok_iff, and_assoc]

theorem fault_behind_gate_ne_exit {allowed : List RuleKind} {t : Tree} (f : SchemaFault) :
    (gate t allowed >>= fun _ => fault f : Build α) ≠ .error exit.error :=
  ((simple_gate _ _).bind fun _ => simple_fault _).ne_exit exit

end Steps

theorem ofRow?_any_iff {parent : Option RuleKind} {inner : Site} :
    Site.ofRow? parent .any = some inner ↔ ∃ kinds, alternativesIn parent = .ok kinds ∧ .ofKinds kinds parent = inner := by
  cases parent with
  | none => simp [Site.ofRow?, alternativesIn, fault]
  | some k =>
    cases k with
    | container p => cases hp : RuleKind.hasAlternatives p <;> simp [Site.ofRow?, alternativesIn, hp, fault]
    | _ => simp [Site.ofRow?, alternativesIn, fault]

section Names

variable [Text.CharacterNames]

/-! ### Rows -/

/-- A row takes an exit, behind entries that are in order. -/
def RowExits (site : Site) (before ts : List Tree) (exit : Exit) : Prop :=
  ∃ front s after, ts = front ++ s :: after ∧ site.LegalRow (before ++ front) ∧
    ofNode site.allowed site.parent s = .error exit.error

section Rows

variable {site : Site} {before : List Tree} {exit : Exit}

theorem not_rowExits_nil : ¬RowExits site before [] exit := by
  rintro ⟨front, s, after, h, -, -⟩
  simp at h

/-- The first entry takes the exit, or it is in order and the rest of the row does. -/
theorem rowExits_cons_iff {t : Tree} {ts : List Tree} (hbefore : site.LegalRow before) :
    RowExits site before (t :: ts) exit ↔ ofNode site.allowed site.parent t = .error exit.error ∨
      site.Legal before t ∧ RowExits site (before ++ [t]) ts exit := by
  constructor
  · rintro ⟨front, s, after, hsplit, hlegal, hs⟩
    cases front with
    | nil =>
      cases hsplit
      exact .inl hs
    | cons r front =>
      cases hsplit
      refine .inr ⟨hlegal before t front rfl, front, s, after, rfl, ?_, hs⟩
      rwa [List.append_assoc, List.singleton_append]
  · rintro (hs | ⟨-, front, s, after, rfl, hlegal, hs⟩)
    · refine ⟨[], t, ts, rfl, ?_, hs⟩
      rwa [List.append_nil]
    · refine ⟨t :: front, s, after, rfl, ?_, hs⟩
      rwa [List.append_assoc, List.singleton_append] at hlegal

theorem ofNode_mismatch_ne_exit {allowed : List RuleKind} {parent : Option RuleKind} (m : Value) :
    ofNode allowed parent (.check .mismatch m) ≠ .error exit.error := by
  rw [ofNode_check]
  exact fault_behind_gate_ne_exit _

theorem legal_mismatch_iff {m : Value} (allowed : List RuleKind) (hsite : site.takesMismatch = allowed.contains .mismatch) :
    site.Legal before (.check .mismatch m) ↔ ∃ message, mismatchMessage allowed (seenIn before) m = .ok message := by
  constructor
  · rintro (⟨c, hc, -⟩ | ⟨htakes, hnone, m', heq, hm⟩)
    · obtain ⟨-, hc⟩ := ofNode_check_eq_ok_iff.mp hc
      exact absurd hc fault_ne_ok
    · cases heq
      have hallowed : RuleKind.mismatch ∈ allowed := List.contains_iff_mem.mp (hsite ▸ htakes)
      exact ⟨_, mismatchMessage_eq_ok_iff.mpr ⟨hallowed, seenIn_eq_false_iff.mpr hnone, hm, rfl⟩⟩
  · rintro ⟨message, h⟩
    exact legal_of_mismatchMessage site hsite h

theorem legal_iff_of_proper {t : Tree} (ht : t.isMismatch = false) :
    site.Legal before t ↔ ∃ c, ofNode site.allowed site.parent t = .ok c ∧
      (site.distinct = true → t.kind? ∉ before.map Tree.kind?) := by
  refine or_iff_left ?_
  rintro ⟨-, -, m, rfl, -⟩
  cases ht

/-- Checks: behind entries that are in order, the build takes an exit where the row does. -/
theorem ofChildren_eq_exit_iff {allowed : List RuleKind} {parent : Option RuleKind} {owner : RuleKind} {i : Nat}
    {ts : List Tree} (hbefore : (Site.ofKinds allowed parent).LegalRow before) :
    ofChildren allowed parent owner i (seenIn before) ts = .error exit.error ↔
      RowExits (.ofKinds allowed parent) before ts exit := by
  induction ts generalizing before i with
  | nil =>
    rw [ofChildren_nil]
    exact iff_of_false (fun h => by cases h) not_rowExits_nil
  | cons t ts ih =>
    have hrest (ht : (Site.ofKinds allowed parent).Legal before t) :
        ofChildren allowed parent owner (i + 1) (seenIn (before ++ [t])) ts = .error exit.error ↔
          RowExits (.ofKinds allowed parent) (before ++ [t]) ts exit := ih (Site.legalRow_concat hbefore ht)
    rw [rowExits_cons_iff hbefore]
    cases hm : t.isMismatch with
    | true =>
      obtain ⟨m, rfl⟩ := Tree.eq_mismatch_of_isMismatch hm
      rw [seenIn_concat_mismatch] at hrest
      rw [ofChildren, exit_behind_within (simple_mismatchMessage _ _ _) rfl, or_iff_right (ofNode_mismatch_ne_exit m)]
      simp only [exit_before fun _ => simple_pure _]
      constructor
      · rintro ⟨message, hmessage, h⟩
        have ht := legal_of_mismatchMessage (.ofKinds allowed parent) rfl hmessage
        exact ⟨ht, (hrest ht).mp h⟩
      · rintro ⟨ht, h⟩
        obtain ⟨message, hmessage⟩ := (legal_mismatch_iff allowed rfl).mp ht
        exact ⟨message, hmessage, (hrest ht).mpr h⟩
    | false =>
      rw [seenIn_concat hm] at hrest
      rw [ofChildren_cons hm, bind_eq_error_iff, within_eq_exit_iff_of_writable rfl]
      simp only [within_eq_ok_iff, exit_before fun _ => simple_pure _]
      refine or_congr_right ?_
      constructor
      · rintro ⟨c, hc, h⟩
        have ht : (Site.ofKinds allowed parent).Legal before t := .inl ⟨c, hc, fun hd => by cases hd⟩
        exact ⟨ht, (hrest ht).mp h⟩
      · rintro ⟨ht, h⟩
        obtain ⟨c, hc, -⟩ := (legal_iff_of_proper hm).mp ht
        exact ⟨c, hc, (hrest ht).mpr h⟩

/-- Branches: the kinds declared so far are those of the entries before. -/
theorem ofUnion_eq_exit_iff {i : Nat} {declared : List Primitive} {ts : List Tree}
    (hbefore : Site.branches.LegalRow before)
    (hdeclared : ∀ p, p ∈ declared ↔ some (.container p) ∈ before.map Tree.kind?) :
    ofUnion i (seenIn before) declared ts = .error exit.error ↔ RowExits .branches before ts exit := by
  induction ts generalizing before i declared with
  | nil =>
    rw [ofUnion_nil]
    exact iff_of_false (fun h => by cases h) not_rowExits_nil
  | cons t ts ih =>
    rw [rowExits_cons_iff hbefore]
    cases hm : t.isMismatch with
    | true =>
      obtain ⟨m, rfl⟩ := Tree.eq_mismatch_of_isMismatch hm
      have hkinds : ∀ p, p ∈ declared ↔ some (.container p) ∈ (before ++ [Tree.check .mismatch m]).map Tree.kind? := by
        simp [hdeclared, Tree.kind?, Check.kind?]
      have hrest (ht : Site.branches.Legal before (.check .mismatch m)) :
          ofUnion (i + 1) true declared ts = .error exit.error ↔
            RowExits .branches (before ++ [.check .mismatch m]) ts exit := by
        rw [← ih (Site.legalRow_concat hbefore ht) hkinds, seenIn_concat_mismatch]
      rw [ofUnion, exit_behind_within (simple_mismatchMessage _ _ _) rfl, or_iff_right (ofNode_mismatch_ne_exit m)]
      simp only [exit_before fun _ => simple_pure _]
      constructor
      · rintro ⟨message, hmessage, h⟩
        have ht := legal_of_mismatchMessage .branches rfl hmessage
        exact ⟨ht, (hrest ht).mp h⟩
      · rintro ⟨ht, h⟩
        obtain ⟨message, hmessage⟩ := (legal_mismatch_iff [.mismatch] rfl).mp ht
        exact ⟨message, hmessage, (hrest ht).mpr h⟩
    | false =>
      cases hbuild : ofNode RuleKind.values (some .union) t with
      | error b =>
        rw [ofUnion_of_error hm hbuild, within_eq_exit_iff_of_writable rfl, legal_iff_of_proper hm]
        constructor
        · intro h
          have hb : b = exit.error := Except.error.inj h
          exact .inl (hb ▸ hbuild)
        · rintro (h | ⟨⟨c, hc, -⟩, -⟩)
          · cases hbuild.symm.trans h
            rfl
          · cases hbuild.symm.trans hc
      | ok c =>
        obtain ⟨k, hk, hkind⟩ := kind?_of_ofNode_eq_ok hbuild
        obtain ⟨p, rfl⟩ := RuleKind.mem_values.mp hk
        have hnode : ofNode Site.branches.allowed Site.branches.parent t ≠ .error exit.error :=
          fun h => by cases hbuild.symm.trans h
        have hlegal : Site.branches.Legal before t ↔ p ∉ declared := by
          rw [legal_iff_of_proper hm, hdeclared, ← hkind]
          constructor
          · rintro ⟨_, -, h⟩
            exact h rfl
          · exact fun h => ⟨c, hbuild, fun _ => h⟩
        have hkinds : ∀ q, q ∈ p :: declared ↔ some (.container q) ∈ (before ++ [t]).map Tree.kind? := by
          intro q
          rw [List.mem_cons, List.map_append, List.mem_append, hdeclared q]
          simp [hkind, or_comm]
        have hstep : (childStep .union i).isWritable = true := rfl
        rw [ofUnion_cons hkind, hbuild, exit_behind_within (simple_ok c) rfl, or_iff_right hnode, hlegal]
        simp only [Except.ok.injEq, exists_eq_left', exit_behind_within (simple_ensure _ _) hstep, ensure_eq_ok_iff,
          exit_before fun _ => simple_pure _, exists_const, Bool.not_eq_true', List.contains_eq_mem,
          decide_eq_false_iff_not]
        refine and_congr_right fun hp => ?_
        rw [← ih (Site.legalRow_concat hbefore (hlegal.mpr hp)) hkinds, seenIn_concat hm]

theorem ofChildren_from_start {allowed : List RuleKind} {parent : Option RuleKind} {owner : RuleKind} {ts : List Tree} :
    ofChildren allowed parent owner 1 false ts = .error exit.error ↔
      RowExits (.ofKinds allowed parent) [] ts exit :=
  ofChildren_eq_exit_iff (Site.legalRow_nil _)

theorem ofUnion_from_start {ts : List Tree} :
    ofUnion 1 false [] ts = .error exit.error ↔ RowExits .branches [] ts exit := by
  have hnone : ∀ p, p ∈ [] ↔ some (.container p) ∈ ([] : List Tree).map Tree.kind? := by simp
  exact ofUnion_eq_exit_iff (Site.legalRow_nil _) hnone

end Rows

/-! ### Groups -/

section Groups

variable {site : Site} {t : Tree} {ts : List Tree} {exit : Exit}

theorem isRule_of_ofNode_eq_exit {allowed : List RuleKind} {parent : Option RuleKind}
    (h : ofNode allowed parent t = .error exit.error) : t.isRule = true := by
  cases t with
  | stray v =>
    rw [ofNode_stray] at h
    exact absurd h ((simple_fault _).ne_exit exit)
  | _ => rfl

/-- A group with a row of entries takes the exits of the row. -/
def RowDecides (site : Site) (t : Tree) (g : Group) (ts : List Tree) (exit : Exit) : Prop :=
  ofNode site.allowed site.parent t = .error exit.error ↔
    ∃ k inner, g.kind? = some k ∧ k ∈ site.allowed ∧ Site.ofRow? site.parent g = some inner ∧
      RowExits inner [] ts exit

theorem rowDecides_container {p : Primitive} (h : t.Comprises (.container p) ts) :
    RowDecides site t (.container p) ts exit := by
  unfold RowDecides
  rw [ofNode_of_comprises h, ofNode, gate_behind]
  simp only [exit_before fun _ => simple_pure _, ofChildren_from_start]
  constructor
  · rintro ⟨k, hk, hallowed, hrow⟩
    exact ⟨k, _, hk, hallowed, rfl, hrow⟩
  · rintro ⟨k, inner, hk, hallowed, hinner, hrow⟩
    cases hinner
    exact ⟨k, hk, hallowed, hrow⟩

theorem rowDecides_union (h : t.Comprises .union ts) : RowDecides site t .union ts exit := by
  unfold RowDecides
  rw [ofNode_of_comprises h, ofNode, gate_behind]
  simp only [exit_before fun _ => simple_ofBranches _ _, ofUnion_from_start]
  constructor
  · rintro ⟨k, hk, hallowed, hrow⟩
    exact ⟨k, _, hk, hallowed, rfl, hrow⟩
  · rintro ⟨k, inner, hk, hallowed, hinner, hrow⟩
    cases hinner
    exact ⟨k, hk, hallowed, hrow⟩

theorem rowDecides_any (h : t.Comprises .any ts) : RowDecides site t .any ts exit := by
  unfold RowDecides
  rw [ofNode_of_comprises h, ofNode, gate_behind]
  simp only [exit_behind (simple_alternativesIn _), exit_before fun _ => simple_ofAlternatives _,
    ofChildren_from_start, ofRow?_any_iff]
  constructor
  · rintro ⟨k, hk, hallowed, kinds, hkinds, hrow⟩
    exact ⟨k, _, hk, hallowed, ⟨kinds, hkinds, rfl⟩, hrow⟩
  · rintro ⟨k, _, hk, hallowed, ⟨kinds, hkinds, rfl⟩, hrow⟩
    exact ⟨k, hk, hallowed, kinds, hkinds, hrow⟩

theorem rowDecides_kindless {name : String} (h : t.Comprises (.kindless name) ts) :
    RowDecides site t (.kindless name) ts exit := by
  unfold RowDecides
  rw [ofNode_of_comprises h, ofNode, gate_behind]
  constructor
  · rintro ⟨k, hk, -⟩
    cases hk
  · rintro ⟨k, inner, hk, -⟩
    cases hk

theorem ofNode_prop_eq_exit_iff {name : Value} (h : t.Comprises (.prop name) ts) :
    ofNode site.allowed site.parent t = .error exit.error ↔
      .prop ∈ site.allowed ∧ ∃ s key, ts = [s] ∧ propName name = .ok key ∧
        (ofNode RuleKind.bindable (some .prop) s = .error exit.error ∨ exit = .unwritable ∧ s.isRule = true ∧
          key.isWritable = false ∧ ∃ e, ofNode RuleKind.bindable (some .prop) s = .error (.schema e)) := by
  rw [ofNode_of_comprises h]
  match ts with
  | [s] =>
    have hstep (key : Key) : ({ kind := "prop", name := some key } : Step).isWritable = key.isWritable := rfl
    rw [ofNode, gate_behind]
    simp only [exit_behind (simple_ensure _ _), exit_behind (simple_propName _), exit_before fun _ => simple_pure _,
      within_eq_exit_iff, ensure_eq_ok_iff, hstep]
    constructor
    · rintro ⟨_, hk, hallowed, _, hrule, key, hkey, hs | ⟨rfl, hname, hs⟩⟩
      · cases hk
        exact ⟨hallowed, s, key, rfl, hkey, .inl hs⟩
      · cases hk
        exact ⟨hallowed, s, key, rfl, hkey, .inr ⟨rfl, hrule, hname, hs⟩⟩
    · rintro ⟨hallowed, s', key, hlist, hkey, hs | ⟨rfl, hrule, hname, hs⟩⟩
      · cases hlist
        exact ⟨_, rfl, hallowed, (), isRule_of_ofNode_eq_exit hs, key, hkey, .inl hs⟩
      · cases hlist
        exact ⟨_, rfl, hallowed, (), hrule, key, hkey, .inr ⟨rfl, hname, hs⟩⟩
  | [] =>
    rw [ofNode]
    · exact iff_of_false (fault_behind_gate_ne_exit _) (by simp)
    · simp
  | _ :: _ :: _ =>
    rw [ofNode]
    · exact iff_of_false (fault_behind_gate_ne_exit _) (by simp)
    · simp

theorem ofNode_item_eq_exit_iff (h : t.Comprises .item ts) :
    ofNode site.allowed site.parent t = .error exit.error ↔
      .item ∈ site.allowed ∧ ∃ s, ts = [s] ∧ ofNode RuleKind.bindable (some .item) s = .error exit.error := by
  rw [ofNode_of_comprises h]
  match ts with
  | [s] =>
    rw [ofNode, gate_behind]
    have hstep : ({ kind := "item" } : Step).isWritable = true := rfl
    simp only [exit_behind (simple_ensure _ _), exit_before fun _ => simple_pure _, within_eq_exit_iff_of_writable hstep,
      ensure_eq_ok_iff]
    constructor
    · rintro ⟨_, hk, hallowed, _, -, hs⟩
      cases hk
      exact ⟨hallowed, s, rfl, hs⟩
    · rintro ⟨hallowed, s', hlist, hs⟩
      cases hlist
      exact ⟨_, rfl, hallowed, (), isRule_of_ofNode_eq_exit hs, hs⟩
  | [] =>
    rw [ofNode]
    · exact iff_of_false (fault_behind_gate_ne_exit _) (by simp)
    · simp
  | _ :: _ :: _ =>
    rw [ofNode]
    · exact iff_of_false (fault_behind_gate_ne_exit _) (by simp)
    · simp

theorem ofNode_required_eq_exit_iff {m : Value} (h : t.Comprises (.required m) ts) :
    ofNode site.allowed site.parent t = .error exit.error ↔
      .required ∈ site.allowed ∧
        ∃ s, ts = [s] ∧ ofNode RuleKind.wrappable (some .required) s = .error exit.error := by
  rw [ofNode_of_comprises h]
  match ts with
  | [s] =>
    rw [ofNode, gate_behind]
    have hmessage : ∀ inner, Simple (messageOf .required m >>= fun message => pure (required (some inner) message)) :=
      fun _ => (simple_messageOf _ m).bind fun _ => simple_pure _
    have hstep : ({ kind := "required" } : Step).isWritable = true := rfl
    simp only [exit_before hmessage, within_eq_exit_iff_of_writable hstep]
    constructor
    · rintro ⟨_, hk, hallowed, hs⟩
      cases hk
      exact ⟨hallowed, s, rfl, hs⟩
    · rintro ⟨hallowed, s', hlist, hs⟩
      cases hlist
      exact ⟨_, rfl, hallowed, hs⟩
  | [] =>
    rw [ofNode]
    exact iff_of_false (((simple_gate _ _).bind fun _ => simple_ofEmpty _ _).ne_exit exit) (by simp)
  | _ :: _ :: _ =>
    rw [ofNode]
    · exact iff_of_false (fault_behind_gate_ne_exit _) (by simp)
    · simp
    · simp

end Groups

/-! ### Trees -/

section Trees

variable {site : Site} {t : Tree} {ts : List Tree} {exit : Exit}

/-- What it takes for a group to take an exit, one case for each sort of step out of it. -/
theorem exits_of_comprises {g : Group} (h : t.Comprises g ts) :
    t.Exits site exit ↔
      (∃ k inner, g.kind? = some k ∧ k ∈ site.allowed ∧ Site.ofRow? site.parent g = some inner ∧
        ∃ before s after, ts = before ++ s :: after ∧ inner.LegalRow before ∧ s.Exits inner exit) ∨
      (∃ (key : Key) (s : Tree), g = .prop key.toValue ∧ ts = [s] ∧ .prop ∈ site.allowed ∧ key ≠ .text "" ∧
        (s.Exits (.bound .prop) exit ∨ exit = .unwritable ∧ s.isRule = true ∧ key.isWritable = false ∧
          ∃ e, ofNode RuleKind.bindable (some .prop) s = .error (.schema e))) ∨
      (∃ s, g = .item ∧ ts = [s] ∧ .item ∈ site.allowed ∧ s.Exits (.bound .item) exit) ∨
      ∃ m s, g = .required m ∧ ts = [s] ∧ .required ∈ site.allowed ∧ s.Exits .wrapped exit := by
  constructor
  · intro ht
    cases ht with
    | check => cases h
    | @entry _ inner _ s _ k before after _ h' hk hsite hrow hbefore hs =>
      obtain ⟨rfl, rfl⟩ := h.unique h'
      exact .inl ⟨k, inner, hk, hsite, hrow, before, s, after, rfl, hbefore, hs⟩
    | @property _ _ s key _ h' hsite hkey hs =>
      obtain ⟨rfl, rfl⟩ := h.unique h'
      exact .inr (.inl ⟨key, s, rfl, rfl, hsite, hkey, .inl hs⟩)
    | @name _ _ s key e h' hsite hrule hkey hs =>
      obtain ⟨rfl, rfl⟩ := h.unique h'
      have hne : key ≠ .text "" := fun hempty => by
        subst hempty
        cases hkey
      exact .inr (.inl ⟨key, s, rfl, rfl, hsite, hne, .inr ⟨rfl, hrule, hkey, e, hs⟩⟩)
    | @element _ _ s _ h' hsite hs =>
      obtain ⟨rfl, rfl⟩ := h.unique h'
      exact .inr (.inr (.inl ⟨s, rfl, rfl, hsite, hs⟩))
    | @required _ _ s m _ h' hsite hs =>
      obtain ⟨rfl, rfl⟩ := h.unique h'
      exact .inr (.inr (.inr ⟨m, s, rfl, rfl, hsite, hs⟩))
  · rintro (⟨k, inner, hk, hsite, hrow, before, s, after, rfl, hbefore, hs⟩ |
      ⟨key, s, rfl, rfl, hsite, hkey, hs | ⟨rfl, hrule, hname, e, hs⟩⟩ | ⟨s, rfl, rfl, hsite, hs⟩ |
      ⟨m, s, rfl, rfl, hsite, hs⟩)
    · exact .entry h hk hsite hrow hbefore hs
    · exact .property h hsite hkey hs
    · exact .name h hsite hrule hname hs
    · exact .element h hsite hs
    · exact .required h hsite hs

/-- Wherever a tree stands, its build takes an exit exactly if one is reached. -/
def ExitsKnown (t : Tree) : Prop :=
  ∀ (site : Site) (exit : Exit),
    ofNode site.allowed site.parent t = .error exit.error ↔ t.Exits site exit

theorem exitsKnown_row {g : Group} (h : t.Comprises g ts) (hprop : ∀ name, g ≠ .prop name) (hitem : g ≠ .item)
    (hrequired : ∀ m, g ≠ .required m) (hrow : ∀ site exit, RowDecides site t g ts exit)
    (ih : ∀ s ∈ ts, ExitsKnown s) : ExitsKnown t := by
  intro site exit
  refine (hrow site exit).trans ?_
  rw [exits_of_comprises h]
  constructor
  · rintro ⟨k, inner, hk, hsite, hinner, before, s, after, rfl, hbefore, hs⟩
    exact .inl ⟨k, inner, hk, hsite, hinner, before, s, after, rfl, hbefore, (ih s (by simp) inner exit).mp hs⟩
  · rintro (⟨k, inner, hk, hsite, hinner, before, s, after, rfl, hbefore, hs⟩ | ⟨key, _, hg, -⟩ | ⟨_, hg, -⟩ | ⟨m, _, hg, -⟩)
    · exact ⟨k, inner, hk, hsite, hinner, before, s, after, rfl, hbefore, (ih s (by simp) inner exit).mpr hs⟩
    · exact absurd hg (hprop _)
    · exact absurd hg hitem
    · exact absurd hg (hrequired m)

theorem exitsKnown_prop {name : Value} (h : t.Comprises (.prop name) ts) (ih : ∀ s ∈ ts, ExitsKnown s) :
    ExitsKnown t := by
  intro site exit
  rw [ofNode_prop_eq_exit_iff h, exits_of_comprises h]
  constructor
  · rintro ⟨hsite, s, key, rfl, hkey, hs⟩
    obtain ⟨rfl, hne⟩ := propName_eq_ok_iff.mp hkey
    exact .inr (.inl ⟨key, s, rfl, rfl, hsite, hne, hs.imp_left (ih s List.mem_cons_self (.bound .prop) exit).mp⟩)
  · rintro (⟨_, _, _, _, hrow, -⟩ | ⟨key, s, hg, rfl, hsite, hkey, hs⟩ | ⟨_, hg, -⟩ | ⟨_, _, hg, -⟩)
    · cases hrow
    · cases hg
      have hname := propName_eq_ok_iff.mpr ⟨rfl, hkey⟩
      exact ⟨hsite, s, key, rfl, hname, hs.imp_left (ih s List.mem_cons_self (.bound .prop) exit).mpr⟩
    · cases hg
    · cases hg

theorem exitsKnown_item (h : t.Comprises .item ts) (ih : ∀ s ∈ ts, ExitsKnown s) : ExitsKnown t := by
  intro site exit
  rw [ofNode_item_eq_exit_iff h, exits_of_comprises h]
  constructor
  · rintro ⟨hsite, s, rfl, hs⟩
    exact .inr (.inr (.inl ⟨s, rfl, rfl, hsite, (ih s List.mem_cons_self (.bound .item) exit).mp hs⟩))
  · rintro (⟨_, _, _, _, hrow, -⟩ | ⟨_, _, hg, -⟩ | ⟨s, -, rfl, hsite, hs⟩ | ⟨_, _, hg, -⟩)
    · cases hrow
    · cases hg
    · exact ⟨hsite, s, rfl, (ih s List.mem_cons_self (.bound .item) exit).mpr hs⟩
    · cases hg

theorem exitsKnown_required {m : Value} (h : t.Comprises (.required m) ts) (ih : ∀ s ∈ ts, ExitsKnown s) :
    ExitsKnown t := by
  intro site exit
  rw [ofNode_required_eq_exit_iff h, exits_of_comprises h]
  constructor
  · rintro ⟨hsite, s, rfl, hs⟩
    exact .inr (.inr (.inr ⟨m, s, rfl, rfl, hsite, (ih s List.mem_cons_self .wrapped exit).mp hs⟩))
  · rintro (⟨_, _, _, _, hrow, -⟩ | ⟨_, _, hg, -⟩ | ⟨_, hg, -⟩ | ⟨_, s, -, rfl, hsite, hs⟩)
    · cases hrow
    · cases hg
    · cases hg
    · exact ⟨hsite, s, rfl, (ih s List.mem_cons_self .wrapped exit).mpr hs⟩

theorem exitsKnown_check (c : Check) (m : Value) : ExitsKnown (.check c m) := by
  intro site exit
  rw [ofNode_check, gate_behind]
  constructor
  · rintro ⟨k, hk, hsite, hc⟩
    exact .check hk hsite (ofCheck_eq_exit_iff.mp hc)
  · intro h
    cases h with
    | check hk hsite hc => exact ⟨_, hk, hsite, ofCheck_eq_exit_iff.mpr hc⟩
    | entry h => cases h
    | property h => cases h
    | name h => cases h
    | element h => cases h
    | required h => cases h

/-- What is neither a leaf nor a group with children takes no exit. -/
theorem exitsKnown_simple (h : ∀ allowed parent, Simple (ofNode allowed parent t))
    (hcheck : ∀ c m, t ≠ .check c m) (hnone : ∀ g ts, ¬t.Comprises g ts) : ExitsKnown t := by
  intro site exit
  refine iff_of_false ((h _ _).ne_exit exit) ?_
  intro ht
  cases ht with
  | check => exact hcheck _ _ rfl
  | entry h => exact hnone _ _ h
  | property h => exact hnone _ _ h
  | name h => exact hnone _ _ h
  | element h => exact hnone _ _ h
  | required h => exact hnone _ _ h

theorem exitsKnown_of_comprises {g : Group} (h : t.Comprises g ts) (ih : ∀ s ∈ ts, ExitsKnown s) :
    ExitsKnown t := by
  cases g with
  | any => exact exitsKnown_row h (by simp) (by simp) (by simp) (fun _ _ => rowDecides_any h) ih
  | union => exact exitsKnown_row h (by simp) (by simp) (by simp) (fun _ _ => rowDecides_union h) ih
  | container p => exact exitsKnown_row h (by simp) (by simp) (by simp) (fun _ _ => rowDecides_container h) ih
  | prop name => exact exitsKnown_prop h ih
  | item => exact exitsKnown_item h ih
  | required m => exact exitsKnown_required h ih
  | kindless name => exact exitsKnown_row h (by simp) (by simp) (by simp) (fun _ _ => rowDecides_kindless h) ih

theorem exitsKnown (t : Tree) : ExitsKnown t := by
  induction t using Tree.induct with
  | stray v =>
    refine exitsKnown_simple (fun allowed parent => ?_) (by simp) (fun g ts h => by cases h)
    rw [ofNode_stray]
    exact simple_fault _
  | check c m => exact exitsKnown_check c m
  | unlisted g rules =>
    by_cases hrules : rules = .null
    · subst hrules
      exact exitsKnown_of_comprises (.unlisted g) (List.forall_mem_nil _)
    · refine exitsKnown_simple (fun allowed parent => ?_) (by simp) ?_
      · rw [ofNode]
        exact (simple_gate _ _).bind fun k => simple_ofUnlisted g k rules parent
      · intro g ts h
        cases h
        exact hrules rfl
  | group g row ts ih => exact exitsKnown_of_comprises (.group g row ts) ih

end Trees

/-- A tree has a validator or a fault of its own, unless the first thing that is wrong with it is an expression in which a
number is out of bounds, a value to be shown that cannot be written, or a fault behind a name that cannot be written. -/
theorem valid_or_faulty_iff (t : Tree) :
    ((∃ c, ofTree t = .ok c) ∨ ∃ e, ofTree t = .error (.schema e)) ↔ ¬∃ exit, t.Exits .root exit := by
  have hknown (exit : Exit) : ofTree t = .error exit.error ↔ t.Exits .root exit := exitsKnown t .root exit
  simp only [← hknown]
  cases ofTree t with
  | ok c => simp
  | error b =>
    rcases schema_or_exit b with ⟨e, rfl⟩ | ⟨exit, rfl⟩
    · refine iff_of_true (.inr ⟨e, rfl⟩) ?_
      rintro ⟨exit, h⟩
      exact exit.error_ne_schema e (Except.error.inj h).symm
    · refine iff_of_false ?_ (not_not_intro ⟨exit, rfl⟩)
      rintro (⟨c, h⟩ | ⟨e, h⟩)
      · cases h
      · exact exit.error_ne_schema e (Except.error.inj h)

end Names

open Text.CommonNames

/-- A repetition that is counted beyond all bounds. -/
theorem overflow_not_faulty :
    ∃ t : Tree, t = .container .string [.pattern (.str "/a\x7b4294967295\x7d/")] ∧
      ¬((∃ c, ofTree t = .ok c) ∨ ∃ e, ofTree t = .error (.schema e)) := by
  let literal : String := "/a\x7b4294967295\x7d/"
  have hread : ((Pattern.read literal).mapError PatternFault.isOverflow).map (fun _ => ()) = .error true := by
    decide +kernel
  obtain ⟨cause, hcause, hoverflow⟩ : ∃ cause, Pattern.read literal = .error cause ∧ cause.isOverflow = true := by
    cases h : Pattern.read literal with
    | ok p =>
      rw [h] at hread
      cases hread
    | error cause =>
      rw [h] at hread
      exact ⟨cause, rfl, Except.error.inj hread⟩
  let t : Tree := .container .string [.pattern (.str literal)]
  have hrow : t.Comprises (.container .string) ([] ++ Tree.pattern (.str literal) :: []) := .group _ .fixed _
  have hallowed : .container .string ∈ Site.root.allowed := by decide
  have hreached : t.Exits .root (.overflow cause) := by
    refine .entry hrow rfl hallowed rfl (Site.legalRow_nil _) ?_
    exact .check rfl (by decide) (.pattern hcause hoverflow)
  have hbuild : ofTree t = .error (.overflow cause) := (exitsKnown t .root (.overflow cause)).mpr hreached
  refine ⟨t, rfl, ?_⟩
  rintro (⟨c, hc⟩ | ⟨e, he⟩)
  · cases hbuild.symm.trans hc
  · cases hbuild.symm.trans he

end Validator

end RuleTree
