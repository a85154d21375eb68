import RuleTree.Proofs.Build.Faults
import RuleTree.Proofs.Rule.Shape

/-!
# Sites of rules and the ways between them

A site is where a rule stands in a tree: what is allowed there, and inside which rule. What an entry does at its site, and
which faults are its own, is said by the entries before it in its row. A trail leads from a rule to an entry inside, along
the steps that errors name.
-/

namespace RuleTree

/-! ### Paths in trees -/

/-- The name in the steps out of a group. -/
def Group.key? : Group → Option Key
  | .prop (.str s) => some (.text s)
  | .prop (.number (.int i)) => some (.index i)
  | _ => none

/-- The entry behind a step: one of a row, which count from one, or else the only one. The step must name the rule it
leaves. -/
def Tree.step? (t : Tree) (s : Step) : Option Tree :=
  match t with
  | .group g _ ts =>
    if g.kind?.map RuleKind.name = some s.kind ∧ g.key? = s.name then
      match s.index, ts with
      | some i, ts => if 1 ≤ i then ts[(i - 1).toNat]? else none
      | none, [u] => some u
      | none, _ => none
    else none
  | _ => none

def Tree.follow? (t : Tree) : List Step → Option Tree
  | [] => some t
  | s :: path => (t.step? s).bind fun u => u.follow? path

theorem Group.key?_prop (key : Key) : (Group.prop key.toValue).key? = some key := by
  cases key with
  | text s => rfl
  | index i => rfl

theorem Tree.step?_entry {t s : Tree} {g : Group} {k : RuleKind} {before after : List Tree}
    (h : t.Comprises g (before ++ s :: after)) (hk : g.kind? = some k) (hkey : g.key? = none) :
    t.step? (Validator.childStep k (before.length + 1)) = some s := by
  generalize hts : before ++ s :: after = ts at h
  cases h with
  | group row =>
    have hlength : ((before.length + 1 : Nat) - 1 : Int).toNat = before.length := by omega
    have hpos : (1 : Int) ≤ (before.length + 1 : Nat) := by omega
    simp only [step?, Validator.childStep, hk, hkey, Option.map_some, and_self, if_true, if_pos hpos, hlength]
    rw [← hts]
    simp
  | unlisted => simp at hts

theorem Tree.step?_child {t s : Tree} {g : Group} {k : RuleKind} (h : t.Comprises g [s]) (hk : g.kind? = some k) :
    t.step? { kind := k.name, name := g.key? } = some s := by
  generalize hts : [s] = ts at h
  cases h with
  | group row =>
    subst hts
    simp only [step?, hk, Option.map_some, and_self, if_true]
  | unlisted => cases hts

/-! ### Sites -/

/-- Where a rule stands: which kinds are allowed there, and inside which rule. In a row a mismatch rule may stand among the
entries, and the kinds of the entries may have to differ. -/
structure Site where
  allowed : List RuleKind
  parent : Option RuleKind
  takesMismatch : Bool := false
  distinct : Bool := false

namespace Site

def root : Site := { allowed := RuleKind.bindable, parent := none }

/-- Behind a property or an item rule. -/
def bound (parent : RuleKind) : Site := { allowed := RuleKind.bindable, parent := some parent }

def wrapped : Site := { allowed := RuleKind.wrappable, parent := some .required }

/-- In a row of checks. -/
def ofKinds (allowed : List RuleKind) (parent : Option RuleKind) : Site where
  allowed := allowed
  parent := parent
  takesMismatch := allowed.contains .mismatch

def branches : Site where
  allowed := RuleKind.values
  parent := some .union
  takesMismatch := true
  distinct := true

/-- Where the entries of a group stand that has a row of them. -/
def ofRow? (parent : Option RuleKind) : Group → Option Site
  | .container p => some (ofKinds (RuleKind.childrenOf p) (some (.container p)))
  | .union => some branches
  | .any =>
    match parent with
    | some (.container p) =>
      if RuleKind.hasAlternatives p then some (ofKinds (RuleKind.alternativesOf p) parent) else none
    | _ => none
  | _ => none

variable [Text.CharacterNames]

/-- Whether an entry is in order behind others: it has a validator there, or it is the first mismatch rule of its row. -/
def Legal (site : Site) (before : List Tree) (s : Tree) : Prop :=
  (∃ c, Validator.ofNode site.allowed site.parent s = .ok c ∧
    (site.distinct = true → s.kind? ∉ before.map Tree.kind?)) ∨
  (site.takesMismatch = true ∧ Tree.mismatches before = [] ∧ ∃ m, s = .check .mismatch m ∧ Validator.IsMessage m)

def LegalRow (site : Site) (ts : List Tree) : Prop :=
  ∀ before s after, ts = before ++ s :: after → site.Legal before s

/-- The faults of an entry itself, behind others in its row. -/
inductive OwnFault (site : Site) (before : List Tree) : Tree → SchemaFault → Prop
  | node {s : Tree} {f : SchemaFault} (h : Validator.ofNode site.allowed site.parent s = .error (.ofFault f)) :
      OwnFault site before s f
  | misplaced {m : Value} (h : site.takesMismatch = false) :
      OwnFault site before (.check .mismatch m) (.unexpected RuleKind.mismatch.name)
  | repeated {m : Value} (h : site.takesMismatch = true) (hbefore : Tree.mismatches before ≠ []) :
      OwnFault site before (.check .mismatch m) .duplicateMismatch
  | message {m : Value} (h : site.takesMismatch = true) (hbefore : Tree.mismatches before = [])
      (hm : ¬Validator.IsMessage m) : OwnFault site before (.check .mismatch m) (.messageNotText .mismatch)
  | duplicate {s : Tree} {p : Primitive} {c : Validator} (h : site.distinct = true)
      (hs : Validator.ofNode site.allowed site.parent s = .ok c) (hk : s.kind? = some (.container p))
      (hbefore : some (.container p) ∈ before.map Tree.kind?) : OwnFault site before s (.duplicateType p)

theorem legalRow_nil (site : Site) : site.LegalRow [] := by
  intro before s after h
  simp at h

theorem legalRow_concat {site : Site} {ts : List Tree} {s : Tree} (hts : site.LegalRow ts) (hs : site.Legal ts s) :
    site.LegalRow (ts ++ [s]) := by
  intro before r after h
  rcases List.eq_nil_or_concat after with rfl | ⟨rest, last, rfl⟩
  · obtain ⟨rfl, hr⟩ := List.append_inj' h rfl
    cases hr
    exact hs
  · have hsplit : ts ++ [s] = (before ++ r :: rest) ++ [last] := by simpa using h
    obtain ⟨hts', -⟩ := List.append_inj' hsplit rfl
    exact hts before r rest hts'

end Site

theorem Site.key?_of_ofRow? {parent : Option RuleKind} {g : Group} {site : Site} (h : Site.ofRow? parent g = some site) :
    g.key? = none := by
  cases g with
  | prop name => cases h
  | _ => rfl

variable [Text.CharacterNames]

/-- The way along a path from a rule at a site, behind others in its row, to an entry at another site. -/
inductive Tree.Trail : Site → List Tree → Tree → List Step → Site → List Tree → Tree → Prop
  | here {site : Site} {before : List Tree} {t : Tree} : Trail site before t [] site before t
  | entry {site inner last : Site} {as before after bs : List Tree} {t s u : Tree} {g : Group} {k : RuleKind}
      {path : List Step} (h : t.Comprises g (before ++ s :: after)) (hk : g.kind? = some k)
      (hsite : Site.ofRow? site.parent g = some inner) (hbefore : inner.LegalRow before)
      (hs : Trail inner before s path last bs u) :
      Trail site as t (Validator.childStep k (before.length + 1) :: path) last bs u
  | property {site last : Site} {as bs : List Tree} {t s u : Tree} {key : Key} {path : List Step}
      (h : t.Comprises (.prop key.toValue) [s]) (hs : Trail (.bound .prop) [] s path last bs u) :
      Trail site as t ({ kind := RuleKind.prop.name, name := some key } :: path) last bs u
  | element {site last : Site} {as bs : List Tree} {t s u : Tree} {path : List Step}
      (h : t.Comprises .item [s]) (hs : Trail (.bound .item) [] s path last bs u) :
      Trail site as t ({ kind := RuleKind.item.name } :: path) last bs u
  | required {site last : Site} {as bs : List Tree} {t s u : Tree} {m : Value} {path : List Step}
      (h : t.Comprises (.required m) [s]) (hs : Trail .wrapped [] s path last bs u) :
      Trail site as t ({ kind := RuleKind.required.name } :: path) last bs u

theorem Tree.Trail.follow? {site last : Site} {as before : List Tree} {t s : Tree} {path : List Step}
    (h : Trail site as t path last before s) : t.follow? path = some s := by
  induction h with
  | here => rfl
  | entry h hk hsite _ _ ih =>
    rw [Tree.follow?, step?_entry h hk (Site.key?_of_ofRow? hsite), Option.bind_some]
    exact ih
  | @property _ _ _ _ _ _ _ key _ h _ ih =>
    have hstep := step?_child h rfl
    rw [Group.key?_prop] at hstep
    rw [Tree.follow?, hstep, Option.bind_some]
    exact ih
  | element h _ ih =>
    have hstep := step?_child h rfl
    rw [Tree.follow?]
    exact (congrArg (Option.bind · _) hstep).trans ih
  | required h _ ih =>
    have hstep := step?_child h rfl
    rw [Tree.follow?]
    exact (congrArg (Option.bind · _) hstep).trans ih

end RuleTree
