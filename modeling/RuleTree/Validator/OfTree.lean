import RuleTree.Rule.Error
import RuleTree.Rule.Tree
import RuleTree.Validator.Basic
import RuleTree.Value.Display

/-!
# Validators of rule trees

The validator that a rule tree means, or the first fault in the tree with the steps that lead to it (`compile_rule`). Each
function here is that of one kind: `ofEqual` is `compile_equal`, `ofBetween` is `compile_between`, and so on; `ofNode`, with
its gate, and `ofChildren` are `compile_node` and `compile_children`, and the cases of `ofNode` are the compilers of the
composite kinds. Children are taken in order, and what is asked of the children together is asked after all of them.
-/

namespace RuleTree.Validator

open SchemaFault

abbrev Build := Except BuildError

def fault {α : Type} (f : SchemaFault) : Build α := .error (.ofFault f)

def ensure (holds : Bool) (f : SchemaFault) : Build Unit := if holds then .ok () else fault f

/-- Goes on if a value can be shown. -/
def ensureWritable (v : Value) : Build Unit := if v.isWritable then .ok () else .error .unwritable

/-! ### Leaves -/

/-- The message of a rule (`message_of`); an empty one counts as none. -/
def messageOf (kind : RuleKind) : Value → Build (Option String)
  | .null => .ok none
  | .str s => .ok (if s.isEmpty then none else some s)
  | _ => fault (.messageNotText kind)

def parentName (parent : Option RuleKind) : String := (parent.map RuleKind.name).getD ""

def subject? : Option RuleKind → Option Subject
  | some (.container p) => Subject.ofPrimitive? p
  | _ => none

def boundary (kind : RuleKind) (field : String) (v : Value) : Build Int :=
  match v.stamp? with
  | some stamp => .ok stamp
  | none => fault (.dateField kind field)

def ofEqual (v message : Value) (parent : Option RuleKind) : Build Validator := do
  let wrong := equalValue (parentName parent)
  if parent = some (.container .date) then
    match v.stamp? with
    | some stamp => return .equalMoment stamp v.displayDate (← messageOf .equal message)
    | none => fault wrong
  else
    let kind := Kind.ofName (parentName parent)
    ensure (v.kind = kind) wrong
    ensure (kind ≠ .primitive .number || v.isNumber) wrong
    ensureWritable v
    return .equal kind v (← messageOf .equal message)

def ofBound (b : Bound) (v message : Value) (parent : Option RuleKind) : Build Validator := do
  match v.number?, subject? parent with
  | none, _ => fault (.boundLimit b)
  | some _, none => fault (.boundPlace b)
  | some limit, some subject => return .bound b subject limit (← messageOf (.bound b) message)

def ofRange (min max message : Value) : Build Validator := do
  match min.number?, max.number? with
  | none, _ => fault (.rangeLimit "min")
  | some _, none => fault (.rangeLimit "max")
  | some low, some high =>
    ensure (low.lt high) .rangeOrder
    return .range low high (← messageOf .range message)

variable [Text.CharacterNames]

def ofPattern (regex message : Value) : Build Validator := do
  match regex with
  | .str literal =>
    match Pattern.read literal with
    | .ok p => return .pattern p literal (← messageOf .pattern message)
    | .error f => if f.isOverflow then .error (.overflow f) else fault (.patternText (some f))
  | _ => fault (.patternText none)

def ofDateBound (b : DateBound) (v message : Value) : Build Validator := do
  let stamp ← boundary (.dateBound b) "value" v
  return .dateBound b stamp v.displayDate (← messageOf (.dateBound b) message)

def ofBetween (first last message : Value) : Build Validator := do
  let begins ← boundary .between "begin" first
  let ends ← boundary .between "end" last
  ensure (begins < ends) .betweenOrder
  return .between begins ends (first.displayDate ++ " and " ++ last.displayDate) (← messageOf .between message)

/-- The validator of a leaf inside a rule. -/
def ofCheck (c : Check) (message : Value) (parent : Option RuleKind) : Build Validator :=
  match c with
  | .equal v => ofEqual v message parent
  | .bound b v => ofBound b v message parent
  | .range min max => ofRange min max message
  | .pattern regex => ofPattern regex message
  | .dateBound b v => ofDateBound b v message
  | .between first last => ofBetween first last message
  | .mismatch => fault (.unexpected RuleKind.mismatch.name)
  | .kindless name _ => fault (.notRule name)

/-! ### Groups -/

def propName (v : Value) : Build Key :=
  match v with
  | .str s => if s.isEmpty then fault .propName else .ok (.text s)
  | .number (.int i) => .ok (.index i)
  | _ => fault .propName

/-- What may stand as an alternative inside a rule. -/
def alternativesIn : Option RuleKind → Build (List RuleKind)
  | some (.container p) => if RuleKind.hasAlternatives p then .ok (RuleKind.alternativesOf p) else fault .anyPlace
  | _ => fault .anyPlace

def ofAlternatives (alternatives : List Validator) : Build Validator := do
  ensure (2 ≤ alternatives.length) .fewAlternatives
  return .any alternatives

def ofBranches (branches : List (Primitive × Validator)) (mismatch : Option String) : Build Validator := do
  ensure (2 ≤ branches.length) .fewTypes
  return .union branches mismatch

def ofEmpty (g : Group) (parent : Option RuleKind) : Build Validator :=
  match g with
  | .any => alternativesIn parent >>= fun _ => ofAlternatives []
  | .union => ofBranches [] none
  | .container p => .ok (.container p [] none)
  | .prop _ => fault (.notOneRule .prop)
  | .item => fault (.notOneRule .item)
  | .required message => (messageOf .required message).map (.required none)
  | .kindless name => fault (.notRule name)

/-- The validator of a group whose children are no row. -/
def ofUnlisted (g : Group) (kind : RuleKind) (rules : Value) (parent : Option RuleKind) : Build Validator :=
  match rules with
  | .null => ofEmpty g parent
  | _ =>
    match g with
    | .any => alternativesIn parent >>= fun _ => fault (.rulesNotList kind)
    | _ => fault (.rulesNotList kind)

/-- The message of a mismatch rule, where one may stand and none has stood before. -/
def mismatchMessage (allowed : List RuleKind) (seen : Bool) (message : Value) : Build (Option String) := do
  ensure (allowed.contains .mismatch) (.unexpected RuleKind.mismatch.name)
  ensure (!seen) .duplicateMismatch
  messageOf .mismatch message

def gate (t : Tree) (allowed : List RuleKind) : Build RuleKind :=
  match t.kind? with
  | none => fault (.notRule t.typeName)
  | some k => if allowed.contains k then .ok k else fault (.unexpected k.name)

def childStep (owner : RuleKind) (index : Nat) : Step := { kind := owner.name, index := some index }

mutual

/-- The validator of a tree where some kinds are allowed, inside a rule. -/
def ofNode (allowed : List RuleKind) (parent : Option RuleKind) : Tree → Build Validator
  | .stray v => fault (.notRule v.typeName)
  | .check c message => do
    let _ ← gate (.check c message) allowed
    ofCheck c message parent
  | .unlisted g rules => do
    let kind ← gate (.unlisted g rules) allowed
    ofUnlisted g kind rules parent
  | .group g row rules => do
    let _ ← gate (.group g row rules) allowed
    match g with
    | .kindless name => fault (.notRule name)
    | .any =>
      let alternatives ← alternativesIn parent
      let (checks, _) ← ofChildren alternatives parent .any 1 false rules
      ofAlternatives checks
    | .union =>
      let (branches, mismatch) ← ofUnion 1 false [] rules
      ofBranches branches mismatch
    | .container p =>
      let (checks, mismatch) ←
        ofChildren (RuleKind.childrenOf p) (some (.container p)) (.container p) 1 false rules
      return .container p checks mismatch
    | .prop name =>
      match rules with
      | [t] =>
        ensure t.isRule (.notOneRule .prop)
        let key ← propName name
        let inner ← within { kind := "prop", name := some key } (ofNode RuleKind.bindable (some .prop) t)
        return .prop key inner
      | _ => fault (.notOneRule .prop)
    | .item =>
      match rules with
      | [t] =>
        ensure t.isRule (.notOneRule .item)
        let inner ← within { kind := "item" } (ofNode RuleKind.bindable (some .item) t)
        return .item inner
      | _ => fault (.notOneRule .item)
    | .required message =>
      match rules with
      | [] => ofEmpty (.required message) parent
      | [t] =>
        let inner ← within { kind := "required" } (ofNode RuleKind.wrappable (some .required) t)
        return .required (some inner) (← messageOf .required message)
      | _ => fault .manyRules

/-- The checks of some children, which count from an index, and the message of the mismatch rule among them. -/
def ofChildren (allowed : List RuleKind) (parent : Option RuleKind) (owner : RuleKind) (index : Nat) (seen : Bool) :
    List Tree → Build (List Validator × Option String)
  | [] => .ok ([], none)
  | .check .mismatch message :: ts => do
    let mismatch ← within (childStep owner index) (mismatchMessage allowed seen message)
    let (checks, _) ← ofChildren allowed parent owner (index + 1) true ts
    return (checks, mismatch)
  | t :: ts => do
    let check ← within (childStep owner index) (ofNode allowed parent t)
    let (checks, mismatch) ← ofChildren allowed parent owner (index + 1) seen ts
    return (check :: checks, mismatch)

/-- The branches of a union, after those of some kinds, and the message of the mismatch rule among them. -/
def ofUnion (index : Nat) (seen : Bool) (declared : List Primitive) :
    List Tree → Build (List (Primitive × Validator) × Option String)
  | [] => .ok ([], none)
  | .check .mismatch message :: ts => do
    let mismatch ← within (childStep .union index) (mismatchMessage [.mismatch] seen message)
    let (branches, _) ← ofUnion (index + 1) true declared ts
    return (branches, mismatch)
  | t :: ts => do
    let branch ← within (childStep .union index) (ofNode RuleKind.values (some .union) t)
    match t.kind? with
    | some (.container p) =>
      within (childStep .union index) (ensure (!declared.contains p) (.duplicateType p))
      let (branches, mismatch) ← ofUnion (index + 1) seen (p :: declared) ts
      return ((p, branch) :: branches, mismatch)
    | _ => ofUnion (index + 1) seen declared ts

end

/-- The validator of a tree. Its root may be required, a container or a union. -/
def ofTree (t : Tree) : Except BuildError Validator := ofNode RuleKind.bindable none t

section

variable (allowed : List RuleKind) (parent : Option RuleKind) (owner : RuleKind) (index : Nat) (seen : Bool)

theorem ofNode_stray (v : Value) : ofNode allowed parent (.stray v) = fault (.notRule v.typeName) := by
  rw [ofNode]

theorem ofNode_check (c : Check) (message : Value) :
    ofNode allowed parent (.check c message) = gate (.check c message) allowed >>= fun _ => ofCheck c message parent := by
  rw [ofNode]

@[simp] theorem ofChildren_nil : ofChildren allowed parent owner index seen [] = .ok ([], none) := by
  rw [ofChildren]

@[simp] theorem ofUnion_nil (declared : List Primitive) : ofUnion index seen declared [] = .ok ([], none) := by
  rw [ofUnion]

end

end RuleTree.Validator
