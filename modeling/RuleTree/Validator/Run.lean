import RuleTree.Validator.Basic
import RuleTree.Value.Display

/-!
# Running validators

Whether a validator accepts a value when it is called, and if not, the first constraint that fails and where. Checks are about
the kind of their container; a value of another kind is the container's business.
-/

namespace RuleTree

/-! ### Constraints -/

/-- Whether a number keeps a bound. -/
def Bound.allows (b : Bound) (x limit : Number) : Bool :=
  match b with
  | .min => limit.le x
  | .max => x.le limit
  | .less => x.lt limit
  | .more => limit.lt x

/-- Whether an instant keeps a bound. -/
def DateBound.allows (b : DateBound) (stamp boundary : Int) : Bool :=
  match b with
  | .before => stamp < boundary
  | .after => boundary < stamp
  | .notBefore => boundary ≤ stamp
  | .notAfter => stamp ≤ boundary

/-- The number that a bound is about, if the value is of the bound's kind and has one. -/
def Subject.measure? (s : Subject) (v : Value) : Option Number :=
  match s with
  | .number => v.number?
  | _ => v.length?.map fun n => .int n

/-- What becomes of a value: it is accepted, or the run ends with an error. -/
abbrev Verdict := Except RunError Unit

namespace Verdict

def isRejection : Verdict → Bool
  | .error (.invalid _) => true
  | _ => false

/-- The words of the rejections among some verdicts. -/
def failures (verdicts : List Verdict) : List String :=
  verdicts.filterMap fun
    | .error (.invalid e) => some e.message
    | _ => none

/-- The first of some verdicts that is no rejection, or else what is made of all of them. -/
def firstOr (otherwise : Verdict) (verdicts : List Verdict) : Verdict :=
  (verdicts.find? (!·.isRejection)).getD otherwise

end Verdict

namespace Validator

def rejectFor (cause : Cause) : Verdict := .error (.invalid { cause })

/-- Rejects a value unless a constraint holds. The cause is put into words even where the rule's author gave other ones. -/
def demand (holds : Bool) (message : Option String) (cause : Cause) : Verdict :=
  if holds then .ok ()
  else if cause.isWritable then rejectFor (cause.unless message)
  else .error .unwritable

/-- Whether the instant of a date keeps a constraint; other values are no dates. -/
def stampHolds (v : Value) (holds : Int → Bool) : Bool :=
  v.kind != .primitive .date || v.stamp?.all holds

/-- What a container makes of a value: the value that its checks see, or the cause of the rejection. A container of dates
reads texts; numbers must be finite. -/
def receive (p : Primitive) (v : Value) : Except Cause Value :=
  let found := v.kind
  match p, v with
  | .date, .str s =>
    match Moment.read? s with
    | some m => .ok (.moment m)
    | none => .error (.kind p found.name)
  | _, _ =>
    if found != .primitive p then .error (.kind p found.name)
    else if p == .number && !v.isFiniteNumber then .error (.kind p "invalid number")
    else .ok v

/-- Whether a union offers a value to its branch of a kind: the value's own, and dates for texts that name one. -/
def offers (v : Value) (p : Primitive) : Bool :=
  v.kind == .primitive p || (p == .date && match v with
    | .str s => (Moment.read? s).isSome
    | _ => false)

/-- The verdict of a union on a value that it offered to some branches: the first that is no rejection, the only rejection, or
all rejections together. -/
def decideUnion (kinds : List Primitive) (mismatch : Option String) (v : Value) : List Verdict → Verdict
  | [] => rejectFor (Cause.unless mismatch (.noBranch kinds v.kind))
  | [only] => only
  | verdicts => Verdict.firstOr (rejectFor (.noMatch (Verdict.failures verdicts))) verdicts

def decideAny (verdicts : List Verdict) : Verdict :=
  Verdict.firstOr (rejectFor (.noAlternative (Verdict.failures verdicts))) verdicts

def eachItem (run : Value → Verdict) : Nat → List Value → Verdict
  | _, [] => .ok ()
  | i, v :: vs =>
    match run v with
    | .ok _ => eachItem run (i + 1) vs
    | .error e => .error (e.locatedAt ⟨.item, .index i⟩)

mutual

def run : Validator → Value → Verdict
  | .equal kind expected message, v =>
    demand (v.kind != kind || v.eqv expected) message (.unequal expected.display)
  | .equalMoment stamp display message, v =>
    demand (v.kind != .primitive .date || v.stamp? == some stamp) message (.unequal display)
  | .bound b subject limit message, v =>
    demand (v.kind != .primitive subject.primitive || (subject.measure? v).any (b.allows · limit)) message
      (.bound subject b limit)
  | .range low high message, v =>
    demand (v.kind != .primitive .number || v.number?.any fun x => low.le x && x.le high) message (.range low high)
  | .pattern p literal message, v =>
    demand (v.str?.all p.search) message (.pattern literal)
  | .dateBound b stamp display message, v =>
    demand (stampHolds v (b.allows · stamp)) message (.dateBound b display)
  | .between first last display message, v =>
    demand (stampHolds v fun s => first ≤ s && s ≤ last) message (.between display)
  | .any alternatives, v => decideAny (runAlternatives alternatives v)
  | .container p checks mismatch, v =>
    match v with
    | .null => .ok ()
    | v =>
      match receive p v with
      | .error cause => rejectFor (cause.unless mismatch)
      | .ok seen => runAll checks seen
  | .union branches mismatch, v =>
    match v with
    | .null => .ok ()
    | v => decideUnion (branches.map Prod.fst) mismatch v (runBranches branches v)
  | .prop name inner, v =>
    match v with
    | .map entries =>
      match run inner (Value.property name entries) with
      | .ok _ => .ok ()
      | .error e => .error (e.locatedAt ⟨.property, name⟩)
    | _ => .ok ()
  | .item inner, v =>
    match v.items? with
    | some items => eachItem (fun w => run inner w) 0 items
    | none => .ok ()
  | .required inner message, v =>
    match v, inner with
    | .null, _ => rejectFor (Cause.unless message .missing)
    | _, none => .ok ()
    | v, some inner => run inner v

def runAll : List Validator → Value → Verdict
  | [], _ => .ok ()
  | c :: cs, v =>
    match run c v with
    | .ok _ => runAll cs v
    | .error e => .error e

/-- The verdicts of alternatives, up to the first that is no rejection. -/
def runAlternatives : List Validator → Value → List Verdict
  | [], _ => []
  | a :: as, v =>
    match run a v with
    | .error (.invalid e) => .error (.invalid e) :: runAlternatives as v
    | decided => [decided]

/-- The verdicts of the branches that a value is offered to, up to the first that is no rejection. -/
def runBranches : List (Primitive × Validator) → Value → List Verdict
  | [], _ => []
  | (p, b) :: bs, v =>
    if offers v p then
      match run b v with
      | .error (.invalid e) => .error (.invalid e) :: runBranches bs v
      | decided => [decided]
    else runBranches bs v

end

section Equations

attribute [local simp] run runAll runAlternatives runBranches

@[simp] theorem runAll_nil (v : Value) : runAll [] v = .ok () := by simp

@[simp] theorem runAlternatives_nil (v : Value) : runAlternatives [] v = [] := by simp

@[simp] theorem runBranches_nil (v : Value) : runBranches [] v = [] := by simp

@[simp] theorem run_container_null (p : Primitive) (checks : List Validator) (mismatch : Option String) :
    run (.container p checks mismatch) .null = .ok () := by simp

@[simp] theorem run_union_null (branches : List (Primitive × Validator)) (mismatch : Option String) :
    run (.union branches mismatch) .null = .ok () := by simp

end Equations

def accepts (c : Validator) (v : Value) : Bool := (run c v).isOk

end Validator

end RuleTree
