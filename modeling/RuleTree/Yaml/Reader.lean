import RuleTree.Yaml.Node
import RuleTree.Yaml.Scalar

/-!
# Reading YAML

The value that a text writes. Mappings take over the entries of those they merge with; nothing that is a collection is a key;
and of several faults in the values the first one on the highest level counts. A text whose value holds itself has a fault of
its own, for no value does so here.
-/

namespace RuleTree.Yaml

namespace Node

/-! ### Merged entries -/

/-- A mapping that merges with what is no mapping. -/
def unmergeable : Node := .scalar .map ""

def withTag (t : Tag) : Node → Node
  | .scalar _ text => .scalar t text
  | .sequence _ items => .sequence t items
  | .mapping _ entries => .mapping t entries

/-- A key; the sign of a default value is a text there. -/
def asKey (n : Node) : Node := if n.tag = .value then n.withTag .str else n

/-- What a text gives to a mapping that merges with it: nothing, but that a mapping may merge with itself. -/
def givenByScalar (t : Tag) : Option (List (Node × Node)) :=
  if t = .enclosing then some [(enclosing, enclosing)] else none

mutual

/-- The tree with what its mappings take over. The elements of rows of pairs are no mappings of their own and take over
nothing, and of a mapping that stands for a text only the text counts. -/
def merged : Node → Node
  | .scalar t text => .scalar t text
  | .sequence t items => .sequence t (if t = .pairs then mergedPairs items else mergedItems items)
  | .mapping t entries =>
    if t = .map ∨ t = .set then
      match mergedEntries entries with
      | some (taken, own) => .mapping t (taken ++ own)
      | none => unmergeable
    else .mapping t entries

def mergedItems : List Node → List Node
  | [] => []
  | n :: ns => merged n :: mergedItems ns

def mergedPairs : List Node → List Node
  | [] => []
  | .mapping t entries :: ns => .mapping t (mergedParts entries) :: mergedPairs ns
  | n :: ns => n :: mergedPairs ns

def mergedParts : List (Node × Node) → List (Node × Node)
  | [] => []
  | (k, v) :: es => (merged k, merged v) :: mergedParts es

/-- The entries that are taken over and the mapping's own ones. -/
def mergedEntries : List (Node × Node) → Option (List (Node × Node) × List (Node × Node))
  | [] => some ([], [])
  | (k, v) :: es =>
    match mergedEntries es with
    | none => none
    | some (taken, own) =>
      if k.tag = .merge then (givenBy v).map fun given => (given ++ taken, own)
      else some (taken, (asKey (merged k), merged v) :: own)

/-- The entries that a node gives to a mapping that merges with it: its own, or those of its elements, earlier ones first in
rank and so last in order. -/
def givenBy : Node → Option (List (Node × Node))
  | .scalar t _ => givenByScalar t
  | .sequence _ items => givenByItems items
  | .mapping _ entries => (mergedEntries entries).map fun p => p.1 ++ p.2

def givenByItems : List Node → Option (List (Node × Node))
  | [] => some []
  | .mapping _ entries :: ns => do
    let own ← mergedEntries entries
    return (← givenByItems ns) ++ (own.1 ++ own.2)
  | .scalar t _ :: ns => do
    let own ← givenByScalar t
    return (← givenByItems ns) ++ own
  | .sequence _ _ :: _ => none

end

/-! ### Default values -/

mutual

/-- The text of a node; a mapping stands for its default value. -/
def text : Node → Except Fault String
  | .scalar t text => if t = .enclosing then .error .recursive else .ok text
  | .sequence _ _ => .error .malformed
  | .mapping _ entries => defaultText entries

def defaultText : List (Node × Node) → Except Fault String
  | [] => .error .malformed
  | (k, v) :: es => if k.tag = .value then text v else defaultText es

end

/-! ### Values -/

/-- A value, or a fault and how many levels deeper it lies. -/
abbrev Outcome (α : Type) := Except (Nat × Fault) α

/-- Two parts of one level. The fault on the higher level counts, of two on one level the first. -/
def both {α β : Type} : Outcome α → Outcome β → Outcome (α × β)
  | .ok a, .ok b => .ok (a, b)
  | .error f, .ok _ => .error f
  | .ok _, .error g => .error g
  | .error f, .error g => .error (if g.1 < f.1 then g else f)

/-- What lies one level deeper. -/
def deeper {α : Type} (o : Outcome α) : Outcome α := o.mapError fun f => (f.1 + 1, f.2)

def malformed {α : Type} : Outcome α := .error (0, .malformed)

/-- A text by its sort; that one is no collection is seen when its elements are asked for. -/
def scalarValue (t : Tag) (text : String) : Outcome Value :=
  (t.read text).mapError fun f => (if t.isCollection then 1 else 0, f)

/-- A row by its sort, with its elements and, if it is a row of pairs, with these. -/
def sequenceValue (t : Tag) (items : Outcome (List Value)) (pairs : Outcome (List Value)) : Outcome Value :=
  match t with
  | .seq => deeper (items.map Value.list)
  | .pairs => deeper (pairs.map Value.list)
  | _ => if t.isCollection then deeper malformed else malformed

/-- A mapping by its sort, with its entries and the text that it may stand for. The form of a timestamp is looked for in the
mapping itself, which is no text. -/
def mappingValue (t : Tag) (text : Except Fault String) (entries : Outcome (List (Value × Value))) : Outcome Value :=
  match t with
  | .map => deeper (entries.map Value.ofPairs)
  | .set => deeper (entries.map fun _ => Value.foreign "set")
  | _ =>
    if t.isCollection then deeper malformed
    else
      match text with
      | .error fault => .error (0, fault)
      | .ok text => if t = .timestamp then .error (0, .notText) else scalarValue t text

mutual

/-- The value of a tree without anything to merge. -/
def value : Node → Outcome Value
  | .scalar t text => scalarValue t text
  | .sequence t items => sequenceValue t (values items) (pairValues items)
  | .mapping t entries => mappingValue t (defaultText entries) (entryValues entries)

def values : List Node → Outcome (List Value)
  | [] => .ok []
  | n :: ns => (both (value n) (values ns)).map fun p => p.1 :: p.2

/-- The elements of a row of mappings with one entry each. -/
def pairValues : List Node → Outcome (List Value)
  | [] => .ok []
  | .mapping _ [(k, v)] :: ns =>
    (both (both (value k) (value v)) (pairValues ns)).map fun p => .tuple [p.1.1, p.1.2] :: p.2
  | _ :: _ => malformed

def entryValues : List (Node × Node) → Outcome (List (Value × Value))
  | [] => .ok []
  | (k, v) :: es =>
    let key := if k.tag.isCollection then malformed else value k
    (both (both key (value v)) (entryValues es)).map fun p => p.1 :: p.2

end

end Node

/-- The value that a text writes; an empty text writes null. -/
def read (cs : List Char) : Except Fault Value := do
  let (tokens, fault) := match Token.ofText cs with
    | .ok tokens => (tokens, .malformed)
    | .error cut => cut
  match ← Node.ofTokens tokens fault with
  | none => return .null
  | some n => n.merged.value.mapError Prod.snd

end RuleTree.Yaml
