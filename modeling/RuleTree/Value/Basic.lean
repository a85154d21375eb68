import RuleTree.Value.Kind
import RuleTree.Number.Basic
import RuleTree.Calendar.Reader

/-!
# Values

The data that rules are applied to: what documents can write, exact ratios, dates and moments, fixed rows of values, mappings
with keys of any sort, and values of foreign types, of which only the name of the type is known. What values are asked for is
here too: their kind (`kind_of`), number (`is_number`, `is_finite_number`), moment (`to_datetime`) and stamp (`to_timestamp`).
-/

namespace RuleTree

/-- A value. The entries of a mapping keep their order, and no two of its keys are equal. -/
inductive Value
  | null
  | bool (value : Bool)
  | number (value : Number)
  | str (text : String)
  | date (value : CalendarDate)
  | moment (value : Moment)
  | list (items : List Value)
  | tuple (items : List Value)
  | map (entries : List (Value × Value))
  | foreign (typeName : String)

instance : Inhabited Value := ⟨.null⟩

inductive Key
  | text (value : String)
  | index (value : Int)
deriving DecidableEq

namespace Key

def toValue : Key → Value
  | .text s => .str s
  | .index i => .number (.int i)

def isWritable : Key → Bool
  | .text _ => true
  | .index i => Decimal.isWritable i

/-- The text of a key that can be written. -/
def display : Key → String
  | .text s => s
  | .index i => Decimal.integer i

end Key

namespace Value

/-! ### Classification -/

def kind : Value → Kind
  | .null => .null
  | .bool _ => .primitive .boolean
  | .number _ => .primitive .number
  | .str _ => .primitive .string
  | .date _ => .primitive .date
  | .moment _ => .primitive .date
  | .list _ => .primitive .array
  | .tuple _ => .primitive .array
  | .map _ => .primitive .object
  | .foreign n => Kind.ofName n

/-- The name of the value's type, as messages show it. -/
def typeName : Value → String
  | .null => "NoneType"
  | .bool _ => "bool"
  | .number (.int _) => "int"
  | .number (.ratio _) => "Fraction"
  | .number (.float _) => "float"
  | .str _ => "str"
  | .date _ => "date"
  | .moment _ => "datetime"
  | .list _ => "list"
  | .tuple _ => "tuple"
  | .map _ => "dict"
  | .foreign n => n

def number? : Value → Option Number
  | .number n => if n.isNumber then some n else none
  | _ => none

def isNumber (v : Value) : Bool := v.number?.isSome

def isFiniteNumber : Value → Bool
  | .number n => n.isFinite
  | _ => false

/-- The elements of a list or a fixed row. -/
def items? : Value → Option (List Value)
  | .list xs => some xs
  | .tuple xs => some xs
  | _ => none

def str? : Value → Option String
  | .str s => some s
  | _ => none

/-- How long a text (in characters) or a row is. -/
def length? : Value → Option Nat
  | .str s => some s.length
  | .list xs => some xs.length
  | .tuple xs => some xs.length
  | _ => none

/-! ### Dates -/

/-- The moment that a date, a moment or a text names; dates start at midnight of universal time. -/
def moment? : Value → Option Moment
  | .date d => some d.atMidnight
  | .moment m => some m.withZone
  | .str s => Moment.read? s
  | _ => none

/-- Whole milliseconds from the start of 1970 to the named moment, rounded down. -/
def stamp? (v : Value) : Option Int := v.moment?.map Moment.stamp

/-! ### Equality -/

/-- The integer that a truth value counts as in a comparison with numbers. -/
def asNumber? : Value → Option Number
  | .number n => some n
  | .bool b => some (.int (if b then 1 else 0))
  | _ => none

/-- Two moments are equal at the same instant, if both or neither of their clocks are known. -/
def eqvMoment (a b : Moment) : Bool :=
  a.offset.isSome == b.offset.isSome && a.instant == b.instant

/-- Equality of values that hold no others: numbers (truth values among them) by exact value, texts, dates. -/
def eqvAtom (a b : Value) : Bool :=
  match a, b with
  | .null, .null => true
  | .str s, .str t => s == t
  | .date d, .date e => d == e
  | .moment m, .moment n => eqvMoment m n
  | a, b =>
    match a.asNumber?, b.asNumber? with
    | some m, some n => m.eqv n
    | _, _ => false

mutual

/-- Equality of values by meaning. Rows of one sort are compared element by element, mappings by their entries in any
order; a foreign value equals nothing else. -/
def eqv : Value → Value → Bool
  | .list xs, .list ys => eqvItems xs ys
  | .tuple xs, .tuple ys => eqvItems xs ys
  | .map es, .map fs => es.length == fs.length && eqvEntries es fs
  | a, b => eqvAtom a b

def eqvItems : List Value → List Value → Bool
  | [], [] => true
  | x :: xs, y :: ys => eqv x y && eqvItems xs ys
  | _, _ => false

/-- Whether each entry on the left has an equal one on the right. -/
def eqvEntries : List (Value × Value) → List (Value × Value) → Bool
  | [], _ => true
  | (k, v) :: es, fs => (fs.any fun f => eqv k f.1 && eqv v f.2) && eqvEntries es fs

end

/-! ### Mappings -/

/-- The value of the entry with an equal key. -/
def lookup (key : Value) (entries : List (Value × Value)) : Option Value :=
  (entries.find? fun e => eqv key e.1).map Prod.snd

/-- The value of a mapping at a name; what is absent is null. -/
def property (name : Key) (entries : List (Value × Value)) : Value :=
  (lookup name.toValue entries).getD .null

/-- Sets the value at a key: an equal key keeps its place and its form. -/
def put (entries : List (Value × Value)) (key value : Value) : List (Value × Value) :=
  if entries.any fun e => eqv key e.1 then
    entries.map fun e => if eqv key e.1 then (e.1, value) else e
  else entries ++ [(key, value)]

/-- The mapping of some pairs, in their order. -/
def ofPairs (pairs : List (Value × Value)) : Value :=
  .map (pairs.foldl (fun es p => put es p.1 p.2) [])

/-- The mapping of some named values, with different names. -/
def ofFields (fields : List (String × Value)) : Value :=
  .map (fields.map fun f => (.str f.1, f.2))

/-! ### Text -/

mutual

/-- Whether a value can be written or shown: no integer anywhere in it has too many digits. -/
def isWritable : Value → Bool
  | .number n => n.isWritable
  | .list xs => areWritable xs
  | .tuple xs => areWritable xs
  | .map es => entriesAreWritable es
  | _ => true

def areWritable : List Value → Bool
  | [] => true
  | x :: xs => isWritable x && areWritable xs

def entriesAreWritable : List (Value × Value) → Bool
  | [] => true
  | (k, v) :: es => isWritable k && isWritable v && entriesAreWritable es

end

/-! ### Sameness -/

mutual

/-- Whether two values are written alike: the same form with the same content. -/
def same : Value → Value → Bool
  | .null, .null => true
  | .bool a, .bool b => a == b
  | .number a, .number b => a == b
  | .str a, .str b => a == b
  | .date a, .date b => a == b
  | .moment a, .moment b => a == b
  | .list xs, .list ys => sameItems xs ys
  | .tuple xs, .tuple ys => sameItems xs ys
  | .map es, .map fs => sameEntries es fs
  | .foreign a, .foreign b => a == b
  | _, _ => false

def sameItems : List Value → List Value → Bool
  | [], [] => true
  | x :: xs, y :: ys => same x y && sameItems xs ys
  | _, _ => false

def sameEntries : List (Value × Value) → List (Value × Value) → Bool
  | [], [] => true
  | (k, v) :: es, (l, w) :: fs => same k l && same v w && sameEntries es fs
  | _, _ => false

end

theorem stamp?_date (d : CalendarDate) : (Value.date d).stamp? = some d.stamp := by
  simp [stamp?, moment?, Moment.stamp_atMidnight]

end Value

end RuleTree
