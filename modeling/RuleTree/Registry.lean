import RuleTree.Rule.Error

/-!
# Registries of kinds

What builds the rules of each kind (`RuleCompilers`). A kind is registered once; registering several kinds for one builder
stops at the first that is known already, and those before it stay.
-/

namespace RuleTree

/-- The registered kinds with their builders, the latest first. A registry that is only asked for its kinds need not say what
builds them. -/
structure Registry (Builder : Type := Unit) where
  entries : List (String × Builder)
  distinct : (entries.map Prod.fst).Nodup

namespace Registry

variable {Builder : Type}

/-- The kinds that have a validator of their own; mismatch rules only word the failures of others. -/
def builtIn : Registry where
  entries := (RuleKind.all.filter (· != .mismatch)).map fun k => (k.name, ())
  distinct := by decide

/-- The report of a kind that is known already. -/
def duplicate (kind : String) : String := "Rule kind '" ++ kind ++ "' is already registered"

def kinds (r : Registry Builder) : List String := r.entries.map Prod.fst

def isRegistered (r : Registry Builder) (kind : String) : Bool := r.kinds.contains kind

def list (r : Registry Builder) : List String := r.kinds.mergeSort fun a b => a ≤ b

/-- What builds the rules of a kind. -/
def get (r : Registry Builder) (kind : String) : Except SchemaFault Builder :=
  match r.entries.lookup kind with
  | some builder => .ok builder
  | none => .error (.unexpected kind)

theorem not_mem_kinds {r : Registry Builder} {kind : String} (h : r.isRegistered kind = false) : kind ∉ r.kinds := by
  intro hmem
  rw [isRegistered, List.contains_iff_mem.mpr hmem] at h
  cases h

/-- Registers a kind that is not known yet. -/
def add (r : Registry Builder) (kind : String) (builder : Builder) (h : r.isRegistered kind = false) : Registry Builder where
  entries := (kind, builder) :: r.entries
  distinct := List.nodup_cons.mpr ⟨not_mem_kinds h, r.distinct⟩

/-- Registers kinds in order, up to the first that is known already, which is told. -/
def register (r : Registry Builder) (kinds : List String) (builder : Builder := by exact ()) :
    Registry Builder × Option String :=
  match kinds with
  | [] => (r, none)
  | k :: ks =>
    if h : r.isRegistered k = false then register (r.add k builder h) ks builder
    else (r, some k)

theorem isRegistered_eq_true_iff {r : Registry Builder} {kind : String} : r.isRegistered kind = true ↔ kind ∈ r.kinds :=
  List.contains_iff_mem

@[simp] theorem kinds_add {r : Registry Builder} {kind : String} {builder : Builder} (h : r.isRegistered kind = false) :
    (r.add kind builder h).kinds = kind :: r.kinds := rfl

end Registry

end RuleTree
