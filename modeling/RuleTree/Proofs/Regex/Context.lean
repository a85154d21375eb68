import RuleTree.Regex.Literal

/-!
# Where a sign stands in an expression

What a character of an expression is depends on where a reader stands: in a row of parts, in a set, or in a comment. The place
is told by the characters alone, so it can be followed without reading the expression. The scanner that makes the sign for the
end of a line strict follows only whether it stands in a set, and the two are in step where they agree about every such sign.
-/

namespace RuleTree.Regex

/-- What a reader of an expression is in the middle of. A set begins behind its bracket, or behind the sign that negates it;
there a closing bracket is a member. -/
inductive Region
  | row
  | setHead
  | setStart
  | set
  | comment
  | line
deriving DecidableEq

namespace Region

def isSet : Region → Bool
  | setHead => true
  | setStart => true
  | set => true
  | _ => false

end Region

/-- Where a reader of an expression stands: whether blanks and comments to the end of the line count for nothing, and
whether they do behind the closing parenthesis of each open group, the innermost first. -/
structure Context where
  region : Region := .row
  spaced : Bool
  outer : List Bool := []

namespace Context

/-- Whether a group that begins with these signs is spaced out, and whether what is behind it is. -/
def spacing (spaced : Bool) : List Char → Bool × Bool
  | '?' :: signs =>
    let on := spaced || (signs.takeWhile Reading.isFlagLetter).contains 'x'
    match signs.dropWhile Reading.isFlagLetter with
    | ')' :: _ => (on, on)
    | ':' :: _ => (on, spaced)
    | '-' :: signs => (on && !(signs.takeWhile Reading.isFlagLetter).contains 'x', spaced)
    | _ => (spaced, spaced)
  | _ => (spaced, spaced)

/-- Behind an opening parenthesis. -/
def opened (x : Context) (ahead : List Char) : Context :=
  if ['?', '#'].isPrefixOf ahead then { x with region := .comment }
  else ⟨.row, (spacing x.spaced ahead).1, (spacing x.spaced ahead).2 :: x.outer⟩

/-- Behind a closing parenthesis. -/
def closed (x : Context) : Context :=
  match x.outer with
  | [] => x
  | spaced :: outer => ⟨.row, spaced, outer⟩

/-- Behind a character that no backslash stands before, with the text ahead of it. -/
def after (x : Context) (c : Char) (ahead : List Char) : Context :=
  match x.region with
  | .row =>
    if c = '[' then { x with region := if ahead.head? = some '^' then .setHead else .setStart }
    else if c = '(' then x.opened ahead
    else if c = ')' then x.closed
    else if c = '#' ∧ x.spaced then { x with region := .line }
    else x
  | .setHead => { x with region := .setStart }
  | .setStart => { x with region := .set }
  | .set => if c = ']' then { x with region := .row } else x
  | .comment => if c = ')' then { x with region := .row } else x
  | .line => if c = '\n' then { x with region := .row } else x

/-- Behind a backslash and its character. -/
def afterEscape (x : Context) : Context :=
  match x.region with
  | .setHead => { x with region := .set }
  | .setStart => { x with region := .set }
  | _ => x

end Context

/-- Whether a scanner that stands in a set or not takes every sign for the end of a line, from a context on, as a reader does:
a sign in a row is none in a set, and a sign in a set is. In a comment no sign matters. -/
def inStep (x : Context) (inSet : Bool) : List Char → Bool
  | [] => true
  | ['\\'] => true
  | '\\' :: _ :: cs => inStep x.afterEscape inSet cs
  | c :: cs =>
    (c != '$' || (x.region != .row || !inSet) && (!x.region.isSet || inSet)) &&
      inStep (x.after c cs) (if inSet then c != ']' else c == '[') cs

theorem ne_backslash {c : Char} {cs : List Char} (hlone : c = '\\' → cs = [] → False)
    (hescape : ∀ d ds, c = '\\' → cs = d :: ds → False) : c ≠ '\\' := by
  rintro rfl
  cases cs with
  | nil => exact hlone rfl rfl
  | cons d ds => exact hescape d ds rfl rfl

theorem inStep_cons {c : Char} (hc : c ≠ '\\') (x : Context) (inSet : Bool) (cs : List Char) :
    inStep x inSet (c :: cs) =
      ((c != '$' || (x.region != .row || !inSet) && (!x.region.isSet || inSet)) &&
        inStep (x.after c cs) (if inSet then c != ']' else c == '[') cs) := by
  rw [inStep]
  · exact fun h => absurd h hc
  · exact fun _ _ h => absurd h hc

/-! ### Expressions that keep the scanner in step -/

/-- What a scanner knows of a context in an expression without comments, where no set has a closing bracket as its first
member. -/
def Context.Tracked (x : Context) (inSet : Bool) (cs : List Char) : Prop :=
  match x.region with
  | .row => inSet = false
  | .setHead => inSet = true ∧ ∃ ds, cs = '^' :: ds ∧ ds.head? ≠ some ']'
  | .setStart => inSet = true ∧ cs.head? ≠ some ']'
  | .set => inSet = true
  | _ => False

theorem Context.region_opened {x : Context} {cs : List Char} (h : '#' ∉ cs) : (x.opened cs).region = .row := by
  have hnone : ['?', '#'].isPrefixOf cs = false := by
    refine Bool.eq_false_iff.mpr fun hp => h ?_
    exact (List.isPrefixOf_iff_prefix.mp hp).subset (by simp)
  rw [opened, if_neg (by simp [hnone])]

theorem Context.region_closed {x : Context} (h : x.region = .row) : x.closed.region = .row := by
  rw [closed]
  split
  · exact h
  · rfl

/-- A scanner is in step with an expression that has neither comments nor sets whose first member is a closing bracket. -/
theorem inStep_of_plain {cs : List Char} (hset : ¬['[', ']'] <:+: cs) (hnegated : ¬['[', '^', ']'] <:+: cs)
    (hsharp : '#' ∉ cs) (x : Context) (inSet : Bool) (hx : x.Tracked inSet cs) : inStep x inSet cs = true := by
  induction x, inSet, cs using inStep.induct with
  | case1 x => rfl
  | case2 x => rfl
  | case3 x inSet c cs ih =>
    rw [inStep]
    have hsuffix : cs <:+: '\\' :: c :: cs := ⟨['\\', c], [], by simp⟩
    refine ih (fun h => hset (h.trans hsuffix)) (fun h => hnegated (h.trans hsuffix)) (fun h => hsharp (by simp [h])) ?_
    obtain ⟨region, spaced, outer⟩ := x
    cases region <;> simp_all [Context.Tracked, Context.afterEscape]
  | case4 x inSet c cs hlone hescape ih =>
    rw [inStep_cons (ne_backslash hlone hescape), Bool.and_eq_true]
    have hsuffix : cs <:+: c :: cs := ⟨[c], [], by simp⟩
    have hrest := ih (fun h => hset (h.trans hsuffix)) (fun h => hnegated (h.trans hsuffix)) (fun h => hsharp (by simp [h]))
    obtain ⟨region, spaced, outer⟩ := x
    cases region with
    | row =>
      obtain rfl : inSet = false := hx
      refine ⟨by simp [Region.isSet], hrest ?_⟩
      by_cases hopen : c = '['
      · subst hopen
        by_cases hcaret : cs.head? = some '^'
        · obtain ⟨ds, rfl⟩ := List.head?_eq_some_iff.mp hcaret
          simp only [Context.after, if_true, hcaret]
          refine ⟨rfl, ds, rfl, fun hclose => ?_⟩
          obtain ⟨es, rfl⟩ := List.head?_eq_some_iff.mp hclose
          exact hnegated ⟨[], es, rfl⟩
        · simp only [Context.after, if_true, if_neg hcaret]
          refine ⟨rfl, fun hclose => ?_⟩
          obtain ⟨es, rfl⟩ := List.head?_eq_some_iff.mp hclose
          exact hset ⟨[], es, rfl⟩
      · have hrow : (Context.after ⟨.row, spaced, outer⟩ c cs).region = .row := by
          have hc : c ≠ '#' := fun h => hsharp (by simp [h])
          simp only [Context.after, if_neg hopen, hc, false_and, if_false]
          split
          · exact Context.region_opened fun h => hsharp (by simp [h])
          · split
            · exact Context.region_closed rfl
            · rfl
        rw [Context.Tracked, hrow]
        exact beq_false_of_ne hopen
    | setHead =>
      obtain ⟨rfl, ds, hcs, hds⟩ := hx
      obtain ⟨rfl, rfl⟩ := List.cons.inj hcs
      exact ⟨rfl, hrest ⟨rfl, hds⟩⟩
    | setStart =>
      obtain ⟨rfl, hclose⟩ := hx
      have hc : c ≠ ']' := by simpa using hclose
      exact ⟨by simp [Region.isSet], hrest (by simp [Context.Tracked, Context.after, hc])⟩
    | set =>
      obtain rfl : inSet = true := hx
      refine ⟨by simp [Region.isSet], hrest ?_⟩
      by_cases hc : c = ']'
      · simp [Context.Tracked, Context.after, hc]
      · simp [Context.Tracked, Context.after, hc]
    | comment => exact hx.elim
    | line => exact hx.elim
/-! ### Exchanged signs -/

/-- That a text is another with some signs for the end of a line written as signs for the end of the text: none in a set and,
if all are to be exchanged, each in a row. -/
inductive Exchange (all : Bool) : Context → List Char → List Char → Prop
  | nil (x : Context) : Exchange all x [] []
  | lone (x : Context) : Exchange all x ['\\'] ['\\']
  | escape (x : Context) (c : Char) {cs ds : List Char} (h : Exchange all x.afterEscape cs ds) :
    Exchange all x ('\\' :: c :: cs) ('\\' :: c :: ds)
  | plain (x : Context) (c : Char) {cs ds : List Char} (hc : c ≠ '\\') (hkept : c = '$' → all = true → x.region ≠ .row)
    (h : Exchange all (x.after c cs) cs ds) : Exchange all x (c :: cs) (c :: ds)
  | exchanged (x : Context) {cs ds : List Char} (hall : all = true) (hset : x.region.isSet = false)
    (h : Exchange all (x.after '$' cs) cs ds) : Exchange all x ('$' :: cs) ('\\' :: 'Z' :: ds)

namespace Exchange

variable {all : Bool} {x : Context} {c : Char} {cs ds : List Char}

theorem refl (x : Context) (cs : List Char) : Exchange false x cs cs := by
  induction x, true, cs using inStep.induct with
  | case1 x => exact .nil x
  | case2 x => exact .lone x
  | case3 x _ c cs ih => exact .escape x c ih
  | case4 x _ c cs hlone hescape ih => exact .plain x c (ne_backslash hlone hescape) (by simp) ih

theorem lone_iff (h : Exchange all x cs ds) : ds = ['\\'] ↔ cs = ['\\'] := by
  cases h <;> simp_all

theorem length_le (h : Exchange all x cs ds) : cs.length ≤ ds.length := by
  induction h with
  | nil => exact Nat.le_refl 0
  | lone => exact Nat.le_refl 1
  | escape _ _ _ ih => simpa using ih
  | plain _ _ _ _ _ ih => simpa using ih
  | exchanged _ _ _ _ ih =>
    simp only [List.length_cons]
    omega

theorem kept_iff (hc : c ≠ '\\') :
    Exchange true x (c :: cs) (c :: ds) ↔ (c = '$' → x.region ≠ .row) ∧ Exchange true (x.after c cs) cs ds := by
  refine ⟨fun h => ?_, fun h => .plain x c hc (fun hsign _ => h.1 hsign) h.2⟩
  cases h with
  | lone => exact absurd rfl hc
  | escape => exact absurd rfl hc
  | plain _ _ _ hkept h => exact ⟨fun hsign => hkept hsign rfl, h⟩

theorem exchanged_iff : Exchange true x ('$' :: cs) ('\\' :: 'Z' :: ds) ↔
    x.region.isSet = false ∧ Exchange true (x.after '$' cs) cs ds := by
  refine ⟨fun h => ?_, fun h => .exchanged x rfl h.1 h.2⟩
  cases h with
  | exchanged _ _ hset h => exact ⟨hset, h⟩

/-- A scanner exchanges each sign in a row and none in a set if and only if it is in step with the reader. -/
theorem strictEnds_iff_inStep {inSet : Bool} :
    Exchange true x cs (PatternLiteral.strictEnds inSet false cs) ↔ inStep x inSet cs = true := by
  induction x, inSet, cs using inStep.induct with
  | case1 x => exact ⟨fun _ => rfl, fun _ => .nil x⟩
  | case2 x => exact ⟨fun _ => rfl, fun _ => .lone x⟩
  | case3 x inSet c cs ih =>
    rw [inStep, ← ih]
    refine ⟨fun h => ?_, fun h => .escape x c h⟩
    cases h with
    | escape _ _ h => exact h
    | plain _ _ hc => exact absurd rfl hc
  | case4 x inSet c cs hlone hescape ih =>
    have hc := ne_backslash hlone hescape
    rw [inStep_cons hc, Bool.and_eq_true, ← ih]
    cases inSet with
    | true =>
      rw [PatternLiteral.strictEnds, if_neg Bool.false_ne_true, if_neg hc, if_pos rfl, if_pos rfl, kept_iff hc]
      exact and_congr_left fun _ => by simpa using Decidable.imp_iff_not_or
    | false =>
      rw [PatternLiteral.strictEnds, if_neg Bool.false_ne_true, if_neg hc, if_neg Bool.false_ne_true,
        if_neg Bool.false_ne_true]
      by_cases hbracket : c = '['
      · subst hbracket
        rw [if_pos rfl, kept_iff hc]
        exact and_congr_left fun _ => by simp
      · rw [if_neg hbracket, beq_false_of_ne hbracket]
        by_cases hsign : c = '$'
        · subst hsign
          rw [if_pos rfl, exchanged_iff]
          exact and_congr_left fun _ => by simp
        · rw [if_neg hsign, kept_iff hc]
          exact and_congr_left fun _ => by simp [hsign]

end Exchange

end RuleTree.Regex
