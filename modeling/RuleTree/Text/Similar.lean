/-!
# Similar texts

How alike two texts are: the share of their characters that lie in common pieces. The longest common piece is taken first,
then those in front of it and behind it. No common front is longer than either text.
-/

namespace RuleTree.Text

def commonFront : List Char → List Char → Nat
  | a :: as, b :: bs => if a = b then commonFront as bs + 1 else 0
  | _, _ => 0

/-- A piece that two texts have in common: where it starts in each, and its length. -/
structure Piece where
  left : Nat
  right : Nat
  length : Nat

/-- The longest of some pieces, the first of equal ones. -/
def Piece.longest (pieces : List Piece) : Piece :=
  pieces.foldl (fun best p => if best.length < p.length then p else best) ⟨0, 0, 0⟩

/-- The longest common piece, the first one of the left text and then of the right one. -/
def longestPiece (a b : List Char) : Piece :=
  Piece.longest ((List.range a.length).flatMap fun i =>
    (List.range b.length).map fun j => ⟨i, j, commonFront (a.drop i) (b.drop j)⟩)

def matching : Nat → List Char → List Char → Nat
  | 0, _, _ => 0
  | fuel + 1, a, b =>
    let p := longestPiece a b
    if p.length = 0 then 0
    else
      matching fuel (a.take p.left) (b.take p.right) + p.length +
        matching fuel (a.drop (p.left + p.length)) (b.drop (p.right + p.length))

/-- The share of two texts that matches, as a quotient. -/
def similarity (a b : String) : Nat × Nat :=
  (2 * matching (a.length + 1) a.toList b.toList, a.length + b.length)

/-- Whether three characters in five match. -/
def isSimilar (a b : String) : Bool :=
  let s := similarity a b
  3 * s.2 ≤ 5 * s.1

/-- Whether the first of two shares is the larger one. -/
def isLarger (s t : Nat × Nat) : Bool := t.1 * s.2 < s.1 * t.2

/-- The candidates that are similar to a text, the most similar ones first. -/
def similarOnes (candidates : List String) (text : String) : List String :=
  (candidates.filter fun c => isSimilar c text).mergeSort fun a b =>
    let s := similarity a text
    let t := similarity b text
    isLarger s t || (!isLarger t s && !decide (a < b))

end RuleTree.Text
