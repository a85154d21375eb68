import RuleTree.Number.Decimal

/-!
# UTF-8

Reading a row of bytes as text, and the first place where it is none.
-/

namespace RuleTree.Text.Utf8

/-- What is wrong with a sequence of bytes. -/
inductive Reason
  | startByte
  | continuationByte
  | end_
deriving DecidableEq

/-- A faulty sequence: where it starts, how long it is, and its first byte. -/
structure Fault where
  reason : Reason
  position : Nat
  length : Nat
  first : UInt8

def Reason.message : Reason → String
  | .startByte => "invalid start byte"
  | .continuationByte => "invalid continuation byte"
  | .end_ => "unexpected end of data"

def Fault.message (f : Fault) : String :=
  let range :=
    if f.length = 1 then
      "byte 0x" ++ String.ofList ((Nat.toDigits 16 f.first.toNat).leftpad 2 '0') ++ " in position " ++
        Decimal.natural f.position
    else
      "bytes in position " ++ Decimal.natural f.position ++ "-" ++ Decimal.natural (f.position + f.length - 1)
  "'utf-8' codec can't decode " ++ range ++ ": " ++ f.reason.message

/-- How many bytes follow a first byte, if it is one. -/
def following? (b : UInt8) : Option Nat :=
  if b < 0x80 then some 0
  else if b < 0xc2 then none
  else if b < 0xe0 then some 1
  else if b < 0xf0 then some 2
  else if b < 0xf5 then some 3
  else none

/-- The range of the second byte, which keeps out long forms, halves of pairs and what lies beyond the last plane. -/
def secondRange (first : UInt8) : UInt8 × UInt8 :=
  if first = 0xe0 then (0xa0, 0xbf)
  else if first = 0xed then (0x80, 0x9f)
  else if first = 0xf0 then (0x90, 0xbf)
  else if first = 0xf4 then (0x80, 0x8f)
  else (0x80, 0xbf)

/-- The bits that a first byte contributes. -/
def leadBits (first : UInt8) (count : Nat) : Nat :=
  match count with
  | 0 => first.toNat
  | 1 => first.toNat % 32
  | 2 => first.toNat % 16
  | _ => first.toNat % 8

/-- Reads the bytes that follow a first byte, some of them read already. -/
def readFollowing (position : Nat) (first : UInt8) : Nat → Nat → Nat → List UInt8 → Except Fault Nat
  | 0, _, code, _ => .ok code
  | _ + 1, read, _, [] => .error ⟨.end_, position, read, first⟩
  | more + 1, read, code, b :: rest =>
    let (lo, hi) := if read = 1 then secondRange first else (0x80, 0xbf)
    if lo ≤ b ∧ b ≤ hi then readFollowing position first more (read + 1) (64 * code + b.toNat % 64) rest
    else .error ⟨.continuationByte, position, read, first⟩

/-- The characters that bytes write. -/
def decodeFrom (position : Nat) (bytes : List UInt8) : Except Fault (List Char) :=
  match bytes with
  | [] => .ok []
  | b :: rest =>
    match following? b with
    | none => .error ⟨.startByte, position, 1, b⟩
    | some n =>
      match readFollowing position b n 1 (leadBits b n) rest with
      | .error f => .error f
      | .ok code =>
        match decodeFrom (position + 1 + n) (rest.drop n) with
        | .error f => .error f
        | .ok cs => .ok (Char.ofNat code :: cs)
termination_by bytes.length
decreasing_by rw [List.length_drop, List.length_cons]; omega

def decode (bytes : List UInt8) : Except Fault String := (decodeFrom 0 bytes).map String.ofList

theorem decodeFrom_nil (position : Nat) : decodeFrom position [] = .ok [] := by
  rw [decodeFrom]

theorem decodeFrom_ascii (position : Nat) {b : UInt8} (h : b < 0x80) (rest : List UInt8) :
    decodeFrom position (b :: rest) =
      match decodeFrom (position + 1) rest with
      | .error f => .error f
      | .ok cs => .ok (Char.ofNat b.toNat :: cs) := by
  rw [decodeFrom]
  simp [following?, h, readFollowing, leadBits]

end RuleTree.Text.Utf8
