import RuleTree.File.Path

/-!
# Directories

What stands at the names of files, and a directory whose files are given with their bytes.
-/

namespace RuleTree

inductive Unreadable
  | missing
  | directory
  | throughFile
  | nameTooLong
deriving DecidableEq

def Unreadable.message : Unreadable → String
  | .missing => "No such file or directory"
  | .directory => "Is a directory"
  | .throughFile => "Not a directory"
  | .nameTooLong => "File name too long"

/-- What stands at a name. A name with a null character is none. -/
inductive Entry
  | file (bytes : List UInt8)
  | unreadable (reason : Unreadable)
  | unnamed
deriving DecidableEq

abbrev Files := String → Entry

/-- A directory: its files and those of the directories in it, with the names that lead to them. -/
structure Directory where
  files : List (List (List Char) × List UInt8)

namespace Directory

def ofFiles (files : List (String × List UInt8)) : Directory :=
  ⟨files.map fun f => ((Path.ofText f.1).parts, f.2)⟩

/-- The longest name and the longest path, in bytes. -/
def maxName : Nat := 255

def maxPath : Nat := 4095

def isTooLong (name : List Char) : Bool := maxName < (String.ofList name).utf8ByteSize

def hasDirectory (d : Directory) (path : List (List Char)) : Bool :=
  d.files.any fun f => path.isPrefixOf f.1 && path.length < f.1.length

/-- What names lead to from a place. Outside of the directory nothing is known but that its parents are directories. -/
def find (d : Directory) (here : Option (List (List Char))) : List (List Char) → Entry
  | [] => .unreadable .directory
  | name :: rest =>
    if name.isEmpty || name == ['.'] then find d here rest
    else if name == ['.', '.'] then
      find d (here.bind fun place => if place.isEmpty then none else some place.dropLast) rest
    else if isTooLong name then .unreadable .nameTooLong
    else
      match here.map (· ++ [name]) with
      | none => .unreadable .missing
      | some path =>
        match d.files.lookup path with
        | some bytes => if rest.isEmpty then .file bytes else .unreadable .throughFile
        | none => if d.hasDirectory path then find d (some path) rest else .unreadable .missing

def entry (d : Directory) : Files := fun name =>
  if name.contains '\x00' then .unnamed
  else if name.isEmpty then .unreadable .missing
  else if maxPath < name.utf8ByteSize then .unreadable .nameTooLong
  else d.find (if name.toList.head? = some '/' then none else some []) (Path.names name)

end Directory

end RuleTree
