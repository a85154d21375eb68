/-!
# Names of characters

The characters that have a name, and what is asked of a table of names (`unicodedata.lookup`). Which names there are is not for
expressions to say: the table is brought along, and a name that is not in it is the name of no character.
-/

namespace RuleTree.Text

/-- What names of characters are written with: letters, digits, blanks and hyphens. -/
def isNameSign (c : Char) : Bool := c.isAlphanum || c == ' ' || c == '-'

/-- The characters that some table knows by name. -/
class CharacterNames where
  character? (name : String) : Option Char
  isNameSign_of_mem {name : String} {c : Char} (h : character? name = some c) : ∀ d ∈ name.toList, isNameSign d = true

/-- The code point of the character of a name. -/
def ofCharacterName? [CharacterNames] (name : String) : Option Nat := (CharacterNames.character? name).map Char.toNat

theorem isNameSign_of_ofCharacterName? [CharacterNames] {name : String} {code : Nat} (h : ofCharacterName? name = some code) :
    ∀ d ∈ name.toList, isNameSign d = true := by
  obtain ⟨c, hc, -⟩ := Option.map_eq_some_iff.mp h
  exact CharacterNames.isNameSign_of_mem hc

end RuleTree.Text
