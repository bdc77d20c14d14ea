/-!
# Parts of a text

A text is cut wherever a separator stands, or behind a word that it begins with, and parts are put
together again with a separator between them.
-/

namespace ServiceDiscovery.Text

/-- The parts of a text between the places where `sep` stands; there is always one more of them. -/
def parts (sep : Char) : List Char → List (List Char)
  | [] => [[]]
  | c :: rest =>
    if c = sep then [] :: parts sep rest
    else
      match parts sep rest with
      | [] => [[c]]
      | part :: others => (c :: part) :: others

/-- The rest of a text after a word that it begins with. -/
def afterWord? (word : String) (t : List Char) : Option (List Char) :=
  if word.toList.isPrefixOf t then some (t.drop word.length) else none

/-- The given parts with `sep` between them. -/
def join (sep : List Char) : List (List Char) → List Char
  | [] => []
  | [part] => part
  | part :: others => part ++ sep ++ join sep others

end ServiceDiscovery.Text
