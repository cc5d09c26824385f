import ChainConformance.Json.Basic

/-!
# Objects in key order

`Json.sorted` puts the members of every object into rising order of their keys.
-/

namespace ChainConformance.Json

/-- The member put before the first one with a greater key. -/
def insertMember (m : Literal × Json) : List (Literal × Json) → List (Literal × Json)
  | [] => [m]
  | other :: rest =>
    if compare (m.1.text.getD "") (other.1.text.getD "") = .gt then other :: insertMember m rest
    else m :: other :: rest

mutual

def sorted : Json → Json
  | .array items => .array (sortedItems items)
  | .object members => .object (sortedMembers members)
  | v => v

def sortedItems : List Json → List Json
  | [] => []
  | x :: xs => sorted x :: sortedItems xs

def sortedMembers : List (Literal × Json) → List (Literal × Json)
  | [] => []
  | (k, v) :: ms => insertMember (k, sorted v) (sortedMembers ms)

end

end ChainConformance.Json
