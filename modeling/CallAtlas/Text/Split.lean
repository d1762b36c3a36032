/-!
# Splitting text

Splitting a list of characters at its last separator, and joining the parts of a path.
-/

namespace CallAtlas

/-- The parts of a list before and after its last `c`, if it holds one. -/
def splitAtLast (c : Char) : List Char → Option (List Char × List Char)
  | [] => none
  | x :: rest =>
    match splitAtLast c rest with
    | some (before, after) => some (x :: before, after)
    | none => if x = c then some ([], rest) else none

/-- The parts of a list between the occurrences of `c`. -/
def splitOnChar (c : Char) : List Char → List (List Char)
  | [] => [[]]
  | x :: rest =>
    if x = c then [] :: splitOnChar c rest
    else
      match splitOnChar c rest with
      | part :: parts => (x :: part) :: parts
      | [] => [[x]]

/-- A module path as one text: its segments with `::` between them. -/
def modulePath (segments : List String) : String :=
  "::".intercalate segments

end CallAtlas
