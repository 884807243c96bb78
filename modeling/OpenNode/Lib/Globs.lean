import Mathlib

namespace Globs

inductive Token where
  | star
  | one (test : Char → Bool)

/-- The members of a set: characters and ranges of them. -/
def inSet : List Char → Char → Bool
  | x :: '-' :: y :: rest, c => (x ≤ c && c ≤ y) || inSet rest c
  | x :: rest, c => x = c || inSet rest c
  | [], _ => false

/-- A set that may begin with the mark of its complement. -/
def setTest : List Char → Char → Bool
  | '!' :: members => fun c => !inSet members c
  | members => inSet members

/-- Whether a bracket is closed: one that comes first is a member. -/
def closes : List Char → Bool
  | '!' :: ']' :: rest => rest.contains ']'
  | '!' :: rest => rest.contains ']'
  | ']' :: rest => rest.contains ']'
  | rest => rest.contains ']'

/-- The tokens of a pattern, with the set that is open. -/
def tokens : Option (List Char) → List Char → List Token
  | _, [] => []
  | some members, c :: rest =>
    if c = ']' ∧ members ≠ [] ∧ members ≠ ['!'] then .one (setTest members) :: tokens none rest
    else tokens (some (members ++ [c])) rest
  | none, c :: rest =>
    if c = '*' then .star :: tokens none rest
    else if c = '?' then .one (fun _ => true) :: tokens none rest
    else if c = '[' ∧ closes rest = true then tokens (some []) rest
    else .one (fun other => other = c) :: tokens none rest

def matchTokens : List Token → List Char → Bool
  | [], text => text.isEmpty
  | .star :: rest, text => text.tails.any fun tail => matchTokens rest tail
  | .one test :: rest, text =>
    match text with
    | [] => false
    | c :: text => test c && matchTokens rest text

/-- `fnmatch.fnmatchcase`. -/
def fnmatchcase (text pattern : String) : Bool := matchTokens (tokens none pattern.toList) text.toList

/-- `any(c in pattern for c in "*?[")`. -/
def hasWildcard (pattern : String) : Bool := pattern.toList.any fun c => c = '*' || c = '?' || c = '['

example : fnmatchcase "/nginx/sites/a.conf" "/nginx/*[!x-z].c?nf" = true := by decide +kernel

end Globs
