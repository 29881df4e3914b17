import HttpSuite.Text.Search

/-!
Tokens of templates: plain text, and references between an opening mark and the first closing
brace after it. A reference that is never closed ends the tokens with a fault.
-/

namespace HttpSuite
namespace Template

open HttpSuite.Text

inductive Token where
  | text (s : String)
  | opening
  | reference (s : String)
  | closing
  | unterminated
  | finish
  deriving DecidableEq

/-- Opens a reference. -/
def mark : List Char :=
  ['$', '{']

/-- Text between references; there is no token for an empty one. -/
def plainText (cs : List Char) : List Token :=
  if cs.isEmpty then [] else [.text (String.ofList cs)]

/-- The tokens of a template. -/
def tokens (cs : List Char) : List Token :=
  match _h : cutAt? mark cs with
  | none => plainText cs ++ [.finish]
  | some (before, after) =>
    plainText before ++ .opening ::
      match _h' : cutAt? ['}'] after with
      | none => [.unterminated]
      | some (name, rest) => .reference (String.ofList name) :: .closing :: tokens rest
termination_by cs.length
decreasing_by
  have h1 := cutAt?_length_le _h
  have h2 := cutAt?_length_le _h'
  simp only [mark, List.length_cons, List.length_nil] at h1 h2
  omega

end Template
end HttpSuite
