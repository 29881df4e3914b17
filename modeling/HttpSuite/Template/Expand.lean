import HttpSuite.Bindings
import HttpSuite.Template.Fragment
import HttpSuite.Text.Blank

/-!
Evaluation of templates. `var.` with a name stands for the value bound to the name, an unbound
one for the empty text; a key with an attribute stands for that attribute of the resource
registered under the key. A value is put in place as it is and not evaluated again.
-/

namespace HttpSuite
namespace Template

open HttpSuite.Text

/-- What references can name: bound variables, and the attributes of resources by key. -/
structure Scope where
  bindings : Bindings
  attributes? : String → Option (String → Option String)

/-- The value of a reference. The attribute is what follows the last point. -/
def resolve (scope : Scope) (reference : List Char) : Except Fault String :=
  match afterLead? "var.".toList reference with
  | some name => .ok ((scope.bindings.get? (String.ofList name)).getD "")
  | none =>
    match cutAtLast? '.' reference with
    | some (c :: key, a :: detail) =>
      let key := String.ofList (c :: key)
      match scope.attributes? key with
      | some attributes => .ok ((attributes (String.ofList (a :: detail))).getD "")
      | none => .error (.unknownResource key)
    | _ => .error (.malformed (String.ofList reference))

/-- The value of a fragment. Blanks around a reference do not count. -/
def Fragment.value (scope : Option Scope) : Fragment → Except Fault String
  | text s => .ok s
  | reference s =>
    match scope with
    | some scope => resolve scope (trim s.toList)
    | none => .error (.noContext (String.ofList (trim s.toList)))

/-- The values of fragments one after the other, up to the first that has none. -/
def concat (scope : Option Scope) : List Fragment → Except Fault String
  | [] => .ok ""
  | fragment :: more =>
    match fragment.value scope with
    | .error e => .error e
    | .ok value =>
      match concat scope more with
      | .error e => .error e
      | .ok rest => .ok (value ++ rest)

/-- The text that a template stands for. -/
def expand (scope : Option Scope) (text : String) : Except Fault String :=
  match parse text with
  | .error e => .error e
  | .ok fragments => concat scope fragments

end Template
end HttpSuite
