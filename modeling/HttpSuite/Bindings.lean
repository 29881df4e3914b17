/-!
Names bound to texts, in the order in which the names were first bound. Setting a name that is
there replaces its value in place.
-/

namespace HttpSuite

structure Bindings where
  entries : List (String × String)
  deriving DecidableEq

namespace Bindings

def empty : Bindings :=
  ⟨[]⟩

/-- Replaces the value of the first entry of a name, or appends an entry. -/
def setEntry (name value : String) : List (String × String) → List (String × String)
  | [] => [(name, value)]
  | (n, v) :: rest =>
    if n = name then (n, value) :: rest else (n, v) :: setEntry name value rest

def set (b : Bindings) (name value : String) : Bindings :=
  ⟨setEntry name value b.entries⟩

/-- The value of the first entry of a name. -/
def get? (b : Bindings) (name : String) : Option String :=
  b.entries.lookup name

def size (b : Bindings) : Nat :=
  b.entries.length

/-- Sets all entries in order. -/
def setAll (b : Bindings) (entries : List (String × String)) : Bindings :=
  entries.foldl (fun b (name, value) => b.set name value) b

end Bindings
end HttpSuite
