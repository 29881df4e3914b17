import HttpSuite.Resource.Build

/-!
Building a resource in one pass over the fields of its block. A known field whose shape is right
is kept in place of the one of its name that was kept before; the first whose shape is wrong ends
the pass, also if a later field has its name. The rules of the kind are for what is kept.
-/

namespace HttpSuite

/-- Adds a field in place of those of its name. -/
def Field.keep (f : Field) (kept : List Field) : List Field :=
  (kept.filter fun old => old.name.name != f.name.name) ++ [f]

/-- The last known field of each name after those that are kept already. -/
def Schema.gather (schema : Schema) (kept : List Field) :
    List Field → Except FieldFault (List Field)
  | [] => .ok kept
  | f :: more =>
    match schema.lookup f.name.name with
    | none => gather schema kept more
    | some shape =>
      match checkShape f.name.name shape f.value with
      | .error fault => .error fault
      | .ok () => gather schema (f.keep kept) more

/-- The kind that a driver makes of what it gathers. -/
def Kind.gather (driver : Driver) (fields : List Field) : Except FieldFault Kind :=
  match driver.schema.gather [] fields with
  | .error fault => .error fault
  | .ok kept => ofFields driver kept

/-- Builds a resource with the given id from what is gathered of a block. -/
def Resource.gather (driver : Driver) (id : String) (block : Block) : Except Failure Resource :=
  match Kind.gather driver block.fields with
  | .error fault => .error (.invalid block.reference fault)
  | .ok kind => .ok { id, block, kind }

end HttpSuite
