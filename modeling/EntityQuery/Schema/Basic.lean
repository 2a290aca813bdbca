/-!
# Schemas

A `Schema` says how entities are stored: each `Entity` names its `Table`, the fields that
make up its identity, and how each `Field` is kept, as a column of its own table, a to-one
relationship through foreign-key columns of its own table, a collection through foreign-key
columns of the target's table, or a collection through an association table.

`Entity.idColumns` are the identity's columns in key order and `Entity.loadColumns` every
column of the entity's own table, identity first. `Schema.lookup?` finds an entity by name,
falling back to the last segment of a dotted name, and `Schema.resolveClass` resolves the
class named by a constructor expression against the schema's class list.
-/

namespace EntityQuery

/-- A table and what callers may assume about caching its rows. The cache timeout is in
milliseconds, an unsigned 64-bit word. -/
structure Table where
  name : String
  cacheTimeout : Nat := 250
  readOnly : Bool := false
  deriving DecidableEq, Repr, Inhabited

/-- The cache timeout of a table that does not set one. -/
def Table.defaultCacheTimeout : Nat := 250

/-- How one field of an entity is stored. -/
inductive FieldKind where
  /-- A plain column of the entity's table. -/
  | column (column : String)
  /-- A to-one relationship: foreign-key columns of the entity's table, pairwise matching
  the target's identity columns. -/
  | manyToOne (target : String) (columns : List String)
  /-- A collection kept in the target's table: foreign-key columns of that table, pairwise
  matching the owner's identity columns. -/
  | oneToMany (target : String) (columns : List String)
  /-- A collection kept in an association table, with columns matching the owner's identity
  and columns matching the target's identity. -/
  | manyToMany (target : String) (association : Table) (sourceColumns targetColumns : List String)
  deriving DecidableEq, Repr, Inhabited

/-- A named field. -/
structure Field where
  name : String
  kind : FieldKind
  deriving DecidableEq, Repr, Inhabited

/-- The column and value that pick out the rows of one entity in a table shared by several. -/
structure Discriminator where
  column : String
  value : String
  deriving DecidableEq, Repr, Inhabited

/-- An entity: its name, table, the names of its identity fields in key order, its fields,
and the discriminator of its rows if the table is shared. -/
structure Entity where
  name : String
  table : Table
  id : List String := []
  fields : List Field := []
  discriminator : Option Discriminator := none
  deriving DecidableEq, Repr, Inhabited

namespace FieldKind

/-- The columns of the entity's own table that a field is stored in. -/
def ownColumns : FieldKind → List String
  | .column c => [c]
  | .manyToOne _ cs => cs
  | _ => []

end FieldKind

namespace Entity

/-- How the field `name` is stored, the first field of that name. -/
def field? (e : Entity) (name : String) : Option FieldKind :=
  (e.fields.find? (·.name == name)).map (·.kind)

/-- The identity's columns, in key order. -/
def idColumns (e : Entity) : List String :=
  e.id.flatMap fun name => ((e.field? name).map FieldKind.ownColumns).getD []

/-- Append the columns of `cs` that `acc` does not hold yet, in order. -/
def appendNew (acc cs : List String) : List String :=
  cs.foldl (fun acc c => if acc.contains c then acc else acc ++ [c]) acc

/-- Every column of the entity's own table: the identity first, then the columns of the
other fields in declaration order, each once. -/
def loadColumns (e : Entity) : List String :=
  e.fields.foldl (fun acc f => appendNew acc f.kind.ownColumns) e.idColumns

/-- An entity of table `table` with no fields yet. -/
def named (name : String) (table : Table) : Entity :=
  { name, table }

/-- Add a field. -/
def withField (e : Entity) (name : String) (kind : FieldKind) : Entity :=
  { e with fields := e.fields ++ [⟨name, kind⟩] }

/-- Add a column field. -/
def withColumn (e : Entity) (name column : String) : Entity :=
  e.withField name (.column column)

/-- Add a column field that is part of the identity. -/
def withId (e : Entity) (name column : String) : Entity :=
  { e.withColumn name column with id := e.id ++ [name] }

/-- Make an existing field part of the identity. -/
def withKey (e : Entity) (name : String) : Entity :=
  { e with id := e.id ++ [name] }

/-- Add a to-one relationship. -/
def withManyToOne (e : Entity) (name target : String) (columns : List String) : Entity :=
  e.withField name (.manyToOne target columns)

/-- Add a collection kept in the target's table. -/
def withOneToMany (e : Entity) (name target : String) (columns : List String) : Entity :=
  e.withField name (.oneToMany target columns)

/-- Add a collection kept in an association table. -/
def withManyToMany (e : Entity) (name target : String) (association : Table)
    (sourceColumns targetColumns : List String) : Entity :=
  e.withField name (.manyToMany target association sourceColumns targetColumns)

/-- Set the discriminator. -/
def withDiscriminator (e : Entity) (column value : String) : Entity :=
  { e with discriminator := some ⟨column, value⟩ }

end Entity

/-- The outcome of resolving the class named by a constructor expression. -/
inductive ClassLookup where
  | found (name : String)
  | ambiguous (candidates : List String)
  | missing
  deriving DecidableEq, Repr, Inhabited

/-- A set of entities, at most one per name, and the classes that constructor expressions
may name; an empty class list accepts every name. -/
structure Schema where
  entities : List Entity := []
  classes : List String := []
  deriving Repr

namespace Schema

/-- Add an entity, replacing one of the same name. -/
def withEntity (s : Schema) (e : Entity) : Schema :=
  { s with entities := s.entities.filter (·.name != e.name) ++ [e] }

/-- Add a class that constructor expressions may name. -/
def withClass (s : Schema) (c : String) : Schema :=
  { s with classes := s.classes ++ [c] }

/-- The entity named exactly `name`. -/
def find? (s : Schema) (name : String) : Option Entity :=
  s.entities.find? (·.name == name)

/-- The part of a dotted name after its last dot, if it has a dot. -/
def lastSegment? (name : String) : Option String :=
  if name.any (· = '.') then some (String.ofList ((name.toList.reverse.takeWhile (· ≠ '.')).reverse))
  else none

/-- The entity named `name`, or else the one named by the last segment of a dotted `name`. -/
def lookup? (s : Schema) (name : String) : Option Entity :=
  match s.find? name with
  | some e => some e
  | none => (lastSegment? name).bind s.find?

/-- Resolve a class name: with no class list any name stands; a listed name stands for
itself; otherwise the listed classes ending in `.name`, if exactly one. -/
def resolveClass (s : Schema) (name : String) : ClassLookup :=
  if s.classes.isEmpty || s.classes.contains name then .found name
  else
    match s.classes.filter (·.endsWith ("." ++ name)) with
    | [] => .missing
    | [c] => .found c
    | cs => .ambiguous cs

end Schema

end EntityQuery
