import EntityQuery.Json.Reader
import EntityQuery.Schema.Basic

/-!
# Schema documents

A schema document is JSON text:

* the document: `entities`, a list of entities, and `classes`, a list of class names
  (default empty);
* an entity: `name`, `table`, `id` (the identity fields), `fields` and `discriminator`
  (default none, also when `null`);
* a table: `name`, `cache_timeout_ms` (an unsigned 64-bit number, default 250) and
  `read_only` (default false);
* a discriminator: `column` and `value`;
* a field: an object with `name`, `kind` and the members of its kind: `column` for
  `column`; `target` and `columns` for `many_to_one` and `one_to_many`; `target`,
  `association` (a table), `source_columns` and `target_columns` for `many_to_many`.

A record, that is the document, an entity, a table or a discriminator, is an object or an
array of its members in order, where an array may leave out members from the first one that
has a default on. Unknown keys of an object are passed over; a key given twice is refused
before its value is read; missing members are reported in order once the object is read. A
field is an object only: its members other than `name` are read whole first and then decoded,
so its faults are placed after the field's closing brace.

`Schema.ofDocument` reads a document into a `Schema`; an entity named again replaces the
one before.
-/

namespace EntityQuery

/-- The message for a member not given. -/
def missingField (name : String) : String := "missing field `" ++ name ++ "`"

/-- The message for a member given twice. -/
def duplicateField (name : String) : String := "duplicate field `" ++ name ++ "`"

/-- The message for a list of the wrong length. -/
def invalidLength (length : Nat) (expected : String) : String :=
  "invalid length " ++ toString length ++ ", expected " ++ expected

/-- A count of elements, in words. -/
def elementCount (n : Nat) : String :=
  if n = 1 then "1 element" else toString n ++ " elements"

/-- What a record named `name` with `count` members is expected to be, as an array. -/
def recordOfLength (name : String) (count : Nat) : String :=
  "struct " ++ name ++ " with " ++ elementCount count

/-- One member of a record read into the partial record `σ`: its key, whether it is already
read, and how its value is read. -/
structure Slot (σ : Type) where
  key : String
  filled : σ → Bool
  read : σ → Decode σ

/-- One member of a record decoded from a value read whole. -/
structure ContentSlot (σ : Type) where
  key : String
  filled : σ → Bool
  read : σ → Content → Except String σ

namespace Decode

/-- Fail with the message of a decoding that failed. -/
def orFault {α : Type} : Except String α → Decode α
  | .ok v => pure v
  | .error message => fault message

/-- A string. -/
def text : Decode String := do
  match ← skipWhitespace with
  | none => peekError .eofValue
  | some 34 => eat; string
  | some _ => invalidTypeHere "a string"

/-- An unsigned 64-bit number. -/
def word : Decode Nat := placed do
  match ← skipWhitespace with
  | none => peekError .eofValue
  | some b =>
    let n ← if b == 45 then do eat; number false
      else if isDigit b then number true
      else invalidTypeHere "u64"
    match n with
    | .unsigned v => pure v
    | .negative _ => fault (invalidValue n.unexpected "u64")
    | .double _ => fault (invalidType n.unexpected "u64")

/-- A truth value. -/
def truth : Decode Bool := placed do
  match ← skipWhitespace with
  | none => peekError .eofValue
  | some 116 => eat; ident [114, 117, 101]; pure true
  | some 102 => eat; ident [97, 108, 115, 101]; pure false
  | some _ => invalidTypeHere "a boolean"

/-- A value read by `m`, or none for `null`. -/
def optional {α : Type} (m : Decode α) : Decode (Option α) := do
  match ← skipWhitespace with
  | some 110 => eat; ident [117, 108, 108]; pure none
  | _ => some <$> m

/-- The elements of an array whose bracket was taken, each read by `element`. -/
def elements {α : Type} (element : Decode α) : Decode (List α) := do
  let mut items := []
  let mut first := true
  for _ in List.range (← remaining) do
    if !(← hasNextElement first) then break
    first := false
    items := items ++ [← element]
  pure items

/-- An array, with `depth` levels of nesting allowed; `element` reads one level deeper. -/
def list {α : Type} (depth : Nat) (element : Decode α) : Decode (List α) := do
  match ← skipWhitespace with
  | none => peekError .eofValue
  | some 91 =>
    enter depth
    array (elements element)
  | some _ => invalidTypeHere "a sequence"

/-- The members of a record given as an array whose bracket was taken, in order, until the
array ends. -/
def membersInOrder {σ : Type} (slots : List (Slot σ)) (init : σ) : Decode σ := do
  let mut s := init
  let mut first := true
  for slot in slots do
    if ← hasNextElement first then
      first := false
      s ← slot.read s
  pure s

/-- The members of a record given as an object whose brace was taken. -/
def members {σ : Type} (slots : List (Slot σ)) (init : σ) : Decode σ := do
  let mut s := init
  let mut first := true
  for _ in List.range (← remaining) do
    if !(← hasNextKey first) then break
    first := false
    eat
    let key ← string
    match slots.find? (·.key == key) with
    | some slot =>
      if slot.filled s then fault (duplicateField key)
      colon
      s ← slot.read s
    | none =>
      colon
      skipValue
  pure s

/-- A record named `name`, as an object or an array, with `depth` levels of nesting allowed;
`slots` read its members one level deeper, and `build` makes the record, with the message
for a missing member given its index and key. -/
def record {σ τ : Type} (depth : Nat) (name : String) (slots : List (Slot σ)) (init : σ)
    (build : (Nat → String → String) → σ → Except String τ) : Decode τ := do
  match ← skipWhitespace with
  | none => peekError .eofValue
  | some 91 =>
    enter depth
    array do
      let s ← membersInOrder slots init
      orFault (build (fun i _ => invalidLength i (recordOfLength name slots.length)) s)
  | some 123 =>
    enter depth
    object do
      let s ← members slots init
      orFault (build (fun _ key => missingField key) s)
  | some _ => invalidTypeHere ("struct " ++ name)

end Decode

namespace Content

/-- A string. -/
def text : Content → Except String String
  | .str s => pure s
  | c => throw (invalidType c.unexpected "a string")

/-- A list of strings. -/
def texts : Content → Except String (List String)
  | .seq items => items.mapM text
  | c => throw (invalidType c.unexpected "a sequence")

/-- An unsigned 64-bit number. -/
def word : Content → Except String Nat
  | .number (.unsigned n) => pure n
  | .number n@(.negative _) => throw (invalidValue n.unexpected "u64")
  | c => throw (invalidType c.unexpected "u64")

/-- A truth value. -/
def truth : Content → Except String Bool
  | .bool b => pure b
  | c => throw (invalidType c.unexpected "a boolean")

/-- The members of a record given as the entries of an object, in order; unknown keys are
passed over and a key given twice is refused. -/
def members {σ : Type} (slots : List (ContentSlot σ)) (init : σ)
    (entries : List (String × Content)) : Except String σ :=
  entries.foldlM (fun s (key, value) =>
    match slots.find? (·.key == key) with
    | some slot => if slot.filled s then throw (duplicateField key) else slot.read s value
    | none => pure s) init

/-- The members of a record given as the items of an array, in order; items beyond the
record's members are refused once the record is made. -/
def membersInOrder {σ : Type} (slots : List (ContentSlot σ)) (init : σ) (items : List Content) :
    Except String σ :=
  (slots.zip items).foldlM (fun s (slot, item) => slot.read s item) init

/-- A record named `name` from a value read whole: an object or an array. -/
def record {σ τ : Type} (name : String) (slots : List (ContentSlot σ)) (init : σ)
    (build : (Nat → String → String) → σ → Except String τ) : Content → Except String τ
  | .seq items => do
    let s ← membersInOrder slots init items
    let r ← build (fun i _ => invalidLength i (recordOfLength name slots.length)) s
    if items.length > slots.length then
      throw (invalidLength items.length (elementCount slots.length ++ " in sequence"))
    pure r
  | .map entries => do
    let s ← members slots init entries
    build (fun _ key => missingField key) s
  | c => throw (invalidType c.unexpected ("struct " ++ name))

end Content

/-- The members of a table read so far. -/
structure TableSlots where
  name : Option String := none
  cacheTimeout : Option Nat := none
  readOnly : Option Bool := none

namespace TableSlots

/-- The table, or the message for its missing name. -/
def build (missing : Nat → String → String) (s : TableSlots) : Except String Table :=
  match s.name with
  | none => throw (missing 0 "name")
  | some name =>
    pure { name, cacheTimeout := s.cacheTimeout.getD Table.defaultCacheTimeout,
           readOnly := s.readOnly.getD false }

/-- The members of a table in a document. -/
def slots : List (Slot TableSlots) :=
  [{ key := "name", filled := (·.name.isSome), read := fun s => do
      return { s with name := some (← Decode.text) } },
   { key := "cache_timeout_ms", filled := (·.cacheTimeout.isSome), read := fun s => do
      return { s with cacheTimeout := some (← Decode.word) } },
   { key := "read_only", filled := (·.readOnly.isSome), read := fun s => do
      return { s with readOnly := some (← Decode.truth) } }]

/-- The members of a table in a value read whole. -/
def contentSlots : List (ContentSlot TableSlots) :=
  [{ key := "name", filled := (·.name.isSome), read := fun s c => do
      return { s with name := some (← c.text) } },
   { key := "cache_timeout_ms", filled := (·.cacheTimeout.isSome), read := fun s c => do
      return { s with cacheTimeout := some (← c.word) } },
   { key := "read_only", filled := (·.readOnly.isSome), read := fun s c => do
      return { s with readOnly := some (← c.truth) } }]

end TableSlots

/-- A table in a document, with `depth` levels of nesting allowed. -/
def Decode.table (depth : Nat) : Decode Table :=
  Decode.record depth "Table" TableSlots.slots {} TableSlots.build

/-- A table in a value read whole. -/
def Content.table : Content → Except String Table :=
  Content.record "Table" TableSlots.contentSlots {} TableSlots.build

/-- The kinds of fields, as named by the member `kind`. -/
inductive FieldVariant where
  | column | manyToOne | oneToMany | manyToMany
  deriving DecidableEq, Repr

namespace FieldVariant

/-- The names of the kinds, in order. -/
def names : List String := ["column", "many_to_one", "one_to_many", "many_to_many"]

/-- The message for an unknown kind. -/
def unknown (name : String) : String :=
  "unknown variant `" ++ name ++ "`, expected one of " ++
    ", ".intercalate (names.map fun n => "`" ++ n ++ "`")

/-- The kind named by a value: its name, or its index in `names`. -/
def ofContent : Content → Except String FieldVariant
  | .str "column" => pure .column
  | .str "many_to_one" => pure .manyToOne
  | .str "one_to_many" => pure .oneToMany
  | .str "many_to_many" => pure .manyToMany
  | .str s => throw (unknown s)
  | .number (.unsigned 0) => pure .column
  | .number (.unsigned 1) => pure .manyToOne
  | .number (.unsigned 2) => pure .oneToMany
  | .number (.unsigned 3) => pure .manyToMany
  | .number n@(.unsigned _) => throw (invalidValue n.unexpected "variant index 0 <= i < 4")
  | c => throw (invalidType c.unexpected "variant identifier")

end FieldVariant

/-- The members of a field's kind read so far. -/
structure KindSlots where
  column : Option String := none
  target : Option String := none
  columns : Option (List String) := none
  association : Option Table := none
  sourceColumns : Option (List String) := none
  targetColumns : Option (List String) := none

namespace KindSlots

/-- The member `column`. -/
def columnSlot : ContentSlot KindSlots :=
  { key := "column", filled := (·.column.isSome), read := fun s c => do
      return { s with column := some (← c.text) } }

/-- The member `target`. -/
def targetSlot : ContentSlot KindSlots :=
  { key := "target", filled := (·.target.isSome), read := fun s c => do
      return { s with target := some (← c.text) } }

/-- The member `columns`. -/
def columnsSlot : ContentSlot KindSlots :=
  { key := "columns", filled := (·.columns.isSome), read := fun s c => do
      return { s with columns := some (← c.texts) } }

/-- The member `association`. -/
def associationSlot : ContentSlot KindSlots :=
  { key := "association", filled := (·.association.isSome), read := fun s c => do
      return { s with association := some (← c.table) } }

/-- The member `source_columns`. -/
def sourceColumnsSlot : ContentSlot KindSlots :=
  { key := "source_columns", filled := (·.sourceColumns.isSome), read := fun s c => do
      return { s with sourceColumns := some (← c.texts) } }

/-- The member `target_columns`. -/
def targetColumnsSlot : ContentSlot KindSlots :=
  { key := "target_columns", filled := (·.targetColumns.isSome), read := fun s c => do
      return { s with targetColumns := some (← c.texts) } }

/-- The members of a kind. -/
def slots : FieldVariant → List (ContentSlot KindSlots)
  | .column => [columnSlot]
  | .manyToOne | .oneToMany => [targetSlot, columnsSlot]
  | .manyToMany => [targetSlot, associationSlot, sourceColumnsSlot, targetColumnsSlot]

/-- A member that must be given. -/
def need {α : Type} (key : String) : Option α → Except String α
  | some v => pure v
  | none => throw (missingField key)

/-- The field kind of a variant from its members. -/
def build (s : KindSlots) : FieldVariant → Except String FieldKind
  | .column => return .column (← need "column" s.column)
  | .manyToOne => return .manyToOne (← need "target" s.target) (← need "columns" s.columns)
  | .oneToMany => return .oneToMany (← need "target" s.target) (← need "columns" s.columns)
  | .manyToMany =>
    return .manyToMany (← need "target" s.target) (← need "association" s.association)
      (← need "source_columns" s.sourceColumns) (← need "target_columns" s.targetColumns)

end KindSlots

/-- The kind of a field from its members other than `name`, in order: the member `kind` is
decoded where it stands, then the kind's members from the others. -/
def FieldKind.ofMembers (entries : List (String × Content)) : Except String FieldKind := do
  let (variant, others) ← entries.foldlM
    (fun (acc : Option FieldVariant × List (String × Content)) (key, value) => do
      if key == "kind" then
        if acc.1.isSome then throw (duplicateField "kind")
        return (some (← FieldVariant.ofContent value), acc.2)
      else return (acc.1, acc.2 ++ [(key, value)])) (none, [])
  match variant with
  | none => throw (missingField "kind")
  | some v =>
    let s ← Content.members (KindSlots.slots v) {} others
    KindSlots.build s v

/-- A field in a document, with `depth` levels of nesting allowed: an object only. -/
def Decode.field (depth : Nat) : Decode Field := do
  match ← skipWhitespace with
  | none => peekError .eofValue
  | some 123 =>
    enter depth
    object do
      let mut name : Option String := none
      let mut others : List (String × Content) := []
      let mut first := true
      for _ in List.range (← remaining) do
        if !(← hasNextKey first) then break
        first := false
        eat
        let key ← string
        if key == "name" then
          if name.isSome then fault (duplicateField "name")
          colon
          name := some (← text)
        else
          colon
          others := others ++ [(key, ← content (depth - 1))]
      match name with
      | none => fault (missingField "name")
      | some n => orFault ((FieldKind.ofMembers others).map fun kind => { name := n, kind })
  | some _ => invalidTypeHere "struct Field"

/-- The members of a discriminator read so far. -/
structure DiscriminatorSlots where
  column : Option String := none
  value : Option String := none

/-- A discriminator in a document, with `depth` levels of nesting allowed. -/
def Decode.discriminator (depth : Nat) : Decode Discriminator :=
  Decode.record depth "Discriminator"
    [{ key := "column", filled := (·.column.isSome), read := fun s => do
        return { s with column := some (← Decode.text) } },
     { key := "value", filled := (·.value.isSome), read := fun s => do
        return { s with value := some (← Decode.text) } }]
    ({} : DiscriminatorSlots)
    fun missing s =>
      match s.column, s.value with
      | none, _ => throw (missing 0 "column")
      | _, none => throw (missing 1 "value")
      | some column, some value => pure { column, value }

/-- The members of an entity read so far. -/
structure EntitySlots where
  name : Option String := none
  table : Option Table := none
  id : Option (List String) := none
  fields : Option (List Field) := none
  discriminator : Option (Option Discriminator) := none

/-- An entity in a document, with `depth` levels of nesting allowed. -/
def Decode.entity (depth : Nat) : Decode Entity :=
  Decode.record depth "EntityMetadata"
    [{ key := "name", filled := (·.name.isSome), read := fun s => do
        return { s with name := some (← Decode.text) } },
     { key := "table", filled := (·.table.isSome), read := fun s => do
        return { s with table := some (← Decode.table (depth - 1)) } },
     { key := "id", filled := (·.id.isSome), read := fun s => do
        return { s with id := some (← Decode.list (depth - 1) Decode.text) } },
     { key := "fields", filled := (·.fields.isSome), read := fun s => do
        return { s with fields := some (← Decode.list (depth - 1) (Decode.field (depth - 2))) } },
     { key := "discriminator", filled := (·.discriminator.isSome), read := fun s => do
        return { s with
          discriminator := some (← Decode.optional (Decode.discriminator (depth - 1))) } }]
    ({} : EntitySlots)
    fun missing s =>
      match s.name, s.table, s.id, s.fields with
      | none, _, _, _ => throw (missing 0 "name")
      | _, none, _, _ => throw (missing 1 "table")
      | _, _, none, _ => throw (missing 2 "id")
      | _, _, _, none => throw (missing 3 "fields")
      | some name, some table, some id, some fields =>
        pure { name, table, id, fields, discriminator := s.discriminator.getD none }

/-- The members of a document read so far. -/
structure DocumentSlots where
  entities : Option (List Entity) := none
  classes : Option (List String) := none

/-- The schema a document describes: its entities in order, a later one replacing an earlier
one of the same name, and its classes. -/
def Schema.ofParts (entities : List Entity) (classes : List String) : Schema :=
  { entities.foldl Schema.withEntity {} with classes }

/-- A schema document, with `depth` levels of nesting allowed. -/
def Decode.document (depth : Nat) : Decode Schema :=
  Decode.record depth "SchemaDocument"
    [{ key := "entities", filled := (·.entities.isSome), read := fun s => do
        return { s with entities := some (← Decode.list (depth - 1) (Decode.entity (depth - 2))) } },
     { key := "classes", filled := (·.classes.isSome), read := fun s => do
        return { s with classes := some (← Decode.list (depth - 1) Decode.text) } }]
    ({} : DocumentSlots)
    fun missing s =>
      match s.entities with
      | none => throw (missing 0 "entities")
      | some entities => pure (Schema.ofParts entities (s.classes.getD []))

/-- The nesting a document may have. -/
def documentDepth : Nat := 128

/-- Read a schema document, or give the text of its first fault with its place. -/
def Schema.ofDocument (text : String) : Except String Schema :=
  (Decode.run (Decode.document documentDepth) text).mapError Failure.text

end EntityQuery
