/-!
# Compile errors

Every failure on the way from query text to SQL is one `CompileError`: a `Reason`, the token
the failure was found at and its character offset when the failure has a place in the text,
and the query text itself. `Reason` is a closed set of causes; `Reason.code` names each cause
and `Reason.message` words it. `CompileError.message` is the reason followed by the query.
-/

namespace EntityQuery

/-- The cause of a failed compilation. -/
inductive Reason where
  | unexpectedCharacter (found : String)
  | unterminatedString
  | exponentNeedsDigits (found : String)
  | numberOutOfRange (literal : String)
  | nonPositiveArgument (text : String)
  | expected (expected found : String)
  | unexpectedNot
  | escapeRequiresString (found : String)
  | subqueryExpected (keyword : String)
  | unknownEntity (name : String)
  | unknownIdentifier (name : String)
  | unknownField (entity field : String)
  | duplicateAlias (aliasName : String)
  | notNavigable (path : String)
  | notAnEntity (path : String)
  | collectionNotAllowed (path : String)
  | compositeIdentity (entity : String)
  | schemaMismatch (entity field : String)
  | missingFrom
  | havingWithoutGroupBy
  | joinFetchNotSelected
  | memberOfItem
  | memberOfCollection (found : String)
  | memberOfTypeMismatch (item collection : String)
  | constructorNotQualified (found : String)
  | unknownClass (name : String)
  | ambiguousClass (name candidates : String)
  | mixedParameters
  | objectOutsideSelect
  | wrongArgumentCount (function expected : String)
  | emptyInList
  | bulkStatementJoin (entity : String)
  | compositeAssignment (field : String)
  deriving DecidableEq, Repr

namespace Reason

/-- The stable name of a cause. -/
def code : Reason → String
  | .unexpectedCharacter _ => "UnexpectedCharacter"
  | .unterminatedString => "UnterminatedString"
  | .exponentNeedsDigits _ => "ExponentNeedsDigits"
  | .numberOutOfRange _ => "NumberOutOfRange"
  | .nonPositiveArgument _ => "NonPositiveArgument"
  | .expected _ _ => "Expected"
  | .unexpectedNot => "UnexpectedNot"
  | .escapeRequiresString _ => "EscapeRequiresString"
  | .subqueryExpected _ => "SubqueryExpected"
  | .unknownEntity _ => "UnknownEntity"
  | .unknownIdentifier _ => "UnknownIdentifier"
  | .unknownField _ _ => "UnknownField"
  | .duplicateAlias _ => "DuplicateAlias"
  | .notNavigable _ => "NotNavigable"
  | .notAnEntity _ => "NotAnEntity"
  | .collectionNotAllowed _ => "CollectionNotAllowed"
  | .compositeIdentity _ => "CompositeIdentity"
  | .schemaMismatch _ _ => "SchemaMismatch"
  | .missingFrom => "MissingFrom"
  | .havingWithoutGroupBy => "HavingWithoutGroupBy"
  | .joinFetchNotSelected => "JoinFetchNotSelected"
  | .memberOfItem => "MemberOfItem"
  | .memberOfCollection _ => "MemberOfCollection"
  | .memberOfTypeMismatch _ _ => "MemberOfTypeMismatch"
  | .constructorNotQualified _ => "ConstructorNotQualified"
  | .unknownClass _ => "UnknownClass"
  | .ambiguousClass _ _ => "AmbiguousClass"
  | .mixedParameters => "MixedParameters"
  | .objectOutsideSelect => "ObjectOutsideSelect"
  | .wrongArgumentCount _ _ => "WrongArgumentCount"
  | .emptyInList => "EmptyInList"
  | .bulkStatementJoin _ => "BulkStatementJoin"
  | .compositeAssignment _ => "CompositeAssignment"

/-- The wording of a cause. -/
def message : Reason → String
  | .unexpectedCharacter found => "unexpected character " ++ found
  | .unterminatedString => "unterminated string literal"
  | .exponentNeedsDigits found => "exponent needs digits at " ++ found
  | .numberOutOfRange literal => "numeric literal '" ++ literal ++ "' is out of range"
  | .nonPositiveArgument text => "'" ++ text ++ "' must refer to a positive argument"
  | .expected what found => "expected " ++ what ++ " at " ++ found
  | .unexpectedNot => "'NOT' is not expected here"
  | .escapeRequiresString found => "expected string after ESCAPE at " ++ found
  | .subqueryExpected keyword => keyword ++ " must be followed by '(SELECT'"
  | .unknownEntity name => "'" ++ name ++ "' is an unknown entity"
  | .unknownIdentifier name => "'" ++ name ++ "' is an unknown table or column"
  | .unknownField entity field => "'" ++ field ++ "' is an unknown field in entity " ++ entity
  | .duplicateAlias aliasName => "alias '" ++ aliasName ++ "' is declared more than once"
  | .notNavigable path => "'" ++ path ++ "' is not a relationship and cannot be navigated"
  | .notAnEntity path => "'" ++ path ++ "' does not name an entity"
  | .collectionNotAllowed path => "collection-valued path '" ++ path ++ "' cannot be used here"
  | .compositeIdentity entity =>
    "entity " ++ entity ++ " has a composite identity and cannot be used as a single value"
  | .schemaMismatch entity field =>
    "relationship " ++ entity ++ "." ++ field ++ " does not match the identity of its target"
  | .missingFrom => "a query without FROM may only select date/time functions"
  | .havingWithoutGroupBy => "HAVING without GROUP BY is not supported"
  | .joinFetchNotSelected =>
    "all associations referenced by JOIN FETCH must belong to an entity returned by the query"
  | .memberOfItem => "MEMBER OF requires an entity-valued item or a parameter"
  | .memberOfCollection found => "MEMBER OF requires an entity-valued collection at " ++ found
  | .memberOfTypeMismatch item collection =>
    item ++ " cannot be a member of a collection of " ++ collection
  | .constructorNotQualified found =>
    "SELECT NEW requires a fully qualified class name at " ++ found
  | .unknownClass name => "'" ++ name ++ "' is an unknown class"
  | .ambiguousClass name candidates =>
    "'" ++ name ++ "' is ambiguous, it could be any of " ++ candidates
  | .mixedParameters => "named parameters cannot be mixed with positional parameters"
  | .objectOutsideSelect => "OBJECT() may only appear in the SELECT clause"
  | .wrongArgumentCount function count =>
    function ++ " expects " ++ count ++ " argument(s)"
  | .emptyInList => "IN requires at least one value"
  | .bulkStatementJoin entity =>
    "UPDATE and DELETE can only reach " ++ entity ++ " through an inner join in WHERE"
  | .compositeAssignment field =>
    "'" ++ field ++ "' maps to several columns and can only be set to NULL"

end Reason

/-- A failed compilation: the cause, the token it was found at and that token's character
offset (both absent for causes found after parsing), and the query text. -/
structure CompileError where
  reason : Reason
  token : Option String := none
  position : Option Nat := none
  query : String
  deriving DecidableEq, Repr

namespace CompileError

/-- The cause's wording, then the query it was found in. -/
def message (e : CompileError) : String :=
  e.reason.message ++ "\nin \"" ++ e.query ++ "\""

/-- The name of the cause. -/
def code (e : CompileError) : String := e.reason.code

end CompileError

end EntityQuery
