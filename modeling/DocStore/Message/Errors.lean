import DocStore.Error
import DocStore.Json.Basic

/-! Errors as records: the code under `kind`, and what the message tells under names of its own. -/

namespace DocStore.Message

def textOf? (v : Json) (field : String) : Option String := (v.member? field).bind Json.string?

def textsOf? (v : Json) (field : String) : Option (List String) :=
  match v.member? field with
  | some (.array items) => items.mapM Json.string?
  | _ => none

/-- An entry that could not be cleared: its key and the reason. -/
def cacheFailure? : Json → Option CacheFailure
  | .array [.string key, .string reason] => some ⟨key, reason⟩
  | _ => none

def cacheFailures? (v : Json) : Option (List CacheFailure) :=
  match v.member? "failures" with
  | some (.array items) => items.mapM cacheFailure?
  | _ => none

def error? (v : Json) : Option Error := do
  let s := textOf? v
  match ← s "kind" with
  | "Validation.RequiredFieldMissing" => pure (.validation (.requiredFieldMissing (← s "field")))
  | "Validation.EmptyCollection" => pure (.validation (.emptyCollection (← s "field")))
  | "Validation.InvalidValue" => pure (.validation (.invalidValue (← s "field") (← s "reason")))
  | "Validation.InvalidId" => pure (.validation (.invalidId (← s "id_type") (← s "reason")))
  | "Validation.InvalidIdentifier" => pure (.validation (.invalidIdentifier (← s "identifier") (← s "reason")))
  | "Validation.UnknownStructure" => pure (.validation (.unknownStructure (← s "structure")))
  | "Query.UnknownMember" => pure (.query (.unknownMember (← s "structure") (← s "member_path")))
  | "Query.TypeMismatch" => pure (.query (.typeMismatch (← s "member_path") (← s "expected") (← s "actual")))
  | "Query.UnsupportedOperator" =>
    pure (.query (.unsupportedOperator (← s "member_path") (← s "operator") (← s "reason")))
  | "Query.NotEnumerable" => pure (.query (.notEnumerable (← s "member_path")))
  | "Query.EmptyLogical" => pure (.query (.emptyLogical (← s "operator")))
  | "Query.PagingWithoutOrdering" => pure (.query .pagingWithoutOrdering)
  | "Query.InvalidPaging" => pure (.query (.invalidPaging (← s "reason")))
  | "Unsupported.IdType" => pure (.unsupported (.idType (← s "operation") (← s "structure") (← s "id_type")))
  | "Cache.LockPoisoned" => pure (.cache (.lockPoisoned (← s "structure")))
  | "Cache.Backend" => pure (.cache (.backend (← s "structure") (← s "reason")))
  | "Cache.ClearFailed" => pure (.cache (.clearFailed (← textsOf? v "attempted") (← cacheFailures? v)))
  | "Store.ConnectionFailed" => pure (.store (.connectionFailed (← s "reason")))
  | "Store.ConnectionClosed" => pure (.store .connectionClosed)
  | "Store.QueryFailed" => pure (.store (.queryFailed (← s "reason")))
  | "Store.SchemaFailed" => pure (.store (.schemaFailed (← s "structure") (← s "reason")))
  | "Store.NotFound" => pure (.store (.notFound (← s "structure") (← s "id")))
  | "Store.DatabaseFailed" => pure (.store (.databaseFailed (← s "reason")))
  | "Store.LockPoisoned" => pure (.store .lockPoisoned)
  | "Session.AlreadyDisposed" => pure (.session .alreadyDisposed)
  | "Config.MissingRequired" => pure (.config (.missingRequired (← s "field")))
  | "Config.InvalidValue" => pure (.config (.invalidValue (← s "field") (← s "value") (← s "reason")))
  | "Serialization.Serialize" => pure (.serialization (.serialize (← s "reason")))
  | "Serialization.Deserialize" => pure (.serialization (.deserialize (← s "reason")))
  | _ => none

end DocStore.Message
