/-!
What can go wrong, by the part that refuses: one type per part, `Error` over all of them, and the message and the code
of each. A message is for people; a code names the cause and nothing else.
-/

namespace DocStore

/-- Input that is refused before anything is read or written. -/
inductive ValidationError where
  | requiredFieldMissing (field : String)
  | emptyCollection (field : String)
  | invalidValue (field reason : String)
  | invalidId (idType reason : String)
  | invalidIdentifier (identifier reason : String)
  | unknownStructure (key : String)
deriving DecidableEq, Repr

/-- A predicate or query that has no meaning over a schema. -/
inductive QueryError where
  | unknownMember (key path : String)
  | typeMismatch (path expected actual : String)
  | unsupportedOperator (path operator reason : String)
  | notEnumerable (path : String)
  | emptyLogical (operator : String)
  | pagingWithoutOrdering
  | invalidPaging (reason : String)
deriving DecidableEq, Repr

/-- An operation that the id type of a structure does not allow. -/
inductive UnsupportedError where
  | idType (operation key idType : String)
deriving DecidableEq, Repr

/-- One entry that could not be cleared. -/
structure CacheFailure where
  key : String
  reason : String
deriving DecidableEq, Repr

inductive CacheError where
  | lockPoisoned (key : String)
  | backend (key reason : String)
  | clearFailed (attempted : List String) (failures : List CacheFailure)
deriving DecidableEq, Repr

inductive StoreError where
  | connectionFailed (reason : String)
  | connectionClosed
  | queryFailed (reason : String)
  | schemaFailed (key reason : String)
  | notFound (key id : String)
  | databaseFailed (reason : String)
  | lockPoisoned
deriving DecidableEq, Repr

inductive SessionError where
  | alreadyDisposed
deriving DecidableEq, Repr

inductive ConfigError where
  | missingRequired (field : String)
  | invalidValue (field value reason : String)
deriving DecidableEq, Repr

inductive SerializationError where
  | serialize (reason : String)
  | deserialize (reason : String)
deriving DecidableEq, Repr

inductive Error where
  | validation (e : ValidationError)
  | query (e : QueryError)
  | unsupported (e : UnsupportedError)
  | cache (e : CacheError)
  | store (e : StoreError)
  | session (e : SessionError)
  | config (e : ConfigError)
  | serialization (e : SerializationError)
deriving DecidableEq, Repr

def ValidationError.message : ValidationError → String
  | .requiredFieldMissing field => s!"Required field missing: {field}"
  | .emptyCollection field => s!"Collection {field} must contain at least one item"
  | .invalidValue field reason => s!"Invalid value for {field}: {reason}"
  | .invalidId idType reason => s!"Invalid id for {idType} structure: {reason}"
  | .invalidIdentifier identifier reason => s!"Invalid identifier '{identifier}': {reason}"
  | .unknownStructure key => s!"Structure not registered: {key}"

def QueryError.message : QueryError → String
  | .unknownMember key path => s!"Member '{path}' is not indexed by structure {key}"
  | .typeMismatch path expected actual => s!"Type mismatch on member '{path}': expected {expected}, got {actual}"
  | .unsupportedOperator path operator reason => s!"Operator {operator} is not supported on member '{path}': {reason}"
  | .notEnumerable path => s!"Member '{path}' is not enumerable"
  | .emptyLogical operator => s!"Logical {operator} requires at least one operand"
  | .pagingWithoutOrdering => "Paging with an offset requires at least one sorting"
  | .invalidPaging reason => s!"Invalid paging: {reason}"

def UnsupportedError.message : UnsupportedError → String
  | .idType operation key t => s!"{operation} is not supported for {t} ids of structure {key}"

def CacheFailure.message (f : CacheFailure) : String := f.key ++ ": " ++ f.reason

def CacheError.message : CacheError → String
  | .lockPoisoned key => s!"Cache lock poisoned for {key}"
  | .backend key reason => s!"Cache backend failure for {key}: {reason}"
  | .clearFailed attempted failures =>
    let failed := failures.length
    let all := attempted.length
    let reasons := "; ".intercalate (failures.map CacheFailure.message)
    s!"Cache clear failed for {failed} of {all} entries: {reasons}"

def StoreError.message : StoreError → String
  | .connectionFailed reason => s!"Connection failed: {reason}"
  | .connectionClosed => "Connection already closed"
  | .queryFailed reason => s!"Query failed: {reason}"
  | .schemaFailed key reason => s!"Schema operation failed for {key}: {reason}"
  | .notFound key id => s!"Structure {key} with id {id} not found"
  | .databaseFailed reason => s!"Database operation failed: {reason}"
  | .lockPoisoned => "Store lock poisoned"

def SessionError.message : SessionError → String
  | .alreadyDisposed => "Session already disposed"

def ConfigError.message : ConfigError → String
  | .missingRequired field => s!"Missing required configuration field: {field}"
  | .invalidValue field value reason => s!"Invalid value for {field}: {value} - {reason}"

def SerializationError.message : SerializationError → String
  | .serialize reason => s!"Serialization failed: {reason}"
  | .deserialize reason => s!"Deserialization failed: {reason}"

/-- The message names the part before its own message. -/
def Error.message : Error → String
  | .validation e => "Validation error: " ++ e.message
  | .query e => "Query error: " ++ e.message
  | .unsupported e => "Unsupported operation: " ++ e.message
  | .cache e => "Cache error: " ++ e.message
  | .store e => "Store error: " ++ e.message
  | .session e => "Session error: " ++ e.message
  | .config e => "Config error: " ++ e.message
  | .serialization e => "Serialization error: " ++ e.message

/-! ### Codes -/

def ValidationError.code : ValidationError → String
  | .requiredFieldMissing _ => "RequiredFieldMissing"
  | .emptyCollection _ => "EmptyCollection"
  | .invalidValue _ _ => "InvalidValue"
  | .invalidId _ _ => "InvalidId"
  | .invalidIdentifier _ _ => "InvalidIdentifier"
  | .unknownStructure _ => "UnknownStructure"

def QueryError.code : QueryError → String
  | .unknownMember _ _ => "UnknownMember"
  | .typeMismatch _ _ _ => "TypeMismatch"
  | .unsupportedOperator _ _ _ => "UnsupportedOperator"
  | .notEnumerable _ => "NotEnumerable"
  | .emptyLogical _ => "EmptyLogical"
  | .pagingWithoutOrdering => "PagingWithoutOrdering"
  | .invalidPaging _ => "InvalidPaging"

def UnsupportedError.code : UnsupportedError → String
  | .idType _ _ _ => "IdType"

def CacheError.code : CacheError → String
  | .lockPoisoned _ => "LockPoisoned"
  | .backend _ _ => "Backend"
  | .clearFailed _ _ => "ClearFailed"

def StoreError.code : StoreError → String
  | .connectionFailed _ => "ConnectionFailed"
  | .connectionClosed => "ConnectionClosed"
  | .queryFailed _ => "QueryFailed"
  | .schemaFailed _ _ => "SchemaFailed"
  | .notFound _ _ => "NotFound"
  | .databaseFailed _ => "DatabaseFailed"
  | .lockPoisoned => "LockPoisoned"

def SessionError.code : SessionError → String
  | .alreadyDisposed => "AlreadyDisposed"

def ConfigError.code : ConfigError → String
  | .missingRequired _ => "MissingRequired"
  | .invalidValue _ _ _ => "InvalidValue"

def SerializationError.code : SerializationError → String
  | .serialize _ => "Serialize"
  | .deserialize _ => "Deserialize"

def Error.code : Error → String
  | .validation e => "Validation." ++ e.code
  | .query e => "Query." ++ e.code
  | .unsupported e => "Unsupported." ++ e.code
  | .cache e => "Cache." ++ e.code
  | .store e => "Store." ++ e.code
  | .session e => "Session." ++ e.code
  | .config e => "Config." ++ e.code
  | .serialization e => "Serialization." ++ e.code

instance : Coe ValidationError Error := ⟨.validation⟩
instance : Coe QueryError Error := ⟨.query⟩
instance : Coe UnsupportedError Error := ⟨.unsupported⟩
instance : Coe CacheError Error := ⟨.cache⟩
instance : Coe StoreError Error := ⟨.store⟩
instance : Coe SessionError Error := ⟨.session⟩
instance : Coe ConfigError Error := ⟨.config⟩
instance : Coe SerializationError Error := ⟨.serialization⟩

end DocStore
