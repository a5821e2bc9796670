import DocStore.Schema.Name
import DocStore.Text.Blank
import DocStore.Text.Case

/-!
Configuration of a database: its name, the cache and the members left out of payloads. A configuration is put together
call by call or looked up by the names of settings, and checked before it is used.
-/

namespace DocStore

/-- How a read by id uses the cache. -/
inductive ConsumeMode where
  /-- serve what is cached, leave the cache as it is -/
  | readOnly
  /-- serve what is cached, store what had to be fetched -/
  | update
  /-- always fetch -/
  | ignore
deriving DecidableEq, Repr, Inhabited

namespace ConsumeMode

def name : ConsumeMode → String
  | readOnly => "read_only"
  | update => "update_cache_with_db_result"
  | ignore => "ignore_cache"

def writesBack : ConsumeMode → Bool
  | update => true
  | _ => false

/-- A text that a setting is compared as: without blanks at its ends and in lower case. The words it is compared with
    are ASCII, and no other letter has one of theirs as its lower case. -/
def word (s : String) : String := String.ofList (Text.foldCase (Text.trim s.toList))

/-- Reads a mode by its name or its short name. -/
def parse (s : String) : Except ConfigError ConsumeMode :=
  let w := word s
  if w = "read_only" || w = "readonly" then .ok readOnly
  else if w = "update_cache_with_db_result" || w = "update" then .ok update
  else if w = "ignore_cache" || w = "ignore" then .ok ignore
  else .error (.invalidValue "cache.consume_mode" s
    "expected read_only, update_cache_with_db_result or ignore_cache")

end ConsumeMode

structure CacheConfig where
  enabled : Bool := false
  /-- give every type an entry when it is first looked up -/
  autoEnable : Bool := false
  mode : ConsumeMode := .update
  /-- the keys of types that have an entry from the start -/
  structures : List String := []
deriving DecidableEq, Repr, Inhabited

structure Config where
  name : String := "quarry"
  cache : CacheConfig := {}
  /-- members that payloads leave out -/
  excluded : List String := []
deriving DecidableEq, Repr, Inhabited

namespace Config

/-! ### Calls -/

/-- A configuration of a name, with defaults for the rest. -/
def ofName (name : String) : Config := { name := name }

def withCache (c : Config) (mode : ConsumeMode) : Config := { c with cache := { c.cache with enabled := true, mode } }

def withAutoEnable (c : Config) (on : Bool) : Config := { c with cache := { c.cache with autoEnable := on } }

def withStructure (c : Config) (key : String) : Config :=
  { c with cache := { c.cache with structures := c.cache.structures ++ [key] } }

def withExcluded (c : Config) (member : String) : Config := { c with excluded := c.excluded ++ [member] }

/-! ### Checks -/

def checkStructures : List String → Except ConfigError Unit
  | [] => .ok ()
  | k :: ks =>
    match Key.parse k with
    | .error e => .error (.invalidValue "cache.enabled_structures" k e.message)
    | .ok _ => checkStructures ks

/-- Checks a configuration: the name, the keys, and that nothing is asked of a cache that is off. -/
def validate (c : Config) : Except ConfigError Unit := do
  if Text.isBlankText c.name then throw (.missingRequired "name")
  (validateIdentifier c.name).mapError fun e => .invalidValue "name" c.name e.message
  checkStructures c.cache.structures
  if !c.cache.enabled && (c.cache.autoEnable || !c.cache.structures.isEmpty) then
    throw (.invalidValue "cache.enabled" "false" "auto_enable and enabled_structures require the cache to be enabled")

/-! ### Settings -/

def parseBool (field value : String) : Except ConfigError Bool :=
  let w := ConsumeMode.word value
  if w = "1" || w = "true" || w = "yes" || w = "on" then .ok true
  else if w = "0" || w = "false" || w = "no" || w = "off" then .ok false
  else .error (.invalidValue field value "expected a boolean")

def splitCommas : List Char → List (List Char)
  | [] => [[]]
  | c :: cs =>
    if c = ',' then [] :: splitCommas cs
    else
      match splitCommas cs with
      | s :: ss => (c :: s) :: ss
      | [] => [[c]]

/-- The items of a list with commas, without blanks around them; empty ones do not count. -/
def listed (s : String) : List String :=
  (((splitCommas s.toList).map Text.trim).filter (!·.isEmpty)).map String.ofList

def setting {α : Type} (found : Option String) (default : α) (parse : String → Except ConfigError α) :
    Except ConfigError α :=
  match found with
  | some s => parse s
  | none => .ok default

/-- The configuration that a table of settings gives, checked. -/
def ofLookup (lookup : String → Option String) : Except ConfigError Config := do
  let base : Config := {}
  let name := (lookup "QUARRY_DB_NAME").getD base.name
  let enabled ← setting (lookup "QUARRY_CACHE_ENABLED") base.cache.enabled (parseBool "QUARRY_CACHE_ENABLED")
  let auto ← setting (lookup "QUARRY_CACHE_AUTO_ENABLE") base.cache.autoEnable (parseBool "QUARRY_CACHE_AUTO_ENABLE")
  let mode ← setting (lookup "QUARRY_CACHE_CONSUME_MODE") base.cache.mode ConsumeMode.parse
  let structures := ((lookup "QUARRY_CACHE_STRUCTURES").map listed).getD base.cache.structures
  let config : Config := ⟨name, ⟨enabled, auto, mode, structures⟩, base.excluded⟩
  config.validate
  pure config

end Config

end DocStore
