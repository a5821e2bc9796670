import DocStore.Error
import DocStore.Text.Decimal

/-! Identifiers, which become table names, and the keys of structure types: a name, or a namespace and a name. -/

namespace DocStore

/-- ASCII letters and the underscore. -/
def isNameStart (c : Char) : Bool := c.isAlpha || c = '_'

def isIdentifier (s : String) : Bool :=
  match s.toList with
  | [] => false
  | c :: cs => isNameStart c && cs.all fun c => isNameStart c || Text.isDigit c

/-- Refuses a text that is no identifier. -/
def validateIdentifier (s : String) : Except ValidationError Unit :=
  if isIdentifier s then .ok ()
  else .error (.invalidIdentifier s
    "must start with a letter or underscore and contain only letters, digits and underscores")

/-- The key under which a structure type is registered. -/
structure Key where
  text : String
deriving DecidableEq, Repr, Inhabited

namespace Key

instance : Ord Key := ⟨fun a b => compare a.text b.text⟩

/-- The key of a name in a namespace, which may be empty. -/
def ofNames (ns name : String) : Key := ⟨if ns.isEmpty then name else ns ++ "." ++ name⟩

/-- What stands before and after the last dot, if there is one. -/
def splitLast (cs : List Char) : Option (List Char × List Char) :=
  let reversed := cs.reverse
  match reversed.dropWhile (· != '.') with
  | [] => none
  | _ :: before => some (before.reverse, (reversed.takeWhile (· != '.')).reverse)

/-- Reads a key; the namespace is looked at first. -/
def parse (s : String) : Except ValidationError Key :=
  match splitLast s.toList with
  | some (ns, name) =>
    match validateIdentifier (String.ofList ns), validateIdentifier (String.ofList name) with
    | .error e, _ | .ok (), .error e => .error e
    | .ok (), .ok () => .ok ⟨s⟩
  | none => (validateIdentifier s).map fun _ => ⟨s⟩

end Key

end DocStore
