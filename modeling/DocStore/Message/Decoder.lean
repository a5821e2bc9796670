import DocStore.Guid
import DocStore.Json.Reading
import DocStore.Time.Reading

/-!
Reading records and choices out of JSON texts. A record is an object of its fields, unknown ones being skipped
unread, or an array of them in their order; a choice is an object of one member, or the bare name of an alternative
that carries nothing. What is read may be nested as deeply as a value may.
-/

namespace DocStore.Message

open Json

/-- Reads a tree of at most so many containers around one another. -/
abbrev Decoder (α : Type) := Nat → Tree → Option α

/-- What a record holds for a field. -/
inductive Field where
  | present (t : Tree)
  /-- an object does not have the field -/
  | absent
  /-- an array ends before the field -/
  | beyondEnd

namespace Decoder

variable {α : Type}

def integer (lo hi : Int) : Decoder Int := fun _ t =>
  match t with
  | .number d =>
    match Number.ofDecimal? d with
    | some (.integer n) => if lo ≤ n && n ≤ hi then some n else none
    | _ => none
  | _ => none

def int64 : Decoder Int := integer Text.minInt64 Text.maxInt64

def int32 : Decoder Int := integer (-2147483648) 2147483647

def word64 : Decoder Nat := fun d t => (integer 0 18446744073709551615 d t).map Int.toNat

def double : Decoder Binary64 := fun _ t =>
  match t with
  | .number d =>
    match Number.ofDecimal? d with
    | some (.integer n) => some (Binary64.ofInt n)
    | some (.double x) => some x
    | none => none
  | _ => none

def bool : Decoder Bool := fun _ t =>
  match t with
  | .bool b => some b
  | _ => none

def string : Decoder String := fun _ t =>
  match t with
  | .string s => s
  | _ => none

def parsed (parse : String → Option α) : Decoder α := fun d t => (string d t).bind parse

def guid : Decoder Guid := parsed Guid.ofText?

def instant : Decoder Instant := parsed Instant.ofMessage?

def nullable (dec : Decoder α) : Decoder (Option α) := fun d t =>
  match t with
  | .null => some none
  | t => (dec d t).map some

def each (dec : Decoder α) (d : Nat) : List Tree → Option (List α)
  | [] => some []
  | t :: ts =>
    match dec d t, each dec d ts with
    | some a, some as => some (a :: as)
    | _, _ => none

def list (dec : Decoder α) : Decoder (List α) := fun d t =>
  match d, t with
  | d + 1, .array ts => each dec d ts
  | _, _ => none

/-- The members of an object sorted by key, of repeated keys the last one. -/
def entries (dec : Decoder α) (d : Nat) : List (Option String × Tree) → Option (List (String × α))
  | [] => some []
  | (k, t) :: ms =>
    match k, dec d t, entries dec d ms with
    | some k, some a, some rest => some ((k, a) :: rest)
    | _, _, _ => none

/-- Keeps the later of two entries with one key and puts the keys in order. -/
def insertEntry (k : String) (a : α) : List (String × α) → List (String × α)
  | [] => [(k, a)]
  | (k', a') :: es =>
    if k < k' then (k, a) :: (k', a') :: es
    else if k = k' then (k, a) :: es
    else (k', a') :: insertEntry k a es

def table (dec : Decoder α) : Decoder (List (String × α)) := fun d t =>
  match d, t with
  | d + 1, .object ms => (entries dec d ms).map fun es => es.foldl (fun acc (k, a) => insertEntry k a acc) []
  | _, _ => none

/-! ### Records -/

/-- The fields of an object, in the order of their names; none if one of them occurs twice. -/
def fieldsOfObject (names : List String) (ms : List (Option String × Tree)) : Option (List Field) :=
  if ms.any fun (k, _) => k.isNone then none
  else
    names.mapM fun name =>
      match ms.filter fun (k, _) => k == some name with
      | [] => some .absent
      | [(_, t)] => some (.present t)
      | _ => none

/-- The fields of an array; none if it has further items. -/
def fieldsOfArray : List String → List Tree → Option (List Field)
  | [], [] => some []
  | [], _ => none
  | _ :: names, [] => (fieldsOfArray names []).map (.beyondEnd :: ·)
  | _ :: names, t :: ts => (fieldsOfArray names ts).map (.present t :: ·)

/-- The fields of a record of the given names, and how deeply they may be nested. -/
def fields (names : List String) : Decoder (List Field × Nat) := fun d t =>
  match d, t with
  | d + 1, .object ms => (fieldsOfObject names ms).map (·, d)
  | d + 1, .array ts => (fieldsOfArray names ts).map (·, d)
  | _, _ => none

/-- A field that must be there. -/
def required (dec : Decoder α) (d : Nat) : Field → Option α
  | .present t => dec d t
  | _ => none

/-- A field that may be null, and that an object need not have. -/
def optional (dec : Decoder α) (d : Nat) : Field → Option (Option α)
  | .present t => nullable dec d t
  | .absent => some none
  | .beyondEnd => none

def defaulted (default : α) (dec : Decoder α) (d : Nat) : Field → Option α
  | .present t => dec d t
  | _ => some default

/-! ### Choices -/

/-- The name of an alternative and what it carries: nothing if the name stands alone. -/
def choice : Decoder (String × Option Tree × Nat) := fun d t =>
  match d, t with
  | d, .string (some name) => some (name, none, d)
  | d + 1, .object [(some name, t)] => some (name, some t, d)
  | _, _ => none

/-- An alternative that carries nothing, which an object may say by a null. -/
def named (ofName? : String → Option α) : Decoder α := fun d t =>
  match choice d t with
  | some (name, none, _) | some (name, some .null, _) => ofName? name
  | _ => none

end Decoder

def Decoder.ofText? {α : Type} (dec : Decoder α) (s : String) : Option α :=
  (Tree.ofText? s).bind (dec maxDepth)

end DocStore.Message
