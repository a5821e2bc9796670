import DocStore.Message.Decoder
import DocStore.Query.Compile

/-!
Values, ids, predicates, queries and compiled statements as messages: the text that is sent for each, and the reading
of the ones that are received.
-/

namespace DocStore.Message

open Json Decoder

/-- An alternative with what it carries. -/
def alternative (name : String) (v : Json) : Json := .object [(name, v)]

def strings (ss : List String) : Json := .array (ss.map .string)

/-! ### Values and ids -/

def ofValue : Value → Json
  | .null => .string "Null"
  | .string s => alternative "String" (.string s)
  | .integer n => alternative "Integer" (.integer n)
  | .fractal x => alternative "Fractal" (.number (.double x))
  | .bool b => alternative "Bool" (.bool b)
  | .dateTime i => alternative "DateTime" (.string i.text)
  | .guid g => alternative "Guid" (.string g.text)

def value : Decoder Value := fun d t =>
  match choice d t with
  | some (name, none, _) | some (name, some .null, _) => if name = "Null" then some .null else none
  | some (name, some t, d) =>
    match TypeCode.ofName? name with
    | some .string => (string d t).map .string
    | some .integer => (int64 d t).map .integer
    | some .fractal => (double d t).map .fractal
    | some .bool => (bool d t).map .bool
    | some .dateTime => (instant d t).map .dateTime
    | some .guid => (guid d t).map .guid
    | none => none
  | none => none

def ofId (id : DocId) : Json := alternative id.idType.name id.toJson

def id : Decoder DocId := fun d t =>
  match choice d t with
  | some (name, some t, d) =>
    match IdType.ofName? name with
    | some .identity => (int32 d t).map .identity
    | some .bigIdentity => (int64 d t).map .bigIdentity
    | some .guid => (guid d t).map .guid
    | some .string => (string d t).map .string
    | none => none
  | _ => none

def code : Decoder TypeCode := named TypeCode.ofName?

/-! ### Predicates -/

def ofMemberRef (m : MemberRef) : Json :=
  .object [("member_path", .string m.path), ("data_type", .string m.declared), ("data_type_code", .string m.code.name)]

def memberRef : Decoder MemberRef := fun d t =>
  match fields ["member_path", "data_type", "data_type_code"] d t with
  | some ([path, declared, tag], d) => do
    let path ← required string d path
    let declared ← required string d declared
    let tag ← required code d tag
    pure ⟨path, declared, tag⟩
  | _ => none

def comparisonName : Comparison → String
  | .eq => "Eq"
  | .ne => "Ne"
  | .lt => "Lt"
  | .le => "Lte"
  | .gt => "Gt"
  | .ge => "Gte"

def comparisonOfName? (s : String) : Option Comparison :=
  [Comparison.eq, .ne, .lt, .le, .gt, .ge].find? (comparisonName · == s)

def comparison : Decoder Comparison := named comparisonOfName?

def textMatchOfName? (s : String) : Option TextMatch :=
  [TextMatch.contains, .startsWith, .endsWith].find? (·.name == s)

def textMatch : Decoder TextMatch := named textMatchOfName?

mutual

def ofPredicate : Predicate → Json
  | .compare m op v => alternative "Compare" (.object
      [("member", ofMemberRef m), ("op", .string (comparisonName op)), ("value", ofValue v)])
  | .compareMembers l op r => alternative "CompareMembers" (.object
      [("left", ofMemberRef l), ("op", .string (comparisonName op)), ("right", ofMemberRef r)])
  | .textMatch m op t => alternative "StringMatch" (.object
      [("member", ofMemberRef m), ("op", .string op.name), ("value", .string t)])
  | .oneOf m vs => alternative "In" (.object [("member", ofMemberRef m), ("values", .array (vs.map ofValue))])
  | .between m lo hi => alternative "Between" (.object
      [("member", ofMemberRef m), ("low", ofValue lo), ("high", ofValue hi)])
  | .anyElement m op v => alternative "AnyElement" (.object
      [("member", ofMemberRef m), ("op", .string (comparisonName op)), ("value", ofValue v)])
  | .all ps => alternative "And" (.array (ofPredicates ps))
  | .any ps => alternative "Or" (.array (ofPredicates ps))
  | .not p => alternative "Not" (ofPredicate p)

def ofPredicates : List Predicate → List Json
  | [] => []
  | p :: ps => ofPredicate p :: ofPredicates ps

end

/-- The content of an alternative that holds no further predicates. -/
def leaf (name : String) (d : Nat) (t : Tree) : Option Predicate :=
  match name with
  | "Compare" =>
    match fields ["member", "op", "value"] d t with
    | some ([m, op, v], d) => do
      pure (.compare (← required memberRef d m) (← required comparison d op) (← required value d v))
    | _ => none
  | "CompareMembers" =>
    match fields ["left", "op", "right"] d t with
    | some ([l, op, r], d) => do
      pure (.compareMembers (← required memberRef d l) (← required comparison d op) (← required memberRef d r))
    | _ => none
  | "StringMatch" =>
    match fields ["member", "op", "value"] d t with
    | some ([m, op, v], d) => do
      pure (.textMatch (← required memberRef d m) (← required textMatch d op) (← required string d v))
    | _ => none
  | "In" =>
    match fields ["member", "values"] d t with
    | some ([m, vs], d) => do pure (.oneOf (← required memberRef d m) (← required (list value) d vs))
    | _ => none
  | "Between" =>
    match fields ["member", "low", "high"] d t with
    | some ([m, lo, hi], d) => do
      pure (.between (← required memberRef d m) (← required value d lo) (← required value d hi))
    | _ => none
  | "AnyElement" =>
    match fields ["member", "op", "value"] d t with
    | some ([m, op, v], d) => do
      pure (.anyElement (← required memberRef d m) (← required comparison d op) (← required value d v))
    | _ => none
  | _ => none

mutual

def predicate (depth : Nat) : Tree → Option Predicate
  | .object [(some name, t)] =>
    match depth with
    | 0 => none
    | d + 1 =>
      if name = "And" then (operands d t).map .all
      else if name = "Or" then (operands d t).map .any
      else if name = "Not" then (predicate d t).map .not
      else leaf name d t
  | _ => none

def operands (depth : Nat) : Tree → Option (List Predicate)
  | .array ts =>
    match depth with
    | 0 => none
    | d + 1 => predicates d ts
  | _ => none

def predicates (depth : Nat) : List Tree → Option (List Predicate)
  | [] => some []
  | t :: ts =>
    match predicate depth t, predicates depth ts with
    | some p, some ps => some (p :: ps)
    | _, _ => none

end

/-! ### Queries -/

def directionName : Direction → String
  | .asc => "Asc"
  | .desc => "Desc"

def directionOfName? (s : String) : Option Direction := [Direction.asc, .desc].find? (directionName · == s)

def ofSorting (s : Sorting) : Json :=
  .object [("member", ofMemberRef s.member), ("direction", .string (directionName s.direction))]

def sorting : Decoder Sorting := fun d t =>
  match fields ["member", "direction"] d t with
  | some ([m, dir], d) => do pure ⟨← required memberRef d m, ← required (named directionOfName?) d dir⟩
  | _ => none

def ofPaging (p : Paging) : Json := .object [("offset", .integer p.offset), ("count", .integer p.count)]

def paging : Decoder Paging := fun d t =>
  match fields ["offset", "count"] d t with
  | some ([offset, count], d) => do pure ⟨← required word64 d offset, ← required word64 d count⟩
  | _ => none

def ofQuery (q : Query) : Json :=
  .object [("predicate", (q.predicate.map ofPredicate).getD .null), ("sortings", .array (q.sortings.map ofSorting)),
    ("paging", (q.paging.map ofPaging).getD .null), ("includes", strings q.includes)]

def query : Decoder Query := fun d t =>
  match fields ["predicate", "sortings", "paging", "includes"] d t with
  | some ([p, ss, pg, inc], d) => do
    pure ⟨← optional predicate d p, ← required (list sorting) d ss, ← optional paging d pg,
      ← required (list string) d inc⟩
  | _ => none

/-! ### Compiled statements -/

def ofParameter (p : Parameter) : Json := .object [("name", .string p.name), ("value", ofValue p.value)]

def ofCompiledFilter (c : CompiledFilter) : Json :=
  .object [("sql", .string c.text), ("parameters", .array (c.parameters.map ofParameter))]

def ofCompiledQuery (c : CompiledQuery) : Json :=
  .object [("sql", .string c.text), ("parameters", .array (c.parameters.map ofParameter)),
    ("includes", strings c.includes)]

end DocStore.Message
