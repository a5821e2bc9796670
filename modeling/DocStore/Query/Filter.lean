import DocStore.Query.Predicate
import DocStore.Schema.Basic

/-!
Predicates checked against a schema. A filter is what is left of a predicate whose members are declared, whose literals
fit them and whose operators they support; checking goes through a predicate from left to right and stops at the first
thing that does not fit.
-/

namespace DocStore

/-- A predicate that has a meaning over a schema. -/
inductive Filter where
  /-- the structure has a value for the member -/
  | present (m : Member)
  | compare (m : Member) (op : Comparison) (v : Value)
  | compareMembers (left : Member) (op : Comparison) (right : Member)
  | textMatch (m : Member) (op : TextMatch) (text : String)
  | never
  | oneOf (m : Member) (vs : List Value)
  | between (m : Member) (low high : Value)
  | all (fs : List Filter)
  | any (fs : List Filter)
  | not (f : Filter)
deriving Repr, Inhabited

namespace Schema

variable (s : Schema)

/-- The member of a reference, which must have the code that the reference says. -/
def resolve (r : MemberRef) : Except QueryError Member := do
  let m ← s.requireMember r.path
  if m.code = r.code then pure m else throw (.typeMismatch r.path m.code.name r.code.name)

end Schema

namespace Member

variable (m : Member)

/-- A literal for the member: not null, of its code, an integer being widened where a fractal is wanted. -/
def literal (v : Value) : Except QueryError Value :=
  match v.code? with
  | none => .error (.typeMismatch m.path m.code.name v.kind)
  | some c =>
    if !m.code.accepts c then .error (.typeMismatch m.path m.code.name v.kind)
    else
      match m.code, v with
      | .fractal, .integer n => .ok (.fractal (Binary64.ofInt n))
      | _, v => .ok v

def literals : List Value → Except QueryError (List Value)
  | [] => .ok []
  | v :: vs =>
    match m.literal v with
    | .error e => .error e
    | .ok x => (literals vs).map (x :: ·)

def checkOperator (op : Comparison) : Except QueryError Unit :=
  if op.isEquality || m.code.isOrdered then .ok ()
  else .error (.unsupportedOperator m.path op.sql (m.code.name ++ " members only support = and <>"))

end Member

namespace Predicate

def checkCompare (s : Schema) (r : MemberRef) (op : Comparison) (v : Value) : Except QueryError Filter := do
  let m ← s.resolve r
  if v.isNull then
    match op with
    | .eq => pure (.not (.present m))
    | .ne => pure (.present m)
    | _ => throw (.unsupportedOperator r.path op.sql "null only supports = and <>")
  else
    m.checkOperator op
    let x ← m.literal v
    pure (.compare m op x)

/-- Checks a comparison of two members, the right one of which has one value at most. -/
def checkMembers (s : Schema) (l : MemberRef) (op : Comparison) (r : MemberRef) : Except QueryError Filter := do
  let left ← s.resolve l
  let right ← s.resolve r
  if right.enumerable then
    throw (.unsupportedOperator r.path op.sql
      "the right-hand member of a member comparison must not be enumerable")
  if !left.code.comparableWith right.code then throw (.typeMismatch r.path left.code.name right.code.name)
  left.checkOperator op
  pure (.compareMembers left op right)

def checkTextMatch (s : Schema) (r : MemberRef) (op : TextMatch) (text : String) : Except QueryError Filter := do
  let m ← s.resolve r
  if m.code ≠ .string then
    throw (.unsupportedOperator r.path op.name (m.code.name ++ " members cannot be pattern matched"))
  pure (.textMatch m op text)

def checkOneOf (s : Schema) (r : MemberRef) (vs : List Value) : Except QueryError Filter := do
  let m ← s.resolve r
  if vs.isEmpty then pure .never
  else
    let xs ← m.literals vs
    pure (.oneOf m xs)

def checkBetween (s : Schema) (r : MemberRef) (low high : Value) : Except QueryError Filter := do
  let m ← s.resolve r
  m.checkOperator .ge
  let lo ← m.literal low
  let hi ← m.literal high
  pure (.between m lo hi)

def checkAnyElement (s : Schema) (r : MemberRef) (op : Comparison) (v : Value) : Except QueryError Filter := do
  let m ← s.resolve r
  if !m.enumerable then throw (.notEnumerable r.path)
  if v.isNull then throw (.unsupportedOperator r.path op.sql "elements are never null")
  checkCompare s r op v

mutual

def check (s : Schema) : Predicate → Except QueryError Filter
  | .compare m op v => checkCompare s m op v
  | .compareMembers l op r => checkMembers s l op r
  | .textMatch m op t => checkTextMatch s m op t
  | .oneOf m vs => checkOneOf s m vs
  | .between m lo hi => checkBetween s m lo hi
  | .anyElement m op v => checkAnyElement s m op v
  | .all ps => if ps.isEmpty then .error (.emptyLogical "and") else (checkAll s ps).map .all
  | .any ps => if ps.isEmpty then .error (.emptyLogical "or") else (checkAll s ps).map .any
  | .not p => (check s p).map .not

def checkAll (s : Schema) : List Predicate → Except QueryError (List Filter)
  | [] => .ok []
  | p :: ps =>
    match check s p with
    | .error e => .error e
    | .ok f => (checkAll s ps).map (f :: ·)

end

end Predicate

end DocStore
