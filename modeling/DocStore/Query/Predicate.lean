import DocStore.Value

/-!
What can be asked for: predicates over the members of a structure, and queries, which add an order, a page and
inclusions. Every reference to a member carries the code it is taken to have.
-/

namespace DocStore

/-- A member as a predicate refers to it. -/
structure MemberRef where
  path : String
  /-- the name of the declared type, for information only -/
  declared : String
  code : TypeCode
deriving DecidableEq, Repr, Inhabited

/-- The reference to a path whose declared type is the code's own name. -/
def MemberRef.new (path : String) (code : TypeCode) : MemberRef := ⟨path, code.name, code⟩

inductive Comparison where
  | eq
  | ne
  | lt
  | le
  | gt
  | ge
deriving DecidableEq, Repr, Inhabited

namespace Comparison

def sql : Comparison → String
  | eq => "="
  | ne => "<>"
  | lt => "<"
  | le => "<="
  | gt => ">"
  | ge => ">="

/-- Whether the operator only tells equal from different. -/
def isEquality : Comparison → Bool
  | eq | ne => true
  | _ => false

/-- Whether the operator holds of two things in a given order. -/
def holds : Comparison → Ordering → Bool
  | eq, o => o == .eq
  | ne, o => o != .eq
  | lt, o => o == .lt
  | le, o => o != .gt
  | gt, o => o == .gt
  | ge, o => o != .lt

end Comparison

/-- Where a text is looked for. -/
inductive TextMatch where
  | contains
  | startsWith
  | endsWith
deriving DecidableEq, Repr, Inhabited

def TextMatch.name : TextMatch → String
  | contains => "Contains"
  | startsWith => "StartsWith"
  | endsWith => "EndsWith"

inductive Predicate where
  /-- a value of the member against a literal; against null, whether the member has a value -/
  | compare (m : MemberRef) (op : Comparison) (v : Value)
  /-- a value of one member against that of another -/
  | compareMembers (left : MemberRef) (op : Comparison) (right : MemberRef)
  | textMatch (m : MemberRef) (op : TextMatch) (text : String)
  | oneOf (m : MemberRef) (vs : List Value)
  /-- both bounds count -/
  | between (m : MemberRef) (low high : Value)
  /-- some value of an enumerable member against a literal -/
  | anyElement (m : MemberRef) (op : Comparison) (v : Value)
  | all (ps : List Predicate)
  | any (ps : List Predicate)
  | not (p : Predicate)
deriving Repr, Inhabited

namespace Predicate

/-- Both hold. A conjunction on the left takes the other one in. -/
def and : Predicate → Predicate → Predicate
  | all ps, q => all (ps ++ [q])
  | p, q => all [p, q]

/-- One of them holds. A disjunction on the left takes the other one in. -/
def or : Predicate → Predicate → Predicate
  | any ps, q => any (ps ++ [q])
  | p, q => any [p, q]

mutual

/-- The paths of the members, in the order in which they are met. -/
def paths : Predicate → List String
  | compare m _ _ | textMatch m _ _ | oneOf m _ | between m _ _ | anyElement m _ _ => [m.path]
  | compareMembers l _ r => [l.path, r.path]
  | all ps | any ps => pathsOfAll ps
  | not p => paths p

def pathsOfAll : List Predicate → List String
  | [] => []
  | p :: ps => paths p ++ pathsOfAll ps

end

end Predicate

inductive Direction where
  | asc
  | desc
deriving DecidableEq, Repr, Inhabited

def Direction.sql : Direction → String
  | asc => "asc"
  | desc => "desc"

structure Sorting where
  member : MemberRef
  direction : Direction
deriving DecidableEq, Repr, Inhabited

/-- How many structures to leave out and how many to take. -/
structure Paging where
  offset : Nat
  count : Nat
deriving DecidableEq, Repr, Inhabited

/-- A query. The empty one asks for everything in the order of the ids. -/
structure Query where
  predicate : Option Predicate := none
  sortings : List Sorting := []
  paging : Option Paging := none
  includes : List String := []
deriving Repr, Inhabited

namespace Query

def filter (q : Query) (p : Predicate) : Query :=
  { q with predicate := some (match q.predicate with
    | some p' => p'.and p
    | none => p) }

def orderBy (q : Query) (m : MemberRef) (d : Direction) : Query := { q with sortings := q.sortings ++ [⟨m, d⟩] }

def page (q : Query) (offset count : Nat) : Query := { q with paging := some ⟨offset, count⟩ }

def takeFirst (q : Query) (count : Nat) : Query := q.page 0 count

def including (q : Query) (path : String) : Query := { q with includes := q.includes ++ [path] }

def hasPredicate (q : Query) : Bool := q.predicate.isSome

def isEmpty (q : Query) : Bool :=
  q.predicate.isNone && q.sortings.isEmpty && q.paging.isNone && q.includes.isEmpty

end Query

end DocStore
