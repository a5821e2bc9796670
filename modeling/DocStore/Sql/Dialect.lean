import DocStore.Query.Predicate
import DocStore.Text.Decimal

/-! The dialects of SQL: how names, texts, placeholders, patterns and pages are written. -/

namespace DocStore

inductive Dialect where
  | sqlite
  | sqlServer
deriving DecidableEq, Repr, Inhabited

namespace Dialect

def name : Dialect → String
  | sqlite => "sqlite"
  | sqlServer => "sqlserver"

def ofName? (s : String) : Option Dialect := [sqlite, sqlServer].find? (·.name == s)

/-- The text between two marks, the closing mark written twice wherever it stands inside. -/
def enclosed (opening closing : Char) (s : String) : String :=
  String.ofList (opening :: (s.toList.flatMap fun c => if c = closing then [c, c] else [c]) ++ [closing])

def identifier : Dialect → String → String
  | sqlite, s => enclosed '"' '"' s
  | sqlServer, s => enclosed '[' ']' s

def literal (_ : Dialect) (s : String) : String := enclosed '\'' '\'' s

/-- The placeholder of the parameter in a position, counted from zero. -/
def placeholder : Dialect → Nat → String
  | sqlite, n => "?" ++ String.ofList (Text.decimal (n + 1))
  | sqlServer, n => "@p" ++ String.ofList (Text.decimal n)

/-- Whether a page binds its count before its offset. -/
def countFirst : Dialect → Bool
  | sqlite => true
  | sqlServer => false

/-- A page of a count from an offset on, both given as text; no offset stands for the start. -/
def page : Dialect → String → Option String → String
  | sqlite, count, some offset => "limit " ++ count ++ " offset " ++ offset
  | sqlite, count, none => "limit " ++ count
  | sqlServer, count, offset => "offset " ++ offset.getD "0" ++ " rows fetch next " ++ count ++ " rows only"

/-- The character before which another one loses its meaning in a pattern. -/
def likeEscape : Char := '\\'

/-- Whether a character has a meaning in patterns. -/
def isWildcard : Dialect → Char → Bool
  | sqlite, c => c = likeEscape || c = '%' || c = '_'
  | sqlServer, c => c = likeEscape || c = '%' || c = '_' || c = '['

/-- A text as the part of a pattern that matches it alone. -/
def escapedChars (d : Dialect) (cs : List Char) : List Char :=
  cs.flatMap fun c => if d.isWildcard c then [likeEscape, c] else [c]

def escapeLike (d : Dialect) (s : String) : String := String.ofList (d.escapedChars s.toList)

/-- The pattern that looks for a text. -/
def pattern (d : Dialect) (op : TextMatch) (s : String) : String :=
  match op with
  | .contains => "%" ++ d.escapeLike s ++ "%"
  | .startsWith => d.escapeLike s ++ "%"
  | .endsWith => "%" ++ d.escapeLike s

end Dialect

end DocStore
