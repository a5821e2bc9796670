import DocStore.Sql.Dialect

/-!
The tokens of SQL text. What stands within quotes is one token whatever it holds, the closing mark being written twice
where it belongs to the content.
-/

namespace DocStore.Sql

inductive Token where
  /-- letters, digits and underscores after a letter -/
  | word (s : String)
  | number (n : Nat)
  /-- a name in the quotes of the dialect -/
  | name (s : String)
  | literal (s : String)
  /-- a placeholder with its mark -/
  | placeholder (s : String)
  | sign (s : String)
deriving DecidableEq, Repr

namespace Token

/-- The content of quotes up to the closing mark, and what follows it. -/
def quotedBody (closing : Char) : List Char → Option (List Char × List Char)
  | [] => none
  | [c] => if c = closing then some ([], []) else none
  | c :: c' :: cs =>
    if c = closing then
      if c' = closing then (quotedBody closing cs).map fun (body, rest) => (closing :: body, rest)
      else some ([], c' :: cs)
    else (quotedBody closing (c' :: cs)).map fun (body, rest) => (c :: body, rest)

def nameMarks : Dialect → Char × Char
  | .sqlite => ('"', '"')
  | .sqlServer => ('[', ']')

def placeholderMark : Dialect → Char
  | .sqlite => '?'
  | .sqlServer => '@'

def isWordStart (c : Char) : Bool := c.isAlpha || c = '_'

def isWordRest (c : Char) : Bool := isWordStart c || Text.isDigit c

def isSpace (c : Char) : Bool := c = ' ' || c = '\n' || c = '\r' || c = '\t'

def signs : List Char := ['(', ')', ',', '.', '=', '<', '>']

/-- Reads one token off text that does not begin with white space. -/
def next? (d : Dialect) : List Char → Option (Token × List Char)
  | [] => none
  | c :: cs =>
    if c = (nameMarks d).1 then
      (quotedBody (nameMarks d).2 cs).map fun (body, rest) => (.name (String.ofList body), rest)
    else if c = '\'' then (quotedBody '\'' cs).map fun (body, rest) => (.literal (String.ofList body), rest)
    else if c = placeholderMark d then
      some (.placeholder (String.ofList (c :: cs.takeWhile isWordRest)), cs.dropWhile isWordRest)
    else if Text.isDigit c then
      some (.number (Text.digitsValue (c :: cs.takeWhile Text.isDigit)), cs.dropWhile Text.isDigit)
    else if isWordStart c then
      some (.word (String.ofList (c :: cs.takeWhile isWordRest)), cs.dropWhile isWordRest)
    else
      match c, cs with
      | '<', '>' :: cs => some (.sign "<>", cs)
      | '<', '=' :: cs => some (.sign "<=", cs)
      | '>', '=' :: cs => some (.sign ">=", cs)
      | c, cs => if signs.contains c then some (.sign (String.singleton c), cs) else none

/-- Reads at most `fuel` tokens, which have to be all there are. -/
def readWithin (d : Dialect) : Nat → List Char → Option (List Token)
  | fuel, cs =>
    match cs.dropWhile isSpace with
    | [] => some []
    | c :: cs =>
      match fuel with
      | 0 => none
      | fuel + 1 =>
        match next? d (c :: cs) with
        | none => none
        | some (t, rest) => (readWithin d fuel rest).map (t :: ·)

def ofText? (d : Dialect) (s : String) : Option (List Token) := readWithin d s.toList.length s.toList

end Token

end DocStore.Sql
