import DocStore.Sql.Dialect
import DocStore.Text.Case

/-!
Matching texts with patterns. A pattern is read into items first; an item stands for one character, one of a class of
characters, or any run of them. What two equal characters are is left to whoever matches.
-/

namespace DocStore.Sql.Like

/-- A part of a pattern. -/
inductive Item where
  /-- any run of characters, the empty one too -/
  | run
  /-- any one character -/
  | one
  | literal (c : Char)
  /-- one character within the ranges, or outside them -/
  | oneOf (outside : Bool) (ranges : List (Char × Char))
deriving DecidableEq, Repr

/-- The ranges of a class, up to the bracket that closes it, and what follows. -/
def ranges : List Char → Option (List (Char × Char) × List Char)
  | [] => none
  | ']' :: cs => some ([], cs)
  | [_] => none
  | a :: '-' :: cs =>
    match cs with
    | [] => none
    | ']' :: rest => some ([(a, a), ('-', '-')], rest)
    | b :: rest => (ranges rest).map fun (rs, rest) => ((a, b) :: rs, rest)
  | a :: cs => (ranges cs).map fun (rs, rest) => ((a, a) :: rs, rest)

/-- Reads one item and tells what follows it; none where no item can be read. -/
def item? (d : Dialect) (escape : Char) : List Char → Option (Item × List Char)
  | [] => none
  | c :: cs =>
    if c = escape then
      match cs with
      | [] => none
      | x :: rest => some (.literal x, rest)
    else if c = '%' then some (.run, cs)
    else if c = '_' then some (.one, cs)
    else if c = '[' && d = .sqlServer then
      match cs with
      | '^' :: cs => (ranges cs).map fun (rs, rest) => (.oneOf true rs, rest)
      | cs => (ranges cs).map fun (rs, rest) => (.oneOf false rs, rest)
    else some (.literal c, cs)

/-- Reads a pattern of at most `fuel` items. -/
def itemsWithin (d : Dialect) (escape : Char) : Nat → List Char → Option (List Item)
  | _, [] => some []
  | 0, _ => none
  | fuel + 1, cs =>
    match item? d escape cs with
    | none => none
    | some (i, rest) => (itemsWithin d escape fuel rest).map (i :: ·)

/-- Reads a pattern; none for one that breaks off, which matches nothing. -/
def items? (d : Dialect) (escape : Char) (pattern : List Char) : Option (List Item) :=
  itemsWithin d escape pattern.length pattern

/-- What is left of a text from each of its places on. -/
def suffixes : List Char → List (List Char)
  | [] => [[]]
  | c :: cs => (c :: cs) :: suffixes cs

variable (same : Char → Char → Bool)

def inClass (outside : Bool) (rs : List (Char × Char)) (c : Char) : Bool :=
  (rs.any fun (a, b) => (a ≤ c && c ≤ b) || same a c || same b c) != outside

/-- Whether a text as a whole matches the items. -/
def accepts : List Item → List Char → Bool
  | [], cs => cs.isEmpty
  | .run :: is, cs => (suffixes cs).any (accepts is)
  | .one :: is, cs =>
    match cs with
    | [] => false
    | _ :: cs => accepts is cs
  | .literal x :: is, cs =>
    match cs with
    | [] => false
    | c :: cs => same x c && accepts is cs
  | .oneOf outside rs :: is, cs =>
    match cs with
    | [] => false
    | c :: cs => inClass same outside rs c && accepts is cs

def matchesChars (d : Dialect) (escape : Char) (pattern text : List Char) : Bool :=
  match items? d escape pattern with
  | some is => accepts same is text
  | none => false

/-- The equality of characters in patterns: the case of ASCII letters does not count. -/
def sameLetter (a b : Char) : Bool := a.toLower == b.toLower

/-- A character as patterns see it: the two that are none, at the end of the basic plane, count as the replacement
    character. -/
def seen (c : Char) : Char := if c = '\ufffe' || c = '\uffff' then '\ufffd' else c

/-- What patterns see of a text: its characters up to the first null character. -/
def visible (s : String) : List Char := (s.toList.takeWhile (· != '\x00')).map seen

/-- Whether a text matches a pattern in the engine. -/
def isLike (escape : Char) (pattern text : String) : Bool :=
  matchesChars sameLetter .sqlite escape (visible pattern) (visible text)

end DocStore.Sql.Like
