import DocStore.Text.Case
import DocStore.Text.Decimal
import DocStore.Text.Hex
import DocStore.Text.Utf8

/-!
Where a database is. A path stands for itself; after the scheme `file` it is a URI, in which bytes may be escaped and
options may follow the path. Only databases in memory and temporary ones are within reach, files are not.
-/

namespace DocStore.Store

/-- What may be done with a database; one in memory may be written. -/
inductive Access where
  | readOnly
  | readWrite
  /-- written, and made if it is not there -/
  | create
  | memory
deriving DecidableEq, Repr

namespace Access

def ofName? : String → Option Access
  | "ro" => some readOnly
  | "rw" => some readWrite
  | "rwc" => some create
  | "memory" => some memory
  | _ => none

def breadth : Access → Nat
  | readOnly => 0
  | readWrite => 1
  | create => 2
  | memory => 3

/-- Whether an option may ask for an access where there is another one: for memory always, else for no broader one. -/
def mayBecome (now wanted : Access) : Bool := wanted = memory || wanted.breadth ≤ now.breadth

end Access

structure Address where
  /-- the bytes of the path -/
  name : List UInt8
  access : Access := .create
  /-- the layer that reads and writes the database, if one is named -/
  layer : Option String := none
  /-- whether the database is said never to change, in the words of the first option that tells -/
  immutable : Option String := none
deriving DecidableEq, Repr

namespace Address

/-! ### Texts of URIs -/

/-- The bytes up to a mark, and those after it. -/
def cut (mark : Char) (bs : List UInt8) : List UInt8 × List UInt8 :=
  (bs.takeWhile (· != mark.toUInt8), (bs.dropWhile (· != mark.toUInt8)).drop 1)

def parts (mark : Char) : List UInt8 → List (List UInt8)
  | [] => [[]]
  | b :: bs =>
    match parts mark bs with
    | [] => [[b]]
    | p :: ps => if b = mark.toUInt8 then [] :: p :: ps else (b :: p) :: ps

def digitOf? (b : UInt8) : Option Nat := Text.hexValue? (Char.ofNat b.toNat)

/-- The bytes that are meant; two digits after a percent sign are one byte. A null byte ends them. -/
def unescaped : List UInt8 → List UInt8
  | b :: h :: l :: bs =>
    if b = '%'.toUInt8 then
      match digitOf? h, digitOf? l with
      | some x, some y => if 16 * x + y = 0 then [] else UInt8.ofNat (16 * x + y) :: unescaped bs
      | _, _ => b :: unescaped (h :: l :: bs)
    else b :: unescaped (h :: l :: bs)
  | bs => bs

def meant (bs : List UInt8) : String := Text.ofUtf8 (unescaped bs)

/-- The options after a path with their values; one without a name is none. -/
def options (bs : List UInt8) : List (String × String) :=
  ((parts '&' bs).map fun p => let (k, v) := cut '=' p; (meant k, meant v)).filter (·.1 != "")

/-! ### Switches -/

/-- The number that digits of a base stand for, zero if it does not fit 32 bits with a sign. -/
def smallNumber (base : Nat) (ds : List Nat) : Nat :=
  let n := ds.foldl (fun n d => base * n + d) 0
  if n ≤ 2147483647 then n else 0

/-- The number at the start of a text, a hexadecimal one after `0x`. -/
def leadingNumber (cs : List Char) : Nat :=
  let decimal := smallNumber 10 ((cs.takeWhile Text.isDigit).map Text.digitValue)
  match cs with
  | '0' :: x :: cs =>
    let ds := (cs.takeWhile fun c => (Text.hexValue? c).isSome).filterMap Text.hexValue?
    if (x = 'x' || x = 'X') && !ds.isEmpty then smallNumber 16 ds else decimal
  | _ => decimal

/-- Whether a text switches something on: a word that says so, or a number whose last byte is not zero. -/
def isOn (s : String) : Bool :=
  match s.toList with
  | [] => false
  | c :: cs =>
    if Text.isDigit c then leadingNumber (c :: cs) % 256 ≠ 0 else ["on", "yes", "true"].any (Text.sameName s)

/-! ### Addresses -/

/-- The address with an option taken into account; those of other names do not count. -/
def withOption (a : Address) : String × String → Except String Address
  | ("vfs", v) => .ok { a with layer := some v }
  | ("immutable", v) => .ok { a with immutable := a.immutable <|> some v }
  | ("cache", v) => if v = "shared" || v = "private" then .ok a else .error ("no such cache mode: " ++ v)
  | ("mode", v) =>
    match Access.ofName? v with
    | none => .error ("no such access mode: " ++ v)
    | some access =>
      if a.access.mayBecome access then .ok { a with access } else .error ("access mode not allowed: " ++ v)
  | _ => .ok a

/-- The layers there are. The last one keeps its databases in memory. -/
def layers : List String := ["unix", "unix-none", "unix-dotfile", "unix-excl", "memdb"]

/-- The path after an authority, which may be empty or the machine itself. -/
def afterAuthority (bs : List UInt8) : Except String (List UInt8) :=
  let slash := '/'.toUInt8
  if bs.take 2 ≠ [slash, slash] then .ok bs
  else
    let authority := (bs.drop 2).takeWhile (· != slash)
    if authority.isEmpty || authority = Text.utf8 "localhost" then .ok (bs.drop (2 + authority.length))
    else .error ("invalid uri authority: " ++ Text.ofUtf8 authority)

/-- Reads a URI after its scheme. -/
def ofUri (bs : List UInt8) : Except String Address := do
  let bs ← afterAuthority bs
  let (path, query) := cut '?' (cut '#' bs).1
  let a ← (options query).foldlM withOption { name := unescaped path }
  match a.layer with
  | none => pure a
  | some l => if layers.contains l then pure a else .error ("no such vfs: " ++ l)

/-- Reads a path or URI. -/
def ofPath (path : String) : Except String Address :=
  let bs := Text.utf8 path
  match bs.findIdx? (· = 0) with
  | some n => .error ("nul byte found in provided data at position: " ++ String.ofList (Text.decimal n))
  | none =>
    let scheme := Text.utf8 "file:"
    if scheme.isPrefixOf bs then ofUri (bs.drop scheme.length) else .ok { name := bs }

/-! ### Databases -/

/-- Whether a database lives and dies with its connection: one in memory, or a temporary one, which has no path. -/
def isPrivate (a : Address) : Bool := a.access = .memory || a.name = Text.utf8 ":memory:" || a.name.isEmpty

/-- The most bytes a path may have. -/
def longestName : Nat := 1016

def isReachable (a : Address) : Bool :=
  a.isPrivate || (a.layer = some "memdb" && a.name.length ≤ longestName)

/-- Whether a database must not be written: its access says so, or it has a path and is said never to change. -/
def isReadOnly (a : Address) : Bool := a.access = .readOnly || (!a.isPrivate && (a.immutable.map isOn).getD false)

end Address

end DocStore.Store
