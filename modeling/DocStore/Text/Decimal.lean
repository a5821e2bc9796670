/-! Whole numbers in decimal: what is written for a number, and which texts are read as one. -/

namespace DocStore.Text

def digit (n : Nat) : Char := Char.ofNat (48 + n)

/-- The decimal digits of a number, the leading one first and without leading zeros. -/
def decimal (n : Nat) : List Char :=
  if n < 10 then [digit n] else decimal (n / 10) ++ [digit (n % 10)]
termination_by n

/-- A whole number with a minus sign if it is negative. -/
def integerText : Int → List Char
  | .ofNat n => decimal n
  | .negSucc n => '-' :: decimal (n + 1)

/-- Decimal digits at least `width` wide, filled up with zeros. -/
def padded (width n : Nat) : List Char :=
  let ds := decimal n
  List.replicate (width - ds.length) '0' ++ ds

def isDigit (c : Char) : Bool := '0' ≤ c && c ≤ '9'

def digitValue (c : Char) : Nat := c.toNat - 48

def digitsValue (ds : List Char) : Nat := ds.foldl (fun n c => 10 * n + digitValue c) 0

/-- Reads one or more ASCII digits and nothing else. -/
def natural? (ds : List Char) : Option Nat :=
  if ds.isEmpty || !ds.all isDigit then none else some (digitsValue ds)

/-- Reads digits that may have one sign before them. -/
def integer? : List Char → Option Int
  | '+' :: ds => (natural? ds).map Int.ofNat
  | '-' :: ds => (natural? ds).map fun n => -(n : Int)
  | ds => (natural? ds).map Int.ofNat

/-- The smallest and the largest 64-bit integer. -/
def minInt64 : Int := -9223372036854775808
def maxInt64 : Int := 9223372036854775807

def isInt64 (n : Int) : Bool := minInt64 ≤ n && n ≤ maxInt64

def isInt32 (n : Int) : Bool := -2147483648 ≤ n && n ≤ 2147483647

def int64? (cs : List Char) : Option Int := (integer? cs).filter isInt64

end DocStore.Text
