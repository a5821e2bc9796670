/-!
Texts as bytes. Reading bytes that are no UTF-8 puts the replacement character in the place of every longest part that
a character could begin with.
-/

namespace DocStore.Text

def utf8 (s : String) : List UInt8 := s.toUTF8.toList

/-- What follows the first byte of a character: how many bytes, and the range of the first one of them. The ranges
    leave out what has a shorter form, the surrogates, and what lies beyond the last code point. -/
structure Continuation where
  count : Nat
  low : Nat
  high : Nat
deriving DecidableEq, Repr

/-- What follows a first byte beyond ASCII, none for a byte that begins no character. -/
def continuation? (b : Nat) : Option Continuation :=
  if 0xC2 ≤ b && b ≤ 0xDF then some ⟨1, 0x80, 0xBF⟩
  else if b = 0xE0 then some ⟨2, 0xA0, 0xBF⟩
  else if b = 0xED then some ⟨2, 0x80, 0x9F⟩
  else if 0xE1 ≤ b && b ≤ 0xEF then some ⟨2, 0x80, 0xBF⟩
  else if b = 0xF0 then some ⟨3, 0x90, 0xBF⟩
  else if 0xF1 ≤ b && b ≤ 0xF3 then some ⟨3, 0x80, 0xBF⟩
  else if b = 0xF4 then some ⟨3, 0x80, 0x8F⟩
  else none

/-- The bytes at the start that continue a character. -/
def continuing (k : Continuation) : List UInt8 → List UInt8
  | [] => []
  | b :: bs =>
    match k.count with
    | 0 => []
    | n + 1 => if k.low ≤ b.toNat && b.toNat ≤ k.high then b :: continuing ⟨n, 0x80, 0xBF⟩ bs else []

/-- The bits of the first byte of a character that belong to its code point. -/
def leadBits (count b : Nat) : Nat :=
  match count with
  | 1 => b % 32
  | 2 => b % 16
  | _ => b % 8

def charsOfUtf8 : List UInt8 → List Char
  | [] => []
  | b :: bs =>
    if b.toNat < 0x80 then Char.ofNat b.toNat :: charsOfUtf8 bs
    else
      match continuation? b.toNat with
      | none => '\ufffd' :: charsOfUtf8 bs
      | some k =>
        let tail := continuing k bs
        let c := if tail.length = k.count then
            Char.ofNat (tail.foldl (fun n b => 64 * n + b.toNat % 64) (leadBits k.count b.toNat))
          else '\ufffd'
        c :: charsOfUtf8 (bs.drop tail.length)
termination_by bs => bs.length
decreasing_by all_goals simp only [List.length_drop, List.length_cons]; omega

def ofUtf8 (bs : List UInt8) : String := String.ofList (charsOfUtf8 bs)

end DocStore.Text
