import DocStore.Number.Reading
import DocStore.Text.Decimal
import DocStore.Text.Hex

/-!
The tokens of a JSON text. A string keeps its content only if its escapes are well formed: half of a surrogate pair
stands for no character.
-/

namespace DocStore.Json

inductive Token where
  | beginArray
  | endArray
  | beginObject
  | endObject
  | colon
  | comma
  | null
  | bool (b : Bool)
  | number (t : DecimalText)
  | string (content : Option String)
deriving DecidableEq, Repr

namespace Token

/-! ### Strings -/

/-- A part of a string: a character, or a code unit written in hexadecimal. -/
inductive Piece where
  | char (c : Char)
  | unit (n : Nat)

/-- The character that a one-letter escape stands for. -/
def escaped? (c : Char) : Option Char :=
  if c = '"' || c = '\\' || c = '/' then some c
  else if c = 'b' then some '\x08'
  else if c = 'f' then some '\x0c'
  else if c = 'n' then some '\n'
  else if c = 'r' then some '\r'
  else if c = 't' then some '\t'
  else none

/-- The parts of a string up to its closing quote, and what comes after it. -/
def pieces? : List Char → Option (List Piece × List Char)
  | [] => none
  | '"' :: r => some ([], r)
  | '\\' :: 'u' :: a :: b :: c :: d :: r =>
    match Text.hexNumber? [a, b, c, d], pieces? r with
    | some n, some (ps, r') => some (.unit n :: ps, r')
    | _, _ => none
  | '\\' :: c :: r =>
    match escaped? c, pieces? r with
    | some e, some (ps, r') => some (.char e :: ps, r')
    | _, _ => none
  | c :: r =>
    if c.toNat < 0x20 then none
    else
      match pieces? r with
      | some (ps, r') => some (.char c :: ps, r')
      | none => none

/-- The characters of the parts: two units of a surrogate pair make one character. -/
def assemble? : List Piece → Option (List Char)
  | [] => some []
  | .char c :: ps => (assemble? ps).map (c :: ·)
  | .unit n :: ps =>
    if 0xD800 ≤ n && n < 0xDC00 then
      match ps with
      | .unit m :: ps' =>
        if 0xDC00 ≤ m && m < 0xE000 then
          (assemble? ps').map (Char.ofNat (0x10000 + (n - 0xD800) * 0x400 + (m - 0xDC00)) :: ·)
        else none
      | _ => none
    else if 0xDC00 ≤ n && n < 0xE000 then none
    else (assemble? ps).map (Char.ofNat n :: ·)

theorem pieces?_length {cs r : List Char} {ps : List Piece} (h : pieces? cs = some (ps, r)) :
    r.length < cs.length := by
  fun_induction pieces? cs generalizing ps r <;> (try simp only [List.length_cons]) <;> grind

/-! ### Numbers -/

/-- Digits after a point; the point needs at least one. -/
def places? : List Char → Option (Option (List Char) × List Char)
  | '.' :: r =>
    let ds := r.takeWhile Text.isDigit
    if ds.isEmpty then none else some (some ds, r.dropWhile Text.isDigit)
  | r => some (none, r)

/-- Digits of an exponent after its sign. -/
def power? (minus : Bool) (r : List Char) : Option (Option (Bool × List Char) × List Char) :=
  let ds := r.takeWhile Text.isDigit
  if ds.isEmpty then none else some (some (minus, ds), r.dropWhile Text.isDigit)

def exponent? : List Char → Option (Option (Bool × List Char) × List Char)
  | c :: r =>
    if c = 'e' || c = 'E' then
      match r with
      | '+' :: r' => power? false r'
      | '-' :: r' => power? true r'
      | _ => power? false r
    else some (none, c :: r)
  | [] => some (none, [])

/-- A number after its sign; zeros in front of other digits are refused. -/
def unsigned? (negative : Bool) (cs : List Char) : Option (DecimalText × List Char) :=
  let whole := cs.takeWhile Text.isDigit
  if whole.isEmpty || (whole.head? == some '0' && 1 < whole.length) then none
  else
    match places? (cs.dropWhile Text.isDigit) with
    | none => none
    | some (places, r) =>
      match exponent? r with
      | none => none
      | some (power, r') => some (⟨negative, whole, places, power⟩, r')

def number? : List Char → Option (DecimalText × List Char)
  | '-' :: r => unsigned? true r
  | r => unsigned? false r

theorem length_dropWhile_le (p : Char → Bool) : ∀ cs : List Char, (cs.dropWhile p).length ≤ cs.length
  | [] => Nat.le_refl _
  | c :: cs => by
    have := length_dropWhile_le p cs
    rw [List.dropWhile_cons]
    split
    · rw [List.length_cons]
      omega
    · exact Nat.le_refl _

theorem places?_length {cs r : List Char} {ds : Option (List Char)} (h : places? cs = some (ds, r)) :
    r.length ≤ cs.length := by
  unfold places? at h
  split at h
  · rename_i r'
    dsimp only at h
    split at h
    · simp at h
    · simp only [Option.some.injEq, Prod.mk.injEq] at h
      have := length_dropWhile_le Text.isDigit r'
      rw [← h.2, List.length_cons]
      omega
  · simp only [Option.some.injEq, Prod.mk.injEq] at h
    exact Nat.le_of_eq (congrArg List.length h.2).symm

theorem power?_length {minus : Bool} {cs r : List Char} {p : Option (Bool × List Char)}
    (h : power? minus cs = some (p, r)) : r.length ≤ cs.length := by
  unfold power? at h
  dsimp only at h
  split at h
  · simp at h
  · simp only [Option.some.injEq, Prod.mk.injEq] at h
    rw [← h.2]
    exact length_dropWhile_le _ cs

theorem exponent?_length {cs r : List Char} {p : Option (Bool × List Char)} (h : exponent? cs = some (p, r)) :
    r.length ≤ cs.length := by
  unfold exponent? at h
  split at h
  · split at h
    · split at h
      all_goals
        have := power?_length h
        simp only [List.length_cons] at *
        omega
    · simp only [Option.some.injEq, Prod.mk.injEq] at h
      exact Nat.le_of_eq (congrArg List.length h.2).symm
  · simp only [Option.some.injEq, Prod.mk.injEq] at h
    exact Nat.le_of_eq (congrArg List.length h.2).symm

theorem unsigned?_length {negative : Bool} {cs r : List Char} {t : DecimalText}
    (h : unsigned? negative cs = some (t, r)) : r.length < cs.length := by
  unfold unsigned? at h
  dsimp only at h
  split at h
  · simp at h
  · rename_i hw
    split at h
    · simp at h
    · rename_i hp
      split at h
      · simp at h
      · rename_i he
        simp only [Option.some.injEq, Prod.mk.injEq] at h
        have h₁ := places?_length hp
        have h₂ := exponent?_length he
        rw [h.2] at h₂
        have h₃ : (cs.dropWhile Text.isDigit).length < cs.length := by
          cases cs with
          | nil => simp at hw
          | cons c cs =>
            have hd := length_dropWhile_le Text.isDigit cs
            rw [List.dropWhile_cons]
            split
            · simp only [List.length_cons]
              omega
            · rename_i hc
              simp [hc] at hw
        omega

theorem number?_length {cs r : List Char} {t : DecimalText} (h : number? cs = some (t, r)) :
    r.length < cs.length := by
  unfold number? at h
  split at h
  · have := unsigned?_length h
    simp only [List.length_cons]
    omega
  · exact unsigned?_length h

/-! ### Texts -/

/-- White space between tokens. -/
def isSpace (c : Char) : Bool := c = ' ' || c = '\t' || c = '\n' || c = '\r'

/-- The tokens of a text, none if some part of it is no token. -/
def ofText? : List Char → Option (List Token)
  | [] => some []
  | '[' :: r => (ofText? r).map (.beginArray :: ·)
  | ']' :: r => (ofText? r).map (.endArray :: ·)
  | '\x7b' :: r => (ofText? r).map (.beginObject :: ·)
  | '\x7d' :: r => (ofText? r).map (.endObject :: ·)
  | ':' :: r => (ofText? r).map (.colon :: ·)
  | ',' :: r => (ofText? r).map (.comma :: ·)
  | 'n' :: 'u' :: 'l' :: 'l' :: r => (ofText? r).map (.null :: ·)
  | 't' :: 'r' :: 'u' :: 'e' :: r => (ofText? r).map (.bool true :: ·)
  | 'f' :: 'a' :: 'l' :: 's' :: 'e' :: r => (ofText? r).map (.bool false :: ·)
  | c :: cs =>
    if isSpace c then ofText? cs
    else if c = '"' then
      match h : pieces? cs with
      | none => none
      | some (ps, r) =>
        have := pieces?_length h
        (ofText? r).map (.string ((assemble? ps).map String.ofList) :: ·)
    else
      match h : number? (c :: cs) with
      | none => none
      | some (t, r) =>
        have := number?_length h
        (ofText? r).map (.number t :: ·)
termination_by cs => cs.length
decreasing_by all_goals (simp only [List.length_cons] at *; omega)

end Token

end DocStore.Json
