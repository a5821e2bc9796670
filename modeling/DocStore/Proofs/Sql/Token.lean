import DocStore.Proofs.Text.Decimal
import DocStore.Sql.Token

/-! Reading tokens. Text that is put together from pieces reads as the tokens of the pieces one after another, if the
    pieces meet in a space or in a sign that stands for itself; then no token goes on beyond its piece, whatever is
    quoted in the pieces. -/

namespace DocStore.Sql.Token

open Text (isDigit)

variable {d : Dialect}

/-! ### Where pieces meet -/

/-- A space, or a sign that stands for itself. No other token has one in it, apart from quotes. -/
def isDelimiter (c : Char) : Bool := c = ' ' || c = '(' || c = ')' || c = ',' || c = '.'

/-- The second text begins with a delimiter, or the first one ends with one. -/
def Meets (a b : List Char) : Prop := (∀ c ∈ b.head?, isDelimiter c = true) ∨ ∀ c ∈ a.getLast?, isDelimiter c = true

instance (a b : List Char) : Decidable (Meets a b) := inferInstanceAs (Decidable (_ ∨ _))

theorem Meets.of_suffix {a a' b : List Char} (hs : a' <:+ a) (h : Meets a b) : Meets a' b := by
  refine h.imp_right fun hlast c hc => hlast c ?_
  obtain ⟨used, rfl⟩ := hs
  rw [List.getLast?_append, Option.mem_def.mp hc]
  rfl

theorem not_delimiter_of_wordRest {c : Char} (h : isWordRest c = true) : isDelimiter c = false := by
  rw [Bool.eq_false_iff]
  intro hc
  simp only [isDelimiter, Bool.or_eq_true, decide_eq_true_eq] at hc
  obtain (((rfl | rfl) | rfl) | rfl) | rfl := hc <;> cases h

theorem not_delimiter_of_digit {c : Char} (h : isDigit c = true) : isDelimiter c = false :=
  not_delimiter_of_wordRest (Bool.or_eq_true .. |>.mpr (.inr h))

/-- What follows a first character that is no delimiter, as long as it passes a test that no delimiter passes, ends
    where the piece does. -/
theorem run_append {p : Char → Bool} (hp : ∀ c, p c = true → isDelimiter c = false) {b : List Char} :
    ∀ {c : Char} {cs : List Char}, isDelimiter c = false → Meets (c :: cs) b →
      (cs ++ b).takeWhile p = cs.takeWhile p ∧ (cs ++ b).dropWhile p = cs.dropWhile p ++ b
  | c, [], hc, hm => by
    have hb : ∀ x ∈ b.head?, isDelimiter x = true := hm.resolve_right fun h => by
      simp [hc] at h
    cases b with
    | nil => exact ⟨rfl, rfl⟩
    | cons x b =>
      have hx : p x = false := by
        rw [Bool.eq_false_iff]
        intro hx
        have := hp x hx
        rw [hb x rfl] at this
        cases this
      simp [hx]
  | c, x :: cs, _, hm => by
    cases hx : p x with
    | false => simp [hx]
    | true =>
      obtain ⟨htake, hdrop⟩ := run_append hp (hp x hx) (hm.of_suffix (List.suffix_cons c _))
      simp [hx, htake, hdrop]

/-- A closing mark that ends a piece is not written twice by what follows. -/
theorem quotedBody_append {m : Char} (hdelim : isDelimiter m = false) {b : List Char} :
    ∀ {cs body rest : List Char}, quotedBody m cs = some (body, rest) → Meets cs b →
      quotedBody m (cs ++ b) = some (body, rest ++ b)
  | [], _, _, h, _ => by cases h
  | [c], body, rest, h, hm => by
    rw [quotedBody] at h
    split at h
    · rename_i hc
      cases h
      subst hc
      cases b with
      | nil => simp [quotedBody]
      | cons x b =>
        have hx : isDelimiter x = true := by
          refine (hm.resolve_right fun h => ?_) x rfl
          simp [hdelim] at h
        have hne : x ≠ c := by
          rintro rfl
          cases hx.symm.trans hdelim
        simp [quotedBody, hne]
    · cases h
  | c :: c' :: cs, body, rest, h, hm => by
    rw [quotedBody] at h
    rw [List.cons_append, List.cons_append, quotedBody]
    split at h
    · split at h
      · obtain ⟨⟨body', rest'⟩, h', heq⟩ := Option.map_eq_some_iff.mp h
        cases heq
        rw [quotedBody_append hdelim h' (hm.of_suffix ⟨[c, c'], rfl⟩)]
        simp [*]
      · cases h
        simp [*]
    · obtain ⟨⟨body', rest'⟩, h', heq⟩ := Option.map_eq_some_iff.mp h
      cases heq
      rw [← List.cons_append, quotedBody_append hdelim h' (hm.of_suffix (List.suffix_cons c _))]
      simp [*]

/-! ### One token -/

/-- The sign that begins with a character, of two characters if the next one goes with it. -/
def sign? : Char → List Char → Option (Token × List Char)
  | '<', '>' :: cs => some (.sign "<>", cs)
  | '<', '=' :: cs => some (.sign "<=", cs)
  | '>', '=' :: cs => some (.sign ">=", cs)
  | c, cs => if signs.contains c then some (.sign (String.singleton c), cs) else none

/-- The token that a text begins with, and what follows it: one rule for each kind of token. -/
inductive Begins (d : Dialect) : List Char → Token → List Char → Prop
  | name {cs body rest : List Char} (h : quotedBody (nameMarks d).2 cs = some (body, rest)) :
      Begins d ((nameMarks d).1 :: cs) (.name (String.ofList body)) rest
  | literal {cs body rest : List Char} (h : quotedBody '\'' cs = some (body, rest)) :
      Begins d ('\'' :: cs) (.literal (String.ofList body)) rest
  | placeholder (cs : List Char) :
      Begins d (placeholderMark d :: cs) (.placeholder (String.ofList (placeholderMark d :: cs.takeWhile isWordRest)))
        (cs.dropWhile isWordRest)
  | number {c : Char} (cs : List Char) (hdigit : isDigit c = true) :
      Begins d (c :: cs) (.number (Text.digitsValue (c :: cs.takeWhile isDigit))) (cs.dropWhile isDigit)
  | word {c : Char} (cs : List Char) (hdigit : isDigit c = false) (hword : isWordStart c = true) :
      Begins d (c :: cs) (.word (String.ofList (c :: cs.takeWhile isWordRest))) (cs.dropWhile isWordRest)
  | sign {c : Char} {cs rest : List Char} {t : Token} (hname : c ≠ (nameMarks d).1) (hquote : c ≠ '\'')
      (hmark : c ≠ placeholderMark d) (hdigit : isDigit c = false) (hword : isWordStart c = false)
      (h : sign? c cs = some (t, rest)) : Begins d (c :: cs) t rest

/-- A letter, an underscore or a digit begins neither quotes nor a placeholder. -/
theorem not_mark_of_wordRest {c : Char} (h : isWordRest c = true) :
    c ≠ (nameMarks d).1 ∧ c ≠ '\'' ∧ c ≠ placeholderMark d := by
  refine ⟨?_, ?_, ?_⟩ <;> rintro rfl <;> cases d <;> cases h

theorem Begins.next? {a rest : List Char} {t : Token} (h : Begins d a t rest) : next? d a = some (t, rest) := by
  unfold Token.next?
  cases h with
  | name h =>
    dsimp only
    rw [if_pos rfl, h]
    rfl
  | literal h =>
    dsimp only
    rw [if_neg (by cases d <;> decide), if_pos rfl, h]
    rfl
  | placeholder cs =>
    dsimp only
    rw [if_neg (by cases d <;> decide), if_neg (by cases d <;> decide), if_pos rfl]
  | number cs hdigit =>
    obtain ⟨hname, hquote, hmark⟩ := not_mark_of_wordRest (d := d) (Bool.or_eq_true .. |>.mpr (.inr hdigit))
    dsimp only
    rw [if_neg hname, if_neg hquote, if_neg hmark, if_pos hdigit]
  | word cs hdigit hword =>
    obtain ⟨hname, hquote, hmark⟩ := not_mark_of_wordRest (d := d) (Bool.or_eq_true .. |>.mpr (.inl hword))
    dsimp only
    rw [if_neg hname, if_neg hquote, if_neg hmark, if_neg (Bool.eq_false_iff.mp hdigit), if_pos hword]
  | sign hname hquote hmark hdigit hword h =>
    dsimp only
    rw [if_neg hname, if_neg hquote, if_neg hmark, if_neg (Bool.eq_false_iff.mp hdigit),
      if_neg (Bool.eq_false_iff.mp hword)]
    exact h

theorem Begins.of_next? {a rest : List Char} {t : Token} (h : Token.next? d a = some (t, rest)) :
    Begins d a t rest := by
  cases a with
  | nil => cases h
  | cons c cs =>
    unfold Token.next? at h
    dsimp only at h
    split at h
    · obtain ⟨⟨body, rest'⟩, hbody, heq⟩ := Option.map_eq_some_iff.mp h
      cases heq
      subst c
      exact .name hbody
    split at h
    · obtain ⟨⟨body, rest'⟩, hbody, heq⟩ := Option.map_eq_some_iff.mp h
      cases heq
      subst c
      exact .literal hbody
    split at h
    · cases h
      subst c
      exact .placeholder cs
    split at h
    · cases h
      exact .number cs ‹_›
    have hdigit : isDigit c = false := Bool.eq_false_iff.mpr ‹_›
    split at h
    · cases h
      exact .word cs hdigit ‹_›
    · exact .sign ‹_› ‹_› ‹_› hdigit (Bool.eq_false_iff.mpr ‹_›) h

/-! ### More text behind a token -/

/-- A character that is no delimiter is followed by what follows it in its piece or by a delimiter. -/
theorem next_of_meets {c x : Char} {cs b xs : List Char} (hc : isDelimiter c = false) (hm : Meets (c :: cs) b)
    (h : cs ++ b = x :: xs) (hx : isDelimiter x = false) : ∃ cs', cs = x :: cs' := by
  cases cs with
  | cons y ys => exact ⟨ys, congrArg (· :: ys) (List.cons.inj h).1⟩
  | nil =>
    have hb : isDelimiter x = true := by
      refine (hm.resolve_right fun hlast => ?_) x ?_
      · simp [hc] at hlast
      · rw [← List.nil_append b, h]
        rfl
    cases hb.symm.trans hx

/-- No sign of two characters comes from two pieces. -/
theorem sign?_append {c : Char} {cs b rest : List Char} {t : Token} (h : sign? c cs = some (t, rest))
    (hm : Meets (c :: cs) b) : sign? c (cs ++ b) = some (t, rest ++ b) := by
  unfold sign? at h
  split at h
  · cases h
    rfl
  · cases h
    rfl
  · cases h
    rfl
  · rename_i hne hle hge
    obtain ⟨hsign, h⟩ := Option.ite_none_right_eq_some.mp h
    cases h
    unfold sign?
    split
    · rename_i heq
      obtain ⟨cs', hcs⟩ := next_of_meets rfl hm heq rfl
      exact (hne cs' rfl hcs).elim
    · rename_i heq
      obtain ⟨cs', hcs⟩ := next_of_meets rfl hm heq rfl
      exact (hle cs' rfl hcs).elim
    · rename_i heq
      obtain ⟨cs', hcs⟩ := next_of_meets rfl hm heq rfl
      exact (hge cs' rfl hcs).elim
    · exact if_pos hsign

/-- A token is the same with more text behind the piece that it stands in. -/
theorem Begins.append {a b rest : List Char} {t : Token} (h : Begins d a t rest) (hm : Meets a b) :
    Begins d (a ++ b) t (rest ++ b) := by
  cases h with
  | name h => exact .name (quotedBody_append (by cases d <;> rfl) h (hm.of_suffix (List.suffix_cons ..)))
  | literal h => exact .literal (quotedBody_append rfl h (hm.of_suffix (List.suffix_cons ..)))
  | placeholder cs =>
    obtain ⟨htake, hdrop⟩ := run_append (fun _ => not_delimiter_of_wordRest) (by cases d <;> rfl) hm
    rw [← htake, ← hdrop]
    exact .placeholder (cs ++ b)
  | number cs hdigit =>
    obtain ⟨htake, hdrop⟩ := run_append (fun _ => not_delimiter_of_digit) (not_delimiter_of_digit hdigit) hm
    rw [← htake, ← hdrop]
    exact .number (cs ++ b) hdigit
  | word cs hdigit hword =>
    obtain ⟨htake, hdrop⟩ := run_append (fun _ => not_delimiter_of_wordRest)
      (not_delimiter_of_wordRest (Bool.or_eq_true .. |>.mpr (.inl hword))) hm
    rw [← htake, ← hdrop]
    exact .word (cs ++ b) hdigit hword
  | sign hname hquote hmark hdigit hword h => exact .sign hname hquote hmark hdigit hword (sign?_append h hm)

theorem quotedBody_suffix {m : Char} {cs body rest : List Char} (h : quotedBody m cs = some (body, rest)) :
    rest <:+ cs := by
  fun_induction quotedBody m cs generalizing body rest with
  | case1 => cases h
  | case2 => cases h; exact List.nil_suffix
  | case3 => cases h
  | case4 cs ih =>
    obtain ⟨⟨body', rest'⟩, h', heq⟩ := Option.map_eq_some_iff.mp h
    cases heq
    exact (ih h').trans ⟨[_, _], rfl⟩
  | case5 => cases h; exact List.suffix_cons _ _
  | case6 c c' cs hc ih =>
    obtain ⟨⟨body', rest'⟩, h', heq⟩ := Option.map_eq_some_iff.mp h
    cases heq
    exact (ih h').trans (List.suffix_cons _ _)

/-- A token takes the first character at least. -/
theorem Begins.suffix {a rest : List Char} {t : Token} (h : Begins d a t rest) : ∃ c cs, a = c :: cs ∧ rest <:+ cs := by
  cases h with
  | name h => exact ⟨_, _, rfl, quotedBody_suffix h⟩
  | literal h => exact ⟨_, _, rfl, quotedBody_suffix h⟩
  | placeholder cs => exact ⟨_, cs, rfl, List.dropWhile_suffix _⟩
  | number cs _ => exact ⟨_, cs, rfl, List.dropWhile_suffix _⟩
  | word cs _ _ => exact ⟨_, cs, rfl, List.dropWhile_suffix _⟩
  | sign _ _ _ _ _ h =>
    refine ⟨_, _, rfl, ?_⟩
    unfold sign? at h
    split at h
    · cases h; exact List.suffix_cons _ _
    · cases h; exact List.suffix_cons _ _
    · cases h; exact List.suffix_cons _ _
    · obtain ⟨-, h⟩ := Option.ite_none_right_eq_some.mp h
      cases h
      exact List.suffix_rfl

/-- No token begins with white space. -/
theorem Begins.not_space {c : Char} {cs rest : List Char} {t : Token} (h : Begins d (c :: cs) t rest) :
    isSpace c = false := by
  rw [Bool.eq_false_iff]
  intro hc
  simp only [isSpace, Bool.or_eq_true, decide_eq_true_eq] at hc
  have hread := h.next?
  obtain ((rfl | rfl) | rfl) | rfl := hc <;> cases d <;> cases hread

/-! ### All tokens of a text -/

/-- A text and its tokens, white space between them being left out. -/
inductive Reads (d : Dialect) : List Char → List Token → Prop
  | nil : Reads d [] []
  | space {c : Char} {cs : List Char} {ts : List Token} (hc : isSpace c = true) (h : Reads d cs ts) :
      Reads d (c :: cs) ts
  | token {a rest : List Char} {t : Token} {ts : List Token} (ht : Begins d a t rest) (h : Reads d rest ts) :
      Reads d a (t :: ts)

theorem Reads.append {a b : List Char} {ts us : List Token} (ha : Reads d a ts) (hb : Reads d b us) (hm : Meets a b) :
    Reads d (a ++ b) (ts ++ us) := by
  induction ha with
  | nil => exact hb
  | space hc _ ih => exact .space hc (ih (hm.of_suffix (List.suffix_cons ..)))
  | token ht _ ih =>
    obtain ⟨c, cs, rfl, hrest⟩ := ht.suffix
    exact .token (ht.append hm) (ih (hm.of_suffix (hrest.trans (List.suffix_cons ..))))

theorem Reads.readWithin {cs : List Char} {ts : List Token} (h : Reads d cs ts) :
    ∀ {fuel : Nat}, cs.length ≤ fuel → readWithin d fuel cs = some ts := by
  induction h with
  | nil => intro fuel _; cases fuel <;> rfl
  | @space c cs ts hc _ ih =>
    intro fuel hfuel
    have hdrop : (c :: cs).dropWhile isSpace = cs.dropWhile isSpace := List.dropWhile_cons_of_pos hc
    rw [Token.readWithin, hdrop, ← Token.readWithin]
    exact ih (Nat.le_of_succ_le hfuel)
  | @token a rest t ts ht _ ih =>
    intro fuel hfuel
    obtain ⟨c, cs, rfl, hrest⟩ := ht.suffix
    cases fuel with
    | zero => cases hfuel
    | succ fuel =>
      have hdrop : (c :: cs).dropWhile isSpace = c :: cs :=
        List.dropWhile_cons_of_neg (Bool.eq_false_iff.mp ht.not_space)
      rw [Token.readWithin, hdrop]
      simp only [ht.next?]
      rw [ih (Nat.le_trans hrest.length_le (Nat.le_of_succ_le_succ hfuel))]
      rfl

theorem Reads.ofText? {s : String} {ts : List Token} (h : Reads d s.toList ts) : ofText? d s = some ts :=
  h.readWithin (Nat.le_refl _)

theorem Reads.of_dropWhile {ts : List Token} : ∀ {cs : List Char}, Reads d (cs.dropWhile isSpace) ts → Reads d cs ts
  | [], h => h
  | c :: cs, h => by
    cases hc : isSpace c with
    | true => exact .space hc (of_dropWhile (by rwa [List.dropWhile_cons_of_pos hc] at h))
    | false => rwa [List.dropWhile_cons_of_neg (Bool.eq_false_iff.mp hc)] at h

theorem Reads.of_readWithin :
    ∀ {fuel : Nat} {cs : List Char} {ts : List Token}, Token.readWithin d fuel cs = some ts → Reads d cs ts
  | fuel, cs, ts, h => by
    refine .of_dropWhile ?_
    rw [Token.readWithin] at h
    cases hcs : cs.dropWhile isSpace with
    | nil =>
      rw [hcs] at h
      cases h
      exact .nil
    | cons c rest =>
      rw [hcs] at h
      cases fuel with
      | zero => cases h
      | succ fuel =>
        dsimp only at h
        split at h
        · cases h
        · obtain ⟨us, hus, rfl⟩ := Option.map_eq_some_iff.mp h
          exact .token (.of_next? ‹_›) (of_readWithin hus)

theorem reads_iff {s : String} {ts : List Token} : Reads d s.toList ts ↔ Token.ofText? d s = some ts :=
  ⟨fun h => h.readWithin (Nat.le_refl _), .of_readWithin⟩

/-! ### Fixed text between pieces -/

/-- Fixed text with its tokens that begins with a delimiter, and so can follow a piece. -/
def Trails (d : Dialect) (s : String) (ts : List Token) : Prop :=
  Token.ofText? d s = some ts ∧ s.toList.head?.any isDelimiter = true

/-- Fixed text with its tokens that ends with a delimiter, and so can precede a piece. -/
def Leads (d : Dialect) (s : String) (ts : List Token) : Prop :=
  Token.ofText? d s = some ts ∧ s.toList.getLast?.any isDelimiter = true

/-- Fixed text with its tokens that can stand between pieces. -/
def Links (d : Dialect) (s : String) (ts : List Token) : Prop :=
  Leads d s ts ∧ s.toList.head?.any isDelimiter = true

instance (s : String) (ts : List Token) : Decidable (Trails d s ts) := inferInstanceAs (Decidable (_ ∧ _))

instance (s : String) (ts : List Token) : Decidable (Leads d s ts) := inferInstanceAs (Decidable (_ ∧ _))

instance (s : String) (ts : List Token) : Decidable (Links d s ts) := inferInstanceAs (Decidable (_ ∧ _))

section
variable {s : String} {a b : List Char} {ts ps us : List Token}

theorem meets_of_head (h : s.toList.head?.any isDelimiter = true) : Meets a (s.toList ++ b) := by
  refine .inl fun c hc => ?_
  cases hs : s.toList with
  | nil =>
    rw [hs] at h
    cases h
  | cons x xs =>
    rw [hs] at h hc
    cases hc
    exact h

theorem Reads.trailed (ha : Reads d a ts) (h : Trails d s ps) : Reads d (a ++ s.toList) (ts ++ ps) := by
  have hm : Meets a (s.toList ++ []) := meets_of_head h.2
  rw [List.append_nil] at hm
  exact ha.append (reads_iff.mpr h.1) hm

theorem Leads.reads (h : Leads d s ps) (hb : Reads d b us) : Reads d (s.toList ++ b) (ps ++ us) := by
  refine (reads_iff.mpr h.1).append hb (.inr fun c hc => ?_)
  have hlast := h.2
  rw [Option.mem_def.mp hc] at hlast
  exact hlast

theorem Reads.linked (ha : Reads d a ts) (h : Links d s ps) (hb : Reads d b us) :
    Reads d (a ++ (s.toList ++ b)) (ts ++ (ps ++ us)) :=
  ha.append (h.1.reads hb) (meets_of_head h.2)

end

end DocStore.Sql.Token
