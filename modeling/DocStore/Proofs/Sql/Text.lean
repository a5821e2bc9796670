import DocStore.Proofs.Sql.Token
import DocStore.Sql.Statement
import Mathlib.Data.List.TakeWhile

/-! The text of statements. Every statement is read as the tokens that its parts stand for, in the order of the parts:
    names, texts and placeholders come back whole, whatever they hold. -/

namespace DocStore.Sql

open Token

variable (d : Dialect)

/-! ### Tokens of the parts -/

/-- The tokens of several parts with a separator between them. -/
def separated (separator : List Token) : List (List Token) → List Token
  | [] => []
  | [ts] => ts
  | ts :: us :: tss => ts ++ (separator ++ separated separator (us :: tss))

def ColumnRef.tokens (c : ColumnRef) : List Token := [.word c.label.text] ++ ([.sign "."] ++ [.name c.column.name])

def Operand.tokens : Operand → List Token
  | column c => c.tokens
  | slot n => [.placeholder (d.placeholder n)]
  | text s => [.literal s]
  | number n => [.number n]

def Equation.tokens (e : Equation) : List Token := e.left.tokens d ++ ([.sign e.op.sql] ++ e.right.tokens d)

def sourceTokens (table : String) (label : Label) : List Token := [.name table] ++ [.word label.text]

/-- The tokens of the value that a select of one value asks for. -/
def Scalar.valueTokens (q : Scalar) : List Token :=
  let value := (ColumnRef.mk q.label q.value).tokens
  if q.minimum then [.word "min", .sign "("] ++ (value ++ [.sign ")"]) else value

def Scalar.tokens (q : Scalar) : List Token :=
  [.sign "(", .word "select"] ++ (q.valueTokens ++ ([.word "from"] ++ (sourceTokens q.table q.label ++
    ([.word "where"] ++ (separated [.word "and"] (q.conditions.map (Equation.tokens d)) ++ [.sign ")"])))))

def Test.tokens : Test → List Token
  | compare e => e.tokens d
  | compareScalar l op r => l.tokens d ++ ([.sign op.sql] ++ r.tokens d)
  | like l p e =>
    l.tokens d ++ ([.word "like"] ++ (p.tokens d ++ ([.word "escape"] ++ [.literal (String.singleton e)])))
  | oneOf l rs =>
    l.tokens d ++ ([.word "in", .sign "("] ++ (separated [.sign ","] (rs.map (Operand.tokens d)) ++ [.sign ")"]))
  | between l lo hi => l.tokens d ++ ([.word "between"] ++ (lo.tokens d ++ ([.word "and"] ++ hi.tokens d)))

mutual

def Condition.tokens : Condition → List Token
  | .test t => t.tokens d
  | .rowExists table label tests =>
    [.word "exists", .sign "(", .word "select", .number 1, .word "from"] ++ (sourceTokens table label ++
      ([.word "where"] ++ (separated [.word "and"] (tests.map (Test.tokens d)) ++ [.sign ")"])))
  | .all cs => [.sign "("] ++ (Condition.tokensOfAll [.word "and"] cs ++ [.sign ")"])
  | .any cs => [.sign "("] ++ (Condition.tokensOfAll [.word "or"] cs ++ [.sign ")"])
  | .not c => [.sign "(", .word "not"] ++ (Condition.tokens c ++ [.sign ")"])

def Condition.tokensOfAll (separator : List Token) : List Condition → List Token
  | [] => []
  | [c] => Condition.tokens c
  | c :: c' :: cs => Condition.tokens c ++ (separator ++ Condition.tokensOfAll separator (c' :: cs))

end

theorem tokensOfAll_eq_separated (separator : List Token) : ∀ cs : List Condition,
    Condition.tokensOfAll d separator cs = separated separator (cs.map (Condition.tokens d))
  | [] => rfl
  | [_] => rfl
  | c :: c' :: cs => by
    rw [Condition.tokensOfAll, tokensOfAll_eq_separated separator (c' :: cs)]
    rfl

def SortTerm.tokens (t : SortTerm) : List Token := t.key.tokens d ++ [.word t.direction.sql]

def PageSlots.tokens (p : PageSlots) : List Token :=
  match d with
  | .sqlite =>
    [.word "limit"] ++ ([.placeholder (d.placeholder p.count)] ++
      (match p.offset with
        | some offset => [.word "offset"] ++ [.placeholder (d.placeholder offset)]
        | none => []))
  | .sqlServer =>
    [.word "offset"] ++ ((match p.offset with
        | some offset => [.placeholder (d.placeholder offset)]
        | none => [.number 0]) ++
      ([.word "rows", .word "fetch", .word "next"] ++ ([.placeholder (d.placeholder p.count)] ++
        [.word "rows", .word "only"])))

/-- The sort terms of a statement, the last of which is the id. -/
def Statement.orderTokens (s : Statement) : List (List Token) :=
  s.sortings.map (SortTerm.tokens d) ++ [(ColumnRef.mk .row .id).tokens ++ [.word Direction.asc.sql]]

def Statement.tokens (s : Statement) : List Token :=
  [.word "select"] ++ ((ColumnRef.mk .row .payload).tokens ++ ([.word "from"] ++ (sourceTokens s.table .row ++
    ((match s.filter with
      | some c => [.word "where"] ++ c.tokens d
      | none => []) ++
    ([.word "order", .word "by"] ++ (separated [.sign ","] (s.orderTokens d) ++
    (match s.page with
      | some p => p.tokens d
      | none => [])))))))

/-! ### Single tokens -/

section
variable {d : Dialect}

/-- What follows the first character of a token that ends where the text does. -/
theorem takeWhile_all {p : Char → Bool} {cs : List Char} (h : ∀ c ∈ cs, p c = true) :
    cs.takeWhile p = cs ∧ cs.dropWhile p = [] :=
  ⟨List.takeWhile_eq_self_iff.mpr h, List.dropWhile_eq_nil_iff.mpr h⟩

theorem reads_word {s : String} {c : Char} (cs : List Char) (hs : s.toList = c :: cs) (hc : isWordStart c = true)
    (hdigit : Text.isDigit c = false) (hcs : cs.all isWordRest = true) : Reads d s.toList [.word s] := by
  obtain ⟨htake, hdrop⟩ := takeWhile_all (List.all_eq_true.mp hcs)
  have h : Begins d (c :: cs) _ _ := .word cs hdigit hc
  rw [htake, hdrop, ← hs, String.ofList_toList] at h
  exact .token h .nil

theorem isWordRest_decimal (n : Nat) : ∀ c ∈ Text.decimal n, isWordRest c = true :=
  fun c hc => Bool.or_eq_true .. |>.mpr (.inr (Text.isDigit_decimal n c hc))

theorem reads_numbered {stem : String} {c : Char} (cs : List Char) (n : Nat) (hs : stem.toList = c :: cs)
    (hc : isWordStart c = true) (hdigit : Text.isDigit c = false) (hcs : cs.all isWordRest = true) :
    Reads d (stem ++ String.ofList (Text.decimal n)).toList [.word (stem ++ String.ofList (Text.decimal n))] := by
  refine reads_word (cs ++ Text.decimal n) ?_ hc hdigit ?_
  · rw [String.toList_append, String.toList_ofList, hs, List.cons_append]
  · rw [List.all_append, hcs, Bool.true_and, List.all_eq_true]
    exact isWordRest_decimal n

theorem reads_label (l : Label) : Reads d l.text.toList [.word l.text] := by
  cases l with
  | row => exact reads_word [] rfl rfl rfl rfl
  | index n => exact reads_numbered ['i'] n rfl rfl rfl rfl
  | right n => exact reads_numbered ['u', 'b'] n rfl rfl rfl rfl
  | sort n => exact reads_numbered ['o'] n rfl rfl rfl rfl

/-- What is written between two marks is read back. -/
theorem quotedBody_doubled (m : Char) : ∀ cs : List Char,
    quotedBody m ((cs.flatMap fun c => if c = m then [c, c] else [c]) ++ [m]) = some (cs, [])
  | [] => by simp [quotedBody]
  | c :: cs => by
    have ih := quotedBody_doubled m cs
    rw [List.flatMap_cons, List.append_assoc]
    by_cases hc : c = m
    · subst hc
      rw [if_pos rfl, List.cons_append, List.cons_append, List.nil_append, quotedBody, ih]
      simp
    · rw [if_neg hc, List.cons_append, List.nil_append]
      -- something follows every character of the content, if only the closing mark
      obtain ⟨x, xs, hx⟩ := List.exists_cons_of_ne_nil
        (List.concat_ne_nil m (cs.flatMap fun c => if c = m then [c, c] else [c]))
      rw [hx] at ih ⊢
      rw [quotedBody, if_neg hc, ih]
      rfl

theorem toList_enclosed (opening closing : Char) (s : String) :
    (Dialect.enclosed opening closing s).toList =
      opening :: ((s.toList.flatMap fun c => if c = closing then [c, c] else [c]) ++ [closing]) := String.toList_ofList

theorem reads_name (s : String) : Reads d (d.identifier s).toList [.name s] := by
  have h := Begins.name (d := d) (quotedBody_doubled (nameMarks d).2 s.toList)
  rw [String.ofList_toList, ← toList_enclosed] at h
  cases d <;> exact .token h .nil

theorem reads_literal (s : String) : Reads d (d.literal s).toList [.literal s] := by
  have h := Begins.literal (d := d) (quotedBody_doubled '\'' s.toList)
  rw [String.ofList_toList, ← toList_enclosed] at h
  exact .token h .nil

theorem reads_placeholder (n : Nat) : Reads d (d.placeholder n).toList [.placeholder (d.placeholder n)] := by
  obtain ⟨cs, hcs, hrest⟩ : ∃ cs, (d.placeholder n).toList = placeholderMark d :: cs ∧
      ∀ c ∈ cs, isWordRest c = true := by
    cases d with
    | sqlite =>
      refine ⟨Text.decimal (n + 1), ?_, isWordRest_decimal (n + 1)⟩
      rw [Dialect.placeholder, String.toList_append, String.toList_ofList, String.toList_ofList]
      rfl
    | sqlServer =>
      refine ⟨'p' :: Text.decimal n, ?_, List.forall_mem_cons.mpr ⟨rfl, isWordRest_decimal n⟩⟩
      rw [Dialect.placeholder, String.toList_append, String.toList_ofList, String.toList_ofList]
      rfl
  obtain ⟨htake, hdrop⟩ := takeWhile_all hrest
  have h := Begins.placeholder (d := d) cs
  rw [htake, hdrop, ← hcs, String.ofList_toList] at h
  exact .token h .nil

theorem reads_number (n : Nat) : Reads d (String.ofList (Text.decimal n)).toList [.number n] := by
  rw [String.toList_ofList]
  obtain ⟨c, cs, hcs⟩ := List.exists_cons_of_ne_nil (Text.decimal_ne_nil n)
  have hdigits := Text.isDigit_decimal n
  rw [hcs, List.forall_mem_cons] at hdigits
  obtain ⟨htake, hdrop⟩ := takeWhile_all hdigits.2
  have h := Begins.number (d := d) cs hdigits.1
  rw [htake, hdrop, ← hcs, Text.digitsValue_decimal] at h
  exact .token h .nil

theorem reads_comparison (op : Comparison) : Reads d op.sql.toList [.sign op.sql] := by
  refine reads_iff.mpr ?_
  cases d <;> cases op <;> decide +kernel

theorem reads_direction (o : Direction) : Reads d o.sql.toList [.word o.sql] := by
  cases o with
  | asc => exact reads_word ['s', 'c'] rfl rfl rfl rfl
  | desc => exact reads_word ['e', 's', 'c'] rfl rfl rfl rfl

/-! ### Fixed texts -/

/-- What statements write between their parts is read as tokens of its own. -/
structure Phrases (d : Dialect) : Prop where
  space : Links d " " []
  dot : Links d "." [.sign "."]
  comma : Links d ", " [.sign ","]
  source : Links d " from " [.word "from"]
  filter : Links d " where " [.word "where"]
  conjunction : Links d " and " [.word "and"]
  disjunction : Links d " or " [.word "or"]
  like : Links d " like " [.word "like"]
  escape : Links d " escape " [.word "escape"]
  membership : Links d " in (" [.word "in", .sign "("]
  range : Links d " between " [.word "between"]
  order : Links d " order by " [.word "order", .word "by"]
  skip : Links d " offset " [.word "offset"]
  fetch : Links d " rows fetch next " [.word "rows", .word "fetch", .word "next"]
  selection : Leads d "select " [.word "select"]
  scalar : Leads d "(select " [.sign "(", .word "select"]
  existence : Leads d "exists (select 1 from " [.word "exists", .sign "(", .word "select", .number 1, .word "from"]
  least : Leads d "min(" [.word "min", .sign "("]
  opening : Leads d "(" [.sign "("]
  negation : Leads d "(not " [.sign "(", .word "not"]
  limit : Leads d "limit " [.word "limit"]
  offset : Leads d "offset " [.word "offset"]
  closing : Trails d ")" [.sign ")"]
  rows : Trails d " rows only" [.word "rows", .word "only"]
  zero : Token.ofText? d "0" = some [.number 0]

theorem phrases (d : Dialect) : Phrases d := by
  cases d <;> constructor <;> decide +kernel

/-! ### Parts -/

theorem Token.Reads.spaced {a b : List Char} {ts us : List Token} (ha : Reads d a ts) (hb : Reads d b us) :
    Reads d (a ++ (" ".toList ++ b)) (ts ++ us) :=
  ha.linked (phrases d).space hb

theorem reads_column (c : ColumnRef) : Reads d (c.text d).toList c.tokens := by
  simp only [ColumnRef.text, String.toList_append, List.append_assoc]
  exact (reads_label c.label).linked (phrases d).dot (reads_name c.column.name)

theorem reads_operand (x : Operand) : Reads d (x.sql d).toList (x.tokens d) := by
  cases x with
  | column c => exact reads_column c
  | slot n => exact reads_placeholder n
  | text s => exact reads_literal s
  | number n => exact reads_number n

theorem reads_equation (e : Equation) : Reads d (e.text d).toList (e.tokens d) := by
  simp only [Equation.text, String.toList_append, List.append_assoc]
  exact (reads_operand e.left).spaced ((reads_comparison e.op).spaced (reads_operand e.right))

theorem reads_source (table : String) (label : Label) :
    Reads d (source d table label).toList (sourceTokens table label) := by
  simp only [source, String.toList_append, List.append_assoc]
  exact (reads_name table).spaced (reads_label label)

theorem reads_joined {α : Type} {separator : String} {ps : List Token} (hlink : Links d separator ps)
    {text : α → String} {tokens : α → List Token} :
    ∀ {xs : List α}, (∀ x ∈ xs, Reads d (text x).toList (tokens x)) →
      Reads d (joined separator (xs.map text)).toList (separated ps (xs.map tokens))
  | [], _ => .nil
  | [x], h => h x List.mem_cons_self
  | x :: y :: xs, h => by
    obtain ⟨hx, hxs⟩ := List.forall_mem_cons.mp h
    have hrest := reads_joined hlink hxs
    simp only [List.map_cons, joined, separated, String.toList_append, List.append_assoc] at hrest ⊢
    exact hx.linked hlink hrest

theorem reads_value (q : Scalar) :
    Reads d (if q.minimum then "min(" ++ (ColumnRef.mk q.label q.value).text d ++ ")"
      else (ColumnRef.mk q.label q.value).text d).toList q.valueTokens := by
  unfold Scalar.valueTokens
  cases q.minimum with
  | false => exact reads_column _
  | true =>
    simp only [if_true, String.toList_append, List.append_assoc]
    exact (phrases d).least.reads ((reads_column _).trailed (phrases d).closing)

theorem reads_scalar (q : Scalar) : Reads d (q.text d).toList (q.tokens d) := by
  have hconditions := reads_joined (phrases d).conjunction fun e (_ : e ∈ q.conditions) => reads_equation e
  simp only [Scalar.text, String.toList_append, List.append_assoc]
  have hsource := (reads_source q.table q.label).linked (phrases d).filter (hconditions.trailed (phrases d).closing)
  exact (phrases d).scalar.reads ((reads_value q).linked (phrases d).source hsource)

theorem reads_test (t : Test) : Reads d (t.text d).toList (t.tokens d) := by
  cases t with
  | compare e => exact reads_equation e
  | compareScalar l op r =>
    simp only [Test.text, String.toList_append, List.append_assoc]
    exact (reads_operand l).spaced ((reads_comparison op).spaced (reads_scalar r))
  | like l p e =>
    simp only [Test.text, String.toList_append, List.append_assoc]
    have hpattern := (reads_operand p).linked (phrases d).escape (reads_literal (String.singleton e))
    exact (reads_operand l).linked (phrases d).like hpattern
  | oneOf l rs =>
    have hrs := reads_joined (phrases d).comma fun x (_ : x ∈ rs) => reads_operand x
    simp only [Test.text, String.toList_append, List.append_assoc]
    exact (reads_operand l).linked (phrases d).membership (hrs.trailed (phrases d).closing)
  | between l lo hi =>
    simp only [Test.text, String.toList_append, List.append_assoc]
    have hrange := (reads_operand lo).linked (phrases d).conjunction (reads_operand hi)
    exact (reads_operand l).linked (phrases d).range hrange

/-- Text in brackets, before which other fixed text may stand. -/
theorem reads_enclosed {opening s : String} {ps ts : List Token} (ho : Leads d opening ps) (h : Reads d s.toList ts) :
    Reads d (opening ++ s ++ ")").toList (ps ++ (ts ++ [.sign ")"])) := by
  simp only [String.toList_append, List.append_assoc]
  exact ho.reads (h.trailed (phrases d).closing)

theorem reads_rowExists (table : String) (label : Label) (tests : List Test) :
    Reads d (Condition.text d (.rowExists table label tests)).toList
      (Condition.tokens d (.rowExists table label tests)) := by
  have htests := reads_joined (phrases d).conjunction fun t (_ : t ∈ tests) => reads_test t
  have htext : Condition.text d (.rowExists table label tests) = "exists (select 1 from " ++ source d table label ++
    " where " ++ joined " and " (tests.map (Test.text d)) ++ ")" := rfl
  simp only [htext, Condition.tokens, String.toList_append, List.append_assoc]
  have hsource := (reads_source table label).linked (phrases d).filter (htests.trailed (phrases d).closing)
  exact (phrases d).existence.reads hsource

mutual

/-- The text of a condition is read as its tokens. -/
theorem reads_condition : ∀ c : Condition, Reads d (c.text d).toList (c.tokens d)
  | .test t => reads_test t
  | .rowExists table label tests => reads_rowExists table label tests
  | .all cs => reads_enclosed (phrases d).opening (reads_conditions (phrases d).conjunction cs)
  | .any cs => reads_enclosed (phrases d).opening (reads_conditions (phrases d).disjunction cs)
  | .not c => reads_enclosed (phrases d).negation (reads_condition c)

theorem reads_conditions {separator : String} {ps : List Token} (hlink : Links d separator ps) :
    ∀ cs : List Condition, Reads d (Condition.textOfAll d separator cs).toList (Condition.tokensOfAll d ps cs)
  | [] => .nil
  | [c] => reads_condition c
  | c :: c' :: cs => by
    have h := (reads_condition c).linked hlink (reads_conditions hlink (c' :: cs))
    rwa [← String.toList_append, ← String.toList_append, ← String.append_assoc] at h

end

theorem reads_sortTerm (t : SortTerm) : Reads d (t.text d).toList (t.tokens d) := by
  simp only [SortTerm.text, String.toList_append, List.append_assoc]
  exact (reads_scalar t.key).spaced (reads_direction t.direction)

theorem reads_page (p : PageSlots) : Reads d (p.text d).toList (p.tokens d) := by
  cases d with
  | sqlite =>
    cases ho : p.offset with
    | none =>
      simp only [PageSlots.text, PageSlots.tokens, ho, Option.map_none, Dialect.page, String.toList_append,
        List.append_nil]
      exact (phrases _).limit.reads (reads_placeholder p.count)
    | some offset =>
      simp only [PageSlots.text, PageSlots.tokens, ho, Option.map_some, Dialect.page, String.toList_append,
        List.append_assoc]
      exact (phrases _).limit.reads ((reads_placeholder p.count).linked (phrases _).skip (reads_placeholder offset))
  | sqlServer =>
    have hcount := (reads_placeholder p.count).trailed (phrases .sqlServer).rows
    cases ho : p.offset with
    | none =>
      simp only [PageSlots.text, PageSlots.tokens, ho, Option.map_none, Option.getD_none, Dialect.page,
        String.toList_append, List.append_assoc]
      exact (phrases _).offset.reads ((reads_iff.mpr (phrases _).zero).linked (phrases _).fetch hcount)
    | some offset =>
      simp only [PageSlots.text, PageSlots.tokens, ho, Option.map_some, Option.getD_some, Dialect.page,
        String.toList_append, List.append_assoc]
      exact (phrases _).offset.reads ((reads_placeholder offset).linked (phrases _).fetch hcount)

theorem reads_order (s : Statement) :
    Reads d (joined ", " (s.sortings.map (SortTerm.text d) ++
        [(ColumnRef.mk .row .id).text d ++ " " ++ Direction.asc.sql])).toList
      (separated [.sign ","] (s.orderTokens d)) := by
  let last : String × List Token :=
    ((ColumnRef.mk .row .id).text d ++ " " ++ Direction.asc.sql,
      (ColumnRef.mk .row .id).tokens ++ [.word Direction.asc.sql])
  have hlast : Reads d last.1.toList last.2 := by
    simp only [last, String.toList_append, List.append_assoc]
    exact (reads_column _).spaced (reads_direction _)
  let terms := s.sortings.map (fun t => (t.text d, t.tokens d)) ++ [last]
  have hterms : ∀ x ∈ terms, Reads d x.1.toList x.2 := by
    rw [List.forall_mem_append, List.forall_mem_singleton, List.forall_mem_map]
    exact ⟨fun t _ => reads_sortTerm t, hlast⟩
  have h : Reads d (joined ", " (terms.map Prod.fst)).toList (separated [.sign ","] (terms.map Prod.snd)) :=
    reads_joined (phrases d).comma hterms
  rwa [List.map_append, List.map_append, List.map_map, List.map_map] at h

/-- The text of a statement is read as its tokens. -/
theorem reads_statement (s : Statement) : Reads d (s.text d).toList (s.tokens d) := by
  have horder := (phrases d).order
  have hterms := reads_order (d := d) s
  have htable := reads_source (d := d) s.table .row
  have hpayload := fun {cs ts} (h : Reads d cs ts) =>
    (phrases d).selection.reads ((reads_column ⟨.row, .payload⟩).linked (phrases d).source h)
  cases hf : s.filter <;> cases hp : s.page <;>
    simp only [Statement.text, Statement.tokens, hf, hp, String.toList_append, String.toList_empty, List.append_assoc,
      List.nil_append, List.append_nil]
  case none.none => exact hpayload (htable.linked horder hterms)
  case none.some p => exact hpayload (htable.linked horder (hterms.spaced (reads_page p)))
  case some.none c => exact hpayload (htable.linked (phrases d).filter ((reads_condition c).linked horder hterms))
  case some.some c p =>
    exact hpayload (htable.linked (phrases d).filter ((reads_condition c).linked horder (hterms.spaced (reads_page p))))

end

end DocStore.Sql
