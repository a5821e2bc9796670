import DocStore.Proofs.Sql.Text

/-! Paths among tokens. Which texts are compared with the column of paths is seen from left to right: the column, a
    comparison, the text. What a piece of a statement compares with that column does not depend on the pieces around it,
    as long as no piece ends in the middle of such a comparison. -/

namespace DocStore.Sql

/-! ### Comparisons with the column of paths -/

/-- Where a token stands: right behind the column of paths, behind that column and a comparison, or elsewhere. -/
inductive Place where
  | elsewhere
  | column
  | compared
deriving DecidableEq, Repr

namespace Place

/-- The signs that compare. -/
def comparisons : List String := [Comparison.eq, .ne, .lt, .le, .gt, .ge].map Comparison.sql

/-- The place behind a token. -/
def after (x : Place) : Token → Place
  | .name s => if s = Column.path.name then .column else .elsewhere
  | .sign s => if x = .column ∧ s ∈ comparisons then .compared else .elsewhere
  | _ => .elsewhere

/-- The text that is compared with the column of paths, if the token is one. -/
def path? (x : Place) : Token → Option String
  | .literal s => if x = .compared then some s else none
  | _ => none

/-- The token with that text renamed. -/
def rename (ρ : String → String) (x : Place) : Token → Token
  | .literal s => .literal (if x = .compared then ρ s else s)
  | t => t

end Place

/-- The place behind tokens. -/
def placeAfter (x : Place) (ts : List Token) : Place := ts.foldl Place.after x

def pathsFrom : Place → List Token → List String
  | _, [] => []
  | x, t :: ts => (x.path? t).toList ++ pathsFrom (x.after t) ts

def renamedFrom (ρ : String → String) : Place → List Token → List Token
  | _, [] => []
  | x, t :: ts => x.rename ρ t :: renamedFrom ρ (x.after t) ts

/-- The contents of the literals that are compared with the column of paths, in their order. -/
def comparedPaths (ts : List Token) : List String := pathsFrom .elsewhere ts

/-- The same tokens, but for the contents of the literals that are compared with the column of paths. -/
def mapPaths (ρ : String → String) (ts : List Token) : List Token := renamedFrom ρ .elsewhere ts

theorem pathsFrom_append (us : List Token) :
    ∀ (ts : List Token) (x : Place), pathsFrom x (ts ++ us) = pathsFrom x ts ++ pathsFrom (placeAfter x ts) us
  | [], _ => rfl
  | t :: ts, x => by
    rw [List.cons_append, pathsFrom, pathsFrom_append us ts, pathsFrom, List.append_assoc]
    rfl

theorem renamedFrom_append (ρ : String → String) (us : List Token) :
    ∀ (ts : List Token) (x : Place),
      renamedFrom ρ x (ts ++ us) = renamedFrom ρ x ts ++ renamedFrom ρ (placeAfter x ts) us
  | [], _ => rfl
  | t :: ts, x => by
    rw [List.cons_append, renamedFrom, renamedFrom_append ρ us ts]
    rfl

theorem placeAfter_append (x : Place) (ts us : List Token) :
    placeAfter x (ts ++ us) = placeAfter (placeAfter x ts) us := List.foldl_append

/-! ### Pieces -/

/-- A piece that compares the given paths with the column of paths, and what the piece is once they are renamed. -/
structure Asks (ρ : String → String) (ts us : List Token) (paths : List String) : Prop where
  paths : comparedPaths ts = paths
  renamed : mapPaths ρ ts = us
  ends : placeAfter .elsewhere ts = .elsewhere

variable {ρ : String → String}

namespace Asks

variable {ts us ts' us' : List Token} {xs xs' : List String}

theorem append (h : Asks ρ ts us xs) (h' : Asks ρ ts' us' xs') : Asks ρ (ts ++ ts') (us ++ us') (xs ++ xs') where
  paths := by rw [comparedPaths, pathsFrom_append, h.ends, ← h.paths, ← h'.paths]; rfl
  renamed := by rw [mapPaths, renamedFrom_append, h.ends, ← h.renamed, ← h'.renamed]; rfl
  ends := by rw [placeAfter_append, h.ends, h'.ends]

/-- Behind a piece stands a bracket that closes what it is in. -/
theorem closed (h : Asks ρ ts us xs) : Asks ρ (ts ++ [.sign ")"]) (us ++ [.sign ")"]) xs := by
  have hbracket : Asks ρ [.sign ")"] [.sign ")"] [] := ⟨rfl, rfl, rfl⟩
  have h := h.append hbracket
  rwa [List.append_nil] at h

end Asks

/-- Pieces one after another, and all that they ask for. -/
inductive AsksEach (ρ : String → String) : List (List Token) → List (List Token) → List String → Prop
  | nil : AsksEach ρ [] [] []
  | cons {ts us : List Token} {tss uss : List (List Token)} {xs ys : List String} (h : Asks ρ ts us xs)
      (hs : AsksEach ρ tss uss ys) : AsksEach ρ (ts :: tss) (us :: uss) (xs ++ ys)

namespace AsksEach

variable {tss uss : List (List Token)} {xs : List String}

theorem single {ts us : List Token} (h : Asks ρ ts us xs) : AsksEach ρ [ts] [us] xs := by
  have h := AsksEach.cons h .nil
  rwa [List.append_nil] at h

/-- Pieces that ask for nothing. -/
theorem plain : ∀ {tss : List (List Token)}, (∀ ts ∈ tss, Asks ρ ts ts []) → AsksEach ρ tss tss []
  | [], _ => .nil
  | _ :: _, h => .cons (h _ List.mem_cons_self) (plain fun _ hts => h _ (.tail _ hts))

theorem separated {sep : List Token} (hsep : Asks ρ sep sep []) (h : AsksEach ρ tss uss xs) :
    Asks ρ (separated sep tss) (separated sep uss) xs := by
  induction h with
  | nil => exact ⟨rfl, rfl, rfl⟩
  | cons h hs ih =>
    cases hs with
    | nil =>
      rw [List.append_nil]
      exact h
    | cons _ _ => exact h.append (hsep.append ih)

end AsksEach

/-! ### Parts of conditions -/

variable (d : Dialect)

theorem asks_word (w : String) : Asks ρ [.word w] [.word w] [] := ⟨rfl, rfl, rfl⟩

theorem asks_source (table : String) (label : Label) :
    Asks ρ (sourceTokens table label) (sourceTokens table label) [] := ⟨rfl, rfl, rfl⟩

theorem asks_ids (inner outer : Label) :
    let e : Equation := ⟨.column ⟨inner, .id⟩, .eq, .column ⟨outer, .id⟩⟩
    Asks ρ (e.tokens d) (e.tokens d) [] := ⟨rfl, rfl, rfl⟩

theorem asks_path (label : Label) (path : String) :
    let e (path : String) : Equation := ⟨.column ⟨label, .path⟩, .eq, .text path⟩
    Asks ρ ((e path).tokens d) ((e (ρ path)).tokens d) [path] := ⟨rfl, rfl, rfl⟩

theorem asks_value (label : Label) (c : TypeCode) :
    Asks ρ (ColumnRef.mk label (.value c)).tokens (ColumnRef.mk label (.value c)).tokens [] := by
  cases c <;> exact ⟨rfl, rfl, rfl⟩

/-- A test of the value of an index row, behind the value. -/
theorem asks_ofValue (label : Label) (c : TypeCode) {ts us : List Token} {xs : List String} (h : Asks ρ ts us xs) :
    Asks ρ ((ColumnRef.mk label (.value c)).tokens ++ ts) ((ColumnRef.mk label (.value c)).tokens ++ us) xs :=
  (asks_value label c).append h

/-- What a select ranges over and its conditions, up to the bracket that closes it. -/
theorem asks_selection (table : String) (label : Label) {tss uss : List (List Token)} {xs : List String}
    (h : AsksEach ρ tss uss xs) :
    let rest (tss : List (List Token)) : List Token :=
      sourceTokens table label ++ ([.word "where"] ++ (separated [.word "and"] tss ++ [.sign ")"]))
    Asks ρ (rest tss) (rest uss) xs :=
  (asks_source table label).append ((asks_word "where").append (h.separated (asks_word "and")).closed)

theorem asks_scalar (table : String) (label : Label) (c : TypeCode) {es es' : List Equation} {xs : List String}
    (h : AsksEach ρ (es.map (Equation.tokens d)) (es'.map (Equation.tokens d)) xs) :
    let q (es : List Equation) : Scalar := ⟨false, .value c, table, label, es⟩
    Asks ρ ((q es).tokens d) ((q es').tokens d) xs := by
  have hopening : Asks ρ [.sign "(", .word "select"] [.sign "(", .word "select"] [] := ⟨rfl, rfl, rfl⟩
  exact hopening.append (asks_ofValue label c ((asks_word "from").append (asks_selection table label h)))

theorem asks_rowExists (table : String) (label : Label) {tests tests' : List Test} {xs : List String}
    (h : AsksEach ρ (tests.map (Test.tokens d)) (tests'.map (Test.tokens d)) xs) :
    Asks ρ ((Condition.rowExists table label tests).tokens d) ((Condition.rowExists table label tests').tokens d)
      xs := by
  let opening : List Token := [.word "exists", .sign "(", .word "select", .number 1, .word "from"]
  have hopening : Asks ρ opening opening [] := ⟨rfl, rfl, rfl⟩
  rw [Condition.tokens, Condition.tokens]
  exact hopening.append (asks_selection table label h)

section
variable (label : Label) (c : TypeCode)

theorem asks_compare (op : Comparison) (slot : Nat) :
    let t : Test := .compare ⟨.column ⟨label, .value c⟩, op, .slot slot⟩
    Asks ρ (t.tokens d) (t.tokens d) [] := asks_ofValue label c ⟨rfl, rfl, rfl⟩

theorem asks_compareScalar (op : Comparison) {q q' : Scalar} {xs : List String}
    (h : Asks ρ (q.tokens d) (q'.tokens d) xs) :
    let left : Operand := .column ⟨label, .value c⟩
    Asks ρ ((Test.compareScalar left op q).tokens d) ((Test.compareScalar left op q').tokens d) xs := by
  have hsign : Asks ρ [.sign op.sql] [.sign op.sql] [] := ⟨rfl, rfl, rfl⟩
  exact asks_ofValue label c (hsign.append h)

theorem asks_like (slot : Nat) :
    let t : Test := .like (.column ⟨label, .value c⟩) (.slot slot) Dialect.likeEscape
    Asks ρ (t.tokens d) (t.tokens d) [] := asks_ofValue label c ⟨rfl, rfl, rfl⟩

theorem asks_between (slot : Nat) :
    let t : Test := .between (.column ⟨label, .value c⟩) (.slot slot) (.slot (slot + 1))
    Asks ρ (t.tokens d) (t.tokens d) [] := asks_ofValue label c ⟨rfl, rfl, rfl⟩

theorem asks_oneOf (slot n : Nat) :
    let t : Test := .oneOf (.column ⟨label, .value c⟩) ((List.range n).map fun i => .slot (slot + i))
    Asks ρ (t.tokens d) (t.tokens d) [] := by
  have hopening : Asks ρ [.word "in", .sign "("] [.word "in", .sign "("] [] := ⟨rfl, rfl, rfl⟩
  let slots := ((List.range n).map fun i => Operand.slot (slot + i)).map (Operand.tokens d)
  have hslots : AsksEach ρ slots slots [] := by
    refine .plain (List.forall_mem_map.mpr (List.forall_mem_map.mpr fun i _ => ?_))
    exact ⟨rfl, rfl, rfl⟩
  have hcomma : Asks ρ [.sign ","] [.sign ","] [] := ⟨rfl, rfl, rfl⟩
  exact asks_ofValue label c (hopening.append (hslots.separated hcomma).closed)

end

/-- Conditions joined by a word, in brackets. -/
theorem asks_joined {sep : List Token} (hsep : Asks ρ sep sep []) {cs cs' : List Condition} {xs : List String}
    (h : AsksEach ρ (cs.map (Condition.tokens d)) (cs'.map (Condition.tokens d)) xs) :
    Asks ρ ([.sign "("] ++ (Condition.tokensOfAll d sep cs ++ [.sign ")"]))
      ([.sign "("] ++ (Condition.tokensOfAll d sep cs' ++ [.sign ")"])) xs := by
  have hopening : Asks ρ [.sign "("] [.sign "("] [] := ⟨rfl, rfl, rfl⟩
  rw [tokensOfAll_eq_separated, tokensOfAll_eq_separated]
  exact hopening.append (h.separated hsep).closed

end DocStore.Sql
