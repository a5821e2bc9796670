import DocStore.Proofs.Sql.Grammar
import DocStore.Proofs.Sql.Truth

/-! Texts are read back. The readers of the grammar come to the condition or the statement that a text was written for,
    so no two of different meaning have the same text: the brackets that are written are those that the precedence of
    `and`, `or` and `not` calls for. Only groups of one condition are not told from the condition itself. -/

namespace DocStore.Sql

namespace Reader

variable {α β : Type} {ts us : List Token} {x : α} {y : β} {es es' : List Token} {t u : Token}

/-! ### What readers take -/

/-- A reader takes exactly these tokens for a result wherever they stand, unless it would go on with what comes next. -/
def Takes (r : Reader α) (ts : List Token) (x : α) (on : List Token) : Prop :=
  ∀ rest : List Token, (∀ t ∈ rest.head?, t ∉ on) → r (ts ++ rest) = some (x, rest)

theorem Takes.mono {r : Reader α} (h : r.Takes ts x es) (hsub : es ⊆ es') : r.Takes ts x es' :=
  fun rest hrest => h rest fun t ht hmem => hrest t ht (hsub hmem)

theorem Takes.always {r : Reader α} (h : r.Takes ts x []) : r.Takes ts x es := h.mono (List.nil_subset _)

theorem Takes.whole {r : Reader α} (h : r.Takes ts x es) : r.whole ts = some x := by
  have h := h [] nofun
  rw [List.append_nil] at h
  rw [Reader.whole, h]
  rfl

theorem takes_pure : (pure x : Reader α).Takes [] x es := fun _ _ => rfl

/-- Readers one after another, the first of which takes its tokens whatever comes next. -/
theorem Takes.bind {r : Reader α} {f : α → Reader β} (h : r.Takes ts x []) (hf : (f x).Takes us y es) :
    (r >>= f).Takes (ts ++ us) y es := by
  intro rest hrest
  show (r (ts ++ us ++ rest)).bind (fun p => f p.1 p.2) = _
  rw [List.append_assoc, h _ fun _ _ => List.not_mem_nil]
  exact hf rest hrest

/-- Readers one after another, the first of which does not go on with what the second one begins with. -/
theorem Takes.bind_next {r : Reader α} {f : α → Reader β} (h : r.Takes ts x es) (hf : (f x).Takes us y es')
    (hhead : us.head? = some u) (hu : u ∉ es) : (r >>= f).Takes (ts ++ us) y es' := by
  intro rest hrest
  show (r (ts ++ us ++ rest)).bind (fun p => f p.1 p.2) = _
  have hnext : ∀ t ∈ (us ++ rest).head?, t ∉ es := by
    rw [List.head?_append, hhead]
    rintro t ⟨⟩
    exact hu
  rw [List.append_assoc, h _ hnext]
  exact hf rest hrest

theorem Takes.map {r : Reader α} (h : r.Takes ts x es) (f : α → β) : (f <$> r).Takes ts (f x) es := by
  intro rest hrest
  show (r (ts ++ rest)).bind (fun p => some (f p.1, p.2)) = _
  rw [h rest hrest]
  rfl

theorem Takes.last {r : Reader α} (h : r.Takes ts x es) (f : α → β) : (r >>= fun x => pure (f x)).Takes ts (f x) es :=
  h.map f

theorem takes_one {f : Token → Option α} (h : f t = some x) : (one f).Takes [t] x es := by
  intro rest _
  show (f t).map (·, rest) = _
  rw [h]
  rfl

theorem takes_token (t : Token) : (token t).Takes [t] () es := takes_one (if_pos rfl)

theorem Takes.closed {r : Reader α} (h : r.Takes ts x es) (hes : .sign ")" ∉ es) :
    (closed r).Takes (ts ++ [.sign ")"]) x es' :=
  h.bind_next ((takes_token _).last _) rfl hes

theorem takes_tokens : ∀ ts : List Token, (tokens ts).Takes ts () es
  | [] => takes_pure
  | t :: ts => (takes_token t).bind (takes_tokens ts)

section
variable {found missing : Reader α}

theorem Takes.after_found (h : found.Takes ts x es) : (after t found missing).Takes (t :: ts) x es := by
  intro rest hrest
  rw [List.cons_append, after, if_pos rfl]
  exact h rest hrest

theorem Takes.after_missing (h : missing.Takes ts x es) (hhead : ts.head? = some u) (hu : u ≠ t) :
    (after t found missing).Takes ts x es := by
  intro rest hrest
  match ts, hhead with
  | _ :: _, rfl =>
    rw [List.cons_append, after, if_neg hu]
    exact h rest hrest

/-- Nothing is taken where the token does not come next. -/
theorem takes_nothing : (after t found (pure x)).Takes [] x [t] := by
  intro rest hrest
  match rest with
  | [] => rfl
  | u :: rest =>
    have hu : u ≠ t := fun heq => hrest u rfl (List.mem_singleton.mpr heq)
    rw [List.nil_append, after, if_neg hu]
    rfl

end

/-! ### Parts -/

section
variable {part : Reader β} {separator : Token} {write : α → List Token} {value : α → β}

theorem takes_partsWithin (hseparator : separator ∉ es) : ∀ {n : Nat} {xs : List α}, xs ≠ [] → xs.length ≤ n →
    (∀ x ∈ xs, part.Takes (write x) (value x) es) →
    (partsWithin separator part n).Takes (separated [separator] (xs.map write)) (xs.map value) (separator :: es)
  | _, [], hxs, _, _ => absurd rfl hxs
  | 0, _ :: _, _, hn, _ => absurd hn (by simp)
  | n + 1, [x], _, _, hpart => by
    intro rest hrest
    have hx := hpart x List.mem_cons_self rest fun t ht hmem => hrest t ht (List.mem_cons_of_mem _ hmem)
    show (part (write x ++ rest)).bind (fun p =>
      after separator ((p.1 :: ·) <$> partsWithin separator part n) (pure [p.1]) p.2) = _
    rw [hx]
    exact takes_nothing.mono (List.cons_subset_cons _ (List.nil_subset es)) rest hrest
  | n + 1, x :: y :: xs, _, hn, hpart => by
    obtain ⟨hx, hxs⟩ := List.forall_mem_cons.mp hpart
    have hrest := takes_partsWithin hseparator (List.cons_ne_nil y xs) (Nat.le_of_succ_le_succ hn) hxs
    exact hx.bind_next (hrest.map _).after_found rfl hseparator

theorem length_le_separated (sep : Token) : ∀ tss : List (List Token), tss.length ≤ (separated [sep] tss).length + 1
  | [] => Nat.zero_le _
  | [_] => Nat.le_add_left ..
  | ts :: us :: tss => by
    have ih := length_le_separated sep (us :: tss)
    simp only [separated, List.length_append, List.length_cons, List.length_nil] at ih ⊢
    omega

/-- Parts with separators between them are taken one by one. -/
theorem takes_parts {xs : List α} (hxs : xs ≠ []) (hpart : ∀ x ∈ xs, part.Takes (write x) (value x) es)
    (hseparator : separator ∉ es) :
    (parts separator part).Takes (separated [separator] (xs.map write)) (xs.map value) (separator :: es) := by
  intro rest hrest
  have hlength := length_le_separated separator (xs.map write)
  rw [List.length_map] at hlength
  refine takes_partsWithin hseparator hxs ?_ hpart rest hrest
  rw [List.length_append]
  omega

theorem takes_list {xs : List β} {write : β → List Token} (hxs : xs ≠ []) (hpart : ∀ x ∈ xs, part.Takes (write x) x es)
    (hseparator : separator ∉ es) :
    (parts separator part).Takes (separated [separator] (xs.map write)) xs (separator :: es) := by
  have h : (parts separator part).Takes _ (xs.map id) _ := takes_parts hxs hpart hseparator
  rwa [List.map_id] at h

end

end Reader

open Reader

/-- A test in which no list is empty. -/
def Test.Proper : Test → Prop
  | .compareScalar _ _ q => q.conditions ≠ []
  | .oneOf _ rs => rs ≠ []
  | .compare _ | .like .. | .between .. => True

/-! ### Names and numbers -/

theorem Label.ofText?_text (l : Label) : ofText? l.text = some l := by
  cases l with
  | row => decide
  | _ => simp [ofText?, toList_text, Text.natural?_decimal]

theorem Column.ofName?_name (c : Column) : ofName? c.name = some c := by
  cases c with
  | value c => cases c <;> decide
  | _ => decide

theorem slotOf?_placeholder (d : Dialect) (n : Nat) : slotOf? d (d.placeholder n) = some n := by
  cases d <;> simp [slotOf?, Dialect.placeholder, Text.natural?_decimal]

theorem operatorOf?_sql (op : Comparison) : RawSelect.operatorOf? op.sql = some op := by
  cases op <;> decide

namespace Reader

variable {d : Dialect} {es : List Token}

theorem takes_name (s : String) : name.Takes [.name s] s es := takes_one rfl

theorem takes_label (l : Label) : label.Takes [.word l.text] l es := takes_one l.ofText?_text

theorem takes_column (c : ColumnRef) : column.Takes c.tokens c es :=
  (takes_label c.label).bind ((takes_token _).bind ((takes_one c.column.ofName?_name).bind takes_pure))

theorem takes_comparison (op : Comparison) : comparison.Takes [.sign op.sql] op es := takes_one (operatorOf?_sql op)

theorem takes_direction (o : Direction) : direction.Takes [.word o.sql] o es := takes_one (by cases o <;> decide)

theorem takes_character (c : Char) : character.Takes [.literal (String.singleton c)] c es := takes_one (by simp)

theorem takes_slot (n : Nat) : (slot d).Takes [.placeholder (d.placeholder n)] n es :=
  takes_one (slotOf?_placeholder d n)

theorem takes_operand (x : Operand) : (operand d).Takes (x.tokens d) x es := by
  cases x with
  | column c => exact (takes_column c).map Operand.column
  | slot n => exact (takes_slot n).map Operand.slot
  | text s => exact fun _ _ => rfl
  | number n => exact fun _ _ => rfl

/-! ### Tests -/

theorem takes_equation (e : Equation) : (equation d).Takes (e.tokens d) e es :=
  (takes_operand e.left).bind ((takes_comparison e.op).bind ((takes_operand e.right).map _))

/-- No word is a label unless it begins as labels do. -/
theorem label_ne {w : String} (l : Label) (hw : w.toList.head? ≠ some 's') : l.text ≠ w := by
  rintro rfl
  exact hw (by rw [Label.toList_text]; rfl)

/-- What operands and tests begin with is none of the tokens that other conditions begin with. -/
theorem operand_begins (x : Operand) :
    ∃ u, (x.tokens d).head? = some u ∧ u ∉ [.word "not", .sign "(", .word "exists"] := by
  cases x with
  | column c =>
    have hne (w : String) (hw : w.toList.head? ≠ some 's') : Token.word c.label.text ≠ .word w :=
      fun h => label_ne c.label hw (Token.word.inj h)
    exact ⟨_, rfl, by simp [hne "not" (by decide), hne "exists" (by decide)]⟩
  | slot n => exact ⟨_, rfl, by simp⟩
  | text s => exact ⟨_, rfl, by simp⟩
  | number n => exact ⟨_, rfl, by simp⟩

theorem test_begins (t : Test) : ∃ u, (t.tokens d).head? = some u ∧ u ∉ [.word "not", .sign "(", .word "exists"] := by
  have hleft (x : Operand) (ts : List Token) :
      ∃ u, (x.tokens d ++ ts).head? = some u ∧ u ∉ [.word "not", .sign "(", .word "exists"] := by
    obtain ⟨u, hhead, hu⟩ := operand_begins (d := d) x
    exact ⟨u, by rw [List.head?_append, hhead]; rfl, hu⟩
  cases t <;> exact hleft _ _

theorem takes_scalarValue (q : Scalar) : scalarValue.Takes q.valueTokens (q.minimum, ⟨q.label, q.value⟩) es := by
  have hcolumn : column.Takes _ _ [] := takes_column ⟨q.label, q.value⟩
  rw [Scalar.valueTokens]
  cases q.minimum with
  | true => exact ((takes_token _).bind ((hcolumn.closed List.not_mem_nil).map _)).after_found
  | false => exact (hcolumn.always.map _).after_missing rfl fun h => label_ne q.label (by decide) (Token.word.inj h)

theorem takes_scalar {q : Scalar} (hq : q.conditions ≠ []) : (scalar d).Takes (q.tokens d).tail q es := by
  have hconditions : (parts (.word "and") (equation d)).Takes _ q.conditions _ :=
    takes_list hq (fun e _ => takes_equation e) List.not_mem_nil
  exact (takes_token _).bind ((takes_scalarValue q).bind ((takes_token _).bind ((takes_name _).bind
    ((takes_token _).bind ((takes_token _).bind ((hconditions.closed (by decide)).map _))))))

theorem takes_comparisonOf (l : Operand) {op : Comparison} {ts : List Token} {t : Test}
    (h : (comparisonOf d l).Takes ([.sign op.sql] ++ ts) t es) : (testOf d l).Takes ([.sign op.sql] ++ ts) t es :=
  ((h.after_missing rfl (by simp)).after_missing rfl (by simp)).after_missing rfl (by simp)

/-- A test in which no list is empty is read back. -/
theorem takes_test {t : Test} (ht : t.Proper) : (test d).Takes (t.tokens d) t es := by
  cases t with
  | compare e =>
    obtain ⟨u, hhead, hu⟩ := operand_begins (d := d) e.right
    have hopen : u ≠ .sign "(" := fun h => hu (by simp [h])
    refine (takes_operand e.left).bind (takes_comparisonOf _ ((takes_comparison e.op).bind ?_))
    exact ((takes_operand e.right).map _).after_missing hhead hopen
  | compareScalar l op q =>
    refine (takes_operand l).bind (takes_comparisonOf l ((takes_comparison op).bind ?_))
    exact ((takes_scalar ht).map _).after_found
  | like l p e =>
    refine (takes_operand l).bind (Takes.after_found ?_)
    exact (takes_operand p).bind ((takes_token _).bind ((takes_character e).map _))
  | oneOf l rs =>
    have hrs : (parts (.sign ",") (operand d)).Takes _ rs _ :=
      takes_list ht (fun x _ => takes_operand x) List.not_mem_nil
    refine (takes_operand l).bind (Takes.after_missing (Takes.after_found ?_) rfl (by decide))
    exact (takes_token _).bind ((hrs.closed (by decide)).map _)
  | between l lo hi =>
    refine (takes_operand l).bind (Takes.after_missing ?_ rfl (by decide))
    refine Takes.after_missing (Takes.after_found ?_) rfl (by decide)
    exact (takes_operand lo).bind ((takes_token _).bind ((takes_operand hi).map _))

theorem takes_rowExists (table : String) (label : Label) {tests : List Test} (hne : tests ≠ [])
    (htests : ∀ t ∈ tests, t.Proper) :
    (rowExists d).Takes ((Condition.rowExists table label tests).tokens d).tail (.rowExists table label tests) es := by
  have hparts : (parts (.word "and") (test d)).Takes _ tests _ :=
    takes_list hne (fun t ht => takes_test (htests t ht)) List.not_mem_nil
  exact (takes_tokens _).bind ((takes_name _).bind ((takes_label _).bind ((takes_token _).bind
    ((hparts.closed (by decide)).map _))))

end Reader

/-! ### Conditions -/

namespace Condition

mutual

/-- A condition in which no list is empty. -/
def Proper : Condition → Prop
  | .test t => t.Proper
  | .rowExists _ _ tests => tests ≠ [] ∧ ∀ t ∈ tests, t.Proper
  | .all cs | .any cs => cs ≠ [] ∧ AllProper cs
  | .not c => Proper c

def AllProper : List Condition → Prop
  | [] => True
  | c :: cs => Proper c ∧ AllProper cs

end

mutual

/-- A condition with its one condition in place of each group of one. -/
def plain : Condition → Condition
  | .test t => .test t
  | .rowExists table label tests => .rowExists table label tests
  | .all cs => group .all (plains cs)
  | .any cs => group .any (plains cs)
  | .not c => .not (plain c)

def plains : List Condition → List Condition
  | [] => []
  | c :: cs => plain c :: plains cs

end

theorem plains_eq_map : ∀ cs : List Condition, plains cs = cs.map plain
  | [] => rfl
  | c :: cs => congrArg (plain c :: ·) (plains_eq_map cs)

theorem allProper_iff : ∀ {cs : List Condition}, AllProper cs ↔ ∀ c ∈ cs, c.Proper
  | [] => iff_of_true trivial nofun
  | _ :: _ => (and_congr_right fun _ => allProper_iff).trans List.forall_mem_cons.symm

section
variable (ts : Tables) (ps : List Datum) (sight : Sight)

theorem truth_group_all (cs : List Condition) :
    (group .all cs).truth ts ps sight = Truth.all (truths ts ps sight cs) := by
  match cs with
  | [c] => exact (Truth.all_singleton _).symm
  | [] => rfl
  | _ :: _ :: _ => rfl

theorem truth_group_any (cs : List Condition) :
    (group .any cs).truth ts ps sight = Truth.any (truths ts ps sight cs) := by
  match cs with
  | [c] => exact (Truth.any_singleton _).symm
  | [] => rfl
  | _ :: _ :: _ => rfl

mutual

/-- Groups of one do not matter to the truth of a condition. -/
theorem truth_plain : ∀ c : Condition, c.plain.truth ts ps sight = c.truth ts ps sight
  | .test _ => rfl
  | .rowExists .. => rfl
  | .all cs => by rw [plain, truth_group_all, truths_plains cs, truth]
  | .any cs => by rw [plain, truth_group_any, truths_plains cs, truth]
  | .not c => by rw [plain, truth, truth_plain c, truth]

theorem truths_plains : ∀ cs : List Condition, truths ts ps sight (plains cs) = truths ts ps sight cs
  | [] => rfl
  | c :: cs => by rw [plains, truths, truth_plain c, truths_plains cs, truths]

end

end

end Condition

namespace Reader

variable {d : Dialect} {part : Reader Condition}

section
variable {write : Condition → List Token} {value : Condition → Condition}

/-- What stands between `or` is a conjunction of what stands between `and`. -/
theorem takes_disjunction {css : List (List Condition)} (hne : css ≠ []) (hcss : ∀ cs ∈ css, cs ≠ [])
    (hpart : ∀ cs ∈ css, ∀ c ∈ cs, part.Takes (write c) (value c) []) :
    (disjunction part).Takes (separated [.word "or"] (css.map fun cs => separated [.word "and"] (cs.map write)))
      (.group .any (css.map fun cs => .group .all (cs.map value))) [.word "or", .word "and"] := by
  have hand (cs : List Condition) (hcs : cs ∈ css) : (parts (.word "and") part).Takes _ _ _ :=
    takes_parts (hcss cs hcs) (hpart cs hcs) List.not_mem_nil
  have hor : (parts (.word "or") (Condition.group .all <$> parts (.word "and") part)).Takes _ _ _ :=
    takes_parts hne (fun cs hcs => (hand cs hcs).map (Condition.group .all)) (by decide)
  exact hor.map (Condition.group .any)

variable {cs : List Condition} (hcs : cs ≠ []) (hpart : ∀ c ∈ cs, part.Takes (write c) (value c) [])
include hcs hpart

theorem takes_all : (disjunction part).Takes (separated [.word "and"] (cs.map write)) (.group .all (cs.map value))
    [.word "or", .word "and"] := by
  have hone : ∀ cs' ∈ [cs], ∀ c ∈ cs', part.Takes (write c) (value c) [] := List.forall_mem_singleton.mpr hpart
  have h := takes_disjunction (List.cons_ne_nil cs []) (List.forall_mem_singleton.mpr hcs) hone
  exact h

theorem takes_any : (disjunction part).Takes (separated [.word "or"] (cs.map write)) (.group .any (cs.map value))
    [.word "or", .word "and"] := by
  have hsome : ∀ cs' ∈ cs.map ([·]), cs' ≠ [] := List.forall_mem_map.mpr fun c _ => List.cons_ne_nil c []
  have hone : ∀ cs' ∈ cs.map ([·]), ∀ c ∈ cs', part.Takes (write c) (value c) [] :=
    List.forall_mem_map.mpr fun c hc => List.forall_mem_singleton.mpr (hpart c hc)
  have h := takes_disjunction (List.map_eq_nil_iff.not.mpr hcs) hsome hone
  rw [List.map_map, List.map_map] at h
  exact h

end

theorem takes_alone {ts : List Token} {c : Condition} (h : part.Takes ts c []) :
    (disjunction part).Takes ts c [.word "or", .word "and"] := by
  have hpart : ∀ c' ∈ [c], part.Takes ((fun _ => ts) c') (id c') [] := List.forall_mem_singleton.mpr h
  have h := takes_all (List.cons_ne_nil c []) hpart
  exact h

/-- Brackets in which another reader takes what there is. -/
theorem takes_brackets {n : Nat} {ts : List Token} {c : Condition}
    (h : (disjunction (primary d n)).Takes ts c [.word "or", .word "and"]) :
    (primary d (n + 1)).Takes ([.sign "("] ++ (ts ++ [.sign ")"])) c [] := by
  refine Takes.after_missing (Takes.after_found ?_) rfl (by decide)
  exact h.closed (by decide)

theorem length_le_separated_of_mem (separator : List Token) {ts : List Token} : ∀ {tss : List (List Token)}, ts ∈ tss →
    ts.length ≤ (separated separator tss).length
  | [us], h => (List.mem_singleton.mp h).symm ▸ le_refl _
  | us :: vs :: tss, h => by
    rw [separated, List.length_append, List.length_append]
    rcases List.mem_cons.mp h with rfl | h
    · omega
    · have := length_le_separated_of_mem separator h
      omega

theorem takes_not {n : Nat} {ts : List Token} {c : Condition} (h : (primary d n).Takes ts c []) :
    (primary d (n + 1)).Takes ([.word "not"] ++ ts) (.not c) [] :=
  (h.map Condition.not).after_found

/-- What is written for a list in brackets leaves room for a bracket, and for each condition of the list. -/
theorem length_of_brackets {separator : List Token} {cs : List Condition} {n : Nat}
    (hn : ([Token.sign "("] ++ (Condition.tokensOfAll d separator cs ++ [Token.sign ")"])).length ≤ n) :
    ∃ m, n = m + 1 ∧ ∀ c ∈ cs, (c.tokens d).length ≤ m := by
  rw [tokensOfAll_eq_separated] at hn
  simp only [List.length_append, List.length_cons, List.length_nil] at hn
  obtain ⟨m, rfl⟩ : ∃ m, n = m + 1 := Nat.exists_eq_add_of_le' (by omega)
  refine ⟨m, rfl, fun c hc => ?_⟩
  have hle := length_le_separated_of_mem separator (List.mem_map_of_mem (f := Condition.tokens d) hc)
  omega

-- By recursion on the condition. Each level of nesting is written with a token at least, so as many levels as there
-- are tokens are enough.
mutual

/-- A condition in which no list is empty is read back, but for groups of one. -/
theorem takes_primary : ∀ (c : Condition) (n : Nat), c.Proper → (c.tokens d).length ≤ n →
    (primary d (n + 1)).Takes (c.tokens d) c.plain []
  | .test t, n, ht, _ => by
    obtain ⟨u, hhead, hu⟩ := test_begins (d := d) t
    simp only [List.mem_cons, List.not_mem_nil, or_false, not_or] at hu
    obtain ⟨hnot, hopen, hexists⟩ := hu
    refine Takes.after_missing (Takes.after_missing (Takes.after_missing ?_ hhead hexists) hhead hopen) hhead hnot
    exact (takes_test ht).map Condition.test
  | .rowExists table label tests, n, hc, _ => by
    refine Takes.after_missing (Takes.after_missing (Takes.after_found ?_) rfl (by decide)) rfl (by decide)
    exact takes_rowExists table label hc.1 hc.2
  | .all cs, n, hc, hn => by
    obtain ⟨n, rfl, hlengths⟩ := length_of_brackets hn
    rw [Condition.plain, Condition.plains_eq_map, Condition.tokens, tokensOfAll_eq_separated]
    exact takes_brackets (takes_all hc.1 (takes_primaries cs n hc.2 hlengths))
  | .any cs, n, hc, hn => by
    obtain ⟨n, rfl, hlengths⟩ := length_of_brackets hn
    rw [Condition.plain, Condition.plains_eq_map, Condition.tokens, tokensOfAll_eq_separated]
    exact takes_brackets (takes_any hc.1 (takes_primaries cs n hc.2 hlengths))
  | .not c, n, hc, hn => by
    -- the bracket and the word take one level each, and are tokens of their own
    rw [Condition.tokens, List.length_append, List.length_append] at hn
    simp only [List.length_cons, List.length_nil] at hn
    obtain ⟨n, rfl⟩ : ∃ m, n = m + 2 := Nat.exists_eq_add_of_le' (by omega)
    have hinner := takes_primary c n hc (by omega)
    have houter := takes_brackets (takes_alone (takes_not hinner))
    rw [Condition.plain, Condition.tokens]
    exact houter

theorem takes_primaries : ∀ (cs : List Condition) (n : Nat), Condition.AllProper cs →
    (∀ c ∈ cs, (c.tokens d).length ≤ n) → ∀ c ∈ cs, (primary d (n + 1)).Takes (c.tokens d) c.plain []
  | [], _, _, _ => nofun
  | c :: cs, n, hcs, hn => by
    rw [List.forall_mem_cons] at hn ⊢
    exact ⟨takes_primary c n hcs.1 hn.1, takes_primaries cs n hcs.2 hn.2⟩

end

theorem takes_condition {c : Condition} (hc : c.Proper) :
    (condition d).Takes (c.tokens d) c.plain [.word "or", .word "and"] := by
  intro rest hrest
  have hlength : (c.tokens d).length ≤ (c.tokens d ++ rest).length := by
    rw [List.length_append]
    exact Nat.le_add_right ..
  exact takes_alone (takes_primary c _ hc hlength) rest hrest

end Reader

/-- The text of a condition is read as the condition, groups of one apart. -/
theorem Condition.ofText?_text (d : Dialect) {c : Condition} (hc : c.Proper) : ofText? d (c.text d) = some c.plain := by
  rw [ofText?, (reads_condition c).ofText?, Option.bind_some, (takes_condition hc).whole]

example :
    let equals (m n : Nat) : Condition := .test (.compare ⟨.number m, .eq, .number n⟩)
    Condition.ofText? .sqlite "1 = 2 or not 3 = 4 and (5 = 6 or 7 = 8)" =
      some (.any [equals 1 2, .all [.not (equals 3 4), .any [equals 5 6, equals 7 8]]]) := by cbv

/-- Conditions that have one text under a dialect are equally true, whatever rows are in sight. -/
theorem Condition.truth_eq_of_text {d : Dialect} {c c' : Condition} (hc : c.Proper) (hc' : c'.Proper)
    (h : c.text d = c'.text d) (ts : Tables) (ps : List Datum) (sight : Sight) :
    c.truth ts ps sight = c'.truth ts ps sight := by
  have hread := ofText?_text d hc
  rw [h, ofText?_text d hc'] at hread
  rw [← truth_plain ts ps sight c, ← truth_plain ts ps sight c', Option.some.inj hread]

/-! ### Statements -/

namespace Statement

/-- A statement in which no list is empty but that of the sort terms. -/
structure Proper (s : Statement) : Prop where
  filter : ∀ c ∈ s.filter, c.Proper
  sortings : ∀ t ∈ s.sortings, t.key.conditions ≠ []

def plain (s : Statement) : Statement := { s with filter := s.filter.map Condition.plain }

/-- Groups of one do not matter to what a statement finds. -/
theorem rows_plain (s : Statement) (ts : Tables) (ps : List Datum) : s.plain.rows ts ps = s.rows ts ps := by
  have hsatisfies : satisfies ts ps (s.filter.map Condition.plain) = satisfies ts ps s.filter := by
    cases s.filter with
    | none => rfl
    | some c =>
      funext r
      rw [Option.map_some, satisfies, satisfies, c.truth_plain]
  rw [rows, rows, plain, hsatisfies]

end Statement

namespace Reader

variable {d : Dialect}

theorem separated_cons {sep ts : List Token} : ∀ {tss : List (List Token)}, tss ≠ [] →
    separated sep (ts :: tss) = ts ++ (sep ++ separated sep tss)
  | [], h => absurd rfl h
  | _ :: _, _ => rfl

theorem takes_sortingsWithin : ∀ {n : Nat} {ss : List SortTerm}, ss.length < n →
    (∀ t ∈ ss, t.key.conditions ≠ []) → (sortingsWithin d n).Takes (separated [.sign ","]
      (ss.map (SortTerm.tokens d) ++ [(ColumnRef.mk .row .id).tokens ++ [.word Direction.asc.sql]])) ss []
  | n + 1, [], _, _ => ((takes_tokens _).last _).after_missing rfl (by decide)
  | n + 1, t :: ss, hn, hss => by
    obtain ⟨ht, hss⟩ := List.forall_mem_cons.mp hss
    have hrest := takes_sortingsWithin (Nat.lt_of_succ_lt_succ hn) hss
    rw [List.map_cons, List.cons_append, separated_cons (List.concat_ne_nil _ _), SortTerm.tokens, List.append_assoc]
    refine Takes.after_found ?_
    exact (takes_scalar ht).bind ((takes_direction t.direction).bind ((takes_token _).bind (hrest.map _)))

theorem takes_sortings {ss : List SortTerm} (hss : ∀ t ∈ ss, t.key.conditions ≠ []) :
    (sortings d).Takes (separated [.sign ","]
      (ss.map (SortTerm.tokens d) ++ [(ColumnRef.mk .row .id).tokens ++ [.word Direction.asc.sql]])) ss [] := by
  intro rest hrest
  refine takes_sortingsWithin ?_ hss rest hrest
  have hlength := length_le_separated (.sign ",")
    (ss.map (SortTerm.tokens d) ++ [(ColumnRef.mk .row .id).tokens ++ [.word Direction.asc.sql]])
  rw [List.length_append, List.length_map, List.length_singleton] at hlength
  rw [List.length_append]
  omega

theorem takes_page (p : PageSlots) : (page d).Takes (p.tokens d) (some p) [.word "limit", .word "offset"] := by
  obtain ⟨count, offset⟩ := p
  cases d with
  | sqlite =>
    refine Takes.after_found ?_
    cases offset with
    | none => exact ((takes_slot count).bind (takes_nothing.last _)).mono (by decide)
    | some offset => exact (takes_slot count).bind (((takes_slot offset).map _).after_found.last _)
  | sqlServer =>
    refine Takes.after_found ?_
    cases offset with
    | none =>
      refine takes_pure.after_found.bind ?_
      exact (takes_tokens _).bind ((takes_slot count).bind ((takes_tokens _).last _))
    | some offset =>
      refine (((takes_slot offset).map _).after_missing rfl (by simp)).bind ?_
      exact (takes_tokens _).bind ((takes_slot count).bind ((takes_tokens _).last _))

theorem takes_no_page : (page d).Takes [] none [.word "limit", .word "offset"] := by
  cases d with
  | sqlite => exact takes_nothing.mono (by decide)
  | sqlServer => exact takes_nothing.mono (by decide)

/-- A statement, given what its condition and its page are written as. -/
theorem takes_select {table : String} {filter : Option Condition} {ss : List SortTerm} {p : Option PageSlots}
    {fs ts : List Token}
    (hfilter : (after (.word "where") (some <$> condition d) (pure none)).Takes fs filter
      [.word "where", .word "or", .word "and"])
    (hss : ∀ t ∈ ss, t.key.conditions ≠ []) (hpage : (page d).Takes ts p [.word "limit", .word "offset"]) :
    (statement d).Takes ([.word "select"] ++ ((ColumnRef.mk .row .payload).tokens ++ ([.word "from"] ++
      (sourceTokens table .row ++ (fs ++ ([.word "order", .word "by"] ++ (separated [.sign ","]
        (ss.map (SortTerm.tokens d) ++ [(ColumnRef.mk .row .id).tokens ++ [.word Direction.asc.sql]]) ++ ts)))))))
      ⟨table, filter, ss, p⟩ [.word "limit", .word "offset"] := by
  refine (takes_token _).bind ((takes_tokens _).bind ((takes_token _).bind ((takes_name _).bind ((takes_token _).bind
    (hfilter.bind_next ?_ rfl (by decide))))))
  exact (takes_tokens _).bind ((takes_sortings hss).bind (hpage.last _))

theorem takes_statement {s : Statement} (hs : s.Proper) :
    (statement d).Takes (s.tokens d) s.plain [.word "limit", .word "offset"] := by
  obtain ⟨table, filter, ss, p⟩ := s
  cases filter with
  | none =>
    have hfilter : Takes (after (.word "where") (some <$> condition d) (pure none)) [] none
        [.word "where", .word "or", .word "and"] := takes_nothing.mono (by decide)
    cases p with
    | none => exact takes_select hfilter hs.sortings takes_no_page
    | some p => exact takes_select hfilter hs.sortings (takes_page p)
  | some c =>
    have hcondition := (takes_condition (d := d) (hs.filter c rfl)).mono (List.subset_cons_self (.word "where") _)
    cases p with
    | none => exact takes_select (hcondition.map some).after_found hs.sortings takes_no_page
    | some p => exact takes_select (hcondition.map some).after_found hs.sortings (takes_page p)

end Reader

/-- The text of a statement is read as the statement, groups of one apart. -/
theorem Statement.ofText?_text (d : Dialect) {s : Statement} (hs : s.Proper) : ofText? d (s.text d) = some s.plain := by
  rw [ofText?, (reads_statement s).ofText?, Option.bind_some, (takes_statement hs).whole]

end DocStore.Sql
