import DocStore.Proofs.Except
import DocStore.Proofs.Sql.Selects
import DocStore.Query.Compile
import Mathlib.Data.List.Nodup

/-! Labels of compiled queries. The labels that a statement introduces are counted by one counter, whatever they are
    introduced for, so none comes twice; each select in it names its own label and those around it only, and its rows
    are those of the structure or of the index row around it. -/

namespace DocStore

open Sql
open Sql.Token (reads_iff)

/-! ### The labels of a filter -/

namespace Filter

mutual

/-- The labels of a filter whose first one has the given number, in the order of the text. -/
def labels (label : Nat) : Filter → List Label
  | .present _ | .compare _ _ _ | .textMatch _ _ _ | .oneOf _ _ | .between _ _ _ => [.index label]
  | .compareMembers _ _ _ => [.index label, .right (label + 1)]
  | .never => []
  | .all fs | .any fs => labelsOfAll label fs
  | .not f => labels label f

def labelsOfAll (label : Nat) : List Filter → List Label
  | [] => []
  | f :: fs => labels label f ++ labelsOfAll (label + f.labelCount) fs

end

mutual

/-- The labels of a filter are counted from the first one on. -/
theorem numbers_labels : ∀ (f : Filter) (label : Nat),
    (f.labels label).map Label.number? = (List.range' label f.labelCount).map some
  | .present _, _ | .compare _ _ _, _ | .textMatch _ _ _, _ | .oneOf _ _, _ | .between _ _ _, _
  | .compareMembers _ _ _, _ | .never, _ => rfl
  | .all fs, label | .any fs, label => numbers_labelsOfAll fs label
  | .not f, label => numbers_labels f label

theorem numbers_labelsOfAll : ∀ (fs : List Filter) (label : Nat),
    (labelsOfAll label fs).map Label.number? = (List.range' label (labelCountOfAll fs)).map some
  | [], _ => rfl
  | f :: fs, label => by
    rw [labelsOfAll, labelCountOfAll, List.map_append, numbers_labels f, numbers_labelsOfAll fs, ← List.map_append,
      List.range'_append_1]

end

end Filter

namespace Sql

variable (d : Dialect) {scope : List Label}

/-! ### Tests of an index row -/

section
variable {l : Label} (hl : l ∈ scope)

include hl in
theorem introduces_column (c : Column) : Introduces clauseWords scope (ColumnRef.mk l c).tokens [] :=
  .column (List.Subset.refl _) hl c

theorem introduces_comparison (op : Comparison) {ws : List String} : Introduces ws scope [.sign op.sql] [] :=
  .sign (by cases op <;> decide)

theorem introduces_slot (n : Nat) {ws : List String} : Introduces ws scope ((Operand.slot n).tokens d) [] :=
  .token trivial

include hl

/-- The path of the member, which the rows of every select over index rows have besides their structure. -/
theorem introduces_path (path : String) :
    let e : Equation := ⟨.column ⟨l, .path⟩, .eq, .text path⟩
    Introduces clauseWords scope (e.tokens d) [] := by
  have hpath : Introduces clauseWords scope [.literal path] [] := .token trivial
  exact (introduces_column hl .path).append ((introduces_comparison .eq).append hpath)

theorem introduces_compare (c : TypeCode) (op : Comparison) (slot : Nat) :
    let t : Test := .compare ⟨.column ⟨l, .value c⟩, op, .slot slot⟩
    Introduces clauseWords scope (t.tokens d) [] :=
  (introduces_column hl (.value c)).append ((introduces_comparison op).append (introduces_slot d slot))

theorem introduces_like (c : TypeCode) (slot : Nat) :
    let t : Test := .like (.column ⟨l, .value c⟩) (.slot slot) Dialect.likeEscape
    Introduces clauseWords scope (t.tokens d) [] := by
  have hlike : Introduces clauseWords scope [.word "like"] [] := .word (by decide)
  have hescape : Introduces clauseWords scope [.word "escape"] [] := .word (by decide)
  have hmark : Introduces clauseWords scope [.literal (String.singleton Dialect.likeEscape)] [] := .token trivial
  exact (introduces_column hl (.value c)).append (hlike.append ((introduces_slot d slot).append (hescape.append hmark)))

theorem introduces_between (c : TypeCode) (slot : Nat) :
    let t : Test := .between (.column ⟨l, .value c⟩) (.slot slot) (.slot (slot + 1))
    Introduces clauseWords scope (t.tokens d) [] := by
  have hbetween : Introduces clauseWords scope [.word "between"] [] := .word (by decide)
  have hand : Introduces clauseWords scope [.word "and"] [] := .word (by decide)
  exact (introduces_column hl (.value c)).append (hbetween.append ((introduces_slot d slot).append
    (hand.append (introduces_slot d (slot + 1)))))

theorem introduces_oneOf (c : TypeCode) (slot n : Nat) :
    let t : Test := .oneOf (.column ⟨l, .value c⟩) ((List.range n).map fun i => .slot (slot + i))
    Introduces clauseWords scope (t.tokens d) [] := by
  have hin : Introduces clauseWords scope [.word "in"] [] := .word (by decide)
  have hcomma : Introduces clauseWords scope [.sign ","] [] := .sign (by decide)
  have hslots : IntroducesEach clauseWords scope
      (((List.range n).map fun i => Operand.slot (slot + i)).map (Operand.tokens d)) [] :=
    .plain (List.forall_mem_map.mpr (List.forall_mem_map.mpr fun i _ => introduces_slot d (slot + i)))
  exact (introduces_column hl (.value c)).append (hin.append ((hslots.separated hcomma).bracketed (by decide)))

end

/-! ### Selects over index rows -/

theorem introduces_scalar {ws : List String} {l o : Label} (hpartner : Partner scope l o) (ho : o ∈ scope)
    (minimum : Bool) (c : TypeCode) (table path : String) :
    let q : Scalar := ⟨minimum, .value c, table, l, ofMember l o path⟩
    Introduces ws scope (q.tokens d) [l] := by
  have hl : l ∈ l :: scope := List.mem_cons_self
  have hvalue := introduces_column hl (.value c)
  have hpath := introduces_path d hl path
  cases minimum with
  | false => exact .select hpartner ho table hvalue hpath
  | true =>
    have hmin : Introduces clauseWords (l :: scope) [.word "min"] [] := .word (by decide)
    exact .select hpartner ho table (hmin.append (hvalue.bracketed (by decide))) hpath

theorem introduces_compareScalar (s : Schema) (c : TypeCode) (op : Comparison) (r : Member) (m n : Nat) :
    let t : Test := .compareScalar (.column ⟨.index m, .value c⟩) op (firstValue s r (.right n) (.index m))
    Introduces clauseWords [.index m, .row] (t.tokens d) [.right n] := by
  have hindex : Label.index m ∈ [Label.index m, .row] := List.mem_cons_self
  have hscalar : Introduces clauseWords [.index m, .row] ((firstValue s r (.right n) (.index m)).tokens d) [.right n] :=
    introduces_scalar d (.right [.row] m n) hindex false r.code s.indexesTable r.path
  exact (introduces_column hindex (.value c)).append ((introduces_comparison op).append hscalar)

/-- Some index row satisfies tests: outside of the select there are the word that asks for it and brackets. -/
theorem introduces_memberExists (s : Schema) (m : Member) (n : Nat) {tests : List Test} {ls : List Label}
    (h : IntroducesEach clauseWords [.index n, .row] (tests.map (Test.tokens d)) ls) :
    Introduces selectWords [.row] ((memberExists s m (.index n) tests).tokens d) (.index n :: ls) := by
  have hexists : Introduces selectWords [.row] [.word "exists"] [] := .word (by decide)
  have hone : Introduces clauseWords [.index n, .row] [.number 1] [] := .token trivial
  have hand : Introduces clauseWords [.index n, .row] [.word "and"] [] := .word (by decide)
  have hrest := (IntroducesEach.cons (introduces_path d List.mem_cons_self m.path) h).separated hand
  have hselect : Introduces selectWords [.row] _ (.index n :: ls) :=
    .select (.index [.row] n) List.mem_cons_self s.indexesTable hone hrest
  rw [memberExists, Condition.tokens]
  exact hexists.append hselect

/-! ### Compiled conditions -/

/-- Conditions joined by a word, in brackets. -/
theorem introduces_joined {w : String} (hw : w ∉ selectWords) {cs : List Condition} {ls : List Label}
    (h : IntroducesEach selectWords [.row] (cs.map (Condition.tokens d)) ls) :
    Introduces selectWords [.row] ([.sign "("] ++ (Condition.tokensOfAll d [.word w] cs ++ [.sign ")"])) ls := by
  rw [tokensOfAll_eq_separated]
  exact (h.separated (.word hw)).bracketed (by decide)

mutual

/-- A condition introduces the labels of its filter, and its selects are nested rightly where the structure's own row
    is in sight. -/
theorem introduces_condition (s : Schema) : ∀ (f : Filter) (label slot : Nat),
    Introduces selectWords [.row] ((f.condition d s label slot).tokens d) (f.labels label)
  | .present m, label, slot => introduces_memberExists d s m label .nil
  | .compare m op _, label, slot =>
    introduces_memberExists d s m label (.single (introduces_compare d List.mem_cons_self m.code op slot))
  | .compareMembers l op r, label, slot =>
    introduces_memberExists d s l label (.single (introduces_compareScalar d s l.code op r label (label + 1)))
  | .textMatch m _ _, label, slot =>
    introduces_memberExists d s m label (.single (introduces_like d List.mem_cons_self m.code slot))
  | .never, label, slot => by
    have hone : Introduces selectWords [.row] [.number 1] [] := .token trivial
    have hzero : Introduces selectWords [.row] [.number 0] [] := .token trivial
    exact hone.append ((introduces_comparison .eq).append hzero)
  | .oneOf m vs, label, slot =>
    introduces_memberExists d s m label (.single (introduces_oneOf d List.mem_cons_self m.code slot vs.length))
  | .between m _ _, label, slot =>
    introduces_memberExists d s m label (.single (introduces_between d List.mem_cons_self m.code slot))
  | .all fs, label, slot => by
    rw [Filter.condition, Condition.tokens]
    exact introduces_joined d (by decide) (introduces_conditions s fs label slot)
  | .any fs, label, slot => by
    rw [Filter.condition, Condition.tokens]
    exact introduces_joined d (by decide) (introduces_conditions s fs label slot)
  | .not f, label, slot => by
    have hnot : Introduces selectWords [.row] [.word "not"] [] := .word (by decide)
    rw [Filter.condition, Condition.tokens]
    exact (hnot.append (introduces_condition s f label slot)).bracketed (by decide)

theorem introduces_conditions (s : Schema) : ∀ (fs : List Filter) (label slot : Nat),
    IntroducesEach selectWords [.row] ((Filter.conditions d s label slot fs).map (Condition.tokens d))
      (Filter.labelsOfAll label fs)
  | [], _, _ => .nil
  | f :: fs, label, slot => .cons (introduces_condition s f label slot) (introduces_conditions s fs _ _)

end

/-! ### Compiled queries -/

/-- Sort keys are selects beside the conditions, and the id comes last. -/
theorem introduces_order (s : Schema) : ∀ (ts : List (Member × Direction)) (label : Nat),
    IntroducesEach selectWords [.row]
      ((Query.sortTerms s label ts).map (SortTerm.tokens d) ++
        [(ColumnRef.mk .row .id).tokens ++ [.word Direction.asc.sql]])
      ((List.range' label ts.length).map .sort)
  | [], _ => .single ((Introduces.column (by decide) List.mem_cons_self .id).append (.word (by decide)))
  | (m, o) :: ts, label => by
    have hkey : Introduces selectWords [.row] ((leastValue s m (.sort label)).tokens d) [.sort label] :=
      introduces_scalar d (.sort [.row] label) List.mem_cons_self true m.code s.indexesTable m.path
    have hdirection : Introduces selectWords [.row] [.word o.sql] [] := .word (by cases o <;> decide)
    exact .cons (hkey.append hdirection) (introduces_order s ts (label + 1))

theorem introduces_page (p : PageSlots) : Introduces selectWords [.row] (p.tokens d) [] := by
  refine .plain ?_
  obtain ⟨count, offset⟩ := p
  cases d <;> cases offset <;> simp [PageSlots.tokens, Plain, selectWords]

end Sql

/-- The labels of a query: those of its filter, and then one for each sort key. -/
def Query.Checked.labels (c : Query.Checked) : List Label :=
  (c.filter.map (·.labels 0)).getD [] ++
    (List.range' ((c.filter.map (·.labelCount)).getD 0) c.sortings.length).map .sort

theorem Query.Checked.numbers_labels (c : Query.Checked) :
    c.labels.map Label.number? =
      (List.range' 0 ((c.filter.map (·.labelCount)).getD 0 + c.sortings.length)).map some := by
  have hsort : Label.number? ∘ Label.sort = some := rfl
  rw [Query.Checked.labels, List.map_append, List.map_map, hsort, ← List.range'_append_1, List.map_append, Nat.zero_add]
  cases c.filter with
  | none => rfl
  | some f => exact congrArg (· ++ _) (f.numbers_labels 0)

/-- A compiled statement is a select of the structure's own row, in which the labels of the query are introduced. -/
theorem select_statement (s : Schema) (d : Dialect) (c : Query.Checked) :
    ∃ x, Select.ofTokens? ((c.compile s d).statement.tokens d) = some x ∧ x.label? = some Label.row.text ∧
      x.Fits [] [.row] c.labels := by
  have hby : Introduces selectWords [.row] [.word "by"] [] := .word (by decide)
  have hcomma : Introduces selectWords [.row] [.sign ","] [] := .sign (by decide)
  have horder := (introduces_order d s c.sortings ((c.filter.map (·.labelCount)).getD 0)).separated hcomma
  have hwhere : "where" ∈ ["where", "order"] := by decide
  have horderClause : "order" ∈ ["where", "order"] := by decide
  have hterms := fun {ts} (h : Introduces selectWords [.row] ts []) => hby.append (horder.append_plain h)
  obtain ⟨filter, sortings, page, includes⟩ := c
  cases filter with
  | none =>
    cases page with
    | none => exact (hterms .nil).statement .payload s.structureTable horderClause
    | some page => exact (hterms (introduces_page d _)).statement .payload s.structureTable horderClause
  | some f =>
    have horderWord : Introduces selectWords [.row] [.word "order"] [] := .word (by decide)
    have hfilter := fun {ts} (h : Introduces selectWords [.row] ts []) =>
      (introduces_condition d s f 0 0).append (horderWord.append (hterms h))
    cases page with
    | none => exact (hfilter .nil).statement .payload s.structureTable hwhere
    | some page => exact (hfilter (introduces_page d _)).statement .payload s.structureTable hwhere

/-- A text that introduces counted labels. -/
theorem Sql.Select.Fits.correlated {ws : List String} {x : Select} {ls : List Label} {first count : Nat}
    (h : x.Fits ws [.row] ls) (hnumbers : ls.map Label.number? = (List.range' first count).map some) :
    x.Correlated where
  columns := h.columns
  inner := h.inner
  apart := by
    rw [h.labels]
    exact nodup_texts hnumbers

theorem ofText?_of_reads {d : Dialect} {text : String} {ts : List Token} (h : Token.Reads d text.toList ts) :
    Select.ofText? d text = Select.ofTokens? ts := by
  rw [Select.ofText?, reads_iff.mp h, Option.bind_some]

/-- Under either dialect the labels of a compiled condition or query are pairwise distinct and different from that of
    the structure's own row, every column is qualified with that label or with the label of a select around it, and
    every select over index rows is confined to the rows of the structure, or to those of the structure of the index
    row directly around it if it gives the value compared with. -/
theorem compiled_selects_correlated (s : Schema) (d : Dialect) :
    (∀ {p : Option Predicate} {c : CompiledFilter}, s.compileFilter d p = .ok c →
      ∃ x, Select.ofText? d c.text = some x ∧ x.Correlated) ∧
    ∀ {q : Query} {c : CompiledQuery}, s.compileQuery d q = .ok c →
      ∃ x, Select.ofText? d c.text = some x ∧ x.label? = some Label.row.text ∧ x.Correlated := by
  constructor
  · intro p c h
    cases p with
    | none =>
      cases h
      refine ⟨∅, rfl, .of_not_mem (by simp), by simp, by simp [Select.labelsOfAll]⟩
    | some p =>
      obtain ⟨f, -, rfl⟩ := map_eq_ok.mp h
      obtain ⟨x, hx, hfits⟩ := introduces_condition d s f 0 0
      refine ⟨x, ?_, hfits.correlated (f.numbers_labels 0)⟩
      exact (ofText?_of_reads (reads_condition _)).trans hx.ofTokens?
  · intro q c h
    obtain ⟨checked, -, rfl⟩ := map_eq_ok.mp h
    obtain ⟨x, hx, hlabel, hfits⟩ := select_statement s d checked
    refine ⟨x, ?_, hlabel, hfits.correlated checked.numbers_labels⟩
    exact (ofText?_of_reads (reads_statement _)).trans hx

/-- Invoices with what they come to and what has been paid, under a path that looks like the end of a select. -/
def invoices : Schema :=
  { key := ⟨"Invoice"⟩, ns := "", name := "Invoice", idType := .guid, fingerprint := ""
    members := [⟨"Amount", "Integer", .integer, false, false⟩,
      ⟨"') from s.si0 (select", "Integer", .integer, false, false⟩] }

/-- The invoices that are not paid in full or come to 101 or 102, by what has been paid and by amount. -/
def openInvoices : Query :=
  let amount := MemberRef.new "Amount" .integer
  let paid := MemberRef.new "') from s.si0 (select" .integer
  { predicate := some (.any [.not (.compareMembers paid .ge amount), .oneOf amount [.integer 101, .integer 102]])
    sortings := [⟨paid, .desc⟩, ⟨amount, .asc⟩] }

theorem compiled_selects_correlated_invoices :
    (∃ c x, invoices.compileFilter .sqlite openInvoices.predicate = .ok c ∧ Select.ofText? .sqlite c.text = some x ∧
      x.Correlated) ∧
    ∀ d : Dialect, ∃ c x, invoices.compileQuery d openInvoices = .ok c ∧ Select.ofText? d c.text = some x ∧
      x.Correlated ∧ x.labels = [some "s", some "si0", some "sub1", some "si2", some "so3", some "so4"] := by
  constructor
  · obtain ⟨c, hc⟩ : ∃ c, invoices.compileFilter .sqlite openInvoices.predicate = .ok c := ⟨_, rfl⟩
    obtain ⟨x, hx, hcorrelated⟩ := (compiled_selects_correlated invoices .sqlite).1 hc
    exact ⟨c, x, hc, hx, hcorrelated⟩
  · intro d
    obtain ⟨checked, hchecked⟩ : ∃ checked, openInvoices.check invoices = .ok checked := ⟨_, rfl⟩
    have hc : invoices.compileQuery d openInvoices = .ok (checked.compile invoices d) := congrArg _ hchecked
    obtain ⟨x, hx, -, hcorrelated⟩ := (compiled_selects_correlated invoices d).2 hc
    -- the labels are read off the tokens, which are shorter than the text
    have htokens := (ofText?_of_reads (reads_statement _)).symm.trans hx
    have hlabels : (openInvoices.check invoices).map (fun checked =>
          (Select.ofTokens? ((checked.compile invoices d).statement.tokens d)).map Select.labels) =
        .ok (some [some "s", some "si0", some "sub1", some "si2", some "so3", some "so4"]) := by
      cases d <;> decide +kernel
    rw [hchecked, Except.map, htokens] at hlabels
    exact ⟨_, x, hc, hx, hcorrelated, Option.some.inj (Except.ok.inj hlabels)⟩

end DocStore
