import DocStore.Proofs.Sql.Text
import Mathlib.Data.List.Infix
import Mathlib.Data.List.Nodup

/-! Selects within selects. The tokens of a text are read as a tree: brackets that begin with `select` are a select of
    their own, all other brackets belong to the select that they stand in. In the tree it is seen which label each
    select gives to its table, which labels its columns are qualified with, and whose rows its rows go with. -/

namespace DocStore.Sql

/-! ### The tree of selects -/

/-- What stands in a select, with empty brackets in place of the selects in it, and those selects in their order. -/
@[ext] structure Select where
  tokens : List Token
  inner : List Select

namespace Select

instance : EmptyCollection Select := ⟨⟨[], []⟩⟩

instance : Append Select := ⟨fun x y => ⟨x.tokens ++ y.tokens, x.inner ++ y.inner⟩⟩

/-- Brackets around what has been read. -/
def bracketed (x : Select) : Select :=
  if x.tokens.head? = some (.word "select") then ⟨[.sign "(", .sign ")"], [x]⟩
  else ⟨[.sign "("] ++ (x.tokens ++ [.sign ")"]), x.inner⟩

/-- Reads tokens behind what has been read, `outer` being what stands before the brackets that are still open. -/
def read : List Token → Select → List Select → Option Select
  | [], x, [] => some x
  | [], _, _ :: _ => none
  | t :: ts, x, outer =>
    if t = .sign "(" then read ts ∅ (x :: outer)
    else if t = .sign ")" then
      match outer with
      | [] => none
      | y :: outer => read ts (y ++ x.bracketed) outer
    else read ts (x ++ ⟨[t], []⟩) outer

def ofTokens? (ts : List Token) : Option Select := read ts ∅ []

def ofText? (d : Dialect) (s : String) : Option Select := (Token.ofText? d s).bind ofTokens?

end Select

/-! ### Labels, columns and rows of a select -/

/-- What stands behind a word where it comes first. -/
def tokensBehind (w : String) (ts : List Token) : List Token := (ts.dropWhile (· ≠ .word w)).tail

/-- The label of the one table that a select ranges over. A clause follows the label, and no other table. -/
def Select.label? (x : Select) : Option String :=
  match tokensBehind "from" x.tokens with
  | .name _ :: .word a :: .word clause :: ts =>
    if clause ∈ ["where", "order"] ∧ .word "from" ∉ ts then some a else none
  | _ => none

namespace Select

mutual

/-- The label of a select and those of all selects in it, in the order of the text. -/
def labels : Select → List (Option String)
  | ⟨ts, inner⟩ => label? ⟨ts, inner⟩ :: labelsOfAll inner

def labelsOfAll : List Select → List (Option String)
  | [] => []
  | x :: xs => labels x ++ labelsOfAll xs

end

end Select

/-- Every dot stands behind one of the labels. -/
def Qualified (scope : List Label) (ts : List Token) : Prop :=
  ∀ before after : List Token, ts = before ++ .sign "." :: after →
    ∃ l ∈ scope, before.getLast? = some (.word l.text)

/-- The rows of two labels belong to one structure. -/
def sameStructure (l o : Label) : List Token :=
  [.word l.text, .sign ".", .name "StructureId", .sign "=", .word o.text, .sign ".", .name "StructureId"]

/-- The conditions of a select are a conjunction that begins with the rows of the two labels being of one structure. -/
structure Select.ConfinedTo (x : Select) (l o : Label) : Prop where
  first : sameStructure l o ++ [.word "and"] <+: tokensBehind "where" x.tokens
  conjunction : .word "or" ∉ x.tokens

/-- The label whose rows those of a select have to go with: that of the structure's own row or, for the value compared
    with, that of the index row directly around. -/
inductive Partner : List Label → Label → Label → Prop
  | index (scope : List Label) (n : Nat) : Partner scope (.index n) .row
  | sort (scope : List Label) (n : Nat) : Partner scope (.sort n) .row
  | right (scope : List Label) (m n : Nat) : Partner (.index m :: scope) (.right n) (.index m)

/-- A select in the scope of the labels around it, the innermost one first: its rows go with those that they have to go
    with, and it names no label but its own and those around it. -/
inductive Nested : List Label → Select → Prop
  | intro {scope : List Label} {x : Select} {l o : Label} (label : x.label? = some l.text) (partner : Partner scope l o)
      (confined : x.ConfinedTo l o) (columns : Qualified (l :: scope) x.tokens)
      (inner : ∀ y ∈ x.inner, Nested (l :: scope) y) : Nested scope x

/-- Text in which the row of a structure is in sight: no label in it is that row's or comes twice, each select in it is
    nested rightly, and outside of them only the row's columns are named. -/
structure Select.Correlated (x : Select) : Prop where
  columns : Qualified [.row] x.tokens
  inner : ∀ y ∈ x.inner, Nested [.row] y
  apart : (some Label.row.text :: labelsOfAll x.inner).Nodup

/-! ### Texts of labels -/

/-- The number that a label is counted by. -/
def Label.number? : Label → Option Nat
  | row => none
  | index n | right n | sort n => some n

theorem Label.toList_text (l : Label) : l.text.toList = 's' :: match l with
    | row => []
    | index n => 'i' :: Text.decimal n
    | right n => 'u' :: 'b' :: Text.decimal n
    | sort n => 'o' :: Text.decimal n := by
  cases l with
  | row => rfl
  | _ =>
    simp only [Label.text, String.toList_append, String.toList_ofList]
    rfl

theorem Label.text_inj {l m : Label} (h : l.text = m.text) : l = m := by
  have hlist := congrArg String.toList h
  rw [toList_text, toList_text] at hlist
  have htail := (List.cons.inj hlist).2
  cases l <;> cases m <;> simp at htail <;> first | rfl | exact congrArg _ (Text.decimal_inj htail)

/-- The words that a select begins with and names its table after. -/
def selectWords : List String := ["select", "from"]

/-- The words that the parts of a select are told by. -/
def clauseWords : List String := ["select", "from", "where", "or"]

theorem Label.ne_text {w : String} (hw : w ∈ clauseWords) (l : Label) : w ≠ l.text := by
  rintro rfl
  have hlist := toList_text l
  simp only [clauseWords, List.mem_cons, List.not_mem_nil, or_false] at hw
  obtain h | h | h | h := hw <;> rw [h] at hlist <;> cases l <;> simp at hlist

/-! ### Reading pieces -/

namespace Select

variable {x y z : Select} {ts us : List Token}

@[simp] theorem tokens_empty : (∅ : Select).tokens = [] := rfl

@[simp] theorem inner_empty : (∅ : Select).inner = [] := rfl

@[simp] theorem tokens_append : (x ++ y).tokens = x.tokens ++ y.tokens := rfl

@[simp] theorem inner_append : (x ++ y).inner = x.inner ++ y.inner := rfl

theorem append_empty (x : Select) : x ++ ∅ = x := Select.ext (List.append_nil _) (List.append_nil _)

theorem empty_append (x : Select) : ∅ ++ x = x := Select.ext rfl rfl

theorem append_assoc (x y z : Select) : x ++ y ++ z = x ++ (y ++ z) :=
  Select.ext (List.append_assoc ..) (List.append_assoc ..)

theorem labels_eq (x : Select) : x.labels = x.label? :: labelsOfAll x.inner := by
  cases x
  rw [labels]

theorem labelsOfAll_append (ys : List Select) : ∀ xs : List Select,
    labelsOfAll (xs ++ ys) = labelsOfAll xs ++ labelsOfAll ys
  | [] => rfl
  | x :: xs => by rw [List.cons_append, labelsOfAll, labelsOfAll_append ys xs, labelsOfAll, List.append_assoc]

theorem read_open (ts : List Token) (x : Select) (outer : List Select) :
    read (.sign "(" :: ts) x outer = read ts ∅ (x :: outer) := by
  cases outer <;> rw [read, if_pos rfl]

theorem read_close (ts : List Token) (x y : Select) (outer : List Select) :
    read (.sign ")" :: ts) x (y :: outer) = read ts (y ++ x.bracketed) outer := by
  rw [read, if_neg (by decide), if_pos rfl]

theorem read_token {t : Token} (hopen : t ≠ .sign "(") (hclose : t ≠ .sign ")") (ts : List Token) (x : Select)
    (outer : List Select) : read (t :: ts) x outer = read ts (x ++ ⟨[t], []⟩) outer := by
  cases outer <;> rw [read, if_neg hopen, if_neg hclose]

/-- Tokens that leave brackets as they are, and what they come to wherever they stand. -/
def Adds (x : Select) (ts : List Token) : Prop :=
  ∀ (rest : List Token) (y : Select) (outer : List Select), read (ts ++ rest) y outer = read rest (y ++ x) outer

theorem Adds.nil : Adds ∅ [] := fun rest y outer => by rw [append_empty]; rfl

theorem Adds.append (hx : x.Adds ts) (hy : y.Adds us) : (x ++ y).Adds (ts ++ us) := by
  intro rest z outer
  rw [List.append_assoc, hx, hy, append_assoc]

theorem Adds.of_no_brackets : ∀ {ts : List Token}, .sign "(" ∉ ts → .sign ")" ∉ ts → Adds ⟨ts, []⟩ ts
  | [], _, _ => .nil
  | t :: ts, hopen, hclose => by
    intro rest y outer
    rw [List.mem_cons, not_or] at hopen hclose
    rw [List.cons_append, read_token (Ne.symm hopen.1) (Ne.symm hclose.1), of_no_brackets hopen.2 hclose.2,
      append_assoc]
    rfl

theorem Adds.bracketed (h : x.Adds ts) : x.bracketed.Adds ([.sign "("] ++ (ts ++ [.sign ")"])) := by
  intro rest y outer
  rw [List.singleton_append, List.cons_append, read_open, List.append_assoc, h, empty_append, List.singleton_append,
    read_close]

theorem Adds.ofTokens? (h : x.Adds ts) : ofTokens? ts = some x := by
  have h := h [] ∅ []
  rwa [List.append_nil, empty_append] at h

end Select

/-! ### Parts of a select -/

theorem tokensBehind_append {w : String} {before : List Token} (after : List Token) (h : .word w ∉ before) :
    tokensBehind w (before ++ .word w :: after) = after := by
  have hbefore : ∀ t ∈ before, decide (t ≠ .word w) = true := by
    intro t ht
    exact decide_eq_true fun heq => h (heq ▸ ht)
  rw [tokensBehind, List.dropWhile_append_of_pos hbefore]
  simp

theorem Select.label?_eq {before after : List Token} {table a clause : String} {inner : List Select}
    (hbefore : .word "from" ∉ before) (hclause : clause ∈ ["where", "order"]) (hafter : .word "from" ∉ after) :
    label? ⟨before ++ .word "from" :: .name table :: .word a :: .word clause :: after, inner⟩ = some a := by
  rw [label?, tokensBehind_append _ hbefore]
  exact if_pos ⟨hclause, hafter⟩

theorem Qualified.append {scope : List Label} {ts us : List Token} (h : Qualified scope ts) (h' : Qualified scope us) :
    Qualified scope (ts ++ us) := by
  intro before after heq
  obtain ⟨mid, rfl, hus⟩ | ⟨mid, hts, hafter⟩ := List.append_eq_append_iff.mp heq
  · obtain ⟨l, hl, hlast⟩ := h' mid after hus
    refine ⟨l, hl, ?_⟩
    rw [List.getLast?_append, hlast]
    rfl
  · cases mid with
    | nil =>
      obtain ⟨l, -, hlast⟩ := h' [] after hafter.symm
      cases hlast
    | cons t mid =>
      obtain ⟨rfl, -⟩ := List.cons.inj hafter
      exact h before mid hts

theorem Qualified.of_not_mem {scope : List Label} {ts : List Token} (h : .sign "." ∉ ts) : Qualified scope ts := by
  rintro before after rfl
  exact (h (List.mem_append_right _ List.mem_cons_self)).elim

theorem Qualified.column {scope : List Label} {l : Label} (h : l ∈ scope) (c : Column) :
    Qualified scope (ColumnRef.mk l c).tokens := by
  intro before after heq
  have hlength := congrArg List.length heq
  match before with
  | [] => cases heq
  | [t] => exact ⟨l, h, congrArg some (List.cons.inj heq).1.symm⟩
  | [_, _] => cases heq
  | _ :: _ :: _ :: before => simp [ColumnRef.tokens] at hlength

theorem qualified_sameStructure {scope : List Label} {l o : Label} (hl : l ∈ scope) (ho : o ∈ scope) :
    Qualified scope (sameStructure l o) := by
  have hsign : Qualified scope [.sign "="] := .of_not_mem (by decide)
  exact (Qualified.column hl .id).append (hsign.append (.column ho .id))

theorem word_not_mem_sameStructure {w : String} (hw : w ∈ clauseWords) (l o : Label) :
    .word w ∉ sameStructure l o := by
  simp [sameStructure, Label.ne_text hw]

/-! ### Pieces of a select -/

/-- What a piece adds to a select: columns of the labels in scope, none of the given words, and selects that are nested
    rightly and have the given labels, in this order. -/
structure Select.Fits (ws : List String) (scope : List Label) (x : Select) (ls : List Label) : Prop where
  columns : Qualified scope x.tokens
  words : ∀ w ∈ ws, .word w ∉ x.tokens
  inner : ∀ y ∈ x.inner, Nested scope y
  labels : labelsOfAll x.inner = ls.map fun l => some l.text

/-- A piece of a select, in which the given labels are introduced. -/
def Introduces (ws : List String) (scope : List Label) (ts : List Token) (ls : List Label) : Prop :=
  ∃ x : Select, x.Adds ts ∧ x.Fits ws scope ls

/-- Neither a bracket nor a dot nor one of the words. -/
def Plain (ws : List String) : Token → Prop
  | .word w => w ∉ ws
  | .sign s => s ∉ ["(", ")", "."]
  | _ => True

variable {ws : List String} {scope : List Label}

namespace Introduces

variable {ts us : List Token} {ls ms : List Label}

theorem nil : Introduces ws scope [] [] := by
  refine ⟨∅, .nil, .of_not_mem ?_, ?_, ?_, rfl⟩ <;> simp

theorem append (h : Introduces ws scope ts ls) (h' : Introduces ws scope us ms) :
    Introduces ws scope (ts ++ us) (ls ++ ms) := by
  obtain ⟨x, hx, fx⟩ := h
  obtain ⟨y, hy, fy⟩ := h'
  refine ⟨x ++ y, hx.append hy, fx.columns.append fy.columns, fun w hw => ?_, ?_, ?_⟩
  · exact List.not_mem_append (fx.words w hw) (fy.words w hw)
  · exact List.forall_mem_append.mpr ⟨fx.inner, fy.inner⟩
  · rw [Select.inner_append, Select.labelsOfAll_append, fx.labels, fy.labels, List.map_append]

/-- A piece without labels of its own behind others. -/
theorem append_plain (h : Introduces ws scope ts ls) (h' : Introduces ws scope us []) :
    Introduces ws scope (ts ++ us) ls := by
  have h := h.append h'
  rwa [List.append_nil] at h

theorem token {t : Token} (h : Plain ws t) : Introduces ws scope [t] [] := by
  have hsign : ∀ s ∈ ["(", ")", "."], .sign s ∉ [t] := by
    intro s hs hmem
    cases List.mem_singleton.mp hmem
    exact h hs
  have hadds : Select.Adds ⟨[t], []⟩ [t] := .of_no_brackets (hsign _ (by decide)) (hsign _ (by decide))
  refine ⟨⟨[t], []⟩, hadds, .of_not_mem (hsign _ (by decide)), ?_, ?_, rfl⟩
  · rintro w hw hmem
    cases List.mem_singleton.mp hmem
    exact h hw
  · simp

theorem word {w : String} (h : w ∉ ws) : Introduces ws scope [.word w] [] := token h

theorem sign {s : String} (h : s ∉ ["(", ")", "."]) : Introduces ws scope [.sign s] [] := token h

theorem plain : ∀ {ts : List Token}, (∀ t ∈ ts, Plain ws t) → Introduces ws scope ts []
  | [], _ => nil
  | t :: _, h => (token (h t List.mem_cons_self)).append (plain fun u hu => h u (.tail t hu))

/-- Brackets within a select, which do not begin with `select`. -/
theorem bracketed (hws : "select" ∈ ws) (h : Introduces ws scope ts ls) :
    Introduces ws scope ([.sign "("] ++ (ts ++ [.sign ")"])) ls := by
  obtain ⟨x, hx, fx⟩ := h
  have hhead : x.tokens.head? ≠ some (.word "select") :=
    fun heq => fx.words "select" hws (List.mem_of_mem_head? heq)
  have heq : x.bracketed = ⟨[.sign "("] ++ (x.tokens ++ [.sign ")"]), x.inner⟩ := if_neg hhead
  refine ⟨x.bracketed, hx.bracketed, ?_, ?_, ?_, ?_⟩
  all_goals rw [heq]
  · exact Qualified.append (.of_not_mem (by decide)) (fx.columns.append (.of_not_mem (by decide)))
  · intro w hw
    simp [fx.words w hw]
  · exact fx.inner
  · exact fx.labels

theorem column (hws : ws ⊆ clauseWords) {l : Label} (hl : l ∈ scope) (c : Column) :
    Introduces ws scope (ColumnRef.mk l c).tokens [] := by
  have hopen : .sign "(" ∉ (ColumnRef.mk l c).tokens := by simp [ColumnRef.tokens]
  have hclose : .sign ")" ∉ (ColumnRef.mk l c).tokens := by simp [ColumnRef.tokens]
  refine ⟨⟨_, []⟩, .of_no_brackets hopen hclose, .column hl c, fun w hw hmem => ?_, ?_, rfl⟩
  · have hword : w = l.text := by simpa [ColumnRef.tokens] using hmem
    exact l.ne_text (hws hw) hword
  · simp

end Introduces

/-- A select of a value from a table, put together from what its value and its conditions add to it. -/
def Select.ofParts (value : Select) (table : String) (l o : Label) (conditions : Select) : Select where
  tokens := ([.word "select"] ++ value.tokens) ++ .word "from" :: .name table :: .word l.text :: .word "where" ::
    (sameStructure l o ++ ([.word "and"] ++ conditions.tokens))
  inner := value.inner ++ conditions.inner

section
variable {v r : Select} {l o : Label} {table : String} {ls : List Label}

theorem Select.Adds.ofParts {ts us : List Token} (hv : v.Adds ts) (hr : r.Adds us) :
    (Select.ofParts v table l o r).Adds ([.word "select"] ++ (ts ++ ([.word "from"] ++ (sourceTokens table l ++
      ([.word "where"] ++ (sameStructure l o ++ ([.word "and"] ++ us))))))) := by
  let mid : List Token :=
    [.word "from"] ++ (sourceTokens table l ++ ([.word "where"] ++ (sameStructure l o ++ [.word "and"])))
  have hselect : Adds ⟨[.word "select"], []⟩ [.word "select"] := .of_no_brackets (by decide) (by decide)
  have hmid : Adds ⟨mid, []⟩ mid := by
    apply Adds.of_no_brackets <;> simp [mid, sourceTokens, sameStructure]
  have hparts : Select.ofParts v table l o r = ⟨[.word "select"], []⟩ ++ (v ++ (⟨mid, []⟩ ++ r)) := by
    apply Select.ext <;> simp [Select.ofParts, mid, sourceTokens]
  have h := hselect.append (hv.append (hmid.append hr))
  rw [← hparts] at h
  simpa [mid] using h

section
variable {scope : List Label} {w : String} (fv : v.Fits clauseWords (l :: scope) [])
  (fr : r.Fits clauseWords (l :: scope) ls)

include fv in
theorem word_not_mem_value (hw : w ∈ clauseWords) (hne : w ≠ "select") : .word w ∉ [.word "select"] ++ v.tokens := by
  simp [hne, fv.words w hw]

include fr in
theorem word_not_mem_conditions (hw : w ∈ clauseWords) :
    .word w ∉ sameStructure l o ++ ([.word "and"] ++ r.tokens) := by
  have hand : w ≠ "and" := by
    rintro rfl
    revert hw
    decide
  simp [word_not_mem_sameStructure hw, hand, fr.words w hw]

include fv fr

theorem label?_ofParts : (Select.ofParts v table l o r).label? = some l.text :=
  Select.label?_eq (word_not_mem_value fv (by decide) (by decide)) List.mem_cons_self
    (word_not_mem_conditions fr (by decide))

theorem confined_ofParts : (Select.ofParts v table l o r).ConfinedTo l o where
  first := by
    let source : List Token := [.word "from", .name table, .word l.text]
    have hsource : .word "where" ∉ source := by simp [source, l.ne_text (w := "where") (by decide)]
    have hbefore := List.not_mem_append (word_not_mem_value fv (w := "where") (by decide) (by decide)) hsource
    have h := tokensBehind_append (sameStructure l o ++ ([.word "and"] ++ r.tokens)) hbefore
    rw [List.append_assoc] at h
    have hbehind : tokensBehind "where" (Select.ofParts v table l o r).tokens = _ := h
    rw [hbehind, ← List.append_assoc]
    exact List.prefix_append _ _
  conjunction := by
    let source : List Token := [.word "from", .name table, .word l.text, .word "where"]
    have hsource : .word "or" ∉ source := by simp [source, l.ne_text (w := "or") (by decide)]
    exact List.not_mem_append (word_not_mem_value fv (by decide) (by decide))
      (List.not_mem_append hsource (word_not_mem_conditions fr (by decide)))

theorem columns_ofParts (ho : o ∈ scope) : Qualified (l :: scope) (Select.ofParts v table l o r).tokens := by
  let source : List Token := [.word "from", .name table, .word l.text, .word "where"]
  have hselect : Qualified (l :: scope) [.word "select"] := .of_not_mem (by decide)
  have hsource : Qualified (l :: scope) source := .of_not_mem (by simp [source])
  have hand : Qualified (l :: scope) [.word "and"] := .of_not_mem (by decide)
  have hsame := qualified_sameStructure List.mem_cons_self (List.mem_cons_of_mem l ho)
  exact (hselect.append fv.columns).append (hsource.append (hsame.append (hand.append fr.columns)))

theorem nested_ofParts (hpartner : Partner scope l o) (ho : o ∈ scope) : Nested scope (.ofParts v table l o r) :=
  .intro (label?_ofParts fv fr) hpartner (confined_ofParts fv fr) (columns_ofParts fv fr ho)
    (List.forall_mem_append.mpr ⟨fv.inner, fr.inner⟩)

theorem labels_ofParts : (Select.ofParts v table l o r).labels = (l :: ls).map fun l => some l.text := by
  have hinner : (Select.ofParts v table l o r).inner = v.inner ++ r.inner := rfl
  rw [Select.labels_eq, label?_ofParts fv fr, hinner, Select.labelsOfAll_append, fv.labels, fr.labels]
  rfl

end

/-- A select in brackets adds a select that is nested rightly to what it stands in, and nothing else. -/
theorem Introduces.select {scope : List Label} {ts us : List Token} (hpartner : Partner scope l o) (ho : o ∈ scope)
    (table : String) (hvalue : Introduces clauseWords (l :: scope) ts [])
    (hrest : Introduces clauseWords (l :: scope) us ls) :
    Introduces ws scope ([.sign "("] ++ (([.word "select"] ++ (ts ++ ([.word "from"] ++ (sourceTokens table l ++
      ([.word "where"] ++ (sameStructure l o ++ ([.word "and"] ++ us))))))) ++ [.sign ")"])) (l :: ls) := by
  obtain ⟨v, hv, fv⟩ := hvalue
  obtain ⟨r, hr, fr⟩ := hrest
  have hadds : (Select.ofParts v table l o r).bracketed.Adds _ := (hv.ofParts hr).bracketed
  have hbracketed : (Select.ofParts v table l o r).bracketed =
      ⟨[.sign "(", .sign ")"], [.ofParts v table l o r]⟩ := if_pos rfl
  rw [hbracketed] at hadds
  refine ⟨_, hadds, .of_not_mem (by simp), fun w _ => by simp, ?_, ?_⟩
  · exact List.forall_mem_singleton.mpr (nested_ofParts fv fr hpartner ho)
  · have hlabels : (Select.ofParts v table l o r).labels = _ := labels_ofParts fv fr
    rw [Select.labelsOfAll, Select.labelsOfAll, List.append_nil, hlabels]

end

/-! ### Pieces one after another -/

/-- Pieces and all labels that they introduce. -/
inductive IntroducesEach (ws : List String) (scope : List Label) : List (List Token) → List Label → Prop
  | nil : IntroducesEach ws scope [] []
  | cons {ts : List Token} {tss : List (List Token)} {ls ms : List Label} (h : Introduces ws scope ts ls)
      (hs : IntroducesEach ws scope tss ms) : IntroducesEach ws scope (ts :: tss) (ls ++ ms)

namespace IntroducesEach

variable {scope : List Label} {tss : List (List Token)} {ls : List Label}

theorem plain : ∀ {tss : List (List Token)}, (∀ ts ∈ tss, Introduces ws scope ts []) → IntroducesEach ws scope tss []
  | [], _ => .nil
  | _ :: _, h => .cons (h _ List.mem_cons_self) (plain fun _ hts => h _ (.tail _ hts))

theorem single {ts : List Token} (h : Introduces ws scope ts ls) : IntroducesEach ws scope [ts] ls := by
  have h := IntroducesEach.cons h .nil
  rwa [List.append_nil] at h

theorem separated {sep : List Token} (hsep : Introduces ws scope sep []) (h : IntroducesEach ws scope tss ls) :
    Introduces ws scope (separated sep tss) ls := by
  induction h with
  | nil => exact .nil
  | cons h hs ih =>
    cases hs with
    | nil =>
      rw [List.append_nil]
      exact h
    | cons _ _ => exact h.append (hsep.append ih)

end IntroducesEach

/-! ### Whole texts -/

/-- A select of a column of the structure's own row, a clause of which follows the table. -/
theorem Introduces.statement {ts : List Token} {ls : List Label} (c : Column) (table : String) {clause : String}
    (hclause : clause ∈ ["where", "order"]) (h : Introduces selectWords [.row] ts ls) :
    ∃ x : Select, Select.ofTokens? ([.word "select"] ++ ((ColumnRef.mk .row c).tokens ++ ([.word "from"] ++
        (sourceTokens table .row ++ ([.word clause] ++ ts))))) = some x ∧
      x.label? = some Label.row.text ∧ x.Fits [] [.row] ls := by
  obtain ⟨r, hr, fr⟩ := h
  let source : List Token := [.word "from", .name table, .word Label.row.text, .word clause]
  let value : List Token := [.word "select"] ++ (ColumnRef.mk .row c).tokens
  have hfront : Select.Adds ⟨value ++ source, []⟩ (value ++ source) := by
    apply Select.Adds.of_no_brackets <;> simp [value, source, ColumnRef.tokens]
  have hparts : ⟨value ++ (source ++ r.tokens), r.inner⟩ = ⟨value ++ source, []⟩ ++ r :=
    Select.ext (List.append_assoc ..).symm rfl
  refine ⟨⟨value ++ (source ++ r.tokens), r.inner⟩, ?_, ?_, ?_, by simp, fr.inner, fr.labels⟩
  · have htokens := (hfront.append hr).ofTokens?
    rw [← hparts, List.append_assoc] at htokens
    exact htokens
  · have hvalue : .word "from" ∉ value := by
      simp [value, ColumnRef.tokens, Label.ne_text (w := "from") (by decide)]
    exact Select.label?_eq hvalue hclause (fr.words "from" (by decide))
  · have hselect : Qualified [.row] [.word "select"] := .of_not_mem (by decide)
    have hsource : Qualified [.row] source := .of_not_mem (by simp [source])
    exact (hselect.append (.column List.mem_cons_self c)).append (hsource.append fr.columns)

/-- Labels with different numbers are different labels, and none of them is that of the structure. -/
theorem nodup_texts {ls : List Label} {first count : Nat}
    (h : ls.map Label.number? = (List.range' first count).map some) :
    ((.row :: ls).map fun l => some l.text).Nodup := by
  have hrow : Label.row ∉ ls := by
    intro hmem
    have hnone : none ∈ ls.map Label.number? := List.mem_map_of_mem (f := Label.number?) hmem
    rw [h] at hnone
    simp at hnone
  have hls : ls.Nodup := by
    refine .of_map Label.number? ?_
    rw [h]
    exact (List.nodup_range' ..).map fun _ _ => Option.some.inj
  exact (List.nodup_cons.mpr ⟨hrow, hls⟩).map fun _ _ heq => Label.text_inj (Option.some.inj heq)

end DocStore.Sql
