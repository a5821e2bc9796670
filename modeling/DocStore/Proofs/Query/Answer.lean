import DocStore.Proofs.Query.Condition
import DocStore.Proofs.Query.Ordering
import DocStore.Proofs.Query.Typing
import DocStore.Proofs.Store.Sets
import DocStore.Proofs.Step

/-! The answer of a compiled query. The engine refuses statements of which there is too much; of all others the
    answer is the payloads of the structures that the predicate holds for, in the order of the sortings and then
    of the ids, cut to the page. -/

namespace DocStore

open Sql

/-! ### Statements that the engine takes -/

/-- What the engine refuses a compiled query for, if it does: its text has too much of something, or its names, or the
    rows it looks at come to a pattern that is too long. -/
def Store.refusal (c : CompiledQuery) (st : Store) : Except Excess Unit := do
  let ps := boundData c.bound
  checkText c.statement.filter c.statement.slotsAfterFilter
  checkNames c.statement.filter c.statement.sortTermCount
  checkRows st.tables ps c.statement.filter (c.statement.visited st.tables ps)

section
variable {c : CompiledQuery} {st : Store}

theorem select_eq (htable : st.hasTable c.statement.table = true) :
    Store.select c st =
      (match Store.refusal c st with
        | .error x => .error (.store (.queryFailed (x.message c.text)))
        | .ok () => .ok ((c.statement.rows st.tables (Store.boundData c.bound)).map Store.payloadOf), st) := by
  unfold Store.select Store.reading Step.query Store.bounded Store.refusal
  simp only [htable]
  cases checkText c.statement.filter c.statement.slotsAfterFilter with
  | error x => rfl
  | ok _ =>
    cases checkNames c.statement.filter c.statement.sortTermCount with
    | error x => rfl
    | ok _ =>
      cases checkRows st.tables (Store.boundData c.bound) c.statement.filter
        (c.statement.visited st.tables (Store.boundData c.bound)) with
      | error x => rfl
      | ok _ => rfl

end

/-! ### Parts of the statement -/

section
variable {s : Schema} {q : Query} {ts : Tables} {ps : List Datum}

theorem satisfies_checkFilter {f : Option Filter} (hf : Query.checkFilter s q.predicate = .ok f)
    (hps : ((f.map (·.bound .sqlite)).getD []).map Datum.ofValue <+: ps) (row : Row) :
    satisfies ts ps (f.map (·.condition .sqlite s 0 0)) row = q.admits (ts s.indexesTable) (row .id) := by
  unfold Query.admits
  cases hp : q.predicate with
  | none =>
    rw [hp] at hf
    cases hf
    rfl
  | some p =>
    rw [hp] at hf
    obtain ⟨g, hg, rfl⟩ := map_eq_ok.mp hf
    simp only [Option.map_some, satisfies, condition_truth s row g 0 0 hps, check_holds hg, Option.all_some]
    cases p.holds (ts s.indexesTable) (row .id) <;> rfl

theorem resolveSortings_cons_eq_ok {t : Sorting} {sortings : List Sorting} {ms : List (Member × Direction)}
    (h : Query.resolveSortings s (t :: sortings) = .ok ms) : ∃ m ms', s.resolve t.member = .ok m ∧
      Query.resolveSortings s sortings = .ok ms' ∧ ms = (m, t.direction) :: ms' := by
  rw [Query.resolveSortings] at h
  split at h
  · cases h
  · obtain ⟨ms', hms, rfl⟩ := map_eq_ok.mp h
    exact ⟨_, ms', ‹_›, hms, rfl⟩

theorem sortTerms_directions : ∀ {sortings : List Sorting} {ms : List (Member × Direction)},
    Query.resolveSortings s sortings = .ok ms → ∀ label : Nat,
      (Query.sortTerms s label ms).map (·.direction) = sortings.map (·.direction)
  | [], _, h, _ => by
    cases h
    rfl
  | t :: sortings, _, h, label => by
    obtain ⟨m, ms, -, hms, rfl⟩ := resolveSortings_cons_eq_ok h
    exact congrArg (t.direction :: ·) (sortTerms_directions hms (label + 1))

theorem sortTerms_keys : ∀ {sortings : List Sorting} {ms : List (Member × Direction)},
    Query.resolveSortings s sortings = .ok ms → ∀ (label : Nat) (row : Row),
      (Query.sortTerms s label ms).map (·.key.datum ts ps [(.row, row)]) =
        sortings.map (fun t => leastOf (ts s.indexesTable) t.member (row .id))
  | [], _, h, _, _ => by
    cases h
    rfl
  | t :: sortings, _, h, label, row => by
    obtain ⟨m, ms, hm, hms, rfl⟩ := resolveSortings_cons_eq_ok h
    obtain ⟨hpath, hcode⟩ := resolve_ok hm
    have hne : Label.sort label ≠ .row := by simp
    rw [Query.sortTerms, List.map_cons, List.map_cons, sortTerms_keys hms (label + 1) row]
    refine congrArg (· :: _) ?_
    simp only [leastValue, Scalar.datum, rowsWhere_ofMember_alone hne (datum_front _ _ _ _), if_true, hpath, hcode]
    rfl

theorem keyOrder_sortings (rows : List Row) (sortings : List Sorting) (a b : Datum) :
    Sql.keyOrder (sortings.map (·.direction) ++ [.asc]) (sortings.map (fun t => leastOf rows t.member a) ++ [a])
        (sortings.map (fun t => leastOf rows t.member b) ++ [b]) =
      rowOrder rows sortings a b := by
  induction sortings with
  | nil => exact Ordering.then_eq
  | cons t sortings ih => exact congrArg (Ordering.then (t.order rows a b)) ih

theorem sorted_filter {f : Option Filter} {ms : List (Member × Direction)}
    (hf : Query.checkFilter s q.predicate = .ok f) (hms : Query.resolveSortings s q.sortings = .ok ms)
    (hps : ((f.map (·.bound .sqlite)).getD []).map Datum.ofValue <+: ps) (label : Nat)
    (rows : List Store.StructureRow) :
    sorted ts ps (Query.sortTerms s label ms)
        ((rows.map Store.StructureRow.row).filter (satisfies ts ps (f.map (·.condition .sqlite s 0 0)))) =
      (q.ordered (ts s.indexesTable) rows).map Store.StructureRow.row := by
  have hfilter : (rows.map Store.StructureRow.row).filter (satisfies ts ps (f.map (·.condition .sqlite s 0 0))) =
      (rows.filter fun r => q.admits (ts s.indexesTable) r.id).map Store.StructureRow.row := by
    rw [List.filter_map]
    congr 2
    funext r
    exact satisfies_checkFilter hf hps r.row
  have horder : ∀ a b : Store.StructureRow,
      Sql.keyOrder ((Query.sortTerms s label ms).map (·.direction) ++ [.asc])
          (sortKeys ts ps (Query.sortTerms s label ms) a.row) (sortKeys ts ps (Query.sortTerms s label ms) b.row) =
        rowOrder (ts s.indexesTable) q.sortings a.id b.id := by
    intro a b
    rw [sortKeys, sortKeys, sortTerms_keys hms label a.row, sortTerms_keys hms label b.row,
      sortTerms_directions hms label]
    exact keyOrder_sortings ..
  -- sorting by keys that were computed first is sorting by the order of the rows
  have hsort : ∀ l : List Store.StructureRow,
      (l.map fun r => (sortKeys ts ps (Query.sortTerms s label ms) r.row, r.row)).mergeSort (fun a b =>
          Sql.keyOrder ((Query.sortTerms s label ms).map (·.direction) ++ [.asc]) a.1 b.1 != .gt) =
        (l.mergeSort fun a b => rowOrder (ts s.indexesTable) q.sortings a.id b.id != .gt).map fun r =>
          (sortKeys ts ps (Query.sortTerms s label ms) r.row, r.row) :=
    fun l => (List.map_mergeSort fun a _ b _ => by rw [horder]).symm
  rw [sorted, hfilter, List.map_map]
  exact (congrArg (List.map (·.2)) (hsort _)).trans List.map_map

/-! ### Pages -/

theorem cut_map {α β : Type} (q : Query) (g : α → β) (xs : List α) : q.cut (xs.map g) = (q.cut xs).map g := by
  unfold Query.cut
  cases q.paging with
  | none => rfl
  | some p => simp only [List.map_take, List.map_drop]

theorem rowNumber_integer {slot n : Nat} (h : ps[slot]? = some (.integer n)) : rowNumber ps slot = n := by
  rw [rowNumber, List.getD_eq_getElem?_getD, h]
  exact Int.toNat_natCast n

/-- The page of a statement, given the numbers bound behind the values of the condition, is the page of the query. -/
theorem pageCut {page : Option (Value × Option Value)} (h : Query.pageNumbers q.paging = .ok page) (front : List Value)
    (rows : List Row) :
    let bound := page.map (Query.bindPage .sqlite front.length)
    (match bound.map (·.1) with
      | some p => p.cut (Store.boundData (front ++ (bound.map (·.2)).getD [])) rows
      | none => rows) = q.cut rows := by
  unfold Query.cut
  cases hp : q.paging with
  | none =>
    rw [hp] at h
    cases h
    rfl
  | some p =>
    rw [hp] at h
    obtain ⟨count, hcount, h⟩ := bind_eq_ok.mp h
    obtain rfl := pageNumber_ok hcount
    split at h
    · cases h
      have hrow : rowNumber (Store.boundData (front ++ [.integer p.count])) front.length = p.count :=
        rowNumber_integer (by simp [Store.boundData, Datum.ofValue])
      simp only [Option.map_some, Query.bindPage, PageSlots.cut, Option.getD_some, hrow]
      simp [*]
    · obtain ⟨offset, hoffset, h⟩ := bind_eq_ok.mp h
      obtain rfl := pageNumber_ok hoffset
      cases h
      have hrow : rowNumber (Store.boundData (front ++ [.integer p.count, .integer p.offset])) front.length = p.count :=
        rowNumber_integer (by simp [Store.boundData, Datum.ofValue])
      have hskip : rowNumber (Store.boundData (front ++ [.integer p.count, .integer p.offset])) (front.length + 1) =
          p.offset := rowNumber_integer (by simp [Store.boundData, Datum.ofValue])
      simp only [Option.map_some, Query.bindPage, PageSlots.cut, Option.getD_some, Dialect.countFirst, if_true, hrow,
        hskip]

end

/-! ### Answers -/

section
variable {s : Schema} {q : Query} {c : CompiledQuery} {st : Store} {t : Store.TableSet}

/-- The rows of a compiled query are those that it asks for, in its order and on its page. -/
theorem rows_compileQuery (hc : s.compileQuery .sqlite q = .ok c) (hn : st.Named) (hset : st.set? s = some t) :
    c.statement.rows st.tables (Store.boundData c.bound) =
      (q.cut (q.ordered (t.indexRows.map Store.IndexRow.row) t.rows)).map Store.StructureRow.row := by
  obtain ⟨checked, hcheck, rfl⟩ := map_eq_ok.mp hc
  obtain ⟨_, -, hcheck⟩ := bind_eq_ok.mp hcheck
  obtain ⟨_, -, hcheck⟩ := bind_eq_ok.mp hcheck
  obtain ⟨f, hf, hcheck⟩ := bind_eq_ok.mp hcheck
  obtain ⟨ms, hms, hcheck⟩ := bind_eq_ok.mp hcheck
  obtain ⟨page, hpage, hcheck⟩ := bind_eq_ok.mp hcheck
  cases hcheck
  have hps : ∀ behind : List Value, ((f.map (·.bound .sqlite)).getD []).map Datum.ofValue <+:
      Store.boundData (((f.map (·.bound .sqlite)).getD []) ++ behind) := by
    intro behind
    rw [Store.boundData, List.map_append]
    exact List.prefix_append _ _
  have hcut := pageCut hpage ((f.map (·.bound .sqlite)).getD [])
    ((q.ordered (t.indexRows.map Store.IndexRow.row) t.rows).map Store.StructureRow.row)
  rw [cut_map] at hcut
  simp only [Query.Checked.compile, Statement.rows, Store.tables_structureTable hn hset, sorted_filter hf hms (hps _),
    Store.tables_indexesTable hn hset]
  exact hcut

/-- A query that is compiled without a page is compiled with one too, if its numbers are 64-bit integers. -/
theorem compileQuery_page (hc : s.compileQuery .sqlite q = .ok c) (hsorted : q.sortings ≠ []) {offset count : Nat}
    (hcount : 0 < count) (hcount64 : (count : Int) ≤ Text.maxInt64) (hoffset64 : (offset : Int) ≤ Text.maxInt64) :
    ∃ c', s.compileQuery .sqlite (q.page offset count) = .ok c' := by
  obtain ⟨checked, hcheck, -⟩ := map_eq_ok.mp hc
  obtain ⟨_, -, hcheck⟩ := bind_eq_ok.mp hcheck
  obtain ⟨_, hincludes, hcheck⟩ := bind_eq_ok.mp hcheck
  obtain ⟨f, hf, hcheck⟩ := bind_eq_ok.mp hcheck
  obtain ⟨ms, hms, -⟩ := bind_eq_ok.mp hcheck
  have hpaging : (q.page offset count).checkPaging = .ok () := by
    have hne : count ≠ 0 := Nat.pos_iff_ne_zero.mp hcount
    have hempty : q.sortings.isEmpty = false := List.isEmpty_eq_false_iff.mpr hsorted
    simp [Query.checkPaging, Query.page, hne, hempty]
  have hnumber : ∀ (what : String) {n : Nat}, (n : Int) ≤ Text.maxInt64 →
      Query.pageNumber what n = .ok (.integer n) := fun what n h => by rw [Query.pageNumber, if_pos h]
  obtain ⟨page, hpage⟩ : ∃ page, Query.pageNumbers (q.page offset count).paging = .ok page := by
    by_cases h : offset = 0
    · exact ⟨_, bind_eq_ok.mpr ⟨_, hnumber "count" hcount64, by rw [if_pos h]; rfl⟩⟩
    · exact ⟨_, bind_eq_ok.mpr ⟨_, hnumber "count" hcount64, by
        rw [if_neg h]
        exact bind_eq_ok.mpr ⟨_, hnumber "offset" hoffset64, rfl⟩⟩⟩
  exact ⟨_, map_eq_ok.mpr ⟨_, bind_eq_ok.mpr ⟨(), hpaging, bind_eq_ok.mpr ⟨_, hincludes, bind_eq_ok.mpr ⟨f, hf,
    bind_eq_ok.mpr ⟨ms, hms, bind_eq_ok.mpr ⟨page, hpage, rfl⟩⟩⟩⟩⟩, rfl⟩⟩

theorem flatMap_parts {α : Type} (xs : List α) (count : Nat) : ∀ n : Nat,
    ((List.range n).flatMap fun k => (xs.drop (k * count)).take count) = xs.take (n * count)
  | 0 => by simp
  | n + 1 => by
    rw [List.range_succ, List.flatMap_append, flatMap_parts xs count n, List.flatMap_singleton, Nat.succ_mul,
      List.take_add]

theorem table_compileQuery (hc : s.compileQuery .sqlite q = .ok c) : c.statement.table = s.structureTable := by
  obtain ⟨checked, -, rfl⟩ := map_eq_ok.mp hc
  rfl

/-- A compiled query is refused, or answered by the payloads of what it asks for, in its order and cut to its page. -/
theorem select_ordered (hc : s.compileQuery .sqlite q = .ok c) (hn : st.Named) (hset : st.set? s = some t) :
    Store.select c st =
      (match Store.refusal c st with
        | .error x => .error (.store (.queryFailed (x.message c.text)))
        | .ok () => .ok ((q.cut (q.ordered (t.indexRows.map Store.IndexRow.row) t.rows)).map (·.payload)), st) := by
  have htable : st.hasTable c.statement.table = true := by
    rw [table_compileQuery hc]
    exact Store.hasTable_structureTable hn hset
  rw [select_eq htable, rows_compileQuery hc hn hset, List.map_map]
  rfl

/-- Pages of a sorted query, put together, are its answer up to where the last one ends. -/
theorem select_pages (hc : s.compileQuery .sqlite q = .ok c) (hn : st.Named) (hset : st.set? s = some t)
    (hunpaged : q.paging = none) (hsorted : q.sortings ≠ []) {count n : Nat} (hcount : 0 < count)
    (hcount64 : (count : Int) ≤ Text.maxInt64) (hoffset64 : ∀ k < n, ((k * count : Nat) : Int) ≤ Text.maxInt64) :
    ∃ pages : Nat → CompiledQuery,
      (∀ k < n, s.compileQuery .sqlite (q.page (k * count) count) = .ok (pages k)) ∧
        (Store.refusal c st = .ok () → (∀ k < n, Store.refusal (pages k) st = .ok ()) →
          ∃ (answer : List String) (parts : Nat → List String), Store.select c st = (.ok answer, st) ∧
            (∀ k < n, Store.select (pages k) st = (.ok (parts k), st)) ∧
              (List.range n).flatMap parts = answer.take (n * count)) := by
  -- the pages from the `n`-th on do not matter, and may not compile
  have hpage : ∀ k, ∃ c', k < n → s.compileQuery .sqlite (q.page (k * count) count) = .ok c' := by
    intro k
    by_cases hk : k < n
    · obtain ⟨c', hc'⟩ := compileQuery_page hc hsorted hcount hcount64 (hoffset64 k hk)
      exact ⟨c', fun _ => hc'⟩
    · exact ⟨c, fun h => absurd h hk⟩
  obtain ⟨pages, hpages⟩ := Classical.axiomOfChoice hpage
  refine ⟨pages, hpages, fun htaken hpagesTaken => ?_⟩
  let rows := q.ordered (t.indexRows.map Store.IndexRow.row) t.rows
  refine ⟨rows.map (·.payload), fun k => ((rows.map (·.payload)).drop (k * count)).take count, ?_, fun k hk => ?_,
    flatMap_parts _ count n⟩
  · rw [select_ordered hc hn hset, htaken, Query.cut, hunpaged]
  · rw [select_ordered (hpages k hk) hn hset, hpagesTaken k hk]
    simp only [Query.cut, Query.page, List.map_take, List.map_drop]
    rfl

/-- The meaning of a compiled query over the tables of its set, no two structures of which have equal ids. The
    engine refuses it, leaving the store as it is, or it answers the payloads of exactly the structures that the
    predicate holds for, cut to the page; they stand in the order of the sortings in turn, each by the least
    value of its member, and of the ids in the end, which tells any two structures apart. The pages of a sorted
    query that are not refused, put together, are its answer without a page. The text of the query is read as a
    statement that finds the same rows. -/
theorem select_compileQuery (hc : s.compileQuery .sqlite q = .ok c) (hn : st.Named) (hset : st.set? s = some t)
    (hkeyed : t.Keyed) :
    let indexRows := t.indexRows.map Store.IndexRow.row
    ∃ ordered : List Store.StructureRow,
      ordered.Perm (t.rows.filter fun r => q.admits indexRows r.id) ∧
      ordered.Pairwise (fun a b => rowOrder indexRows q.sortings a.id b.id = .lt) ∧
      Std.TransCmp (rowOrder indexRows q.sortings) ∧
      (∀ a ∈ t.rows, ∀ b ∈ t.rows, rowOrder indexRows q.sortings a.id b.id = .eq → a = b) ∧
      Store.select c st =
        (match Store.refusal c st with
          | .error x => .error (.store (.queryFailed (x.message c.text)))
          | .ok () => .ok ((q.cut ordered).map (·.payload)), st) ∧
      (q.paging = none → q.sortings ≠ [] → ∀ {count n : Nat}, 0 < count → (count : Int) ≤ Text.maxInt64 →
        (∀ k < n, ((k * count : Nat) : Int) ≤ Text.maxInt64) →
        ∃ pages : Nat → CompiledQuery,
          (∀ k < n, s.compileQuery .sqlite (q.page (k * count) count) = .ok (pages k)) ∧
            (Store.refusal c st = .ok () → (∀ k < n, Store.refusal (pages k) st = .ok ()) →
              ∃ (answer : List String) (parts : Nat → List String), Store.select c st = (.ok answer, st) ∧
                (∀ k < n, Store.select (pages k) st = (.ok (parts k), st)) ∧
                  (List.range n).flatMap parts = answer.take (n * count))) ∧
      ∃ read, Statement.ofText? .sqlite c.text = some read ∧ ∀ ts ps, read.rows ts ps = c.statement.rows ts ps := by
  exact ⟨q.ordered _ t.rows, ordered_perm q _ t.rows, ordered_pairwise hkeyed, rowOrder_trans _ _,
    fun a ha b hb heq => hkeyed.eq_of_compare ha hb (compare_of_rowOrder heq), select_ordered hc hn hset,
    fun hunpaged hsorted count n hcount => select_pages hc hn hset hunpaged hsorted hcount, readBack_compileQuery hc⟩

end

/-- The set of the notes. -/
def noteSet : Store.TableSet where
  stem := "Note"
  affinity := .integer
  rows := [⟨.integer 1, "first"⟩, ⟨.integer 2, "second"⟩]
  indexRows := [⟨.integer 1, "Priority", .integer, .integer 2⟩, ⟨.integer 2, "Priority", .integer, .integer 5⟩]

def noteStore : Store := { sets := [("note", noteSet)] }

def byPriority : Query := { sortings := [⟨.new "Priority" .integer, .desc⟩] }

theorem named_noteStore : noteStore.Named := by
  intro e he
  obtain rfl := List.mem_singleton.mp he
  decide

theorem set?_noteStore : noteStore.set? notes = some noteSet := by decide

theorem keyed_noteSet : noteSet.Keyed := by
  unfold Store.TableSet.Keyed
  decide

theorem select_compileQuery_notes : ∃ c, notes.compileQuery .sqlite byPriority = .ok c ∧
    Store.select c noteStore = (.ok ["second", "first"], noteStore) := by
  obtain ⟨c, hc⟩ : ∃ c, notes.compileQuery .sqlite byPriority = .ok c := ⟨_, rfl⟩
  obtain ⟨ordered, hperm, hpairwise, -, -, hselect, -⟩ :=
    select_compileQuery hc named_noteStore set?_noteStore keyed_noteSet
  have hordered : ordered = [⟨.integer 2, "second"⟩, ⟨.integer 1, "first"⟩] := by
    rw [ordered_unique keyed_noteSet hperm hpairwise]
    refine (ordered_unique keyed_noteSet ?_ ?_).symm
    · decide
    · decide
  have htaken : Store.refusal c noteStore = .ok () := by
    cases hc
    rfl
  refine ⟨c, hc, ?_⟩
  rw [hselect, htaken, hordered]
  rfl

/-- A query that sorts as often as is said by the same member. -/
def byPriorities (n : Nat) : Query := { sortings := List.replicate n ⟨.new "Priority" .integer, .asc⟩ }

theorem resolveSortings_replicate {s : Schema} {t : Sorting} {m : Member} (h : s.resolve t.member = .ok m) :
    ∀ n, Query.resolveSortings s (List.replicate n t) = .ok (List.replicate n (m, t.direction))
  | 0 => rfl
  | n + 1 => by
    rw [List.replicate_succ, Query.resolveSortings, h]
    exact map_eq_ok.mpr ⟨_, resolveSortings_replicate h n, rfl⟩

theorem length_sortTerms (s : Schema) : ∀ (ms : List (Member × Direction)) (label : Nat),
    (Query.sortTerms s label ms).length = ms.length
  | [], _ => rfl
  | _ :: ms, label => congrArg (· + 1) (length_sortTerms s ms (label + 1))

/-- The engine does not take as many sort terms as there may be, as the id comes after them. -/
theorem refusal_sortTerms (s : Schema) {ms : List (Member × Direction)} (hms : mostSortTerms ≤ ms.length)
    (includes : List String) (st : Store) :
    Store.refusal (Query.Checked.compile s .sqlite ⟨none, ms, none, includes⟩) st = .error .sortTerms := by
  have hcount : mostSortTerms < (Query.sortTerms s 0 ms).length + 1 := by
    rw [length_sortTerms]
    exact Nat.lt_succ_of_le hms
  have hnames : checkNames none ((Query.sortTerms s 0 ms).length + 1) = .error .sortTerms := by
    rw [checkNames, if_neg (by decide), if_pos hcount]
  show (checkText none [] >>= fun _ => checkNames none ((Query.sortTerms s 0 ms).length + 1) >>= fun _ => _) = _
  rw [hnames]
  rfl

/-- A query may ask for more sort terms than the engine takes: it is compiled, but not answered. -/
theorem select_compileQuery_refused : ∃ c, notes.compileQuery .sqlite (byPriorities 2000) = .ok c ∧
    Store.select c noteStore =
      (.error (.store (.queryFailed "too many terms in ORDER BY clause")), noteStore) := by
  have hresolve : notes.resolve (.new "Priority" .integer) = .ok ⟨"Priority", "Integer", .integer, false, false⟩ := by
    decide
  have hsortings := resolveSortings_replicate (t := ⟨.new "Priority" .integer, .asc⟩) hresolve 2000
  have hcheck : (byPriorities 2000).check notes = .ok ⟨none, _, none, []⟩ :=
    bind_eq_ok.mpr ⟨(), rfl, bind_eq_ok.mpr ⟨(), rfl, bind_eq_ok.mpr ⟨none, rfl,
      bind_eq_ok.mpr ⟨_, hsortings, bind_eq_ok.mpr ⟨none, rfl, rfl⟩⟩⟩⟩⟩
  have hc : notes.compileQuery .sqlite (byPriorities 2000) = .ok _ := map_eq_ok.mpr ⟨_, hcheck, rfl⟩
  have hmany : mostSortTerms ≤ (List.replicate 2000
      ((⟨"Priority", "Integer", .integer, false, false⟩ : Member), Direction.asc)).length := by
    rw [List.length_replicate]
    decide
  refine ⟨_, hc, ?_⟩
  rw [select_ordered hc named_noteStore set?_noteStore, refusal_sortTerms notes hmany [] noteStore]
  rfl

end DocStore
