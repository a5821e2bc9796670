import DocStore.Proofs.Query.Answer
import DocStore.Proofs.Query.OwnRows
import DocStore.Proofs.Store.EverySet

/-! Structures by a predicate. Counting them, selecting their payloads and selecting their ids are three statements that
    the engine refuses for the same reasons and otherwise answers from the same rows, and deleting goes by the ids that
    were selected. Nothing that is left after that has anything to do with what was deleted. -/

namespace DocStore

open Sql (Datum Row Tables Excess)

/-- The select of the payloads of the structures that satisfy a filter. -/
def CompiledFilter.query (s : Schema) (f : CompiledFilter) : CompiledQuery where
  dialect := f.dialect
  statement := { table := s.structureTable, filter := f.condition, sortings := [], page := none }
  bound := f.bound
  includes := []

theorem compileQuery_filter {s : Schema} {d : Dialect} {p : Predicate} {f : CompiledFilter}
    (hf : s.compileFilter d (some p) = .ok f) : s.compileQuery d (({} : Query).filter p) = .ok (f.query s) := by
  obtain ⟨g, hg, rfl⟩ := map_eq_ok.mp hf
  have hfilter : Query.checkFilter s (some p) = .ok (some g) := map_eq_ok.mpr ⟨g, hg, rfl⟩
  refine map_eq_ok.mpr ⟨⟨some g, [], none, []⟩, ?_, ?_⟩
  · exact bind_eq_ok.mpr ⟨(), rfl, bind_eq_ok.mpr ⟨(), rfl, bind_eq_ok.mpr ⟨_, hfilter, rfl⟩⟩⟩
  · simp only [Query.Checked.compile, CompiledFilter.query, Query.sortTerms, Option.map_some, Option.map_none,
      Option.getD_some, Option.getD_none, List.append_nil]

namespace Store

/-! ### Structures that a predicate holds for -/

namespace TableSet

/-- Whether a predicate holds for the structure of an id. -/
def admits (t : TableSet) (p : Predicate) (id : Datum) : Bool := p.holds (t.indexRows.map IndexRow.row) id

/-- The structures that a predicate holds for, in the order of their ids. -/
def selected (t : TableSet) (p : Predicate) : List StructureRow := byId (t.rowsWhere (t.admits p))

/-- The set without the structures of some ids and without the index rows of these. -/
def without (t : TableSet) (q : Datum → Bool) : TableSet := (t.withoutIndexRows q).withoutRows q

def withoutKeys (t : TableSet) (keys : List Datum) : TableSet := t.without fun d => keys.any (same d)

/-- The set without the structures that a predicate holds for. -/
def unselected (t : TableSet) (p : Predicate) : TableSet := t.without (t.admits p)

/-- Whether each structure can be looked for by its id. -/
def Findable (t : TableSet) : Prop := ∀ r ∈ t.rows, t.isKey r.id = true

/-- The ids of the structures are valid: each is read back from the column as an id for which the column holds just
    that. -/
def ValidIds (s : Schema) (t : TableSet) : Prop := ∀ r ∈ t.rows, (idOf s.idType r.id).map t.idDatum = .ok r.id

section
variable {s : Schema} {t : TableSet} {p : Predicate} {q q' : Datum → Bool}

/-- In a set of a type, ids that are valid as such are so once they are stored. -/
theorem Of.validIds (ht : t.Of s)
    (h : ∀ id : DocId, id.idType = s.idType → (∃ r ∈ t.rows, r.id = id.datum) → id.IsValid) : t.ValidIds s := by
  intro r hr
  obtain ⟨id, htype, hid⟩ := ht.ids r hr
  have hback : idOf s.idType r.id = .ok id := by
    rw [hid, ← htype]
    exact DocId.idOf_datum_of_isValid (h id htype ⟨r, hr, hid⟩)
  exact map_eq_ok.mpr ⟨id, hback, (ht.idDatum htype).trans hid.symm⟩

theorem mem_selected {r : StructureRow} : r ∈ t.selected p ↔ r ∈ t.rows ∧ t.admits p r.id = true :=
  List.mem_mergeSort.trans List.mem_filter

theorem admits_congr {a b : Datum} (h : same a b = true) : t.admits p a = t.admits p b :=
  Predicate.holds_congr (sameOwnRows_of_same h _) p

theorem length_without (t : TableSet) (q : Datum → Bool) :
    (t.rowsWhere q).length + (t.without q).rows.length = t.rows.length :=
  (List.length_eq_length_filter_add _).symm

theorem length_selected (t : TableSet) (p : Predicate) :
    (t.selected p).length + (t.unselected p).rows.length = t.rows.length := by
  rw [selected, byId, List.length_mergeSort]
  exact t.length_without _

theorem without_congr (hrows : ∀ r ∈ t.rows, q r.id = q' r.id) (hindex : ∀ x ∈ t.indexRows, q x.id = q' x.id) :
    t.without q = t.without q' := by
  have h₁ : t.rows.filter (fun r => !q r.id) = t.rows.filter fun r => !q' r.id :=
    List.filter_congr fun r hr => by rw [hrows r hr]
  have h₂ : t.indexRows.filter (fun x => !q x.id) = t.indexRows.filter fun x => !q' x.id :=
    List.filter_congr fun x hx => by rw [hindex x hx]
  simp only [without, withoutRows, withoutIndexRows, h₁, h₂]

theorem without_false (t : TableSet) : t.without (fun _ => false) = t := by
  simp only [without, withoutRows, withoutIndexRows, Bool.not_false, List.filter_true]

theorem without_without (t : TableSet) (q q' : Datum → Bool) :
    (t.without q).without q' = t.without fun d => q d || q' d := by
  simp only [without, withoutRows, withoutIndexRows, List.filter_filter, Bool.not_or, Bool.and_comm]

theorem withoutKeys_withoutKeys (t : TableSet) (keys keys' : List Datum) :
    (t.withoutKeys keys).withoutKeys keys' = t.withoutKeys (keys ++ keys') := by
  simp only [withoutKeys, without_without, List.any_append]

/-! ### What is left -/

/-- What is looked at for a structure that is left is what was looked at for it before. -/
theorem sameOwnRows_without {id : Datum} (h : ∀ d, same d id = true → q d = false) :
    SameOwnRows ((t.without q).indexRows.map IndexRow.row) (t.indexRows.map IndexRow.row) id id := by
  have hrows : (t.without q).indexRows.map IndexRow.row =
      (t.indexRows.map IndexRow.row).filter fun r => !q (r .id) := by
    rw [List.filter_map]
    rfl
  rw [hrows]
  exact sameOwnRows_filter fun r _ hsame => by rw [h _ hsame]; rfl

theorem sameOwnRows_unselected {id : Datum} (h : t.admits p id = false) :
    SameOwnRows ((t.unselected p).indexRows.map IndexRow.row) (t.indexRows.map IndexRow.row) id id :=
  sameOwnRows_without fun _ hsame => (admits_congr hsame).trans h

theorem selected_unselected (t : TableSet) (p : Predicate) : (t.unselected p).selected p = [] := by
  refine List.eq_nil_iff_forall_not_mem.mpr fun r hr => ?_
  obtain ⟨hr, hadmits⟩ := mem_selected.mp hr
  have hleft : t.admits p r.id = false := (Bool.not_eq_true' _).mp (List.mem_filter.mp hr).2
  rw [admits, Predicate.holds_congr (sameOwnRows_unselected hleft), ← admits, hleft] at hadmits
  cases hadmits

end

end TableSet

/-! ### Keys -/

namespace TableSet

variable {t t' : TableSet} {s : Schema}

theorem isKey_of_affinity (h : t'.affinity = t.affinity) (d : Datum) : t'.isKey d = t.isKey d := by
  unfold isKey
  rw [h]

/-- A set takes no structure that could not be found again. -/
theorem isKey_of_insertRow {d : Datum} {payload : String} (h : t.insertRow d payload = .ok t') : t.isKey d = true := by
  unfold insertRow at h
  cases haffinity : t.affinity with
  | integer =>
    rw [haffinity] at h
    cases d with
    | integer n => rfl
    | null | real x | text x => cases h
  | text => cases d <;> simp [isKey, haffinity]

theorem Findable.of_ids (ht : t.Findable) (haffinity : t'.affinity = t.affinity)
    (hrows : ∀ r' ∈ t'.rows, ∃ r ∈ t.rows, r'.id = r.id) : t'.Findable := by
  intro r' hr'
  obtain ⟨r, hr, hid⟩ := hrows r' hr'
  rw [isKey_of_affinity haffinity, hid]
  exact ht r hr

end TableSet

theorem kept_findable : Kept TableSet.Findable where
  new _ := fun _ hr => absurd hr List.not_mem_nil
  index _ _ ht := ht
  stale _ ht := ht
  rows {es added t t'} hchange ht := by
    cases hchange with
    | @insert id payload t₁ t' _ hrow hentries =>
      have hsame := TableSet.insertEntries_sameRows hentries
      obtain ⟨rfl, -⟩ := TableSet.insertRow_eq_ok hrow
      intro r hr
      rw [hsame.rows] at hr
      rw [TableSet.isKey_of_affinity (t := t) hsame.affinity]
      rcases List.mem_append.mp hr with hr | hr
      · exact ht r hr
      · rw [List.mem_singleton.mp hr]
        exact TableSet.isKey_of_insertRow hrow
    | @replace id payload t' hfound hentries =>
      have hsame := TableSet.insertEntries_sameRows hentries
      refine ht.of_ids hsame.affinity fun r' hr' => ?_
      rw [hsame.rows] at hr'
      obtain ⟨r, hr, rfl⟩ := List.mem_map.mp hr'
      refine ⟨r, hr, ?_⟩
      split <;> rfl
    | deleteKeys ids => exact ht.of_ids rfl fun r hr => ⟨r, (List.mem_filter.mp hr).1, rfl⟩
    | deleteInterval low high => exact ht.of_ids rfl fun r hr => ⟨r, (List.mem_filter.mp hr).1, rfl⟩

/-! ### Asking by a predicate -/

section
variable {s : Schema} {st : Store} {t : TableSet} {p : Predicate} {f : CompiledFilter}
  (hn : st.Named) (hset : st.set? s = some t) (hf : s.compileFilter .sqlite (some p) = .ok f)

theorem satisfies_compileFilter (hf : s.compileFilter .sqlite (some p) = .ok f) (ts : Tables) (row : Row) :
    Sql.satisfies ts (boundData f.bound) f.condition row = p.holds (ts s.indexesTable) (row .id) := by
  obtain ⟨c, hc, htruth⟩ := condition_compileFilter hf ts row
  rw [hc, Sql.satisfies, htruth]
  cases p.holds (ts s.indexesTable) (row .id) <;> rfl

theorem checkNames_le (c : Option Sql.Condition) {n m : Nat} (hn : n ≤ Sql.mostSortTerms) (hm : m ≤ Sql.mostSortTerms) :
    Sql.checkNames c n = Sql.checkNames c m := by
  rw [Sql.checkNames, Sql.checkNames, if_neg (Nat.not_lt.mpr hn), if_neg (Nat.not_lt.mpr hm)]

/-- The select with a filter sorts by the id alone and has no page. -/
theorem refusal_query (s : Schema) (f : CompiledFilter) (st : Store) : refusal (f.query s) st = (do
    Sql.checkText f.condition []
    Sql.checkNames f.condition 1
    Sql.checkRows st.tables (boundData f.bound) f.condition (st.tables s.structureTable)) := rfl

include hn hset hf

/-- Whatever is asked of the structures with a condition is refused for what the select of their payloads is refused
    for. -/
theorem filtered_eq (sql : String) {n : Nat} (hterms : n ≤ Sql.mostSortTerms) : filtered s f sql n st =
    (match refusal (f.query s) st with
      | .error x => .error (.queryFailed (x.message sql))
      | .ok () => .ok (t.rowsWhere (t.admits p))) := by
  have hrows : (t.rows.filter fun r => Sql.satisfies st.tables (boundData f.bound) f.condition r.row) =
      t.rowsWhere (t.admits p) := by
    refine List.filter_congr fun r _ => ?_
    rw [satisfies_compileFilter hf, tables_indexesTable hn hset]
    rfl
  unfold filtered bounded
  rw [refusal_query, tables_structureTable hn hset, structureSet_some hset, ← hrows,
    checkNames_le _ (by decide : 1 ≤ Sql.mostSortTerms) hterms]
  dsimp only [bind, Except.bind]
  cases Sql.checkText f.condition [] with
  | error x => rfl
  | ok _ =>
    cases Sql.checkNames f.condition n with
    | error x => rfl
    | ok _ =>
      dsimp only [Except.mapError]
      cases Sql.checkRows st.tables (boundData f.bound) f.condition (t.rows.map StructureRow.row) <;> rfl

theorem countWhere_eq : countWhere s f st =
    (match refusal (f.query s) st with
      | .error x => .error (.store (.queryFailed (x.message (countText s f))))
      | .ok () => .ok (t.selected p).length, st) := by
  show (((filtered s f (countText s f) 0 st).map _).mapError Error.store, st) = _
  rw [filtered_eq hn hset hf _ (by decide : 0 ≤ Sql.mostSortTerms), TableSet.selected, byId, List.length_mergeSort]
  cases refusal (f.query s) st <;> rfl

theorem idsWhere_eq : idsWhere s f st =
    (match refusal (f.query s) st with
      | .error x => .error (.store (.queryFailed (x.message (idsText s f))))
      | .ok () => idsOf s.idType ((t.selected p).map (·.id)), st) := by
  show ((filtered s f (idsText s f) 1 st).mapError Error.store >>= _, st) = _
  rw [filtered_eq hn hset hf _ (by decide : 1 ≤ Sql.mostSortTerms)]
  cases refusal (f.query s) st <;> rfl

theorem select_query : select (f.query s) st =
    (match refusal (f.query s) st with
      | .error x => .error (.store (.queryFailed (x.message (f.query s).text)))
      | .ok () => .ok ((t.selected p).map (·.payload)), st) :=
  select_ordered (compileQuery_filter hf) hn hset

end

/-! ### Deleting by ids -/

section
variable {s : Schema} {st : Store} {t : TableSet} {p : Predicate}

/-- Looking for data finds what is equal to one of them, if those that are equal to it can be looked for. -/
theorem findsAny_of_keys {keys : List Datum} {id : Datum} (hkeys : ∀ d ∈ keys, same id d = true → t.isKey d = true) :
    t.findsAny keys id = keys.any (same id) := by
  rw [Bool.eq_iff_iff, TableSet.findsAny, Option.any_eq_true, List.any_eq_true]
  constructor
  · rintro ⟨d, hfound, -⟩
    exact ⟨d, List.mem_reverse.mp (List.mem_of_find?_eq_some hfound), List.find?_some hfound⟩
  · rintro ⟨d, hd, hsame⟩
    have hsome : (keys.reverse.find? (same id)).isSome = true :=
      List.find?_isSome.mpr ⟨d, List.mem_reverse.mpr hd, hsame⟩
    obtain ⟨d', hfound⟩ := Option.isSome_iff_exists.mp hsome
    exact ⟨d', hfound, hkeys d' (List.mem_reverse.mp (List.mem_of_find?_eq_some hfound)) (List.find?_some hfound)⟩

/-- Whether those of some ids that are equal to ids of a set can be looked for. -/
def TableSet.Seeks (t : TableSet) (ids : List DocId) : Prop :=
  ∀ r ∈ t.rows, ∀ id ∈ ids, same r.id (t.idDatum id) = true → t.isKey (t.idDatum id) = true

theorem TableSet.Seeks.findsAny {ids : List DocId} (h : t.Seeks ids) {r : StructureRow} (hr : r ∈ t.rows) :
    t.findsAny (ids.map t.idDatum) r.id = (ids.map t.idDatum).any (same r.id) :=
  findsAny_of_keys (List.forall_mem_map.mpr (h r hr))

theorem deleteChunk_of_keys (hset : st.set? s = some t) {ids : List DocId} (hseeks : t.Seeks ids) :
    deleteChunk s st ids = .ok ((t.rowsWhere fun d => (ids.map t.idDatum).any (same d)).length,
      st.putSet (t.withoutKeys (ids.map t.idDatum))) := by
  have hfound : t.rowsWhere (t.findsAny (ids.map t.idDatum)) =
      t.rowsWhere fun d => (ids.map t.idDatum).any (same d) :=
    List.filter_congr fun r hr => hseeks.findsAny hr
  have hleft : (t.withoutIndexRows fun d => (ids.map t.idDatum).any (same d)).withoutRows
      (t.findsAny (ids.map t.idDatum)) = t.withoutKeys (ids.map t.idDatum) :=
    congrArg (fun rows => { t.withoutIndexRows fun d => (ids.map t.idDatum).any (same d) with rows })
      (List.filter_congr fun r hr => congrArg (!·) (hseeks.findsAny hr))
  rw [deleteChunk, indexSet, hset]
  simp only [bind, Except.bind, hfound, hleft]
  rfl

/-- Ids that can be looked for are deleted, part by part, all of them with their index rows. -/
theorem deleteChunks_of_keys : ∀ {parts : List (List DocId)} {st : Store} {t : TableSet},
    st.set? s = some t → folded t.stem = folded s.stem → (∀ ids ∈ parts, t.Seeks ids) →
    ∃ n, n + (t.withoutKeys (parts.flatten.map t.idDatum)).rows.length = t.rows.length ∧
      deleteChunks s st parts = .ok (n, st.putSet (t.withoutKeys (parts.flatten.map t.idDatum)))
  | [], st, t, hset, hstem, _ => by
    have hleft : t.withoutKeys (([] : List (List DocId)).flatten.map t.idDatum) = t := t.without_false
    rw [hleft, putSet_of_set? hset hstem, deleteChunks]
    exact ⟨0, Nat.zero_add _, rfl⟩
  | ids :: parts, st, t, hset, hstem, hseeks => by
    obtain ⟨hfirst, hothers⟩ := List.forall_mem_cons.mp hseeks
    let t₁ := t.withoutKeys (ids.map t.idDatum)
    have hone := deleteChunk_of_keys hset hfirst
    have hcount₁ := t.length_without fun d => (ids.map t.idDatum).any (same d)
    have hothers₁ : ∀ ids ∈ parts, t₁.Seeks ids := fun ids hids r hr => hothers ids hids r (List.mem_filter.mp hr).1
    obtain ⟨n, hcount, hrest⟩ := deleteChunks_of_keys (t := t₁) (set?_putSet_self hstem) hstem hothers₁
    have hleft : t₁.withoutKeys (parts.flatten.map t₁.idDatum) = t.withoutKeys ((ids :: parts).flatten.map t.idDatum) := by
      rw [List.flatten_cons, List.map_append]
      exact t.withoutKeys_withoutKeys _ _
    have hput : (st.putSet t₁).putSet (t₁.withoutKeys (parts.flatten.map t₁.idDatum)) = _ := putSet_putSet rfl
    rw [hput, hleft] at hrest
    rw [hleft] at hcount
    rw [deleteChunks, hone]
    dsimp only
    rw [hrest]
    exact ⟨_, by rw [Nat.add_assoc, hcount]; exact hcount₁, rfl⟩

/-- Ids that can be looked for are deleted, all of them with their index rows; those that are repeated count once. -/
theorem deleteMany_of_keys (hset : st.set? s = some t) (hstem : folded t.stem = folded s.stem) {ids : List DocId}
    (hseeks : t.Seeks ids) : deleteMany s ids st =
      (.ok (t.rowsWhere fun d => (ids.map t.idDatum).any (same d)).length,
        st.putSet (t.withoutKeys (ids.map t.idDatum))) := by
  have hflatten : (idChunks ids).flatten = ids := flatten_chunks 499 ids
  have hparts : ∀ part ∈ idChunks ids, t.Seeks part := fun part hpart r hr id hid =>
    hseeks r hr id (hflatten ▸ List.mem_flatten.mpr ⟨part, hpart, hid⟩)
  obtain ⟨n, hcount, hdone⟩ := deleteChunks_of_keys hset hstem hparts
  rw [hflatten] at hcount hdone
  obtain rfl : n = (t.rowsWhere fun d => (ids.map t.idDatum).any (same d)).length :=
    Nat.add_right_cancel (hcount.trans (t.length_without _).symm)
  rw [deleteMany, writing, Step.transaction, hdone]
  rfl

/-- The ids of valid structures are read back as ids that the column holds just as well. -/
theorem idsOf_valid {ty : IdType} : ∀ {rows : List StructureRow},
    (∀ r ∈ rows, (idOf ty r.id).map t.idDatum = .ok r.id) →
    ∃ ids, idsOf ty (rows.map (·.id)) = .ok ids ∧ ids.map t.idDatum = rows.map (·.id)
  | [], _ => ⟨[], rfl, rfl⟩
  | r :: rows, h => by
    obtain ⟨hfirst, hrest⟩ := List.forall_mem_cons.mp h
    obtain ⟨id, hone, hdatum⟩ := map_eq_ok.mp hfirst
    obtain ⟨ids, hids, hdata⟩ := idsOf_valid hrest
    refine ⟨id :: ids, ?_, ?_⟩
    · rw [List.map_cons, idsOf, hone, hids]
      rfl
    · rw [List.map_cons, List.map_cons, hdatum, hdata]

theorem idsOf_selected (hvalid : t.ValidIds s) (p : Predicate) : ∃ ids,
    idsOf s.idType ((t.selected p).map (·.id)) = .ok ids ∧ ids.map t.idDatum = (t.selected p).map (·.id) :=
  idsOf_valid fun r hr => hvalid r (TableSet.mem_selected.mp hr).1

/-- Among the ids of the selected structures is one that is equal to an id exactly if that of a selected structure is. -/
theorem any_selected {r : StructureRow} (hr : r ∈ t.rows) {d : Datum} (hsame : same r.id d = true) :
    ((t.selected p).map (·.id)).any (same d) = t.admits p d := by
  rw [Bool.eq_iff_iff, List.any_map, List.any_eq_true]
  constructor
  · rintro ⟨r', hr', hsame'⟩
    rw [TableSet.admits_congr hsame']
    exact (TableSet.mem_selected.mp hr').2
  · intro hadmits
    rw [← TableSet.admits_congr hsame] at hadmits
    exact ⟨r, TableSet.mem_selected.mpr ⟨hr, hadmits⟩, (same_comm d r.id).trans hsame⟩

theorem withoutKeys_selected (hvalid : t.ValidIds s) (howned : t.Owned) (p : Predicate) :
    t.withoutKeys ((t.selected p).map (·.id)) = t.unselected p := by
  refine TableSet.without_congr (fun r hr => ?_) fun x hx => ?_
  · obtain ⟨id, -, hid⟩ := map_eq_ok.mp (hvalid r hr)
    exact any_selected hr (same_self (hid ▸ idDatum_ne_null t id))
  · obtain ⟨r, hr, hsame⟩ := howned x hx
    exact any_selected hr hsame

/-- Deleting by the ids that were selected deletes what was selected, and tells how many structures it was. -/
theorem deleteMany_selected (hset : st.set? s = some t) (hstem : folded t.stem = folded s.stem)
    (hvalid : t.ValidIds s) (howned : t.Owned) (hfind : t.Findable) {ids : List DocId}
    (hids : ids.map t.idDatum = (t.selected p).map (·.id)) :
    deleteMany s ids st = (.ok (t.selected p).length, st.putSet (t.unselected p)) := by
  have hseeks : t.Seeks ids := by
    intro _ _ id hid _
    have hdatum : t.idDatum id ∈ (t.selected p).map (·.id) := hids ▸ List.mem_map_of_mem hid
    obtain ⟨r, hr, heq⟩ := List.mem_map.mp hdatum
    rw [← heq]
    exact hfind r (TableSet.mem_selected.mp hr).1
  have hleft := withoutKeys_selected hvalid howned p
  have hcount : (t.rowsWhere fun d => ((t.selected p).map (·.id)).any (same d)).length = (t.selected p).length := by
    refine Nat.add_right_cancel ((t.length_without _).trans ?_)
    rw [← t.length_selected p, ← hleft]
    rfl
  rw [deleteMany_of_keys hset hstem hseeks, hids, hleft, hcount]

end

/-! ### Asking again -/

section
variable {s : Schema} {st : Store} {t : TableSet} {p : Predicate} {f : CompiledFilter}
  (hn : st.Named) (hset : st.set? s = some t) (hf : s.compileFilter .sqlite (some p) = .ok f)
include hn hset hf

/-- What the engine takes it takes after the deletion too: of the structures that are left it finds out what it found out
    before. -/
theorem refusal_unselected (h : refusal (f.query s) st = .ok ()) :
    refusal (f.query s) (st.putSet (t.unselected p)) = .ok () := by
  obtain ⟨g, -, rfl⟩ := map_eq_ok.mp hf
  have hstem : folded t.stem = folded s.stem := hn.stem hset
  have hn' := hn.putSet (t.unselected p)
  have hset' : (st.putSet (t.unselected p)).set? s = some (t.unselected p) := set?_putSet_self hstem
  let ts := st.tables
  let ts' := (st.putSet (t.unselected p)).tables
  have hindex : ts s.indexesTable = t.indexRows.map IndexRow.row := tables_indexesTable hn hset
  have hindex' : ts' s.indexesTable = (t.unselected p).indexRows.map IndexRow.row := tables_indexesTable hn' hset'
  rw [refusal_query, tables_structureTable hn hset] at h
  rw [refusal_query, tables_structureTable hn' hset']
  obtain ⟨⟨⟩, htext, h⟩ := bind_eq_ok.mp h
  obtain ⟨⟨⟩, hnames, h⟩ := bind_eq_ok.mp h
  refine bind_eq_ok.mpr ⟨(), htext, bind_eq_ok.mpr ⟨(), hnames, ?_⟩⟩
  -- no row stands for a null, so a condition that looks at no row finds none in either table
  have hnone : SameOwnRows (ts' s.indexesTable) (ts s.indexesTable) .null .null := by
    rw [hindex, hindex']
    exact TableSet.sameOwnRows_without fun d hsame => absurd (same_null d ▸ hsame) Bool.false_ne_true
  have hleft : ∀ row ∈ (t.unselected p).rows.map StructureRow.row,
      SameOwnRows (ts' s.indexesTable) (ts s.indexesTable) (row .id) (row .id) := by
    intro row hrow
    obtain ⟨r, hr, rfl⟩ := List.mem_map.mp hrow
    rw [hindex, hindex']
    exact TableSet.sameOwnRows_unselected ((Bool.not_eq_true' _).mp (List.mem_filter.mp hr).2)
  have halike : Sql.breaksOn ts' (boundData (g.bound .sqlite)) (g.condition .sqlite s 0 0)
      ((t.unselected p).rows.map StructureRow.row) = Sql.breaksOn ts _ _ _ :=
    Sql.Condition.breaksOn_alike (g.condition_alike rfl hnone .sqlite 0 0) fun row hrow =>
      g.condition_alike rfl (hleft row hrow) .sqlite 0 0
  rw [Sql.checkRows] at h ⊢
  split at h
  · cases h
  · rename_i hno
    refine if_neg fun hyes => hno ?_
    obtain ⟨hlong, hbreaks⟩ := Bool.and_eq_true_iff.mp hyes
    rw [halike] at hbreaks
    exact Bool.and_eq_true_iff.mpr ⟨hlong,
      Sql.Condition.breaksOn_subset (List.map_subset _ List.filter_sublist.subset) hbreaks⟩

end

/-! ### Asking for everything -/

section
variable {s : Schema} {st : Store} {t : TableSet} (hset : st.set? s = some t)
include hset

theorem fetchAll_eq : fetchAll s st = (.ok (orderedPayloads t.rows), st) := by
  show ((st.structureSet s >>= _).mapError Error.store, st) = _
  rw [structureSet_some hset]
  rfl

theorem count_eq : count s st = (.ok (orderedPayloads t.rows).length, st) := by
  show ((st.structureSet s >>= _).mapError Error.store, st) = _
  rw [structureSet_some hset, orderedPayloads, byId, List.length_map, List.length_mergeSort]
  rfl

/-- The empty query asks for everything in the order of the ids, and is never refused. -/
theorem select_empty (hn : st.Named) : ∃ c, s.compileQuery .sqlite {} = .ok c ∧
    select c st = (.ok (orderedPayloads t.rows), st) := by
  obtain ⟨c, hc⟩ : ∃ c, s.compileQuery .sqlite {} = .ok c := ⟨_, rfl⟩
  have htaken : refusal c st = .ok () := by
    cases hc
    rfl
  have hall : t.rows.filter (fun r => ({} : Query).admits (t.indexRows.map IndexRow.row) r.id) = t.rows :=
    List.filter_true _
  refine ⟨c, hc, ?_⟩
  rw [select_ordered hc hn hset, htaken, Query.cut, Query.ordered, hall]
  rfl

end

/-! ### Asking for too much -/

/-- Conditions that are joined to one another add to the height, one each. -/
theorem chainRead_tooMany : ∀ {cs : List Sql.Condition} {n : Nat}, (∀ c ∈ cs, ∃ h, c.heightRead = .ok h) →
    n ≤ Sql.greatestHeight → Sql.greatestHeight < n + cs.length →
    Sql.Condition.chainRead (some n) cs = .error .height
  | [], n, _, hle, hlt => absurd hlt (Nat.not_lt.mpr hle)
  | c :: cs, n, hcs, _, hlt => by
    obtain ⟨⟨h, hread⟩, hcs⟩ := List.forall_mem_cons.mp hcs
    rw [List.length_cons] at hlt
    rw [Sql.Condition.chainRead, hread]
    dsimp only
    by_cases hraised : max n h < Sql.greatestHeight
    · have hhigher : n ≤ max n h := le_max_left ..
      rw [Sql.raised, if_pos hraised]
      exact chainRead_tooMany hcs hraised (by omega)
    · rw [Sql.raised, if_neg hraised]

end Store

/-! ### Members asked for again and again -/

/-- A predicate that asks as often as is said whether a member has a value. -/
def Predicate.asked (m : MemberRef) (n : Nat) : Predicate := .all (List.replicate n (.compare m .ne .null))

section
variable {s : Schema} {r : MemberRef} {m : Member}

theorem checkAll_asked (hm : s.resolve r = .ok m) : ∀ n,
    Predicate.checkAll s (List.replicate n (.compare r .ne .null)) = .ok (List.replicate n (.present m))
  | 0 => rfl
  | n + 1 => by
    have hone : Predicate.check s (.compare r .ne .null) = .ok (.present m) :=
      bind_eq_ok.mpr ⟨m, hm, rfl⟩
    rw [List.replicate_succ, Predicate.checkAll, hone]
    dsimp only
    rw [checkAll_asked hm n]
    rfl

theorem compileFilter_asked (hm : s.resolve r = .ok m) (d : Dialect) (n : Nat) :
    s.compileFilter d (some (.asked r (n + 1))) =
      .ok ⟨d, some (.all (Filter.conditions d s 0 0 (List.replicate (n + 1) (.present m)))),
        Filter.boundOfAll d (List.replicate (n + 1) (.present m))⟩ := by
  refine map_eq_ok.mpr ⟨.all (List.replicate (n + 1) (.present m)), ?_, rfl⟩
  rw [Predicate.asked, Predicate.check, checkAll_asked hm]
  rfl

theorem heightRead_conditions (d : Dialect) (s : Schema) (m : Member) : ∀ n label slot,
    ∀ c ∈ Filter.conditions d s label slot (List.replicate n (.present m)), c.heightRead = .ok 5
  | 0, _, _ => fun _ hc => absurd hc List.not_mem_nil
  | n + 1, label, slot => by
    rw [List.replicate_succ, Filter.conditions]
    exact List.forall_mem_cons.mpr ⟨rfl, heightRead_conditions d s m n _ _⟩

theorem length_conditions (d : Dialect) (s : Schema) : ∀ (fs : List Filter) (label slot : Nat),
    (Filter.conditions d s label slot fs).length = fs.length := by
  intro fs
  induction fs with
  | nil =>
    intro label slot
    rfl
  | cons f fs ih =>
    intro label slot
    rw [Filter.conditions, List.length_cons, List.length_cons, ih]

/-- The engine does not take a predicate of more parts than conditions may be high. -/
theorem refusal_asked {f : CompiledFilter} (hm : s.resolve r = .ok m) {n : Nat} (hn : Sql.greatestHeight ≤ n)
    (hf : s.compileFilter .sqlite (some (.asked r (n + 1))) = .ok f) (st : Store) :
    Store.refusal (f.query s) st = .error .height := by
  rw [compileFilter_asked hm] at hf
  cases hf
  have hheight : (Sql.Condition.all (Filter.conditions .sqlite s 0 0 (List.replicate (n + 1) (.present m)))).heightRead =
      .error .height := by
    have hfirst : ((Filter.present m).condition .sqlite s 0 0).heightRead = .ok 5 := rfl
    rw [List.replicate_succ, Filter.conditions, Sql.Condition.heightRead, Sql.Condition.chainRead, hfirst]
    refine Store.chainRead_tooMany (fun c hc => ⟨5, heightRead_conditions .sqlite s m n _ _ c hc⟩) (by decide) ?_
    rw [length_conditions, List.length_replicate]
    omega
  rw [Store.refusal_query, Sql.checkText, Option.map_some, hheight]
  rfl

end

end DocStore
