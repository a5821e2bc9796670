import DocStore.Proofs.Query.OneValue
import DocStore.Proofs.Schema.Values
import DocStore.Proofs.Store.EverySet

/-! Structures with one value for a member. As long as all that is written to a set comes from documents that lead to one
    scalar at most for each member that is not enumerable, the index of the set has one row at most for such a member of a
    structure, and so the other side of a comparison of two members is one value. Nothing but the documents ensures it:
    an array is indexed by all its elements, whether or not its member is enumerable. -/

namespace DocStore

open Sql (Datum)
open Extraction

namespace Store

/-! ### Index rows of one structure and one path -/

/-- The index rows that have an id and a path. -/
def rowsAt (rows : List IndexRow) (id : Datum) (path : String) : List IndexRow :=
  rows.filter fun x => same x.id id && x.path = path

/-- No structure has two index rows of a path. -/
def OneRow (path : String) (rows : List IndexRow) : Prop := ∀ id, (rowsAt rows id path).length ≤ 1

section
variable {path : String} {rows rows' : List IndexRow}

theorem OneRow.sublist (h : OneRow path rows) (hsub : rows'.Sublist rows) : OneRow path rows' :=
  fun id => Nat.le_trans (hsub.filter _).length_le (h id)

theorem rowsAt_map_rowOf (d id : Datum) (path : String) (es : List IndexEntry) :
    rowsAt (es.map (TableSet.rowOf d)) id path = if same d id then (under path es).map (TableSet.rowOf d) else [] := by
  have hfilter : rowsAt (es.map (TableSet.rowOf d)) id path =
      (es.filter fun e => same d id && e.path = path).map (TableSet.rowOf d) := List.filter_map
  rw [hfilter]
  cases same d id with
  | true => rfl
  | false => simp

/-- A structure that is new to the index may come in with one row of the path. -/
theorem OneRow.add (h : OneRow path rows) {d : Datum} (hnew : ∀ x ∈ rows, same x.id d = false) {es : List IndexEntry}
    (hes : (under path es).length ≤ 1) : OneRow path (rows ++ es.map (TableSet.rowOf d)) := by
  intro id
  have happend : rowsAt (rows ++ es.map (TableSet.rowOf d)) id path =
      rowsAt rows id path ++ rowsAt (es.map (TableSet.rowOf d)) id path := List.filter_append ..
  rw [happend, rowsAt_map_rowOf, List.length_append]
  split
  · rename_i hsame
    have hnone : rowsAt rows id path = [] := List.filter_eq_nil_iff.mpr fun x hx hfound => by
      rw [Bool.and_eq_true, ← same_congr_right hsame, hnew x hx] at hfound
      exact Bool.false_ne_true hfound.1
    rw [hnone, List.length_nil, Nat.zero_add, List.length_map]
    exact hes
  · exact h id

/-- A select over the rows finds those of the id and the path. -/
theorem length_rowsOf (rows : List IndexRow) (id : Datum) (path : String) :
    (rowsOf (rows.map IndexRow.row) id path).length = (rowsAt rows id path).length := by
  have hfilter : rowsOf (rows.map IndexRow.row) id path =
      (rows.filter fun x => same x.id id && (Datum.text x.path == Datum.text path)).map IndexRow.row :=
    List.filter_map
  rw [hfilter, List.length_map, rowsAt]
  refine congrArg List.length (List.filter_congr fun x _ => congrArg (same x.id id && ·) ?_)
  rw [Bool.eq_iff_iff, beq_iff_eq, decide_eq_true_eq, Datum.text.injEq]

end

/-! ### Sets with one row for each member that is not enumerable -/

/-- If it is the set of a schema, it has one index row at most of a structure for each member that is not enumerable. -/
def TableSet.OneRowEach (s : Schema) (t : TableSet) : Prop :=
  folded t.stem = folded s.stem → ∀ m ∈ s.members, m.enumerable = false → OneRow m.path t.indexRows

/-- Whether what a call writes to the set of a schema comes from a document that leads to one scalar at most for each
    member that is not enumerable. -/
def Client.Call.WritesOneEach (s : Schema) : Client.Call → Prop
  | .insert s' _ _ es | .replace s' _ _ es => folded s'.stem = folded s.stem → s'.Builds ∧ ∃ doc, s'.extract doc = .ok es ∧
      ∀ m ∈ s.members, m.enumerable = false → (scalars doc (SchemaBuilder.segments m.path)).length ≤ 1
  | _ => True

section
variable {s s' : Schema} {es : List IndexEntry} {t t' : TableSet} {call : Client.Call}

theorem Client.Call.WritesOneEach.length_under_le (h : call.WritesOneEach s) (hwritten : call.written? = some (s', es))
    (hstem : folded s'.stem = folded s.stem) {m : Member} (hm : m ∈ s.members) (hscalar : m.enumerable = false) :
    (under m.path es).length ≤ 1 := by
  cases call with
  | insert | replace =>
    cases hwritten
    obtain ⟨hs, doc, hes, hone⟩ := h hstem
    exact Nat.le_trans (hs.length_under_le hes m.path) (hone m hm hscalar)
  | deleteMany | deleteInterval =>
    cases hwritten
    exact Nat.zero_le 1
  | _ => cases hwritten

/-- What changes the rows of a set leaves one index row of a path, if it writes no more. -/
theorem TableSet.RowChange.oneRow {added : Option DocId} (hchange : t.RowChange es added t') (howned : t.Owned)
    {path : String} (hes : (under path es).length ≤ 1) (h : OneRow path t.indexRows) : OneRow path t'.indexRows := by
  cases hchange with
  | @insert id payload t₁ t₂ _ hrow hentries =>
    obtain ⟨rfl, hnew⟩ := TableSet.insertRow_eq_ok hrow
    rw [TableSet.insertEntries_eq_ok hentries]
    refine h.add (fun x hx => ?_) hes
    -- an index row is of a structure, and there is none of the new id
    obtain ⟨r, hr, hsame⟩ := howned x hx
    rw [same_comm, ← same_congr_right hsame, same_comm, hnew r hr]
  | @replace id payload t' hfound hentries =>
    rw [TableSet.insertEntries_eq_ok hentries]
    exact (h.sublist List.filter_sublist).add (fun x hx => by simpa using (List.mem_filter.mp hx).2) hes
  | deleteKeys ids => exact h.sublist List.filter_sublist
  | deleteInterval low high => exact h.sublist List.filter_sublist

end

theorem keptShaped_oneRowEach (s : Schema) :
    KeptShaped (fun _ => True) fun t => t.Owned ∧ t.OneRowEach s where
  new hs := ⟨kept_owned.new hs, fun _ _ _ _ _ => Nat.zero_le 1⟩
  index hstem hi ht := ⟨kept_owned.index hstem hi ht.1, ht.2⟩
  stale s' ht := ⟨kept_owned.stale s' ht.1, fun hstem m hm hscalar =>
    (ht.2 hstem m hm hscalar).sublist List.filter_sublist⟩

theorem oneRowEach_keeps (s : Schema) (c : Client) {call : Client.Call} (hcall : call.WritesOneEach s) :
    Step.Keeps (Everywhere fun t => t.Owned ∧ t.OneRowEach s) (c.perform call) := by
  refine everywhere_keeps_of (keptShaped_oneRowEach s) c call.about_all fun hwritten hstem hchange ht => ?_
  refine ⟨kept_owned.rows hchange ht.1, fun hname m hm hscalar => ?_⟩
  rw [hchange.stem] at hname
  exact hchange.oneRow ht.1 (hcall.length_under_le hwritten (hstem.symm.trans hname) hm hscalar) (ht.2 hname m hm hscalar)

/-! ### Stores that are reached -/

/-- A store that is reached from a new one by calls of the lifecycle and of clients, whatever they answer, which write to
    the set of a schema only what comes from documents that lead to one scalar at most for each member that is not
    enumerable. -/
inductive SinglyReached (s : Schema) : Store → Prop
  | opened (location : String) (readOnly : Bool) : SinglyReached s { location, readOnly }
  | manage {st : Store} (h : SinglyReached s st) (c : Store.Call) : SinglyReached s (Store.perform c st).2
  | call {st : Store} (h : SinglyReached s st) (c : Client) {call : Client.Call} (hcall : call.WritesOneEach s) :
      SinglyReached s (c.perform call st).2

section
variable {s : Schema} {st : Store}

theorem SinglyReached.everywhere (h : SinglyReached s st) : Everywhere (fun t => t.Owned ∧ t.OneRowEach s) st := by
  induction h with
  | opened location readOnly => exact ⟨nofun, List.nodup_nil, nofun⟩
  | @manage st h c ih => exact (everywhere_manage c st ih).1
  | @call st h c call hcall ih => exact (oneRowEach_keeps s c hcall st ih).1

theorem SinglyReached.calls (h : SinglyReached s st) {run : List (Client × Client.Call)}
    (hrun : ∀ x ∈ run, x.2.WritesOneEach s) : SinglyReached s (st.after run) :=
  after_keeps (fun x hx => .of_state fun _ hst => hst.call x.1 (hrun x hx)) h

theorem SinglyReached.oneRowEach (h : SinglyReached s st) : s.OneRowEach st.tables := by
  intro m hm hscalar id
  have hall := h.everywhere
  cases hset : st.set? s with
  | none =>
    rw [tables, rowsOf?_indexesTable hall.named, hset]
    exact Nat.zero_le 1
  | some t =>
    rw [tables_indexesTable hall.named hset, length_rowsOf]
    exact (hall.get hset).2 (hall.named.stem hset) m hm hscalar id

end

/-! ### Comparisons of members -/

/-- A document has as many values for a member as scalars at the end of the member's path, so one at most where no array
    lies on the path. If all that is written to a set comes from documents that lead to one scalar at most for each member
    that is not enumerable, then no select inside a condition that compiles finds more than one row. -/
theorem compared_oneValued {s : Schema} (hs : s.Builds) :
    (∀ doc es, s.extract doc = .ok es → ∀ m ∈ s.members,
      (under m.path es).length = (scalars doc (SchemaBuilder.segments m.path)).length ∧
        (Straight (SchemaBuilder.segments m.path) doc → (under m.path es).length ≤ 1)) ∧
      ∀ st, SinglyReached s st →
        (∀ d p f, s.compileFilter d p = .ok f → ∀ c ∈ f.condition, c.OneValued st.tables) ∧
          ∀ d q c, s.compileQuery d q = .ok c → ∀ x ∈ c.statement.filter, x.OneValued st.tables := by
  refine ⟨fun doc es hes m hm => ?_, fun st hst => ⟨fun d p f hf => ?_, fun d q c hc => ?_⟩⟩
  · have hcount := hs.length_under hes hm
    exact ⟨hcount, fun hstraight => hcount ▸ hstraight.length_le_one⟩
  · exact compileFilter_oneValued hst.oneRowEach hf
  · exact compileQuery_oneValued hst.oneRowEach hc

/-- Crates with a weight and the greatest weight that they are made for. -/
def crateSchema : Schema :=
  .ofShape "" "Crate" .identity [⟨"Limit", "Integer", .integer, false, false⟩, ⟨"Weight", "Integer", .integer, false, false⟩]

/-- The crates that are too heavy. -/
def overweight : Predicate := .compareMembers (.new "Weight" .integer) .gt (.new "Limit" .integer)

/-- A crate that weighs ten, with its limit or limits. -/
def crate (limit : Json) : Json := .object [("Limit", limit), ("Weight", .integer 10)]

/-- What a crate with some limits is indexed by. -/
def crateEntries (limits : List Int) : List IndexEntry :=
  limits.map (fun n => ⟨"Limit", .integer, .integer n⟩) ++ [⟨"Weight", .integer, .integer 10⟩]

/-- A store with one crate that has some limits. -/
def crateStore (limits : List Int) : Store :=
  (Store.perform .create {}).2.after
    [({}, .upsert crateSchema), ({}, .insert crateSchema (.identity 1) "crate" (crateEntries limits))]

/-- The weight of a crate with one limit is compared with this one. -/
theorem compared_oneValued_crates :
    crateSchema.Builds ∧ crateSchema.extract (crate (.integer 5)) = .ok (crateEntries [5]) ∧
      (∃ m ∈ crateSchema.members, m.path = "Limit" ∧ Straight (SchemaBuilder.segments m.path) (crate (.integer 5)) ∧
        (under m.path (crateEntries [5])).length ≤ 1) ∧
      SinglyReached crateSchema (crateStore [5]) ∧ ∃ f, crateSchema.compileFilter .sqlite (some overweight) = .ok f ∧
        ∀ c ∈ f.condition, c.OneValued (crateStore [5]).tables := by
  have hbuilds : crateSchema.Builds := Schema.builds_ofShape (by decide) rfl
  have hextract : crateSchema.extract (crate (.integer 5)) = .ok (crateEntries [5]) := rfl
  have hmember : (⟨"Limit", "Integer", .integer, false, false⟩ : Member) ∈ crateSchema.members := List.mem_cons_self
  have hstraight : Straight (SchemaBuilder.segments "Limit") (crate (.integer 5)) := by
    rintro e ⟨⟩
    trivial
  have hreached : SinglyReached crateSchema (crateStore [5]) := by
    refine (SinglyReached.manage (.opened ":memory:" false) .create).calls ?_
    refine List.forall_mem_cons.mpr ⟨trivial, List.forall_mem_singleton.mpr fun _ => ⟨hbuilds, _, hextract, ?_⟩⟩
    decide
  obtain ⟨hvalues, hconditions⟩ := compared_oneValued hbuilds
  obtain ⟨f, hf⟩ : ∃ f, crateSchema.compileFilter .sqlite (some overweight) = .ok f := ⟨_, rfl⟩
  exact ⟨hbuilds, hextract, ⟨_, hmember, rfl, hstraight, (hvalues _ _ hextract _ hmember).2 hstraight⟩, hreached,
    f, hf, (hconditions _ hreached).1 _ _ _ hf⟩

/-- A crate with two limits has two values for a member that is not enumerable, and the select of the limit in a comparison
    finds both. -/
theorem compared_twoValued :
    crateSchema.Builds ∧
      crateSchema.extract (crate (.array [.integer 5, .integer 20])) = .ok (crateEntries [5, 20]) ∧
      (∃ m ∈ crateSchema.members, m.enumerable = false ∧ (under m.path (crateEntries [5, 20])).length = 2) ∧
      ∃ f, crateSchema.compileFilter .sqlite (some overweight) = .ok f ∧
        ∃ c ∈ f.condition, ¬c.OneValued (crateStore [5, 20]).tables := by
  have hmember : (⟨"Limit", "Integer", .integer, false, false⟩ : Member) ∈ crateSchema.members := List.mem_cons_self
  refine ⟨Schema.builds_ofShape (by decide) rfl, rfl, ⟨_, hmember, rfl, rfl⟩, _, rfl, _, rfl, fun hone => ?_⟩
  have hselect := hone _ (List.mem_append_right _ (List.mem_singleton_self _)) [] [(.index 0, fun _ => .integer 1)]
  have hrows : (Sql.Scalar.rows (crateStore [5, 20]).tables [] [(.index 0, fun _ => .integer 1)]
      (firstValue crateSchema ⟨"Limit", "Integer", .integer, false, false⟩ (.right 1) (.index 0))).length = 2 := by
    decide +kernel
  exact absurd (hrows.symm.trans_le hselect) (by decide)

end Store

end DocStore
