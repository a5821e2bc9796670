import DocStore.Proofs.Store.Uniqueness

/-! What becomes of an insertion. An insertion under an id that is stored is refused; one under a new id is done if its
    values clash with nothing, and then the rows of the structure stand behind those that were there. -/

namespace DocStore.Store

open Sql (Datum)

/-! ### Rows that clash with nothing -/

section
variable {g : String × TypeCode} {rows new new' : List IndexRow} {s : Schema} {t : TableSet} {es : List IndexEntry}

theorem free_append : Free g rows (new ++ new') ↔ Free g rows new ∧ Free g (rows ++ new) new' := by
  induction new generalizing rows with
  | nil =>
    rw [List.append_nil, List.nil_append]
    exact (and_iff_right ⟨List.Pairwise.nil, nofun⟩).symm
  | cons r new ih =>
    rw [List.cons_append, free_cons, free_cons, ih, and_assoc, List.append_assoc]
    rfl

/-- Whose rows they are does not matter. -/
theorem free_rowOf (d d' : Datum) :
    Free g rows (es.map (TableSet.rowOf d)) ↔ Free g rows (es.map (TableSet.rowOf d')) := by
  rw [Free, Free, List.pairwise_map, List.pairwise_map, List.forall_mem_map, List.forall_mem_map]
  rfl

theorem free_beside_rowOf (d d' : Datum) :
    Free g (rows ++ es.map (TableSet.rowOf d)) new ↔ Free g (rows ++ es.map (TableSet.rowOf d')) new := by
  rw [Free, Free]
  refine and_congr_right fun _ => forall₂_congr fun r _ => ?_
  rw [List.forall_mem_append, List.forall_mem_append, List.forall_mem_map, List.forall_mem_map]
  rfl

/-- Values that clash at no member are free of clashes wherever a set keeps values unique. -/
theorem free_of_not_clashes (hs : s.Builds) (hes : ∀ e ∈ es, ∃ m ∈ s.members, m.path = e.path ∧ m.code = e.code)
    (h : ∀ m ∈ s.members, (m.path, m.code) ∈ t.uniques → ¬t.Clashes .null m es) :
    ∀ g ∈ t.uniques, Free g t.indexRows (es.map (TableSet.rowOf .null)) := by
  intro g hg
  by_contra hclash
  obtain ⟨e, he, hpath, hcode⟩ := exists_of_not_free hclash
  obtain ⟨m, hm, hmpath, hmcode⟩ := hes e he
  have hmember : (m.path, m.code) = g := Prod.ext (hmpath.trans hpath) (hmcode.trans hcode)
  have hcodes : ∀ e ∈ es, e.path = m.path → e.code = m.code := by
    intro e he hpath
    obtain ⟨m', hm', hpath', hcode'⟩ := hes e he
    rw [← hcode', hs.member_unique hm' hm (hpath'.trans hpath)]
  -- no row is of a structure without an id
  have hothers : t.othersOf .null = t.indexRows :=
    List.filter_eq_self.mpr fun r _ => by rw [same_null]; rfl
  have hfree : Free (m.path, m.code) (t.othersOf .null) (es.map (TableSet.rowOf .null)) :=
    (free_iff hcodes).mpr (h m hm (hmember ▸ hg))
  rw [hothers, hmember] at hfree
  exact hclash hfree

end

/-! ### Insertions -/

namespace TableSet

/-- What is said of an id that is there. -/
def notNew (t : TableSet) : String := "UNIQUE constraint failed: " ++ t.structureTable ++ "." ++ Sql.Column.id.name

/-- The set with a structure and its index rows behind those that were there. -/
def written (t : TableSet) (id : DocId) (payload : String) (es : List IndexEntry) : TableSet :=
  { t with rows := t.rows ++ [⟨id.datum, payload⟩], indexRows := t.indexRows ++ es.map (rowOf id.datum) }

end TableSet

section
variable {s : Schema} {st : Store} {t : TableSet} (ht : t.Of s) {id : DocId} (hid : id.idType = s.idType)
  {payload : String} {es : List IndexEntry}
include ht hid

theorem any_same_iff : (t.rows.any fun r => same r.id id.datum) = (t.payload? id).isSome := by
  rw [Bool.eq_iff_iff, List.any_eq_true, TableSet.payload?, Option.isSome_map, List.find?_isSome]
  refine exists_congr fun r => and_congr_right fun hr => ?_
  rw [ht.same_iff hr hid, decide_eq_true_iff]

theorem insertRow_of : t.insertRow (t.idDatum id) payload =
    if (t.payload? id).isSome then .error (.queryFailed t.notNew)
    else .ok { t with rows := t.rows ++ [⟨id.datum, payload⟩] } := by
  rw [ht.idDatum hid, TableSet.insertRow.eq_def]
  split
  -- the column takes the ids of the type
  · rename_i hnull
    cases id <;> cases hnull
  · rename_i hreal
    cases id <;> cases hreal
  · rename_i hinteger htext
    rw [ht.affinity, ← hid] at hinteger
    cases id with
    | identity | bigIdentity => cases htext
    | guid | string => cases hinteger
  · rw [any_same_iff ht hid]
    rfl

theorem insert_taken (hset : st.set? s = some t) (htaken : (t.payload? id).isSome = true) :
    insert s id payload es st = (.error (.store (.queryFailed t.notNew)), st) := by
  rw [insert, writing, Step.transaction, structureSet_some hset]
  simp only [bind, Except.bind, insertRow_of ht hid, htaken, if_true]
  rfl

theorem insert_new (hset : st.set? s = some t) (hnew : t.payload? id = none)
    (hfree : ∀ g ∈ t.uniques, Free g t.indexRows (es.map (TableSet.rowOf .null))) :
    insert s id payload es st = (.ok (), st.putSet (t.written id payload es)) := by
  have hrow : t.insertRow (t.idDatum id) payload = .ok { t with rows := t.rows ++ [⟨id.datum, payload⟩] } := by
    rw [insertRow_of ht hid, hnew]
    rfl
  obtain ⟨t', hentries⟩ : ∃ t', ({ t with rows := t.rows ++ [⟨id.datum, payload⟩] } : TableSet).insertEntries
      (t.idDatum id) es = .ok t' := by
    rcases TableSet.insertEntries_cases (t.idDatum id) es { t with rows := t.rows ++ [⟨id.datum, payload⟩] } with
      ⟨-, hok⟩ | ⟨g, hg, hclash, -⟩
    · exact hok
    · exact absurd ((free_rowOf .null _).mp (hfree g hg)) hclash
  have hwritten : t' = t.written id payload es := by
    rw [TableSet.insertEntries_eq_ok hentries, ht.idDatum hid]
    rfl
  rw [insert, writing, Step.transaction, structureSet_some hset]
  simp only [bind, Except.bind, hrow, hentries]
  rw [hwritten]
  rfl

theorem written_of (hnew : t.payload? id = none) : (t.written id payload es).Of s := by
  have hrow : t.insertRow (t.idDatum id) payload = .ok { t with rows := t.rows ++ [⟨id.datum, payload⟩] } := by
    rw [insertRow_of ht hid, hnew]
    rfl
  have hsame : TableSet.SameRows { t with rows := t.rows ++ [⟨id.datum, payload⟩] } (t.written id payload es) :=
    ⟨rfl, rfl, rfl⟩
  exact hsame.of (ht.insertRow hid hrow).1

omit ht in
theorem payload?_written (hnew : t.payload? id = none) {id' : DocId} (hid' : id'.idType = s.idType) :
    (t.written id payload es).payload? id' = if id' = id then some payload else t.payload? id' := by
  rw [TableSet.payload?, TableSet.written, List.find?_append, TableSet.payload?]
  split
  · rename_i heq
    subst heq
    rw [TableSet.payload?, Option.map_eq_none_iff] at hnew
    rw [hnew]
    simp
  · rename_i hne
    have hother : ¬id.datum = id'.datum := fun heq => hne (DocId.datum_inj (hid.trans hid'.symm) heq).symm
    simp [hother]

end

end DocStore.Store
