import DocStore.Proofs.Payload
import DocStore.Proofs.Store.Guards

/-! Values that are kept unique. A write is refused for its index rows if and only if two of them, or one of them and
    a row of another structure, hold the same value where the set keeps values unique. Where that is the history of the
    type tells; it is at the unique members if no shape before has left others behind. -/

namespace DocStore.Store

open Sql (Datum)

/-! ### Rows that clash -/

/-- Whether two rows hold the same value of a path, in the column of a code. -/
def Clash (g : String × TypeCode) (r r' : IndexRow) : Prop :=
  (r.path = g.1 ∧ r.code = g.2) ∧ (r'.path = g.1 ∧ r'.code = g.2) ∧ same r.value r'.value = true

/-- Whether new rows clash neither with each other nor with rows that are there. -/
def Free (g : String × TypeCode) (rows new : List IndexRow) : Prop :=
  new.Pairwise (fun r r' => ¬Clash g r r') ∧ ∀ r ∈ new, ∀ r' ∈ rows, ¬Clash g r r'

section
variable {g : String × TypeCode} {r r' : IndexRow} {rows new : List IndexRow}

theorem Clash.symm (h : Clash g r r') : Clash g r' r := ⟨h.2.1, h.1, same_comm .. ▸ h.2.2⟩

/-- New rows are added one by one. -/
theorem free_cons : Free g rows (r :: new) ↔ (∀ r' ∈ rows, ¬Clash g r r') ∧ Free g (rows ++ [r]) new := by
  rw [Free, Free, List.pairwise_cons, List.forall_mem_cons]
  constructor
  · rintro ⟨⟨hfirst, hnew⟩, hhead, hrows⟩
    refine ⟨hhead, hnew, fun r₁ hr₁ r₂ hr₂ => ?_⟩
    rcases List.mem_append.mp hr₂ with hr₂ | hr₂
    · exact hrows r₁ hr₁ r₂ hr₂
    · rw [List.mem_singleton.mp hr₂]
      exact fun hclash => hfirst r₁ hr₁ hclash.symm
  · rintro ⟨hhead, hnew, hrows⟩
    refine ⟨⟨fun r₁ hr₁ hclash => ?_, hnew⟩, hhead, fun r₁ hr₁ r₂ hr₂ => ?_⟩
    · exact hrows r₁ hr₁ r (List.mem_append_right _ (List.mem_singleton_self r)) hclash.symm
    · exact hrows r₁ hr₁ r₂ (List.mem_append_left _ hr₂)

namespace TableSet

variable {t : TableSet}

theorem forbids_iff {i : Index} : forbids r i r' = true ↔ ∃ g, i.unique = some g ∧ Clash g r r' := by
  unfold forbids
  cases hunique : i.unique with
  | none => exact iff_of_false Bool.false_ne_true (by rintro ⟨g, ⟨⟩, -⟩)
  | some g =>
    simp only [Bool.and_eq_true, beq_iff_eq, Option.some.injEq, exists_eq_left', Clash, and_assoc]

/-- A row is added if it clashes with none that is there. -/
theorem insertIndexRow_cases (t : TableSet) (r : IndexRow) :
    (∀ g ∈ t.uniques, ∀ r' ∈ t.indexRows, ¬Clash g r r') ∧
        t.insertIndexRow r = .ok { t with indexRows := t.indexRows ++ [r] } ∨
      ∃ g ∈ t.uniques, (∃ r' ∈ t.indexRows, Clash g r r') ∧
        t.insertIndexRow r = .error (.queryFailed (t.notUnique g.2)) := by
  rw [insertIndexRow]
  cases hany : t.indexes.any fun i => t.indexRows.any (forbids r i) with
  | true =>
    obtain ⟨i, hi, hrow⟩ := List.any_eq_true.mp hany
    obtain ⟨r', hr', hforbids⟩ := List.any_eq_true.mp hrow
    obtain ⟨g, hunique, hclash⟩ := forbids_iff.mp hforbids
    refine Or.inr ⟨g, mem_uniques.mpr ⟨i, hi, hunique⟩, ⟨r', hr', hclash⟩, ?_⟩
    rw [if_pos rfl, hclash.1.2]
  | false =>
    refine Or.inl ⟨fun g hg r' hr' hclash => ?_, if_neg Bool.false_ne_true⟩
    obtain ⟨i, hi, hunique⟩ := mem_uniques.mp hg
    have hforbids : forbids r i r' = true := forbids_iff.mpr ⟨g, hunique, hclash⟩
    have hrow : (t.indexes.any fun i => t.indexRows.any (forbids r i)) = true :=
      List.any_eq_true.mpr ⟨i, hi, List.any_eq_true.mpr ⟨r', hr', hforbids⟩⟩
    rw [hany] at hrow
    cases hrow

/-- Entries are added as rows if these clash neither with each other nor with rows that are there. -/
theorem insertEntries_cases (id : Datum) : ∀ (es : List IndexEntry) (t : TableSet),
    (∀ g ∈ t.uniques, Free g t.indexRows (es.map (rowOf id))) ∧ (∃ t', t.insertEntries id es = .ok t') ∨
      ∃ g ∈ t.uniques, ¬Free g t.indexRows (es.map (rowOf id)) ∧
        t.insertEntries id es = .error (.queryFailed (t.notUnique g.2))
  | [], t => Or.inl ⟨fun _ _ => ⟨List.Pairwise.nil, nofun⟩, t, rfl⟩
  | e :: es, t => by
    rw [insertEntries]
    rcases insertIndexRow_cases t (rowOf id e) with ⟨hfree, hone⟩ | ⟨g, hg, ⟨r', hr', hclash⟩, hone⟩ <;>
      rw [rowOf] at hone <;> rw [hone] <;> dsimp only [List.map_cons]
    · rcases insertEntries_cases id es { t with indexRows := t.indexRows ++ [rowOf id e] } with
        ⟨hrest, hok⟩ | ⟨g, hg, hclash, herror⟩
      · exact Or.inl ⟨fun g hg => free_cons.mpr ⟨hfree g hg, hrest g hg⟩, hok⟩
      · exact Or.inr ⟨g, hg, fun hall => hclash (free_cons.mp hall).2, herror⟩
    · exact Or.inr ⟨g, hg, fun hall => (free_cons.mp hall).1 r' hr' hclash, rfl⟩

end TableSet

end

/-! ### Values that clash -/

/-- The values that entries have for a member, as they are stored. -/
def valuesFor (m : Member) (es : List IndexEntry) : List Datum := (es.filter (·.path == m.path)).map (.ofValue ·.value)

/-- Whether two of the values for a member are equal, or one of them is equal to what an index row of another structure
    holds for the member. -/
def TableSet.Clashes (t : TableSet) (id : Datum) (m : Member) (es : List IndexEntry) : Prop :=
  ¬(valuesFor m es).Pairwise (fun a b => same a b = false) ∨
    ∃ d ∈ valuesFor m es, ∃ r ∈ t.indexRows, same r.id id = false ∧ r.path = m.path ∧
      same d (r.row (.value m.code)) = true

/-- The index rows of other structures. -/
def TableSet.othersOf (t : TableSet) (id : Datum) : List IndexRow := t.indexRows.filter fun r => !same r.id id

section
variable {t : TableSet} {id : Datum} {m : Member} {es : List IndexEntry}

theorem clash_rowOf (hcode : ∀ e ∈ es, e.path = m.path → e.code = m.code) {e : IndexEntry} (he : e ∈ es)
    {r : IndexRow} : Clash (m.path, m.code) (TableSet.rowOf id e) r ↔
      e.path = m.path ∧ (r.path = m.path ∧ r.code = m.code) ∧ same (.ofValue e.value) r.value = true := by
  constructor
  · exact fun h => ⟨h.1.1, h.2⟩
  · exact fun h => ⟨⟨h.1, hcode e he h.1⟩, h.2⟩

/-- Rows of entries clash with each other at a member where values for it are equal. -/
theorem pairwise_rowOf_iff (hcode : ∀ e ∈ es, e.path = m.path → e.code = m.code) :
    (es.map (TableSet.rowOf id)).Pairwise (fun r r' => ¬Clash (m.path, m.code) r r') ↔
      (valuesFor m es).Pairwise fun a b => same a b = false := by
  rw [valuesFor, List.pairwise_map, List.pairwise_map, List.pairwise_filter]
  refine List.Pairwise.iff_of_mem fun {e e'} he he' => ?_
  rw [clash_rowOf hcode he, beq_iff_eq, beq_iff_eq, ← Bool.not_eq_true]
  constructor
  · exact fun h hpath hpath' hsame => h ⟨hpath, ⟨hpath', hcode e' he' hpath'⟩, hsame⟩
  · exact fun h hclash => h hclash.1 hclash.2.1.1 hclash.2.2

/-- Rows of entries clash with rows of other structures at a member where these hold the same values for it. -/
theorem clash_others_iff (hcode : ∀ e ∈ es, e.path = m.path → e.code = m.code) :
    (∃ r ∈ es.map (TableSet.rowOf id), ∃ r' ∈ t.othersOf id, Clash (m.path, m.code) r r') ↔
      ∃ d ∈ valuesFor m es, ∃ r ∈ t.indexRows, same r.id id = false ∧ r.path = m.path ∧
        same d (r.row (.value m.code)) = true := by
  constructor
  · rintro ⟨r, hr, r', hr', hclash⟩
    obtain ⟨e, he, rfl⟩ := List.mem_map.mp hr
    obtain ⟨hr', hother⟩ := List.mem_filter.mp hr'
    obtain ⟨hpath, ⟨hpath', hrow⟩, hsame⟩ := (clash_rowOf hcode he).mp hclash
    have hvalue : .ofValue e.value ∈ valuesFor m es :=
      List.mem_map_of_mem (List.mem_filter.mpr ⟨he, beq_iff_eq.mpr hpath⟩)
    refine ⟨_, hvalue, r', hr', Bool.not_eq_true' _ ▸ hother, hpath', ?_⟩
    rw [IndexRow.row, if_pos hrow.symm]
    exact hsame
  · rintro ⟨d, hd, r, hr, hother, hpath, hsame⟩
    obtain ⟨e, he, rfl⟩ := List.mem_map.mp hd
    obtain ⟨he, hmatch⟩ := List.mem_filter.mp he
    have hin : r ∈ t.othersOf id := List.mem_filter.mpr ⟨hr, by rw [hother]; rfl⟩
    refine ⟨_, List.mem_map_of_mem he, r, hin, ?_⟩
    rw [IndexRow.row] at hsame
    split at hsame
    · rename_i hrow
      exact (clash_rowOf hcode he).mpr ⟨beq_iff_eq.mp hmatch, ⟨hpath, hrow.symm⟩, hsame⟩
    · rw [same_null] at hsame
      cases hsame

/-- Rows clash at a member if and only if values for it do. -/
theorem free_iff (hcode : ∀ e ∈ es, e.path = m.path → e.code = m.code) :
    Free (m.path, m.code) (t.othersOf id) (es.map (TableSet.rowOf id)) ↔ ¬t.Clashes id m es := by
  rw [Free, pairwise_rowOf_iff hcode, TableSet.Clashes, ← clash_others_iff hcode, not_or, not_not]
  refine and_congr_right fun _ => ?_
  push Not
  rfl

end

/-! ### Writes of structures -/

/-- A call that writes a structure of a schema with its index entries. -/
def Client.Call.Stores (s : Schema) (id : DocId) (es : List IndexEntry) : Client.Call → Prop
  | .insert s' id' _ es' | .replace s' id' _ es' => s' = s ∧ id' = id ∧ es' = es
  | _ => False

/-- Whether a set takes the structure that a call writes: the id is new to it if the structure is, else it is there. -/
def TableSet.Takes (t : TableSet) : Client.Call → Prop
  | .insert _ id payload _ => ∃ t', t.insertRow (t.idDatum id) payload = .ok t'
  | .replace _ id _ _ => ∃ r ∈ t.rows, t.finds (t.idDatum id) r.id = true
  | _ => False

/-- Whether a write was refused because a value of an index row is there already. -/
def TableSet.Refused (t : TableSet) (r : Except Error Client.Reply) : Prop :=
  ∃ code, r = .error (.store (.queryFailed (t.notUnique code)))

/-- What a write answers that makes a set of the one that was there. -/
def answer (r : Except StoreError TableSet) : Except Error Client.Reply := (r.mapError Error.store).map fun _ => .done

section
variable {s : Schema} {st : Store} {t : TableSet} {c : Client} {call : Client.Call} {id : DocId} {es : List IndexEntry}

/-- Texts that begin with different characters are not the same. -/
theorem append_ne {a b : String} (c c' : Char) {cs cs' : List Char} (ha : a.toList = c :: cs)
    (hb : b.toList = c' :: cs') (hne : c ≠ c') (rest rest' : String) : a ++ rest ≠ b ++ rest' := by
  intro heq
  rw [← String.toList_inj, String.toList_append, String.toList_append, ha, hb] at heq
  exact hne (List.cons.inj heq).1

/-- What is said of an id is not what is said of a value. -/
theorem insertRow_error {d : Datum} {payload : String} {e : StoreError} (h : t.insertRow d payload = .error e)
    (code : TypeCode) : e ≠ .queryFailed (t.notUnique code) := by
  have hmismatch : "datatype mismatch" ≠ t.notUnique code := by
    have hword : "datatype mismatch" = "datatype mismatch" ++ "" := by decide
    unfold TableSet.notUnique
    simp only [String.append_assoc]
    rw [hword]
    exact append_ne 'd' 'U' rfl rfl (by decide) _ _
  have htable : "UNIQUE constraint failed: " ++ t.structureTable ++ "." ++ Sql.Column.id.name ≠ t.notUnique code := by
    unfold TableSet.notUnique TableSet.structureTable TableSet.indexesTable Schema.structureTableOf
      Schema.indexesTableOf
    simp only [String.append_assoc, ne_eq, String.append_right_inj]
    exact append_ne 'S' 'I' rfl rfl (by decide) _ _
  unfold TableSet.insertRow at h
  split at h
  · cases h
    exact fun heq => hmismatch (StoreError.queryFailed.inj heq)
  · cases h
    exact fun heq => hmismatch (StoreError.queryFailed.inj heq)
  · cases h
    exact fun heq => hmismatch (StoreError.queryFailed.inj heq)
  · split at h
    · cases h
      exact fun heq => htable (StoreError.queryFailed.inj heq)
    · cases h

theorem answer_writing {f : Store → Except StoreError (Unit × Store)} (hc : c.closed = false) :
    (((c.guarded (writing f)).map fun _ => Client.Reply.done) st).1 =
      ((f st).mapError Error.store).map fun _ => .done := by
  rw [Step.map_answer, Client.guarded, hc]
  show ((Step.transaction _ st).1).map _ = _
  rw [Step.transaction]
  cases f st <;> rfl

/-- A structure that a set takes is written with its index rows beside those of other structures. -/
theorem answer_of_takes (hc : c.closed = false) (hset : st.set? s = some t) (ht : t.Owned)
    (hcall : call.Stores s id es) (htakes : t.Takes call) : ∃ t₁ : TableSet, t₁.stem = t.stem ∧
      t₁.indexes = t.indexes ∧ t₁.indexRows = t.othersOf (t.idDatum id) ∧
      (c.perform call st).1 = answer (t₁.insertEntries (t.idDatum id) es) := by
  have hput {r : Except StoreError TableSet} : (((r >>= fun t => pure ((), st.putSet t) :
      Except StoreError (Unit × Store)).mapError Error.store).map fun _ => Client.Reply.done) = answer r := by
    cases r <;> rfl
  cases call with
  | insert s' id' payload es' =>
    obtain ⟨rfl, rfl, rfl⟩ := hcall
    obtain ⟨t₁, hrow⟩ := htakes
    obtain ⟨heq, hnew⟩ := TableSet.insertRow_eq_ok hrow
    refine ⟨t₁, by rw [heq], by rw [heq], ?_, ?_⟩
    · rw [heq]
      refine (List.filter_eq_self.mpr fun x hx => ?_).symm
      obtain ⟨r, hr, hsame⟩ := ht x hx
      rw [same_comm, ← same_congr_right hsame, same_comm, hnew r hr]
      rfl
    · refine (answer_writing hc).trans ?_
      rw [structureSet_some hset]
      simp only [bind, Except.bind, hrow]
      exact hput
  | replace s' id' payload es' =>
    obtain ⟨rfl, rfl, rfl⟩ := hcall
    have hfound : (t.rows.any fun r => t.finds (t.idDatum id') r.id) = true := List.any_eq_true.mpr htakes
    refine ⟨(t.withPayload (t.idDatum id') payload).withoutIndexRows (same · (t.idDatum id')), rfl, rfl, rfl, ?_⟩
    refine (answer_writing hc).trans ?_
    rw [structureSet_some hset]
    simp only [bind, Except.bind, hfound]
    exact hput
  | _ => cases hcall

theorem answer_of_not_takes (hc : c.closed = false) (hset : st.set? s = some t) (hcall : call.Stores s id es)
    (htakes : ¬t.Takes call) : ¬t.Refused (c.perform call st).1 ∧ (c.perform call st).1 ≠ .ok .done := by
  cases call with
  | insert s' id' payload es' =>
    obtain ⟨rfl, rfl, rfl⟩ := hcall
    cases hrow : t.insertRow (t.idDatum id') payload with
    | ok t₁ => exact absurd ⟨t₁, hrow⟩ htakes
    | error e =>
      have hanswer : (c.perform (.insert s' id' payload es') st).1 = .error (.store e) := by
        refine (answer_writing hc).trans ?_
        rw [structureSet_some hset]
        simp only [bind, Except.bind, hrow]
        rfl
      rw [hanswer]
      refine ⟨?_, nofun⟩
      rintro ⟨code, heq⟩
      exact insertRow_error hrow code (Error.store.inj (Except.error.inj heq))
  | replace s' id' payload es' =>
    obtain ⟨rfl, rfl, rfl⟩ := hcall
    have hmissing : (t.rows.any fun r => t.finds (t.idDatum id') r.id) = false :=
      Bool.eq_false_iff.mpr fun hfound => htakes (List.any_eq_true.mp hfound)
    have hanswer : (c.perform (.replace s' id' payload es') st).1 =
        .error (.store (.notFound s'.key.text id'.text)) := by
      refine (answer_writing hc).trans ?_
      rw [structureSet_some hset]
      simp only [bind, Except.bind, hmissing]
      rfl
    rw [hanswer]
    exact ⟨by rintro ⟨code, ⟨⟩⟩, nofun⟩
  | _ => cases hcall

end

/-! ### Refused writes -/

section
variable {s : Schema} {st : Store} {t : TableSet} {c : Client} {call : Client.Call} {id : DocId} {doc : Json}
  {es : List IndexEntry}

/-- A clash is one of rows of entries, so it is one at a member if the entries are those of a document. -/
theorem exists_of_not_free {g : String × TypeCode} {rows : List IndexRow} {d : Datum}
    (h : ¬Free g rows (es.map (TableSet.rowOf d))) : ∃ e ∈ es, e.path = g.1 ∧ e.code = g.2 := by
  by_contra hnone
  have hno {r r' : IndexRow} (hr : r ∈ es.map (TableSet.rowOf d)) : ¬Clash g r r' := by
    obtain ⟨e, he, rfl⟩ := List.mem_map.mp hr
    exact fun hclash => hnone ⟨e, he, hclash.1⟩
  exact h ⟨List.pairwise_of_forall_mem_list fun r hr r' _ => hno hr, fun r hr r' _ => hno hr⟩

/-- A write of a document is refused for its index rows if and only if the set takes the structure and values of it
    clash at a member that the set keeps unique; it is done if the set takes the structure and this is not so. -/
theorem refused_iff (hs : s.Builds) (hset : st.set? s = some t) (ht : t.Owned) (hc : c.closed = false)
    (hes : s.extract doc = .ok es) (hcall : call.Stores s id es) :
    (t.Refused (c.perform call st).1 ↔ t.Takes call ∧ ∃ m ∈ s.members, (m.path, m.code) ∈ t.uniques ∧
      t.Clashes (t.idDatum id) m es) ∧
    ((c.perform call st).1 = .ok .done ↔ t.Takes call ∧ ¬t.Refused (c.perform call st).1) := by
  by_cases htakes : t.Takes call
  · have hcode {m : Member} (hm : m ∈ s.members) : ∀ e ∈ es, e.path = m.path → e.code = m.code := by
      intro e he hpath
      obtain ⟨m', hm', hpath', hcode'⟩ := Extraction.mem_entries hes e he
      rw [← hcode', hs.member_unique hm' hm (hpath'.trans hpath)]
    obtain ⟨t₁, hstem, hindexes, hrows, hanswer⟩ := answer_of_takes hc hset ht hcall htakes
    have huniques : t₁.uniques = t.uniques := by rw [TableSet.uniques, TableSet.uniques, hindexes]
    have hmessage (code : TypeCode) : t₁.notUnique code = t.notUnique code := by
      unfold TableSet.notUnique TableSet.indexesTable
      rw [hstem]
    have hcases := TableSet.insertEntries_cases (t.idDatum id) es t₁
    rw [huniques, hrows] at hcases
    rcases hcases with ⟨hfree, t', hok⟩ | ⟨g, hg, hclash, herror⟩
    · have hdone : (c.perform call st).1 = .ok .done := by
        rw [hanswer, hok]
        rfl
      rw [hdone]
      have hnot : ¬t.Refused (.ok .done) := by rintro ⟨code, ⟨⟩⟩
      refine ⟨iff_of_false hnot ?_, iff_of_true rfl ⟨htakes, hnot⟩⟩
      rintro ⟨-, m, hm, hunique, hclashes⟩
      exact (free_iff (hcode hm)).mp (hfree _ hunique) hclashes
    · have hrefused : (c.perform call st).1 = .error (.store (.queryFailed (t.notUnique g.2))) := by
        rw [hanswer, herror, hmessage]
        rfl
      rw [hrefused]
      refine ⟨iff_of_true ⟨g.2, rfl⟩ ⟨htakes, ?_⟩, iff_of_false (by rintro ⟨⟩) fun h => h.2 ⟨g.2, rfl⟩⟩
      obtain ⟨e, he, hpath, hcode'⟩ := exists_of_not_free hclash
      obtain ⟨m, hm, hmpath, hmcode⟩ := Extraction.mem_entries hes e he
      have hmember : (m.path, m.code) = g := Prod.ext (hmpath.trans hpath) (hmcode.trans hcode')
      refine ⟨m, hm, hmember ▸ hg, ?_⟩
      rw [← hmember, free_iff (hcode hm), not_not] at hclash
      exact hclash
  · obtain ⟨hnot, hdone⟩ := answer_of_not_takes hc hset hcall htakes
    exact ⟨iff_of_false hnot fun h => htakes h.1, iff_of_false hdone fun h => htakes h.1⟩

end

/-! ### What a history keeps unique -/

section
variable {k : Key} {st₀ st : Store} {s : Schema} {shapes : List Schema}

/-- After a type was brought to a shape, a write of a document in the shape is refused for its index rows if and only if
    the set takes the structure and one of its values for a member that the history keeps unique equals another of its
    values for the member or a value that an index row of another structure holds for it; it is done if the set takes
    the structure and the write is not refused so. If the history keeps those members of the shape unique that the shape
    declares unique, the members in question are the unique ones. -/
theorem unique_enforced (hnew : New k st₀) (hvacant : Vacant k st₀)
    (h : History (fun _ call => call.shapes = false) k st₀ st (s :: shapes)) (hd : Discerned (s :: shapes)) :
    ∃ t, st.set? s = some t ∧ ∀ {c : Client} {call : Client.Call} {id : DocId} {doc : Json} {es : List IndexEntry},
      c.closed = false → s.extract doc = .ok es → call.Stores s id es →
      (t.Refused (c.perform call st).1 ↔ t.Takes call ∧
        ∃ m ∈ s.members, (m.path, m.code) ∈ guards (s :: shapes) ∧ t.Clashes (t.idDatum id) m es) ∧
      ((c.perform call st).1 = .ok .done ↔ t.Takes call ∧ ¬t.Refused (c.perform call st).1) ∧
      ((∀ m ∈ s.members, m.unique = true ↔ (m.path, m.code) ∈ guards (s :: shapes)) →
        (t.Refused (c.perform call st).1 ↔ t.Takes call ∧
          ∃ m ∈ s.members, m.unique = true ∧ t.Clashes (t.idDatum id) m es)) := by
  obtain ⟨hs, -⟩ := h.built s (List.mem_cons_self ..)
  obtain ⟨t, hset, huniques⟩ := h.uniques hnew hvacant hd
  have ht : t.Owned := ((h.reached hnew).everywhere kept_owned).get hset
  refine ⟨t, hset, fun {c call id doc es} hc hes hcall => ?_⟩
  obtain ⟨hrefused, hdone⟩ := refused_iff hs hset ht hc hes hcall
  rw [huniques] at hrefused
  refine ⟨hrefused, hdone, fun hkept => hrefused.trans (and_congr_right fun _ => ?_)⟩
  refine exists_congr fun m => and_congr_right fun hm => ?_
  rw [hkept m hm]

/-- Users whose addresses are unique, and the same with their ages. -/
def userSchema : Schema := .ofShape "" "User" .identity [⟨"Email", "String", .string, true, false⟩]

def agedUserSchema : Schema :=
  .ofShape "" "User" .identity [⟨"Age", "Integer", .integer, false, false⟩, ⟨"Email", "String", .string, true, false⟩]

/-- An address that is there is refused when ages have been added. -/
theorem unique_enforced_users :
    let c : Client := {}
    let es : List IndexEntry := [⟨"Email", .string, .string "ann@x"⟩]
    let st₀ := (Store.perform .create {}).2
    let st := st₀.after [(c, .upsert userSchema), (c, .insert userSchema (.identity 1) "Ann" es),
      (c, .upsert agedUserSchema)]
    let call := Client.Call.insert agedUserSchema (.identity 2) "Bob" es
    let shapes := [agedUserSchema, userSchema]
    New agedUserSchema.key st₀ ∧ Vacant agedUserSchema.key st₀ ∧
      History (fun _ call => call.shapes = false) agedUserSchema.key st₀ st shapes ∧ Discerned shapes ∧
      (∀ m ∈ agedUserSchema.members, m.unique = true ↔ (m.path, m.code) ∈ guards shapes) ∧
      ∃ t, st.set? agedUserSchema = some t ∧ t.Refused (c.perform call st).1 ∧
        ∃ m ∈ agedUserSchema.members, m.unique = true ∧ t.Clashes (t.idDatum (.identity 2)) m es := by
  intro c es st₀ st call shapes
  have hnew : New agedUserSchema.key st₀ := ⟨.manage (.opened ":memory:" false) .create, rfl, rfl⟩
  have hvacant : Vacant agedUserSchema.key st₀ := fun _ => rfl
  have hrun : (c.perform (.upsert userSchema) st₀).1 = .ok .done ∧
      (c.perform (.upsert agedUserSchema) (st₀.after [(c, .upsert userSchema),
        (c, .insert userSchema (.identity 1) "Ann" es)])).1 = .ok .done ∧
      agedUserSchema.fingerprint ≠ userSchema.fingerprint ∧
      (st.set? agedUserSchema).map (·.stem) = some "User" ∧
      (c.perform call st).1 = .error (.store (.queryFailed "UNIQUE constraint failed: UserIndexes.StringValue")) := by
    decide +kernel
  obtain ⟨hfirst, hlast, hfingerprint, hstem, hanswer⟩ := hrun
  have hbefore : userSchema.Builds := Schema.builds_ofShape (by decide) rfl
  have hafter : agedUserSchema.Builds := Schema.builds_ofShape (by decide) rfl
  have hhistory : History (fun _ call => call.shapes = false) agedUserSchema.key st₀ st shapes :=
    .reshaped hbefore rfl hafter rfl c rfl hfirst hlast
  have hd : Discerned shapes := discerned_of_pairwise (List.pairwise_pair.mpr hfingerprint)
  have hkept : ∀ m ∈ agedUserSchema.members, m.unique = true ↔ (m.path, m.code) ∈ guards shapes := by decide +kernel
  have hextract : agedUserSchema.extract (.object [("Email", .string "ann@x")]) = .ok es := by decide +kernel
  obtain ⟨t, hset, hwrites⟩ := unique_enforced hnew hvacant hhistory hd
  have hstores : call.Stores agedUserSchema (.identity 2) es := ⟨rfl, rfl, rfl⟩
  obtain ⟨-, -, hunique⟩ := hwrites (c := c) rfl hextract hstores
  have hrefused : t.Refused (c.perform call st).1 := by
    rw [hset] at hstem
    have hname : t.stem = "User" := Option.some.inj hstem
    refine ⟨.string, ?_⟩
    unfold TableSet.notUnique TableSet.indexesTable
    rw [hanswer, hname]
    decide
  exact ⟨hnew, hvacant, hhistory, hd, hkept, t, hset, hrefused, ((hunique hkept).mp hrefused).2⟩

/-- Users whose ages and addresses are unique; then ages are texts, unique still, and addresses are not unique. -/
def strictUserSchema : Schema :=
  .ofShape "" "User" .identity [⟨"Age", "Integer", .integer, true, false⟩, ⟨"Email", "String", .string, true, false⟩]

def looseUserSchema : Schema :=
  .ofShape "" "User" .identity [⟨"Age", "String", .string, true, false⟩, ⟨"Email", "String", .string, false, false⟩]

/-- What is written for an age that is a text and an address. -/
def ageAndEmail (age email : String) : List IndexEntry :=
  [⟨"Age", .string, .string age⟩, ⟨"Email", .string, .string email⟩]

/-- The second user of an age is let in, and the second user of an address is refused. -/
theorem unique_left_behind :
    let c : Client := {}
    let es : List IndexEntry := [⟨"Age", .integer, .integer 5⟩, ⟨"Email", .string, .string "ann@x"⟩]
    let st₀ := (Store.perform .create {}).2
    let st := st₀.after [(c, .upsert strictUserSchema), (c, .insert strictUserSchema (.identity 1) "Ann" es),
      (c, .upsert looseUserSchema), (c, .insert looseUserSchema (.identity 2) "Bob" (ageAndEmail "young" "bob@x"))]
    let shapes := [looseUserSchema, strictUserSchema]
    New looseUserSchema.key st₀ ∧ Vacant looseUserSchema.key st₀ ∧
      History (fun _ call => call.shapes = false) looseUserSchema.key st₀ st shapes ∧ Discerned shapes ∧
      (∀ m ∈ looseUserSchema.members, m.unique = true ↔ m.path = "Age") ∧
      (∀ age email, looseUserSchema.extract (.object [("Age", .string age), ("Email", .string email)]) =
        .ok (ageAndEmail age email)) ∧
      (st.set? looseUserSchema).map (·.indexRows) = some [⟨.integer 1, "Age", .integer, .integer 5⟩,
        ⟨.integer 1, "Email", .string, .text "ann@x"⟩, ⟨.integer 2, "Age", .string, .text "young"⟩,
        ⟨.integer 2, "Email", .string, .text "bob@x"⟩] ∧
      (c.perform (.insert looseUserSchema (.identity 3) "Cy" (ageAndEmail "young" "cy@x")) st).1 = .ok .done ∧
      (c.perform (.insert looseUserSchema (.identity 3) "Cy" (ageAndEmail "old" "ann@x")) st).1 =
        .error (.store (.queryFailed "UNIQUE constraint failed: UserIndexes.StringValue")) := by
  intro c es st₀ st shapes
  have hnew : New looseUserSchema.key st₀ := ⟨.manage (.opened ":memory:" false) .create, rfl, rfl⟩
  have hrun : (c.perform (.upsert strictUserSchema) st₀).1 = .ok .done ∧
      (c.perform (.upsert looseUserSchema) (st₀.after [(c, .upsert strictUserSchema),
        (c, .insert strictUserSchema (.identity 1) "Ann" es)])).1 = .ok .done ∧
      looseUserSchema.fingerprint ≠ strictUserSchema.fingerprint ∧
      (st.set? looseUserSchema).map (·.indexRows) = some [⟨.integer 1, "Age", .integer, .integer 5⟩,
        ⟨.integer 1, "Email", .string, .text "ann@x"⟩, ⟨.integer 2, "Age", .string, .text "young"⟩,
        ⟨.integer 2, "Email", .string, .text "bob@x"⟩] ∧
      (c.perform (.insert looseUserSchema (.identity 3) "Cy" (ageAndEmail "young" "cy@x")) st).1 = .ok .done ∧
      (c.perform (.insert looseUserSchema (.identity 3) "Cy" (ageAndEmail "old" "ann@x")) st).1 =
        .error (.store (.queryFailed "UNIQUE constraint failed: UserIndexes.StringValue")) := by
    decide +kernel
  obtain ⟨hfirst, hlast, hfingerprint, hanswers⟩ := hrun
  have hbefore : strictUserSchema.Builds := Schema.builds_ofShape (by decide) rfl
  have hafter : looseUserSchema.Builds := Schema.builds_ofShape (by decide) rfl
  have hhistory : History (fun _ call => call.shapes = false) looseUserSchema.key st₀ st shapes :=
    .write (.reshaped hbefore rfl hafter rfl c rfl hfirst hlast) c rfl
  have hd : Discerned shapes := discerned_of_pairwise (List.pairwise_pair.mpr hfingerprint)
  exact ⟨hnew, fun _ => rfl, hhistory, hd, by decide, fun _ _ => rfl, hanswers⟩

end

end DocStore.Store
