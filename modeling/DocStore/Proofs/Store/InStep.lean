import DocStore.Proofs.Payload
import DocStore.Proofs.Store.Writes

/-! Structures and index rows in step. A set holds the payloads of documents and, of each document, the values that
    were extracted from it; every write changes the two tables of the set together, or neither of them. -/

namespace DocStore.Store

open Sql (Datum)

/-! ### Sets in step -/

namespace TableSet

/-- Every payload is that of a document under its id, the index rows of the id are the values of the document, and
    there are no other index rows. -/
structure InStep (excluded : List String) (s : Schema) (t : TableSet) : Prop where
  documents : ∀ r ∈ t.rows, ∃ id ms es, id.idType = s.idType ∧ r.id = id.datum ∧
    Payload.Describes excluded s id ms r.payload es ∧ t.indexRows.filter (·.id = r.id) = es.map (rowOf r.id)
  owned : ∀ x ∈ t.indexRows, ∃ r ∈ t.rows, r.id = x.id

namespace InStep

variable {excluded : List String} {s : Schema} {t t' : TableSet}

theorem of_empty (hrows : t.rows = []) (hindex : t.indexRows = []) : t.InStep excluded s where
  documents r hr := by
    rw [hrows] at hr
    cases hr
  owned x hx := by
    rw [hindex] at hx
    cases hx

/-- Neither the order of the structures nor the indexes matter. -/
theorem of_same (ht : t.InStep excluded s) (hrows : ∀ r, r ∈ t'.rows ↔ r ∈ t.rows)
    (hindex : t'.indexRows = t.indexRows) : t'.InStep excluded s where
  documents r hr := by
    rw [hindex]
    exact ht.documents r ((hrows r).mp hr)
  owned x hx := by
    rw [hindex] at hx
    obtain ⟨r, hr, heq⟩ := ht.owned x hx
    exact ⟨r, (hrows r).mpr hr, heq⟩

theorem of_members (ht : t.InStep excluded s) {s' : Schema} (htype : s'.idType = s.idType)
    (hmembers : s'.members = s.members) : t.InStep excluded s' where
  documents r hr := by
    obtain ⟨id, ms, es, hid, heq, hdoc, hindex⟩ := ht.documents r hr
    exact ⟨id, ms, es, hid.trans htype.symm, heq, hdoc.of_members hmembers, hindex⟩
  owned := ht.owned

/-- Every index row is of a member and of the member's code. -/
theorem member (ht : t.InStep excluded s) {x : IndexRow} (hx : x ∈ t.indexRows) :
    ∃ m ∈ s.members, m.path = x.path ∧ m.code = x.code := by
  obtain ⟨r, hr, heq⟩ := ht.owned x hx
  obtain ⟨id, ms, es, -, -, hdoc, hindex⟩ := ht.documents r hr
  have hin : x ∈ es.map (rowOf r.id) := by
    rw [← hindex]
    exact List.mem_filter.mpr ⟨hx, decide_eq_true heq.symm⟩
  obtain ⟨e, he, rfl⟩ := List.mem_map.mp hin
  exact hdoc.member he

/-! ### Rows added and taken out -/

/-- A document under a new id comes in with its values. -/
theorem add (ht : t.InStep excluded s) {id : DocId} (hid : id.idType = s.idType)
    (hnew : ∀ r ∈ t.rows, r.id ≠ id.datum) {ms : List (String × Json)} {payload : String} {es : List IndexEntry}
    (hdoc : Payload.Describes excluded s id ms payload es) :
    { t with rows := t.rows ++ [⟨id.datum, payload⟩],
             indexRows := t.indexRows ++ es.map (rowOf id.datum) : TableSet }.InStep excluded s where
  documents r hr := by
    rcases List.mem_append.mp hr with hr | hr
    · obtain ⟨id', ms', es', hid', heq, hdoc', hindex⟩ := ht.documents r hr
      have hothers : (es.map (rowOf id.datum)).filter (·.id = r.id) = [] := by
        rw [List.filter_eq_nil_iff]
        intro x hx
        obtain ⟨e, -, rfl⟩ := List.mem_map.mp hx
        exact decide_eq_true_iff.not.mpr fun heq => hnew r hr heq.symm
      refine ⟨id', ms', es', hid', heq, hdoc', ?_⟩
      rw [List.filter_append, hindex, hothers, List.append_nil]
    · obtain rfl := List.mem_singleton.mp hr
      have hnone : t.indexRows.filter (·.id = id.datum) = [] := by
        rw [List.filter_eq_nil_iff]
        intro x hx
        obtain ⟨r, hr, heq⟩ := ht.owned x hx
        exact decide_eq_true_iff.not.mpr fun hx => hnew r hr (heq.trans hx)
      have hall : (es.map (rowOf id.datum)).filter (·.id = id.datum) = es.map (rowOf id.datum) := by
        rw [List.filter_eq_self]
        intro x hx
        obtain ⟨e, -, rfl⟩ := List.mem_map.mp hx
        exact decide_eq_true rfl
      refine ⟨id, ms, es, hid, rfl, hdoc, ?_⟩
      rw [List.filter_append, hnone, hall, List.nil_append]
  owned x hx := by
    rcases List.mem_append.mp hx with hx | hx
    · obtain ⟨r, hr, heq⟩ := ht.owned x hx
      exact ⟨r, List.mem_append_left _ hr, heq⟩
    · obtain ⟨e, -, rfl⟩ := List.mem_map.mp hx
      exact ⟨_, List.mem_append_right _ (List.mem_singleton_self _), rfl⟩

/-- Structures go with their index rows. -/
theorem without (ht : t.InStep excluded s) {p q : Datum → Bool} (hsame : ∀ r ∈ t.rows, q r.id = p r.id) :
    ((t.withoutIndexRows q).withoutRows p).InStep excluded s where
  documents r hr := by
    obtain ⟨hr, hkept⟩ := List.mem_filter.mp hr
    obtain ⟨id, ms, es, hid, heq, hdoc, hindex⟩ := ht.documents r hr
    refine ⟨id, ms, es, hid, heq, hdoc, ?_⟩
    show (t.indexRows.filter fun x => !q x.id).filter (·.id = r.id) = _
    rw [List.filter_filter, ← hindex]
    refine List.filter_congr fun x _ => ?_
    by_cases hx : x.id = r.id
    · rw [hx, hsame r hr, hkept, Bool.and_true]
    · simp only [hx, decide_false, Bool.false_and]
  owned x hx := by
    obtain ⟨hx, hkept⟩ := List.mem_filter.mp hx
    obtain ⟨r, hr, heq⟩ := ht.owned x hx
    refine ⟨r, List.mem_filter.mpr ⟨hr, ?_⟩, heq⟩
    rw [← hsame r hr, heq]
    exact hkept

/-! ### Writes to one set -/

section
variable (ht : t.InStep excluded s) (hof : t.Of s)
include ht hof

theorem insert {id : DocId} (hid : id.idType = s.idType) {ms : List (String × Json)} {payload : String}
    {es : List IndexEntry} (hdoc : Payload.Describes excluded s id ms payload es) {t₁ t₂ : TableSet}
    (hrow : t.insertRow (t.idDatum id) payload = .ok t₁) (hentries : t₁.insertEntries (t.idDatum id) es = .ok t₂) :
    t₂.InStep excluded s := by
  rw [hof.idDatum hid] at hrow hentries
  obtain ⟨rfl, hnew⟩ := insertRow_eq_ok hrow
  rw [insertEntries_eq_ok hentries]
  refine ht.add hid (fun r hr heq => ?_) hdoc
  have hsame := hnew r hr
  rw [(hof.same_iff hr hid).mpr heq] at hsame
  cases hsame

/-- A replaced structure is taken out with its index rows and comes in again. -/
theorem replace {id : DocId} (hid : id.idType = s.idType) {ms : List (String × Json)} {payload : String}
    {es : List IndexEntry} (hdoc : Payload.Describes excluded s id ms payload es)
    (hfound : ∃ r ∈ t.rows, t.finds (t.idDatum id) r.id = true)
    (hentries : ((t.withPayload (t.idDatum id) payload).withoutIndexRows (same · (t.idDatum id))).insertEntries
      (t.idDatum id) es = .ok t') : t'.InStep excluded s := by
  obtain ⟨r₀, hr₀, hfinds⟩ := hfound
  rw [hof.finds_iff hr₀ hid] at hfinds
  rw [hof.idDatum hid] at hentries
  rw [insertEntries_eq_ok hentries]
  have hrest := ht.without (p := (same · id.datum)) (q := (same · id.datum)) fun _ _ => rfl
  have hmem : ∀ r, r ∈ ((t.withoutIndexRows (same · id.datum)).withoutRows (same · id.datum)).rows ↔
      r ∈ t.rows ∧ r.id ≠ id.datum := by
    intro r
    refine List.mem_filter.trans (and_congr_right fun hr => ?_)
    show (!same r.id id.datum) = true ↔ _
    rw [Bool.not_eq_true', Bool.eq_false_iff, ne_eq, hof.same_iff hr hid]
  refine (hrest.add hid (fun r hr => ((hmem r).mp hr).2) hdoc).of_same (fun r => ?_) rfl
  show r ∈ t.rows.map _ ↔ r ∈ ((t.withoutIndexRows _).withoutRows _).rows ++ [_]
  rw [List.mem_append, hmem, List.mem_singleton, List.mem_map]
  constructor
  · rintro ⟨r', hr', rfl⟩
    by_cases heq : r'.id = id.datum
    · rw [if_pos ((hof.same_iff hr' hid).mpr heq), heq]
      exact Or.inr rfl
    · rw [if_neg ((hof.same_iff hr' hid).not.mpr heq)]
      exact Or.inl ⟨hr', heq⟩
  · rintro (⟨hr, hne⟩ | rfl)
    · exact ⟨r, hr, if_neg ((hof.same_iff hr hid).not.mpr hne)⟩
    · exact ⟨r₀, hr₀, by rw [if_pos ((hof.same_iff hr₀ hid).mpr hfinds), hfinds]⟩

theorem deleteMany {ids : List DocId} (hids : ∀ id ∈ ids, id.idType = s.idType) :
    ((t.withoutIndexRows fun d => (ids.map t.idDatum).any (same d)).withoutRows
      (t.findsAny (ids.map t.idDatum))).InStep excluded s := by
  refine ht.without fun r hr => ?_
  rw [Bool.eq_iff_iff, hof.findsAny_iff hr hids, List.any_map, List.any_eq_true]
  refine exists_congr fun id => and_congr_right fun hin => ?_
  rw [Function.comp_apply, hof.idDatum (hids id hin), hof.same_iff hr (hids id hin)]

end

/-- No index row is left over from members that the type no longer has. -/
theorem withoutStale (ht : t.InStep excluded s) : t.withoutStale s = t := by
  have hall : t.indexRows.filter (fun x => s.members.any (·.path == x.path)) = t.indexRows := by
    refine List.filter_eq_self.mpr fun x hx => ?_
    obtain ⟨m, hm, hpath, -⟩ := ht.member hx
    exact List.any_eq_true.mpr ⟨m, hm, beq_iff_eq.mpr hpath⟩
  rw [TableSet.withoutStale, hall]

end InStep

end TableSet

/-! ### Stores in step -/

/-- A type whose members stay the same. -/
def Fixed (types : Schema → Prop) (s : Schema) : Prop := ∀ s', types s' → s'.key = s.key → s'.members = s.members

/-- Every set of a type of fixed members is in step. -/
def Indexed (types : Schema → Prop) (excluded : List String) (st : Store) : Prop :=
  ∀ e ∈ st.sets, ∀ s, types s → Fixed types s → folded s.stem = e.1 → e.2.InStep excluded s

/-- Every set belongs to the type that has its name, and is in step if the members of the type are fixed. -/
structure InStep (types : Schema → Prop) (excluded : List String) (st : Store) : Prop where
  filed : st.Filed types
  indexed : st.Indexed types excluded

section
variable {types : Schema → Prop} {excluded : List String} {st st' : Store}

theorem Indexed.of (h : st.Indexed types excluded) {s : Schema} (hs : types s) (hfixed : Fixed types s) {t : TableSet}
    (hset : st.set? s = some t) : t.InStep excluded s :=
  h (folded s.stem, t) (Assoc.mem_of_get? hset) s hs hfixed rfl

theorem Indexed.mono (h : st.Indexed types excluded) (hsets : ∀ e ∈ st'.sets, e ∈ st.sets) :
    st'.Indexed types excluded :=
  fun e he => h e (hsets e he)

theorem Indexed.of_sets (h : st.Indexed types excluded) (hsets : st'.sets = st.sets) : st'.Indexed types excluded :=
  h.mono fun _ he => hsets ▸ he

theorem inStep_of_empty (h : st.sets = []) : st.InStep types excluded := by
  constructor <;> intro e he <;> rw [h] at he <;> cases he

variable (ha : Apart types) {s : Schema} (hs : types s)
include ha hs

theorem Indexed.putSet (h : st.Indexed types excluded) {t : TableSet} (hstem : folded t.stem = folded s.stem)
    (ht : Fixed types s → t.InStep excluded s) : (st.putSet t).Indexed types excluded := by
  intro e he s' hs' hfixed hname
  rcases Assoc.mem_insert he with rfl | hin
  · have hkey : s'.key = s.key := (ha.stem hs' hs).mpr (hname.trans hstem)
    -- the members of the one type are fixed, so those of the other schema of the same type are
    have hmembers : s'.members = s.members := (hfixed s hs hkey.symm).symm
    have hfixed' : Fixed types s := fun s'' hs'' hkey'' =>
      (hfixed s'' hs'' (hkey''.trans hkey.symm)).trans hmembers
    exact (ht hfixed').of_members (ha.idType hs' hs hkey) hmembers
  · exact h e hin s' hs' hfixed hname

/-! ### Writes -/

omit ha hs in
/-- A write that leaves the sets in step, if it is accepted, leaves the store in step. -/
theorem Writes.keeps {key : Key} {lost : DocId → Prop} {α : Type} {m : Do α} (hw : Writes types key lost m)
    (h : ∀ {st st' : Store} {a : α}, st.InStep types excluded → m st = (.ok a, st') → st'.Indexed types excluded) :
    Step.Keeps (InStep types excluded) m := by
  refine .of_state fun st hst => ?_
  cases hrun : m st with
  | mk r st' =>
    cases r with
    | error e =>
      rw [hw.error hrun]
      exact hst
    | ok a => exact ⟨(hw.ok hst.filed hrun).filed, h hst hrun⟩

theorem insert_keeps {id : DocId} (hid : id.idType = s.idType) {ms : List (String × Json)} {payload : String}
    {es : List IndexEntry} (hdoc : Payload.Describes excluded s id ms payload es) :
    Step.Keeps (InStep types excluded) (insert s id payload es) := by
  refine (insert_writes ha hs hid payload es).keeps fun hst h => ?_
  obtain ⟨t, t₁, t₂, hset, hrow, hentries, rfl⟩ := insert_eq_ok h
  have hof := hst.filed.of hs hset
  have hsame := TableSet.insertEntries_sameRows hentries
  have hstem : t₂.stem = t.stem := by rw [hsame.stem, (TableSet.insertRow_eq_ok hrow).1]
  refine hst.indexed.putSet ha hs (hstem ▸ hof.stem) fun hfixed => ?_
  exact (hst.indexed.of hs hfixed hset).insert hof hid hdoc hrow hentries

theorem replace_keeps {id : DocId} (hid : id.idType = s.idType) {ms : List (String × Json)} {payload : String}
    {es : List IndexEntry} (hdoc : Payload.Describes excluded s id ms payload es) :
    Step.Keeps (InStep types excluded) (replace s id payload es) := by
  refine (replace_writes ha hs hid payload es).keeps fun hst h => ?_
  obtain ⟨t, t', hset, hfound, hentries, rfl⟩ := replace_eq_ok h
  have hof := hst.filed.of hs hset
  have hstem : t'.stem = t.stem := (TableSet.insertEntries_sameRows hentries).stem
  refine hst.indexed.putSet ha hs (hstem ▸ hof.stem) fun hfixed => ?_
  exact (hst.indexed.of hs hfixed hset).replace hof hid hdoc hfound hentries

theorem deleteChunk_inStep (hst : st.InStep types excluded) {ids : List DocId} (hids : ∀ id ∈ ids, id.idType = s.idType)
    {n : Nat} (h : deleteChunk s st ids = .ok (n, st')) : st'.InStep types excluded := by
  refine ⟨(deleteChunk_wrote ha hs hst.filed hids h).filed, ?_⟩
  obtain ⟨t, _, hset, rfl, rfl⟩ := deleteChunk_eq_ok h
  have hof := hst.filed.of hs hset
  exact hst.indexed.putSet ha hs hof.stem fun hfixed => (hst.indexed.of hs hfixed hset).deleteMany hof hids

theorem deleteChunks_inStep : ∀ {parts : List (List DocId)} {st st' : Store} {n : Nat}, st.InStep types excluded →
    (∀ ids ∈ parts, ∀ id ∈ ids, id.idType = s.idType) → deleteChunks s st parts = .ok (n, st') →
    st'.InStep types excluded
  | [], _, _, _, hst, _, h => by
    cases h
    exact hst
  | ids :: parts, st, st', n, hst, hids, h => by
    obtain ⟨n₁, n₂, st₁, hone, hrest⟩ := deleteChunks_cons_eq_ok h
    have hst₁ := deleteChunk_inStep ha hs hst (hids ids (List.mem_cons_self ..)) hone
    exact deleteChunks_inStep hst₁ (fun ids hin => hids ids (List.mem_cons_of_mem _ hin)) hrest

theorem deleteMany_keeps {ids : List DocId} (hids : ∀ id ∈ ids, id.idType = s.idType) :
    Step.Keeps (InStep types excluded) (deleteMany s ids) := by
  refine (deleteMany_writes ha hs hids).keeps fun hst h => ?_
  refine (deleteChunks_inStep ha hs hst (fun part hpart id hin => hids id ?_) (writing_eq_ok h)).indexed
  rw [← flatten_chunks 499 ids]
  exact List.mem_flatten.mpr ⟨part, hpart, hin⟩

theorem deleteInterval_keeps (low high : DocId) : Step.Keeps (InStep types excluded) (deleteInterval s low high) := by
  refine (deleteInterval_writes ha hs low high).keeps fun hst h => ?_
  obtain ⟨t, p, hset, -, rfl⟩ := deleteInterval_eq_ok h
  refine hst.indexed.putSet ha hs (hst.filed.of hs hset).stem fun hfixed => ?_
  exact (hst.indexed.of hs hfixed hset).without fun _ _ => rfl

omit ha hs in
theorem Client.reserve_keeps (c : Client) (s : Schema) (count : Nat) :
    Step.Keeps (InStep types excluded) (c.reserve s count) := by
  refine .bind (.checked _) fun _ _ => ?_
  have hreserve : Step.Keeps (InStep types excluded) (Store.reserve s count) :=
    (Store.reserve_writes s count).keeps fun hst h => hst.indexed.of_sets (reserve_sets h)
  rw [Client.guarded]
  split
  · exact .fail _
  · exact hreserve

/-! ### Shapes -/

theorem withTables_inStep (hst : st.InStep types excluded) (h : withTables s st = .ok st') :
    st'.InStep types excluded := by
  refine ⟨(withTables_wrote ha hs hst.filed h).filed, ?_⟩
  rcases withTables_eq_ok h with ⟨rfl, -⟩ | ⟨-, rfl⟩
  · exact hst.indexed
  · exact hst.indexed.putSet ha hs rfl fun _ => .of_empty rfl rfl

theorem ensureIndexes_inStep : ∀ {is : List Index} {st st' : Store}, st.InStep types excluded →
    is.foldlM (ensureIndex s) st = .ok st' → st'.InStep types excluded
  | [], _, _, hst, h => by
    cases h
    exact hst
  | i :: is, st, st', hst, h => by
    rw [List.foldlM_cons] at h
    obtain ⟨st₁, hone, hrest⟩ := bind_eq_ok.mp h
    refine ensureIndexes_inStep ⟨(ensureIndex_wrote ha hs hst.filed hone).filed, ?_⟩ hrest
    rcases ensureIndex_eq_ok hone with rfl | ⟨t, indexes, hset, rfl⟩
    · exact hst.indexed
    · refine hst.indexed.putSet ha hs (hst.filed.of hs hset).stem fun hfixed => ?_
      exact (hst.indexed.of hs hfixed hset).of_same (fun _ => Iff.rfl) rfl

theorem shaped_indexed (hst : st.InStep types excluded) (h : shaped s st = .ok st') : st'.Indexed types excluded := by
  obtain ⟨st₁, st₂, htables, hindexes, h⟩ := shaped_eq_ok h
  have hst₂ := ensureIndexes_inStep ha hs (withTables_inStep ha hs hst htables) hindexes
  rcases h with ⟨-, rfl⟩ | ⟨t, hset, rfl⟩
  · exact hst₂.indexed
  · refine hst₂.indexed.putSet ha hs (hst₂.filed.of hs hset).stem fun hfixed => ?_
    have ht := hst₂.indexed.of hs hfixed hset
    rwa [ht.withoutStale]

theorem upsert_keeps : Step.Keeps (InStep types excluded) (upsert s) := by
  refine (upsert_writes ha hs).keeps fun hst h => ?_
  obtain ⟨b, -, ⟨-, rfl⟩ | ⟨st₁, hshaped, rfl⟩⟩ := upsert_eq_ok h
  · exact hst.indexed
  · exact (shaped_indexed ha hs hst hshaped).of_sets rfl

theorem drop_keeps : Step.Keeps (InStep types excluded) (drop s) :=
  (drop_writes ha hs).keeps fun hst h => hst.indexed.mono fun _ he => (List.mem_filter.mp (drop_sets h ▸ he)).1

end

/-! ### The database -/

section
variable {types : Schema → Prop} {excluded : List String}

theorem perform_keeps (c : Call) : Step.Keeps (InStep types excluded) (perform c) :=
  manage_keeps_of (fun _ hst => ⟨hst.filed, hst.indexed⟩)
    (fun _ hst => ⟨hst.filed.emptied, hst.indexed.mono fun _ he => (List.mem_filter.mp he).1⟩) c

end

end DocStore.Store
