import DocStore.Proofs.DocId.Order
import DocStore.Proofs.Schema.Built
import DocStore.Proofs.Store.Legible

/-! The order of ids in a store. As long as the types keep the type of their ids and structures are inserted under ids of
    it that can be read back, what a set holds is told by the list of its ids with their payloads in the order of the
    ids: all reads by that order go through this list, and an interval of ids is what lies between its bounds. -/

namespace DocStore

open Sql (Datum Affinity)

/-- Whether an id lies between two others, which count. -/
def DocId.between (low high id : DocId) : Bool := compare low id != .gt && compare id high != .gt

namespace Store

/-! ### Stores with legible ids -/

/-- A store that is reached from a new one by calls of the lifecycle and by calls of clients about some types, whatever
    they answer, none of which inserts under an id that is not one of its type or cannot be read back. -/
inductive LegiblyReached (types : Schema → Prop) : Store → Prop
  | opened (location : String) (readOnly : Bool) : LegiblyReached types { location, readOnly }
  | manage {st : Store} (h : LegiblyReached types st) (c : Store.Call) : LegiblyReached types (Store.perform c st).2
  | call {st : Store} (h : LegiblyReached types st) (c : Client) {call : Client.Call} (habout : call.About types)
      (hadds : call.AddsLegible types) : LegiblyReached types (c.perform call st).2

theorem eq_null_of_compare {d : Datum} (h : compare .null d = .eq) : d = .null := by
  cases d with
  | null => rfl
  | integer n | real x | text s => cases h

theorem kept_keyed : Kept TableSet.Keyed where
  new _ := List.Pairwise.nil
  index _ _ ht := ht
  stale _ ht := ht
  rows {es added t t'} hchange ht := by
    cases hchange with
    | @insert id payload t₁ t' _ hrow hentries =>
      obtain ⟨rfl, hnew⟩ := TableSet.insertRow_eq_ok hrow
      rw [TableSet.Keyed, (TableSet.insertEntries_sameRows hentries).rows]
      refine List.pairwise_append.mpr ⟨ht, List.pairwise_singleton .., ?_⟩
      rintro r hr r' hr' heq
      rw [List.mem_singleton.mp hr'] at heq
      -- an id equal to the new one would have refused it
      have hnull : r.id ≠ .null := by
        rintro hnull
        rw [hnull] at heq
        exact idDatum_ne_null t id (eq_null_of_compare heq)
      have hsame : same r.id (t.idDatum id) = true := by
        rw [Datum.same_eq_stands, Datum.stands_eq]
        exact ⟨hnull, idDatum_ne_null t id, heq⟩
      rw [hnew r hr] at hsame
      cases hsame
    | @replace id payload t' hfound hentries =>
      rw [TableSet.Keyed, (TableSet.insertEntries_sameRows hentries).rows]
      refine List.pairwise_map.mpr (ht.imp fun {a b} hne => ?_)
      have hid (r : StructureRow) :
          (if same r.id (t.idDatum id) then { r with payload := payload } else r : StructureRow).id = r.id := by
        split <;> rfl
      rw [hid, hid]
      exact hne
    | deleteKeys ids => exact ht.sublist List.filter_sublist
    | deleteInterval low high => exact ht.sublist List.filter_sublist

section
variable {types : Schema → Prop} {st : Store}

theorem LegiblyReached.reached (h : LegiblyReached types st) : Reached types st := by
  induction h with
  | opened location readOnly => exact .opened location readOnly
  | manage h c ih => exact .manage ih c
  | call h c habout hadds ih => exact .call ih c habout

theorem LegiblyReached.legible (ha : Apart types) (h : LegiblyReached types st) :
    Everywhere (TableSet.Legible types) st := by
  induction h with
  | opened location readOnly => exact ⟨nofun, List.nodup_nil, nofun⟩
  | @manage st h c ih => exact (everywhere_manage c st ih).1
  | @call st h c call habout hadds ih => exact (legible_keeps ha c call habout hadds st ih).1

theorem LegiblyReached.calls (h : LegiblyReached types st) {run : List (Client × Client.Call)}
    (hrun : ∀ x ∈ run, x.2.About types ∧ x.2.AddsLegible types) : LegiblyReached types (st.after run) :=
  after_keeps (fun x hx => .of_state fun _ hst => hst.call x.1 (hrun x hx).1 (hrun x hx).2) h

theorem LegiblyReached.of (ha : Apart types) (h : LegiblyReached types st) {s : Schema} (hs : types s) {t : TableSet}
    (hset : st.set? s = some t) : t.Of s := by
  have hstem : folded t.stem = folded s.stem := (h.legible ha).named.stem hset
  obtain ⟨haffinity, hids⟩ := (h.legible ha).get hset s hs hstem
  refine ⟨hstem, haffinity, fun r hr => ?_, (h.reached.everywhere kept_keyed).get hset⟩
  obtain ⟨id, htype, -, hid⟩ := hids r hr
  exact ⟨id, htype, hid⟩

end

/-! ### What a set holds, in the order of the ids -/

/-- The row of an id with its payload. -/
def StructureRow.of (e : DocId × String) : StructureRow := ⟨e.1.datum, e.2⟩

/-- A set that holds some ids with their payloads, listed in the order of the ids. -/
structure TableSet.Lists (s : Schema) (t : TableSet) (listed : List (DocId × String)) : Prop where
  rows : (listed.map StructureRow.of).Perm t.rows
  ids : ∀ e ∈ listed, e.1.idType = s.idType ∧ e.1.Readable
  ascending : listed.Pairwise fun a b => compare a.1 b.1 = .lt

theorem filter_admits (rows : List StructureRow) : rows.filter (fun r => ({} : Query).admits [] r.id) = rows :=
  List.filter_true _

/-- A query that asks for nothing but the rows answers with them in the order of the ids. -/
theorem ordered_byId (rows : List StructureRow) : ({} : Query).ordered [] rows = byId rows := by
  rw [Query.ordered, filter_admits]
  rfl

/-- Rows that ascend are the rows in the order of the ids. -/
theorem byId_eq {rows sorted : List StructureRow} (hperm : sorted.Perm rows)
    (hlt : sorted.Pairwise fun a b => compare a.id b.id = .lt) : byId rows = sorted := by
  let t : TableSet := { stem := "", affinity := .text, rows }
  have hkeyed : t.Keyed := by
    refine hperm.pairwise (hlt.imp fun {a b} hab heq => ?_) compare_ne_symm
    rw [hab] at heq
    cases heq
  have hall : sorted.Perm (t.rows.filter fun r => ({} : Query).admits [] r.id) := by rwa [filter_admits]
  rw [ordered_unique hkeyed hall hlt, ordered_byId]

theorem exists_listed {rows : List StructureRow} {ty : IdType}
    (h : ∀ r ∈ rows, ∃ id : DocId, id.idType = ty ∧ id.Readable ∧ r.id = id.datum) :
    ∃ listed : List (DocId × String), listed.map StructureRow.of = rows ∧
      ∀ e ∈ listed, e.1.idType = ty ∧ e.1.Readable := by
  induction rows with
  | nil => exact ⟨[], rfl, nofun⟩
  | cons r rows ih =>
    obtain ⟨hfirst, hrest⟩ := List.forall_mem_cons.mp h
    obtain ⟨id, htype, hback, hid⟩ := hfirst
    obtain ⟨listed, hrows, hids⟩ := ih hrest
    refine ⟨(id, r.payload) :: listed, ?_, List.forall_mem_cons.mpr ⟨⟨htype, hback⟩, hids⟩⟩
    rw [List.map_cons, hrows, StructureRow.of, ← hid]

/-- A set of a type whose ids can be read back lists them. -/
theorem TableSet.Of.exists_lists {s : Schema} {t : TableSet} (ht : t.Of s)
    (hids : ∀ r ∈ t.rows, ∃ id : DocId, id.idType = s.idType ∧ id.Readable ∧ r.id = id.datum) :
    ∃ listed, t.Lists s listed := by
  have hperm : (byId t.rows).Perm t.rows := List.mergeSort_perm _ _
  have hsorted : (byId t.rows).Pairwise fun a b => compare a.id b.id = .lt := by
    have hpairwise : (({} : Query).ordered [] t.rows).Pairwise _ := ordered_pairwise ht.keyed
    rwa [ordered_byId] at hpairwise
  obtain ⟨listed, hrows, hlisted⟩ := exists_listed fun r hr => hids r (hperm.mem_iff.mp hr)
  rw [← hrows] at hperm hsorted
  refine ⟨listed, hperm, hlisted, (List.pairwise_map.mp hsorted).imp_of_mem fun {a b} ha hb hlt => ?_⟩
  exact (DocId.compare_datum ((hlisted a ha).1.trans (hlisted b hb).1.symm)).symm.trans hlt

theorem idsOf_data {ty : IdType} : ∀ {ids : List DocId}, (∀ id ∈ ids, id.idType = ty ∧ id.Readable) →
    idsOf ty (ids.map DocId.datum) = .ok ids
  | [], _ => rfl
  | id :: ids, h => by
    obtain ⟨⟨htype, hback⟩, hrest⟩ := List.forall_mem_cons.mp h
    rw [DocId.Readable, htype] at hback
    rw [List.map_cons, idsOf, hback, idsOf_data hrest]
    rfl

/-- What a column holds for an id lies between what it holds for two others where the id lies between them. -/
theorem within_datum {low high id : DocId} (hlow : low.idType = id.idType) (hhigh : high.idType = id.idType) :
    within low.datum high.datum id.datum = DocId.between low high id := by
  have hnull (i : DocId) : i.datum.isNull = false := by cases i <;> rfl
  rw [within, Datum.test_beq_true, Datum.test_beq_true, Datum.stands, Datum.stands, hnull, hnull, hnull,
    Datum.compare_swap id.datum low.datum, DocId.compare_datum hlow, DocId.compare_datum hhigh.symm, DocId.between]
  cases compare low id <;> rfl

namespace TableSet.Lists

variable {s : Schema} {t : TableSet} {listed : List (DocId × String)} (h : t.Lists s listed)
include h

/-- An interval of the column is an interval of the ids. -/
theorem within_id {low high : DocId} (hlow : low.idType = s.idType) (hhigh : high.idType = s.idType) :
    ∀ e ∈ listed, within low.datum high.datum e.1.datum = DocId.between low high e.1 := by
  rintro e he
  have htype := (h.ids e he).1.symm
  exact within_datum (hlow.trans htype) (hhigh.trans htype)

theorem ascending_rows : (listed.map StructureRow.of).Pairwise fun a b => compare a.id b.id = .lt := by
  refine List.pairwise_map.mpr (h.ascending.imp_of_mem fun {a b} ha hb hlt => ?_)
  exact (DocId.compare_datum ((h.ids a ha).1.trans (h.ids b hb).1.symm)).trans hlt

theorem byId_filter (q : StructureRow → Bool) :
    byId (t.rows.filter q) = (listed.filter fun e => q (.of e)).map StructureRow.of := by
  have hfilter : (listed.map StructureRow.of).filter q = (listed.filter fun e => q (.of e)).map StructureRow.of :=
    List.filter_map
  refine byId_eq ?_ ?_
  · rw [← hfilter]
    exact h.rows.filter q
  · rw [← hfilter]
    exact h.ascending_rows.filter q

theorem byId_rows : byId t.rows = listed.map StructureRow.of := byId_eq h.rows h.ascending_rows

/-- What is left of a set is what is left of its list. -/
theorem without (q : Datum → Bool) : (t.without q).Lists s (listed.filter fun e => !q e.1.datum) where
  rows := by
    have hfilter : (listed.map StructureRow.of).filter (fun r => !q r.id) =
        (listed.filter fun e => !q e.1.datum).map StructureRow.of := List.filter_map
    rw [← hfilter]
    exact h.rows.filter _
  ids e he := h.ids e (List.mem_filter.mp he).1
  ascending := h.ascending.filter _

theorem payload?_eq_some (ht : t.Of s) {id : DocId} (hid : id.idType = s.idType) {payload : String} :
    t.payload? id = some payload ↔ (id, payload) ∈ listed := by
  rw [ht.payload?_eq_some]
  constructor
  · rintro ⟨r, hr, hrow, rfl⟩
    obtain ⟨e, he, rfl⟩ := List.mem_map.mp (h.rows.mem_iff.mpr hr)
    obtain rfl : e.1 = id := DocId.datum_inj ((h.ids e he).1.trans hid.symm) hrow
    exact he
  · rintro hin
    exact ⟨_, h.rows.mem_iff.mp (List.mem_map_of_mem hin), rfl, rfl⟩

/-- An interval of the column takes the ids that lie between the bounds, and what is equal to one of them. -/
theorem without_within (howned : t.Owned) {low high : DocId} (hlow : low.idType = s.idType)
    (hhigh : high.idType = s.idType) :
    t.without (within low.datum high.datum) =
      t.without fun d => (listed.filter fun e => DocId.between low high e.1).any fun e => same e.1.datum d := by
  have hrow : ∀ r ∈ t.rows, within low.datum high.datum r.id =
      (listed.filter fun e => DocId.between low high e.1).any fun e => same e.1.datum r.id := by
    rintro r hr
    obtain ⟨e, he, rfl⟩ := List.mem_map.mp (h.rows.mem_iff.mpr hr)
    obtain ⟨htype, -⟩ := h.ids e he
    rw [StructureRow.of, h.within_id hlow hhigh e he, Bool.eq_iff_iff, List.any_eq_true]
    constructor
    · rintro hbetween
      exact ⟨e, List.mem_filter.mpr ⟨he, hbetween⟩, (DocId.same_datum rfl).mpr rfl⟩
    · rintro ⟨e', he', hsame⟩
      obtain ⟨hin, hbetween⟩ := List.mem_filter.mp he'
      rwa [(DocId.same_datum ((h.ids e' hin).1.trans htype.symm)).mp hsame] at hbetween
  refine without_congr hrow fun x hx => ?_
  -- an index row lies where the structure lies that it belongs to
  obtain ⟨r, hr, hsame⟩ := howned x hx
  rw [← within_congr hsame, hrow r hr]
  exact List.any_congr rfl fun e => same_congr_right hsame _

end TableSet.Lists

/-! ### Reads and deletions by the order of ids -/

/-- What a store answers for a schema by the order of ids, of the ids that it holds with their payloads. -/
structure AnswersInOrder (s : Schema) (listed : List (DocId × String)) (st : Store) : Prop where
  ascending : listed.Pairwise fun a b => compare a.1 b.1 = .lt
  idType : ∀ e ∈ listed, e.1.idType = s.idType
  /-- the list is of what is stored -/
  stored : ∀ id payload, id.idType = s.idType → (fetch s id st = (.ok (some payload), st) ↔ (id, payload) ∈ listed)
  all : fetchAll s st = (.ok (listed.map (·.2)), st)
  interval : ∀ low high, low.idType = s.idType → high.idType = s.idType →
    fetchInterval s low high st = (.ok ((listed.filter fun e => DocId.between low high e.1).map (·.2)), st)
  /-- the engine refuses the statement for its size, or the ids that satisfy the filter are found in their order -/
  matching : ∀ f, idsWhere s f st = ((filtered s f (idsText s f) 1 st).mapError Error.store |>.map fun _ =>
    (listed.filter fun e => Sql.satisfies st.tables (boundData f.bound) f.condition (StructureRow.of e).row).map (·.1), st)

section
variable {s : Schema} {st : Store} {t : TableSet} {listed : List (DocId × String)}

theorem indexSet_some (hset : st.set? s = some t) : st.indexSet s = .ok t := by
  rw [indexSet, hset]

theorem filtered_eq_ok (hset : st.set? s = some t) {f : CompiledFilter} {sql : String} {n : Nat}
    {found : List StructureRow} (h : filtered s f sql n st = .ok found) :
    found = t.rows.filter fun r => Sql.satisfies st.tables (boundData f.bound) f.condition r.row := by
  obtain ⟨-, -, h⟩ := bind_eq_ok.mp h
  obtain ⟨t', hset', h⟩ := bind_eq_ok.mp h
  obtain ⟨-, -, h⟩ := bind_eq_ok.mp h
  obtain ⟨-, -, h⟩ := bind_eq_ok.mp h
  rw [structureSet_some hset] at hset'
  cases hset'
  cases h
  rfl

theorem TableSet.Lists.answers (h : t.Lists s listed) (ht : t.Of s) (hset : st.set? s = some t) :
    AnswersInOrder s listed st where
  ascending := h.ascending
  idType e he := (h.ids e he).1
  stored id payload hid := by
    rw [fetch_of ht hset hid, ← h.payload?_eq_some ht hid]
    simp
  all := by
    rw [fetchAll_eq hset, orderedPayloads, h.byId_rows, List.map_map]
    rfl
  interval low high hlow hhigh := by
    have hrows : byId (t.rowsWhere (within low.datum high.datum)) =
        (listed.filter fun e => DocId.between low high e.1).map StructureRow.of := by
      rw [TableSet.rowsWhere, h.byId_filter]
      exact congrArg _ (List.filter_congr (h.within_id hlow hhigh))
    show ((st.structureSet s >>= _).mapError Error.store, st) = _
    rw [structureSet_some hset]
    show (Except.ok (orderedPayloads (t.rowsWhere (within (t.idDatum low) (t.idDatum high)))), st) = _
    rw [ht.idDatum hlow, ht.idDatum hhigh, orderedPayloads, hrows, List.map_map]
    rfl
  matching f := by
    show ((filtered s f (idsText s f) 1 st).mapError Error.store >>= _, st) = _
    cases hfound : filtered s f (idsText s f) 1 st with
    | error e => rfl
    | ok found =>
      obtain rfl := filtered_eq_ok hset hfound
      have hrows := h.byId_filter fun r => Sql.satisfies st.tables (boundData f.bound) f.condition r.row
      have hback : idsOf s.idType ((byId (t.rows.filter fun r =>
          Sql.satisfies st.tables (boundData f.bound) f.condition r.row)).map (·.id)) =
          .ok ((listed.filter fun e =>
            Sql.satisfies st.tables (boundData f.bound) f.condition (StructureRow.of e).row).map (·.1)) := by
        rw [hrows, List.map_map, ← @idsOf_data s.idType, List.map_map]
        · rfl
        · rintro id hid
          obtain ⟨e, he, rfl⟩ := List.mem_map.mp hid
          exact h.ids e (List.mem_filter.mp he).1
      show (idsOf s.idType _, st) = _
      rw [hback]
      rfl

/-- Deleting an interval deletes the structures between the bounds with their index rows, tells how many there were, and
    leaves the others. -/
theorem TableSet.Lists.deleteInterval (h : t.Lists s listed) (ht : t.Of s) (howned : t.Owned)
    (hset : st.set? s = some t) {low high : DocId} (hlow : low.idType = s.idType) (hhigh : high.idType = s.idType) :
    let gone := listed.filter fun e => DocId.between low high e.1
    let st' := st.putSet (t.without fun d => gone.any fun e => same e.1.datum d)
    deleteInterval s low high st = (.ok gone.length, st') ∧
      AnswersInOrder s (listed.filter fun e => !DocId.between low high e.1) st' := by
  intro gone st'
  have hwithin := h.within_id hlow hhigh
  have hcount : (t.rowsWhere (within low.datum high.datum)).length = gone.length := by
    have hperm : ((listed.map StructureRow.of).filter fun r => within low.datum high.datum r.id).Perm
        (t.rowsWhere (within low.datum high.datum)) := h.rows.filter _
    rw [← hperm.length_eq, List.filter_map, List.length_map]
    exact congrArg List.length (List.filter_congr hwithin)
  constructor
  · rw [Store.deleteInterval, writing, Step.transaction, indexSet_some hset]
    show (Except.ok (t.rowsWhere (within (t.idDatum low) (t.idDatum high))).length,
      st.putSet (t.without (within (t.idDatum low) (t.idDatum high)))) = _
    rw [ht.idDatum hlow, ht.idDatum hhigh, hcount, h.without_within howned hlow hhigh]
  · have hleft := h.without (within low.datum high.datum)
    rw [List.filter_congr fun e he => congrArg (!·) (hwithin e he), h.without_within howned hlow hhigh] at hleft
    exact hleft.answers ((sameRows_withoutIndexRows t _).of ht |>.withoutRows _).1 (set?_putSet_self ht.stem)

end

/-- Ids of a type compare as the column for the type holds them, numbers as numbers and texts as bytes. Therefore, in all
    stores that are reached while types keep the type of their ids and ids are those of their types, the reads by order
    answer in the order of the ids, and reads and deletions of an interval are about the stored ids between its
    bounds. -/
theorem ids_in_order {types : Schema → Prop} {st : Store} {s : Schema} {t : TableSet} (ha : Apart types)
    (hst : LegiblyReached types st) (hs : types s) (hset : st.set? s = some t) :
    (∀ (a b : DocId) (t : TableSet), a.idType = b.idType → t.affinity = .ofIdType a.idType →
      compare (t.idDatum a) (t.idDatum b) = compare a b) ∧
    (∀ m n, compare (Datum.integer m) (.integer n) = compare m n) ∧
    (∀ x y, compare (Datum.text x) (.text y) = compare (Text.utf8 x) (Text.utf8 y)) ∧
    ∃ listed, AnswersInOrder s listed st ∧
      ∀ low high : DocId, low.idType = s.idType → high.idType = s.idType →
        let gone := listed.filter fun e => DocId.between low high e.1
        let st' := st.putSet (t.without fun d => gone.any fun e => same e.1.datum d)
        deleteInterval s low high st = (.ok gone.length, st') ∧
          AnswersInOrder s (listed.filter fun e => !DocId.between low high e.1) st' := by
  refine ⟨fun a b t htype haffinity => ?_, fun m n => rfl, fun x y => (Text.compare_utf8 x y).symm, ?_⟩
  · rw [TableSet.idDatum_of_affinity haffinity, TableSet.idDatum_of_affinity (htype ▸ haffinity),
      DocId.compare_datum htype]
  · have ht : t.Of s := hst.of ha hs hset
    have howned : t.Owned := (hst.reached.everywhere kept_owned).get hset
    have hids : ∀ r ∈ t.rows, ∃ id : DocId, id.idType = s.idType ∧ id.Readable ∧ r.id = id.datum :=
      ((hst.legible ha).get hset s hs ht.stem).2
    obtain ⟨listed, hlists⟩ := ht.exists_lists hids
    exact ⟨listed, hlists.answers ht hset, fun low high hlow hhigh => hlists.deleteInterval ht howned hset hlow hhigh⟩

/-- Badges with numbers, and badges with names. -/
def badgeSchema : Schema := .ofShape "" "Badge" .identity [⟨"Rank", "Integer", .integer, false, false⟩]

def namedBadgeSchema : Schema := .ofShape "" "Badge" .string [⟨"Rank", "Integer", .integer, false, false⟩]

/-- Badges that were stored out of order are listed in it. -/
theorem ids_in_order_badges :
    let c : Client := {}
    let st := (Store.perform .create {}).2.after [(c, .upsert badgeSchema),
      (c, .insert badgeSchema (.identity 10) "ten" []), (c, .insert badgeSchema (.identity 5) "five" [])]
    Apart (· = badgeSchema) ∧ LegiblyReached (· = badgeSchema) st ∧ ∃ t, st.set? badgeSchema = some t ∧
      ∃ listed, AnswersInOrder badgeSchema listed st ∧ (.identity 5, "five") ∈ listed ∧ (.identity 10, "ten") ∈ listed ∧
        ∃ st', deleteInterval badgeSchema (.identity 2) (.identity 10) st =
          (.ok (listed.filter fun e => DocId.between (.identity 2) (.identity 10) e.1).length, st') := by
  intro c st
  have ha : Apart (· = badgeSchema) := ⟨by rintro _ _ rfl rfl; simp, by rintro _ _ rfl rfl -; rfl⟩
  have hadds (n : Int) (payload : String) (hn : (DocId.identity n).Readable) :
      (Client.Call.insert badgeSchema (.identity n) payload []).AddsLegible (· = badgeSchema) := by
    rintro _ _ _ ⟨⟩ ⟨⟩
    exact ⟨rfl, rfl, hn⟩
  have hst : LegiblyReached (· = badgeSchema) st := by
    refine (LegiblyReached.manage (.opened ":memory:" false) .create).calls ?_
    refine List.forall_mem_cons.mpr ⟨⟨rfl, nofun⟩, List.forall_mem_cons.mpr ⟨⟨trivial, ?_⟩,
      List.forall_mem_singleton.mpr ⟨trivial, ?_⟩⟩⟩
    · exact hadds 10 "ten" (DocId.readable_identity.mpr ⟨by decide, by decide⟩)
    · exact hadds 5 "five" (DocId.readable_identity.mpr ⟨by decide, by decide⟩)
  have hrun : (st.set? badgeSchema).isSome = true ∧ fetch badgeSchema (.identity 5) st = (.ok (some "five"), st) ∧
      fetch badgeSchema (.identity 10) st = (.ok (some "ten"), st) := by
    decide +kernel
  obtain ⟨hsome, hfive, hten⟩ := hrun
  obtain ⟨t, hset⟩ := Option.isSome_iff_exists.mp hsome
  obtain ⟨-, -, -, listed, hlisted, hdelete⟩ := ids_in_order ha hst rfl hset
  exact ⟨ha, hst, t, hset, listed, hlisted, (hlisted.stored _ _ rfl).mp hfive, (hlisted.stored _ _ rfl).mp hten, _,
    (hdelete (.identity 2) (.identity 10) rfl rfl).1⟩

/-- Badges that got numbers instead of names: their column still holds texts, so the numbers are not in their order, and
    none of them lies between bounds between which all of them are. -/
theorem ids_out_of_order :
    let c : Client := {}
    let st := (Store.perform .create {}).2.after [(c, .upsert namedBadgeSchema), (c, .upsert badgeSchema),
      (c, .insert badgeSchema (.identity 10) "ten" []), (c, .insert badgeSchema (.identity 5) "five" [])]
    namedBadgeSchema.Builds ∧ badgeSchema.Builds ∧ Reached (fun _ => True) st ∧
      fetch badgeSchema (.identity 5) st = (.ok (some "five"), st) ∧
      fetch badgeSchema (.identity 10) st = (.ok (some "ten"), st) ∧
      fetchAll badgeSchema st = (.ok ["ten", "five"], st) ∧
      (∃ f, badgeSchema.compileFilter .sqlite none = .ok f ∧
        idsWhere badgeSchema f st = (.ok [.identity 10, .identity 5], st)) ∧
      fetchInterval badgeSchema (.identity 2) (.identity 10) st = (.ok [], st) ∧
      (deleteInterval badgeSchema (.identity 2) (.identity 10) st).1 = .ok 0 := by
  intro c st
  have hst : Reached (fun _ => True) st :=
    (Reached.manage (.opened ":memory:" false) .create).calls fun x _ => x.2.about_all
  let rows : List StructureRow := [⟨.text "10", "ten"⟩, ⟨.text "5", "five"⟩]
  have hrun : (st.set? badgeSchema).map (fun t => (t.rows, t.affinity)) = some (rows, .text) ∧
      fetch badgeSchema (.identity 5) st = (.ok (some "five"), st) ∧
      fetch badgeSchema (.identity 10) st = (.ok (some "ten"), st) ∧
      filtered badgeSchema ⟨.sqlite, none, []⟩ (idsText badgeSchema ⟨.sqlite, none, []⟩) 1 st = .ok rows ∧
      (deleteInterval badgeSchema (.identity 2) (.identity 10) st).1 = .ok 0 := by
    decide +kernel
  obtain ⟨hdata, hfive, hten, hfound, hdelete⟩ := hrun
  obtain ⟨t, hset, hdata⟩ := Option.map_eq_some_iff.mp hdata
  obtain ⟨hrows, haffinity⟩ := Prod.mk.inj hdata
  have hsorted : byId rows = rows := byId_eq (List.Perm.refl _) (by decide)
  have hall : fetchAll badgeSchema st = (.ok ["ten", "five"], st) := by
    rw [fetchAll_eq hset, hrows, orderedPayloads, hsorted]
    rfl
  have hids : idsWhere badgeSchema ⟨.sqlite, none, []⟩ st = (.ok [.identity 10, .identity 5], st) := by
    have hback : idsOf .identity (rows.map (·.id)) = .ok [.identity 10, .identity 5] := by decide +kernel
    show ((filtered badgeSchema _ _ 1 st).mapError Error.store >>= _, st) = _
    rw [hfound]
    show (idsOf .identity ((byId rows).map (·.id)), st) = _
    rw [hsorted, hback]
  have hinterval : fetchInterval badgeSchema (.identity 2) (.identity 10) st = (.ok [], st) := by
    have hnone : rows.filter (fun r => within (Affinity.text.apply (.ofValue (DocId.identity 2).toValue))
        (Affinity.text.apply (.ofValue (DocId.identity 10).toValue)) r.id) = [] := by
      decide +kernel
    show ((st.structureSet badgeSchema >>= _).mapError Error.store, st) = _
    rw [structureSet_some hset]
    show (Except.ok (orderedPayloads (t.rowsWhere (within (t.idDatum (.identity 2)) (t.idDatum (.identity 10))))), st) = _
    rw [TableSet.rowsWhere, TableSet.idDatum, TableSet.idDatum, hrows, haffinity, hnone, orderedPayloads, byId,
      List.mergeSort_nil, List.map_nil]
  exact ⟨Schema.builds_ofShape (by decide) rfl, Schema.builds_ofShape (by decide) rfl, hst, hfive, hten, hall,
    ⟨_, rfl, hids⟩, hinterval, hdelete⟩

end Store

end DocStore
