import DocStore.Proofs.Sql.Numbers
import DocStore.Proofs.Store.Intervals
import DocStore.Proofs.Store.Selected

/-! Ids that are asked for in parts. However long the list is and wherever its ids are repeated, a deletion takes out the
    structures whose ids are in it, each counting once, and a read finds just these. -/

namespace DocStore

open Sql (Datum Affinity)

namespace DocId

/-- Different ids of one type are different texts in a column for texts. -/
theorem apply_text_inj {a b : DocId} (ht : a.idType = b.idType)
    (h : Affinity.text.apply a.datum = Affinity.text.apply b.datum) : a = b := by
  have hnumber : ∀ {m n : Int}, Affinity.text.apply (.integer m) = Affinity.text.apply (.integer n) → m = n := by
    intro m n h
    have hchars : Text.integerText m = Text.integerText n := String.ofList_injective (Datum.text.inj h)
    have hread := congrArg Text.integer? hchars
    rw [Text.integer?_integerText, Text.integer?_integerText] at hread
    exact Option.some.inj hread
  cases a <;> cases b <;> cases ht
  case identity.identity m n => exact congrArg identity (hnumber h)
  case bigIdentity.bigIdentity m n => exact congrArg bigIdentity (hnumber h)
  case guid.guid g g' => exact datum_inj rfl h
  case string.string x x' => exact datum_inj rfl h

/-- What is read back from a number is the identity of that number. -/
theorem datum_of_idOf_integer {ty : IdType} {n : Int} {id : DocId} (h : Store.idOf ty (.integer n) = .ok id) :
    ty.isIdentity = true ∧ id.datum = .integer n := by
  rw [Store.idOf, mapError_eq_ok, convert_eq_ok, convert?] at h
  unfold ofInt at h
  cases ty with
  | identity =>
    dsimp only at h
    split at h
    · cases h
    · split at h
      · cases h
      · cases h
        exact ⟨rfl, rfl⟩
  | bigIdentity =>
    dsimp only at h
    split at h
    · cases h
    · cases h
      exact ⟨rfl, rfl⟩
  | guid | string => cases h

end DocId

namespace Store

/-! ### Ids of a list -/

namespace TableSet

/-- Whether the column holds a datum for one of some ids. -/
def isOneOf (t : TableSet) (ids : List DocId) (d : Datum) : Bool := (ids.map t.idDatum).any (same d)

/-- The ids of the structures are valid: each is read back from the column as a valid id, for which the column holds just
    that. -/
def Valid (s : Schema) (t : TableSet) : Prop :=
  ∀ r ∈ t.rows, ∃ id : DocId, id.IsValid ∧ idOf s.idType r.id = .ok id ∧ t.idDatum id = r.id

section
variable {s : Schema} {t : TableSet} {ids : List DocId} {r : StructureRow}

theorem isOneOf_iff {d : Datum} : t.isOneOf ids d = true ↔ ∃ id ∈ ids, same d (t.idDatum id) = true := by
  rw [isOneOf, List.any_map, List.any_eq_true]
  rfl

theorem isOneOf_congr {d d' : Datum} (h : same d d' = true) : t.isOneOf ids d = t.isOneOf ids d' := by
  have hsame : same d = same d' := funext fun key => by rw [same_comm d, same_comm d', same_congr_right h]
  rw [isOneOf, isOneOf, hsame]

theorem Valid.validIds (hvalid : t.Valid s) : t.ValidIds s := fun r hr => by
  obtain ⟨id, -, hread, hdatum⟩ := hvalid r hr
  rw [hread]
  exact congrArg Except.ok hdatum

theorem ValidIds.idDatum (hvalid : t.ValidIds s) (hr : r ∈ t.rows) {id : DocId} (hread : idOf s.idType r.id = .ok id) :
    t.idDatum id = r.id := by
  have hback := hvalid r hr
  rw [hread] at hback
  exact Except.ok.inj hback

/-- In a column for integers the ids of the structures are integers. -/
theorem Findable.integer (hfind : t.Findable) (haffinity : t.affinity = .integer) (hr : r ∈ t.rows) :
    ∃ n, r.id = .integer n := by
  have hkey := hfind r hr
  cases hid : r.id with
  | integer n => exact ⟨n, rfl⟩
  | null | real x | text x =>
    rw [hid] at hkey
    unfold isKey at hkey
    rw [haffinity] at hkey
    cases hkey

/-- What is equal to the id of a structure can be looked for. -/
theorem Valid.seeks (hvalid : t.Valid s) (hfind : t.Findable) (ids : List DocId) : t.Seeks ids := by
  intro r hr key _ hsame
  cases haffinity : t.affinity with
  | text =>
    unfold isKey
    split
    · rfl
    · rw [haffinity]
      rfl
  | integer =>
    obtain ⟨n, hn⟩ := hfind.integer haffinity hr
    obtain ⟨id, hid, hread, -⟩ := hvalid r hr
    rw [hn] at hread hsame
    obtain ⟨-, hdatum⟩ := DocId.datum_of_idOf_integer hread
    have hsize : 0 < n ∧ n ≤ Text.maxInt64 := by
      cases id with
      | identity m =>
        obtain rfl : m = n := Datum.integer.inj hdatum
        exact ⟨hid.1, Int.le_trans hid.2 (by decide)⟩
      | bigIdentity m =>
        obtain rfl : m = n := Datum.integer.inj hdatum
        exact hid
      | guid g | string x => cases hdatum
    rw [TableSet.idDatum, haffinity] at hsame ⊢
    rw [Affinity.apply_of_same hsize.1 hsize.2 hsame]
    rfl

/-- The column holds different data for different ids of the type, if one of them is the id of a structure. -/
theorem ValidIds.same_iff (hvalid : t.ValidIds s) (hfind : t.Findable) (hr : r ∈ t.rows) {id key : DocId}
    (hread : idOf s.idType r.id = .ok id) (hkey : key.idType = s.idType) :
    same r.id (t.idDatum key) = true ↔ key = id := by
  have hdatum : t.idDatum id = r.id := hvalid.idDatum hr hread
  have htype : key.idType = id.idType := hkey.trans (DocId.idType_idOf hread).symm
  constructor
  · intro hsame
    cases haffinity : t.affinity with
    | text =>
      rw [← hdatum, TableSet.idDatum, TableSet.idDatum, haffinity] at hsame
      refine DocId.apply_text_inj htype ?_
      have htext : ∀ i : DocId, ∃ x, Affinity.text.apply (.ofValue i.toValue) = .text x := fun i => by
        cases i <;> exact ⟨_, rfl⟩
      obtain ⟨x, hx⟩ := htext key
      obtain ⟨y, hy⟩ := htext id
      rw [hx, hy, Datum.same_eq_stands] at hsame
      exact hx.trans ((Datum.stands_eq_text.mp hsame).symm.trans hy.symm)
    | integer =>
      obtain ⟨n, hn⟩ := hfind.integer haffinity hr
      rw [hn] at hread hsame
      obtain ⟨hty, hid⟩ := DocId.datum_of_idOf_integer hread
      have hof : ∀ i : DocId, i.idType = s.idType → t.idDatum i = i.datum := by
        intro i hi
        rw [TableSet.idDatum, haffinity]
        cases i with
        | identity m | bigIdentity m => rfl
        | guid g | string x =>
          rw [← hi] at hty
          cases hty
      rw [hof key hkey, ← hid] at hsame
      exact ((DocId.same_datum htype.symm).mp hsame).symm
  · rintro rfl
    rw [hdatum]
    exact same_self (hdatum ▸ idDatum_ne_null t _)

/-- Of ids of the type, those in the list are those that the column holds for ids of the list. -/
theorem ValidIds.isOneOf_iff_mem (hvalid : t.ValidIds s) (hfind : t.Findable) (hids : ∀ id ∈ ids, id.idType = s.idType)
    (hr : r ∈ t.rows) {id : DocId} (hread : idOf s.idType r.id = .ok id) : t.isOneOf ids r.id = true ↔ id ∈ ids := by
  rw [isOneOf_iff]
  constructor
  · rintro ⟨key, hkey, hsame⟩
    exact (hvalid.same_iff hfind hr hread (hids key hkey)).mp hsame ▸ hkey
  · intro hid
    exact ⟨id, hid, (hvalid.same_iff hfind hr hread (hids id hid)).mpr rfl⟩

/-- The payload of the structure whose id is read back as an id. -/
def readAs? (s : Schema) (t : TableSet) (id : DocId) : Option String :=
  (t.rows.find? fun r => decide ((idOf s.idType r.id).toOption = some id)).map (·.payload)

/-- No two structures have ids that are read back as the same one. -/
theorem ValidIds.readAs? (hvalid : t.ValidIds s) (hkeyed : t.Keyed) (hr : r ∈ t.rows) {id : DocId}
    (hread : idOf s.idType r.id = .ok id) : t.readAs? s id = some r.payload := by
  let reads (r : StructureRow) : Bool := decide ((idOf s.idType r.id).toOption = some id)
  have hreads : reads r = true := decide_eq_true (by rw [hread]; rfl)
  obtain ⟨r', hfound⟩ := Option.isSome_iff_exists.mp (List.find?_isSome.mpr ⟨r, hr, hreads⟩)
  have hin : r' ∈ t.rows := List.mem_of_find?_eq_some hfound
  have hread' : idOf s.idType r'.id = .ok id := by
    have hsome : (idOf s.idType r'.id).toOption = some id := of_decide_eq_true (List.find?_some (p := reads) hfound)
    cases hback : idOf s.idType r'.id with
    | error e => rw [hback] at hsome; cases hsome
    | ok id' => rw [hback] at hsome; exact congrArg Except.ok (Option.some.inj hsome)
  have hsame : r' = r := by
    refine hkeyed.eq_of_compare hin hr ?_
    rw [← hvalid.idDatum hin hread', ← hvalid.idDatum hr hread]
    exact Std.ReflCmp.compare_self
  rw [← hsame]
  exact congrArg (Option.map _) hfound

end

end TableSet

/-! ### Reads in parts -/

section
variable {s : Schema} {st : Store} {t : TableSet}

theorem mem_zip_of_idsOf {ty : IdType} : ∀ {rows : List StructureRow} {back : List DocId},
    idsOf ty (rows.map (·.id)) = .ok back → ∀ {x : DocId × String}, x ∈ back.zip (rows.map (·.payload)) ↔
      ∃ r ∈ rows, idOf ty r.id = .ok x.1 ∧ r.payload = x.2
  | [], _, h, x => by
    cases h
    exact ⟨nofun, by rintro ⟨r, hr, -⟩; cases hr⟩
  | r :: rows, back, h, x => by
    rw [List.map_cons, idsOf] at h
    cases hone : idOf ty r.id with
    | error e => rw [hone] at h; cases h
    | ok id =>
      rw [hone] at h
      obtain ⟨rest, hrest, rfl⟩ := map_eq_ok.mp h
      rw [List.map_cons, List.zip_cons_cons, List.mem_cons, mem_zip_of_idsOf hrest]
      simp only [List.mem_cons, exists_eq_or_imp]
      refine or_congr_left ?_
      rw [hone, Except.ok.injEq]
      exact ⟨by rintro rfl; exact ⟨rfl, rfl⟩, by rintro ⟨hid, hpayload⟩; exact Prod.ext hid.symm hpayload.symm⟩

variable (hset : st.set? s = some t) (hvalid : t.ValidIds s)
include hset hvalid

theorem fetchChunk_of_keys {ids : List DocId} (hseeks : t.Seeks ids) : ∃ found, fetchChunk s st ids = .ok found ∧
    ∀ x, x ∈ found ↔ ∃ r ∈ t.rows, t.isOneOf ids r.id = true ∧ idOf s.idType r.id = .ok x.1 ∧ r.payload = x.2 := by
  have hvalid' : ∀ r ∈ foundBy t ids, (idOf s.idType r.id).map t.idDatum = .ok r.id := fun r hr =>
    hvalid r (mem_foundBy hr)
  obtain ⟨back, hback, -⟩ := idsOf_valid hvalid'
  refine ⟨_, by rw [fetchChunk_of hset, hback]; rfl, fun x => ?_⟩
  rw [mem_zip_of_idsOf hback]
  refine exists_congr fun r => ?_
  rw [foundBy, byId, List.mem_mergeSort, TableSet.rowsWhere, List.mem_filter, and_assoc]
  refine and_congr_right fun hr => and_congr_left' ?_
  rw [hseeks.findsAny hr, TableSet.isOneOf]

theorem fetchChunks_of_keys : ∀ {parts : List (List DocId)}, (∀ ids ∈ parts, t.Seeks ids) →
    ∃ found, fetchChunks s st parts = .ok found ∧ ∀ x, x ∈ found ↔ ∃ r ∈ t.rows,
      t.isOneOf parts.flatten r.id = true ∧ idOf s.idType r.id = .ok x.1 ∧ r.payload = x.2
  | [], _ => ⟨[], rfl, fun x => ⟨nofun, by rintro ⟨r, -, hone, -⟩; cases hone⟩⟩
  | ids :: parts, hseeks => by
    obtain ⟨hfirst, hothers⟩ := List.forall_mem_cons.mp hseeks
    obtain ⟨found, hfound, hmem⟩ := fetchChunk_of_keys hset hvalid hfirst
    obtain ⟨rest, hrest, hmem'⟩ := fetchChunks_of_keys hothers
    refine ⟨found ++ rest, by rw [fetchChunks, hfound, hrest]; rfl, fun x => ?_⟩
    have hsplit : ∀ d, t.isOneOf (ids :: parts).flatten d = (t.isOneOf ids d || t.isOneOf parts.flatten d) := fun d => by
      rw [TableSet.isOneOf, List.flatten_cons, List.map_append, List.any_append]
      rfl
    rw [List.mem_append, hmem, hmem', ← exists_or]
    refine exists_congr fun r => ?_
    rw [hsplit, Bool.or_eq_true, ← and_or_left, or_and_right]

/-- A read of several ids finds, as a table, the structures whose ids are in the list. -/
theorem fetchMany_of_keys (hkeyed : t.Keyed) {ids : List DocId} (hseeks : t.Seeks ids) :
    ∃ found, fetchMany s ids st = (.ok found, st) ∧ ∀ id payload, (Assoc.insertAll [] found).get? id = some payload ↔
      ∃ r ∈ t.rows, t.isOneOf ids r.id = true ∧ idOf s.idType r.id = .ok id ∧ r.payload = payload := by
  have hflatten : (idChunks ids).flatten = ids := flatten_chunks 499 ids
  have hparts : ∀ part ∈ idChunks ids, t.Seeks part := fun part hpart r hr id hid =>
    hseeks r hr id (hflatten ▸ List.mem_flatten.mpr ⟨part, hpart, hid⟩)
  obtain ⟨found, hfound, hmem⟩ := fetchChunks_of_keys hset hvalid hparts
  rw [hflatten] at hmem
  have hagree : ∀ x ∈ found, t.readAs? s x.1 = some x.2 := by
    intro x hx
    obtain ⟨r, hr, -, hread, heq⟩ := (hmem x).mp hx
    rw [hvalid.readAs? hkeyed hr hread, heq]
  refine ⟨found, by rw [fetchMany, Step.query, hfound], fun id payload => ?_⟩
  rw [Assoc.get?_insertAll_of hagree]
  constructor
  · intro h
    split at h
    · rename_i hin
      obtain ⟨x, hx, rfl⟩ := List.mem_map.mp hin
      rw [hagree x hx] at h
      cases h
      exact (hmem x).mp hx
    · cases h
  · rintro ⟨r, hr, hone, hread, rfl⟩
    have hin : id ∈ found.map (·.1) := List.mem_map.mpr ⟨(id, r.payload), (hmem _).mpr ⟨r, hr, hone, hread, rfl⟩, rfl⟩
    rw [if_pos hin, hvalid.readAs? hkeyed hr hread]

end

/-- Cutting a list of ids into parts shows nowhere. In every store that calls lead to, for a set whose ids are valid and
    for any list of ids: a read finds, as a table, the structures whose ids are in the list; a deletion takes out the
    same structures and answers how many they are, each counting once wherever its id is repeated; and the index rows
    that go with it are those of the structures that go. An id of a structure is in a list of ids of its type in the
    sense of the column exactly if it is in it as an id. -/
theorem chunks_invisible {st : Store} {s : Schema} {t : TableSet} (hst : Reached (fun _ => True) st)
    (hset : st.set? s = some t) (hvalid : t.Valid s) (ids : List DocId) :
    (∃ found, fetchMany s ids st = (.ok found, st) ∧ ∀ id payload,
      (Assoc.insertAll [] found).get? id = some payload ↔
        ∃ r ∈ t.rows, t.isOneOf ids r.id = true ∧ idOf s.idType r.id = .ok id ∧ r.payload = payload) ∧
    deleteMany s ids st = (.ok (t.rowsWhere (t.isOneOf ids)).length, st.putSet
      { t with rows := t.rows.filter fun r => !t.isOneOf ids r.id,
               indexRows := t.indexRows.filter fun x => !t.isOneOf ids x.id }) ∧
    (∀ x ∈ t.indexRows, ∃ r ∈ t.rows, same r.id x.id = true ∧ t.isOneOf ids x.id = t.isOneOf ids r.id) ∧
    ((∀ id ∈ ids, id.idType = s.idType) → ∀ r ∈ t.rows, ∀ id, idOf s.idType r.id = .ok id →
      (t.isOneOf ids r.id = true ↔ id ∈ ids)) := by
  have hfind : t.Findable := (hst.everywhere kept_findable).get hset
  have hkeyed : t.Keyed := (hst.everywhere kept_keyed).get hset
  have howned : t.Owned := (hst.everywhere kept_owned).get hset
  have hstem : folded t.stem = folded s.stem := (hst.everywhere kept_owned).named.stem hset
  have hseeks : t.Seeks ids := hvalid.seeks hfind ids
  refine ⟨fetchMany_of_keys hset hvalid.validIds hkeyed hseeks, deleteMany_of_keys hset hstem hseeks, ?_, ?_⟩
  · intro x hx
    obtain ⟨r, hr, hsame⟩ := howned x hx
    exact ⟨r, hr, hsame, (TableSet.isOneOf_congr hsame).symm⟩
  · intro hids r hr id hread
    exact hvalid.validIds.isOneOf_iff_mem hfind hids hr hread

/-- A badge that is listed six hundred times, so in two parts, is deleted once. -/
theorem chunks_invisible_badges :
    let c : Client := {}
    let st := (Store.perform .create {}).2.after [(c, .upsert badgeSchema),
      (c, .insert badgeSchema (.identity 10) "ten" []), (c, .insert badgeSchema (.identity 5) "five" [])]
    let ids := List.replicate 600 (DocId.identity 5) ++ [.identity 7]
    (deleteMany badgeSchema ids st).1 = .ok 1 ∧ ∃ found, fetchMany badgeSchema ids st = (.ok found, st) ∧
      (Assoc.insertAll [] found).get? (.identity 5) = some "five" ∧
      (Assoc.insertAll [] found).get? (.identity 10) = none := by
  intro c st ids
  have hst : Reached (fun _ => True) st :=
    (Reached.manage (.opened ":memory:" false) .create).calls fun x _ => x.2.about_all
  have hdata : (st.set? badgeSchema).map (fun t => (t.rows, t.affinity)) =
      some ([⟨.integer 10, "ten"⟩, ⟨.integer 5, "five"⟩], .integer) := by decide +kernel
  obtain ⟨t, hset, hdata⟩ := Option.map_eq_some_iff.mp hdata
  obtain ⟨hrows, haffinity⟩ := Prod.mk.inj hdata
  have hread (n : Int) (h : 0 < n) (h' : n ≤ 2147483647) : idOf badgeSchema.idType (.integer n) = .ok (.identity n) := by
    have hnumber : (DocId.identity n).IsValid := ⟨h, h'⟩
    exact DocId.idOf_datum_of_isValid hnumber
  have hvalid : t.Valid badgeSchema := by
    have hone (n : Int) (h : 0 < n) (h' : n ≤ 2147483647) : ∃ id : DocId, id.IsValid ∧
        idOf badgeSchema.idType (.integer n) = .ok id ∧ t.idDatum id = .integer n :=
      ⟨.identity n, ⟨h, h'⟩, hread n h h', by rw [TableSet.idDatum, haffinity]; rfl⟩
    rw [TableSet.Valid, hrows]
    exact List.forall_mem_cons.mpr ⟨hone 10 (by decide) (by decide),
      List.forall_mem_singleton.mpr (hone 5 (by decide) (by decide))⟩
  obtain ⟨⟨found, hfetch, htable⟩, hdelete, -, hmem⟩ := chunks_invisible hst hset hvalid ids
  have htypes : ∀ id ∈ ids, id.idType = badgeSchema.idType := by
    intro id hid
    rcases List.mem_append.mp hid with hid | hid
    · rw [(List.mem_replicate.mp hid).2]
      rfl
    · rw [List.mem_singleton.mp hid]
      rfl
  have hten : t.isOneOf ids (.integer 10) = false := by
    have hin : (⟨.integer 10, "ten"⟩ : StructureRow) ∈ t.rows := hrows ▸ List.mem_cons_self ..
    refine Bool.eq_false_iff.mpr fun h => ?_
    have hlisted := (hmem htypes _ hin (.identity 10) (hread 10 (by decide) (by decide))).mp h
    rcases List.mem_append.mp hlisted with hlisted | hlisted
    · cases (List.mem_replicate.mp hlisted).2
    · cases List.mem_singleton.mp hlisted
  have hfive : t.isOneOf ids (.integer 5) = true := by
    have hin : (⟨.integer 5, "five"⟩ : StructureRow) ∈ t.rows := hrows ▸ List.mem_cons_of_mem _ (List.mem_singleton_self _)
    refine (hmem htypes _ hin (.identity 5) (hread 5 (by decide) (by decide))).mpr ?_
    exact List.mem_append_left _ (List.mem_replicate.mpr ⟨by decide, rfl⟩)
  refine ⟨?_, found, hfetch, ?_, ?_⟩
  · rw [hdelete, TableSet.rowsWhere, hrows]
    simp [hten, hfive]
  · refine (htable _ _).mpr ⟨⟨.integer 5, "five"⟩, ?_, hfive, hread 5 (by decide) (by decide), rfl⟩
    rw [hrows]
    exact List.mem_cons_of_mem _ (List.mem_singleton_self _)
  · refine Option.eq_none_iff_forall_ne_some.mpr fun payload hsome => ?_
    obtain ⟨r, hr, hone, hback, -⟩ := (htable _ _).mp hsome
    rw [hrows] at hr
    rcases List.mem_cons.mp hr with rfl | hr
    · rw [hten] at hone
      cases hone
    · rw [List.mem_singleton.mp hr, hread 5 (by decide) (by decide)] at hback
      cases hback

end Store

end DocStore
