import DocStore.Proofs.Schema.Built
import DocStore.Proofs.Sql.Like
import DocStore.Proofs.Store.EverySet
import DocStore.Proofs.Store.Identities

/-! A database that was made anew. The tables that are dropped are found by their names, so sets stay whose names begin
    with the word that the engine begins its own names with, in any case of its letters. All other types start from
    nothing: their tables are gone, and bringing them to a shape makes empty ones. -/

namespace DocStore.Store

open Sql (Affinity)

/-! ### Names that resemble the engine's own -/

/-- Whether a name begins like the engine's own names. -/
def resembles (name : String) : Bool := Text.startsWithName "sqlite" name

section
variable {name stem rest : String}

theorem resembles_congr {name' : String} (h : folded name = folded name') : resembles name = resembles name' := by
  rw [resembles, resembles, Text.startsWithName, Text.startsWithName, folded_inj.mp h]

theorem resembles_append (h : resembles stem = true) : resembles (stem ++ rest) = true := by
  rw [resembles, Text.startsWithName, List.isPrefixOf_iff_prefix] at h ⊢
  rw [String.toList_append, Text.foldCase, List.map_append]
  exact h.trans (List.prefix_append ..)

/-- What resembles a name of the engine does so before an ending that begins otherwise. -/
theorem resembles_of_append {c : Char} {cs : List Char} (hrest : Text.foldCase rest.toList = c :: cs)
    (hc : c = 's' ∧ cs.head? = some 't' ∨ c = 'i' ∧ cs.head? = some 'n') (h : resembles (stem ++ rest) = true) :
    resembles stem = true := by
  have hword : "sqlite".toList = ['s', 'q', 'l', 'i', 't', 'e'] := by decide
  rw [resembles, Text.startsWithName, List.isPrefixOf_iff_prefix, hword] at h ⊢
  rw [String.toList_append, Text.foldCase, List.map_append] at h
  change _ <+: Text.foldCase stem.toList ++ Text.foldCase rest.toList at h
  rw [hrest] at h
  generalize Text.foldCase stem.toList = front at h ⊢
  by_cases hlength : 6 ≤ front.length
  · exact List.prefix_of_prefix_length_le h (List.prefix_append ..) hlength
  · -- no letter of the word from which on the ending could stand is followed as in the ending
    rcases front with _ | ⟨c₁, _ | ⟨c₂, _ | ⟨c₃, _ | ⟨c₄, _ | ⟨c₅, _ | ⟨c₆, front⟩⟩⟩⟩⟩⟩ <;>
      rcases hc with ⟨rfl, hhead⟩ | ⟨rfl, hhead⟩ <;> rcases cs with _ | ⟨c', cs⟩ <;> simp_all

theorem resembles_of_structureTable (h : resembles (Schema.structureTableOf stem) = true) : resembles stem = true := by
  have hrest : Text.foldCase "Structure".toList = 's' :: 't' :: "ructure".toList := by decide
  exact resembles_of_append hrest (Or.inl ⟨rfl, rfl⟩) h

theorem resembles_of_indexesTable (h : resembles (Schema.indexesTableOf stem ++ rest) = true) :
    resembles stem = true := by
  have hrest : Text.foldCase ("Indexes" ++ rest).toList =
      'i' :: 'n' :: (Text.foldCase "dexes".toList ++ Text.foldCase rest.toList) := by
    rw [String.toList_append, Text.foldCase, List.map_append]
    rfl
  refine resembles_of_append hrest (Or.inr ⟨rfl, rfl⟩) ?_
  rwa [Schema.indexesTableOf, String.append_assoc] at h

theorem checkName_ok (h : resembles name = false) : checkName name = .ok () := by
  rw [checkName, if_neg]
  intro hstarts
  have hword : "sqlite_".toList = "sqlite".toList ++ ['_'] := by decide
  rw [Text.startsWithName, List.isPrefixOf_iff_prefix, hword] at hstarts
  have hresembles : resembles name = true :=
    List.isPrefixOf_iff_prefix.mpr ((List.prefix_append ..).trans hstarts)
  rw [h] at hresembles
  cases hresembles

/-- A letter that a pattern finds the same as one it sees is that one but for the case. -/
theorem toLower_of_sameLetter {c x : Char} (hc : c.toLower ≠ '\ufffd')
    (h : Sql.Like.sameLetter c (Sql.Like.seen x) = true) : x.toLower = c.toLower := by
  rw [Sql.Like.sameLetter, beq_iff_eq, Sql.Like.seen] at h
  split at h
  · exact absurd h hc
  · exact h.symm

theorem foldCase_of_sameLetters : ∀ {u l : List Char}, (∀ c ∈ u, c.toLower ≠ '\ufffd') →
    List.Forall₂ (fun c x => Sql.Like.sameLetter c x = true) u (l.map Sql.Like.seen) → Text.foldCase l = Text.foldCase u
  | [], [], _, _ => rfl
  | [], _ :: _, _, h => nomatch h
  | _ :: _, [], _, h => nomatch h
  | c :: u, x :: l, hu, h => by
    rw [List.map_cons, List.forall₂_cons] at h
    have hrest := foldCase_of_sameLetters (fun c hc => hu c (List.mem_cons_of_mem _ hc)) h.2
    have hfirst := toLower_of_sameLetter (hu c (List.mem_cons_self ..)) h.1
    rw [Text.foldCase, Text.foldCase, List.map_cons, List.map_cons, hfirst]
    exact congrArg _ hrest

/-- A name that the pattern for the engine's tables matches resembles them. -/
theorem resembles_of_isEngineName (h : isEngineName name = true) : resembles name = true := by
  have hitems : Sql.Like.items? .sqlite Dialect.likeEscape (Sql.Like.visible "sqlite_%") =
      some ("sqlite".toList.map Sql.Like.Item.literal ++ [.one, .run]) := by decide
  have hword : ∀ c ∈ "sqlite".toList, c.toLower ≠ '\ufffd' := by
    have hall : ("sqlite".toList.all fun c => c.toLower != '\ufffd') = true := by decide
    exact fun c hc => bne_iff_ne.mp (List.all_eq_true.mp hall c hc)
  rw [isEngineName, Sql.Like.isLike, Sql.Like.matchesChars, hitems] at h
  dsimp only at h
  rw [Sql.Like.accepts_literals, Option.any_eq_true] at h
  obtain ⟨rest, hafter, -⟩ := h
  obtain ⟨found, hvisible, hsame⟩ := Sql.Like.after?_eq_some.mp hafter
  obtain ⟨front, back, hsplit, rfl, -⟩ := List.map_eq_append_iff.mp hvisible
  have hfront : front <+: name.toList :=
    (List.prefix_append front back).trans (hsplit ▸ List.takeWhile_prefix _)
  have hfolded : Text.foldCase front = "sqlite".toList := foldCase_of_sameLetters hword hsame
  rw [resembles, Text.startsWithName, List.isPrefixOf_iff_prefix, ← hfolded]
  exact hfront.map _

end

/-! ### Stores with such names only -/

theorem indexesOf_name {s : Schema} {i : Index} (h : i ∈ indexesOf s) :
    ∃ ending, i.name = s.indexesTable ++ "_" ++ ending := by
  rcases List.mem_append.mp h with h | h
  · rcases List.mem_pair.mp h with rfl | rfl
    · exact ⟨_, rfl⟩
    · exact ⟨_, rfl⟩
  · obtain ⟨m, -, rfl⟩ := List.mem_map.mp h
    refine ⟨"uq_" ++ m.path, ?_⟩
    have hmark : "_uq_" = "_" ++ "uq_" := by decide
    show s.indexesTable ++ "_uq_" ++ m.path = _
    rw [hmark, ← String.append_assoc, ← String.append_assoc]

theorem checkName_index {s : Schema} (hs : resembles s.stem = false) {i : Index} (hi : i ∈ indexesOf s) :
    checkName i.name = .ok () := by
  obtain ⟨ending, hname⟩ := indexesOf_name hi
  refine checkName_ok (Bool.eq_false_iff.mpr fun hresembles => ?_)
  rw [hname, Schema.indexesTable, String.append_assoc] at hresembles
  rw [resembles_of_indexesTable hresembles] at hs
  cases hs

/-- A store whose tables and indexes all have names that resemble the engine's own. -/
structure Bare (st : Store) : Prop where
  table : ∀ {name : String}, st.hasTable name = true → resembles name = true
  index : ∀ {name : String}, st.hasIndex name = true → resembles name = true

section
variable {s : Schema} {st st' : Store} {t : TableSet} {name : String}

theorem sameName_of_rowsOf? (h : (t.rowsOf? name).isSome = true) :
    folded name = folded t.structureTable ∨ folded name = folded t.indexesTable := by
  unfold TableSet.rowsOf? at h
  split at h
  · rename_i hname
    exact Or.inl (sameName_iff.mp hname)
  · split at h
    · rename_i hname
      exact Or.inr (sameName_iff.mp hname)
    · cases h

theorem Everywhere.bare (h : Everywhere TableSet.OwnIndexes st) (hsets : ∀ e ∈ st.sets, resembles e.2.stem = true) :
    st.Bare where
  table {name} hname := by
    rw [hasTable, rowsOf?, List.isSome_findSome?, List.any_eq_true] at hname
    obtain ⟨e, he, hrows⟩ := hname
    rcases sameName_of_rowsOf? hrows with heq | heq <;> rw [resembles_congr heq] <;>
      exact resembles_append (hsets e he)
  index {name} hname := by
    rw [hasIndex, List.any_eq_true] at hname
    obtain ⟨e, he, hname⟩ := hname
    obtain ⟨i, hi, hname⟩ := List.any_eq_true.mp hname
    obtain ⟨s, hstem, hin⟩ := h.sets e he i hi
    obtain ⟨ending, heq⟩ := indexesOf_name hin
    have hown : resembles s.stem = true := resembles_congr hstem ▸ hsets e he
    rw [resembles_congr (sameName_iff.mp hname), heq]
    exact resembles_append (resembles_append (resembles_append hown))

/-- A set that is put among such names brings no names but those of its own tables. -/
theorem hasTable_putSet (h : (st.putSet t).hasTable name = true) :
    st.hasTable name = true ∨ folded name = folded t.structureTable ∨ folded name = folded t.indexesTable := by
  rw [hasTable, rowsOf?, List.isSome_findSome?, List.any_eq_true] at h ⊢
  obtain ⟨e, he, hrows⟩ := h
  rcases Assoc.mem_insert he with rfl | he
  · exact Or.inr (sameName_of_rowsOf? hrows)
  · exact Or.inl ⟨e, he, hrows⟩

end

/-! ### Empty sets -/

section
variable {s : Schema} {st : Store} (hbare : st.Bare) (hs : resembles s.stem = false)
include hbare hs

theorem Bare.no_structureTable : st.hasTable s.structureTable = false := by
  by_contra hthere
  have hresembles := resembles_of_structureTable (hbare.table (Bool.eq_true_of_not_eq_false hthere))
  rw [hs] at hresembles
  cases hresembles

theorem Bare.no_indexesTable : st.hasTable s.indexesTable = false := by
  by_contra hthere
  have hresembles := hbare.table (Bool.eq_true_of_not_eq_false hthere)
  rw [Schema.indexesTable, ← String.append_empty (s := Schema.indexesTableOf s.stem)] at hresembles
  rw [resembles_of_indexesTable hresembles] at hs
  cases hs

/-- An index of a schema has the name of no table beside a set of the schema's stem. -/
theorem Bare.no_indexTable {t : TableSet} (hstem : t.stem = s.stem) {i : Index} (hi : i ∈ indexesOf s) :
    (st.putSet t).hasTable i.name = false := by
  obtain ⟨ending, hname⟩ := indexesOf_name hi
  by_contra hthere
  rcases hasTable_putSet (Bool.eq_true_of_not_eq_false hthere) with hin | heq | heq
  · have hresembles := hbare.table hin
    rw [hname, Schema.indexesTable, String.append_assoc] at hresembles
    rw [resembles_of_indexesTable hresembles] at hs
    cases hs
  · -- the name goes on otherwise than that of the table of structures
    rw [hname, TableSet.structureTable, hstem, Schema.indexesTable, folded_inj] at heq
    simp [Schema.indexesTableOf, Schema.structureTableOf, Text.foldCase] at heq
  · rw [hname, TableSet.indexesTable, hstem, Schema.indexesTable, folded_inj] at heq
    simp [Schema.indexesTableOf, Text.foldCase] at heq

/-- Beside such names a set without rows gets the indexes of its schema. -/
theorem Bare.ensureIndexes : ∀ {is : List Index} {t : TableSet}, t.stem = s.stem → t.rows = [] → t.indexRows = [] →
    (∀ i ∈ is, i ∈ indexesOf s) → ∃ t', is.foldlM (ensureIndex s) (st.putSet t) = .ok (st.putSet t') ∧
      t'.stem = s.stem ∧ t'.rows = [] ∧ t'.indexRows = []
  | [], t, hstem, hrows, hindexRows, _ => ⟨t, rfl, hstem, hrows, hindexRows⟩
  | i :: is, t, hstem, hrows, hindexRows, his => by
    have hi := his i (List.mem_cons_self ..)
    have hone : ∃ indexes, ensureIndex s (st.putSet t) i = .ok (st.putSet { t with indexes }) := by
      rw [ensureIndex, checkName_index hs hi, hbare.no_indexTable hs hstem hi, set?_putSet_self (by rw [hstem])]
      simp only [bind, Except.bind, Bool.false_eq_true, if_false]
      cases (st.putSet t).hasIndex i.name with
      | true => exact ⟨t.indexes, rfl⟩
      | false =>
        have hput : (st.putSet t).putSet { t with indexes := t.indexes ++ [i] } =
            st.putSet { t with indexes := t.indexes ++ [i] } := putSet_putSet rfl
        refine ⟨t.indexes ++ [i], ?_⟩
        cases i.unique with
        | none => exact congrArg Except.ok hput
        | some x =>
          have hrepeat : hasRepeat x.1 x.2 t.indexRows = false := by
            rw [hindexRows]
            rfl
          dsimp only
          rw [hrepeat]
          exact congrArg Except.ok hput
    obtain ⟨indexes, hdone⟩ := hone
    rw [List.foldlM_cons, hdone]
    exact Bare.ensureIndexes (t := { t with indexes }) hstem hrows hindexRows
      fun i hi => his i (List.mem_cons_of_mem _ hi)

/-- Beside such names a type that has no fingerprint yet gets an empty set. -/
theorem Bare.upsert (hn : st.Named) {b : Bookkeeping} (hb : st.bookkeeping = some b)
    (hnew : b.fingerprints.get? s.key = none) : ∃ st' b' t, Store.upsert s st = (.ok (), st') ∧
      st'.bookkeeping = some b' ∧ b'.nextIds = b.nextIds ∧ st'.set? s = some t ∧ t.rows = [] ∧ t.indexRows = [] := by
  have hset : st.set? s = none := by
    have hno := hbare.no_structureTable hs
    rw [hasTable, rowsOf?_structureTable hn] at hno
    cases hset : st.set? s with
    | none => rfl
    | some t =>
      rw [hset] at hno
      cases hno
  have hcheck {table : String} (hname : resembles table = false) (hno : st.hasTable table = false) :
      st.checkTable table = .ok () := by
    have hindex : st.hasIndex table = false := Bool.eq_false_iff.mpr fun hindex => by
      rw [hbare.index hindex] at hname
      cases hname
    rw [checkTable, checkName_ok hname, hno, hindex]
    rfl
  have htables : withTables s st = .ok (st.putSet { stem := s.stem, affinity := Affinity.ofIdType s.idType }) := by
    have hrows : resembles s.structureTable = false := Bool.eq_false_iff.mpr fun h => by
      rw [resembles_of_structureTable h] at hs
      cases hs
    have hindexes : resembles s.indexesTable = false := Bool.eq_false_iff.mpr fun h => by
      rw [Schema.indexesTable, ← String.append_empty (s := Schema.indexesTableOf s.stem)] at h
      rw [resembles_of_indexesTable h] at hs
      cases hs
    rw [withTables, hcheck hrows (hbare.no_structureTable hs), hcheck hindexes (hbare.no_indexesTable hs), hset]
    rfl
  obtain ⟨t, hindexes, hstem, hrows, hindexRows⟩ := hbare.ensureIndexes hs
    (t := { stem := s.stem, affinity := Affinity.ofIdType s.idType }) rfl rfl rfl fun _ hi => hi
  have hfound : (st.putSet t).set? s = some t := set?_putSet_self (by rw [hstem])
  have hshaped : shaped s st = .ok ((st.putSet t).putSet (t.withoutStale s)) := by
    simp only [shaped, htables, hindexes, hfound, bind, Except.bind, pure, Except.pure]
  have hcurrent : ¬b.fingerprints.get? s.key = some s.fingerprint := by
    rw [hnew]
    rintro ⟨⟩
  have hlast : ((st.putSet t).putSet (t.withoutStale s)).set? s = some (t.withoutStale s) :=
    set?_putSet_self (by rw [TableSet.withoutStale, hstem])
  let b' : Bookkeeping := { b with fingerprints := b.fingerprints.insert s.key s.fingerprint }
  refine ⟨{ (st.putSet t).putSet (t.withoutStale s) with bookkeeping := some b' }, b', t.withoutStale s,
    Step.transaction_ok ?_, rfl, rfl, hlast, hrows, ?_⟩
  · rw [hb]
    dsimp only
    rw [if_neg hcurrent, hshaped]
  · rw [TableSet.withoutStale, hindexRows]
    rfl

end

/-! ### Making a database anew -/

/-- A store with a new database: one was made where there may have been another one, or that one was dropped first. -/
def MadeAnew (st st' : Store) : Prop :=
  Store.perform .ensureNew st = (.ok (), st') ∨
    ∃ st₁, Store.perform .dropDatabase st = (.ok (), st₁) ∧ Store.perform .create st₁ = (.ok (), st')

theorem MadeAnew.eq {st st' : Store} (h : MadeAnew st st') : st' = st.emptied.created := by
  have hcreating {f : Store → Store} {st st' : Store} (h : creating f st = (.ok (), st')) : st' = f st := by
    have hdone := Step.transaction_eq_ok h
    split at hdone
    · cases hdone
    · cases hdone
      rfl
  rcases h with h | ⟨st₁, hdrop, hcreate⟩
  · exact hcreating (f := fun st => st.emptied.created) h
  · cases hdrop
    exact hcreating hcreate

/-- In a database that was made anew the only tables are those whose names resemble the engine's own. Every other type
    starts from nothing: its tables are gone, and bringing them to a shape makes a set without rows, without index rows
    and with one for its first identity. -/
theorem newDatabase_empty {types : Schema → Prop} {st st' : Store} (hst : Reached types st) (hnew : MadeAnew st st') :
    (∀ name, st'.hasTable name = true → resembles name = true) ∧
      ∀ s : Schema, resembles s.stem = false →
        st'.hasTable s.structureTable = false ∧ st'.hasTable s.indexesTable = false ∧
        ∀ c : Client, c.closed = false → ∃ st'' t, c.perform (.upsert s) st' = (.ok .done, st'') ∧
          st''.set? s = some t ∧ t.rows = [] ∧ t.indexRows = [] ∧
          (s.idType.isIdentity = true → ∀ count, c.Reserves s count 1 st'') := by
  obtain rfl := hnew.eq
  have hever := hst.everywhere kept_ownIndexes
  have hemptied : Everywhere TableSet.OwnIndexes st.emptied := hever.of_sublist List.filter_sublist
  have hleft : Everywhere TableSet.OwnIndexes st.emptied.created := hemptied.of_sets rfl
  have hbare : st.emptied.created.Bare := by
    refine hleft.bare fun e he => ?_
    have hengine : isEngineName e.2.structureTable = true := (List.mem_filter.mp he).2
    exact resembles_of_structureTable (resembles_of_isEngineName hengine)
  refine ⟨fun name hname => hbare.table hname, fun s hs =>
    ⟨hbare.no_structureTable hs, hbare.no_indexesTable hs, fun c hc => ?_⟩⟩
  obtain ⟨st'', b, t, hdone, hb, hnext, hset, hrows, hindexRows⟩ :=
    hbare.upsert (b := {}) hs hleft.named rfl rfl
  have hclient : c.perform (.upsert s) st.emptied.created = (.ok .done, st'') := by
    have hopen : ¬c.closed = true := by
      rw [hc]
      exact Bool.false_ne_true
    rw [Client.perform, Step.map, Client.guarded, if_neg hopen, hdone]
  refine ⟨st'', t, hclient, hset, hrows, hindexRows, fun hidentity count => Client.reserves_of_ok hidentity hc ?_⟩
  have hgreatest : greatestId? t.rows = some 0 := by rw [hrows]; rfl
  rw [reserve_ok hb hset hgreatest, hnext]
  rfl

/-- Notes on queries. The name begins like the engine's word but does not go on like it. -/
def queryNoteSchema : Schema := .ofShape "" "SqlNote" .identity [⟨"Rank", "Integer", .integer, false, false⟩]

theorem newDatabase_empty_notes :
    let c : Client := {}
    let st := (Store.perform .create {}).2.after [(c, .upsert queryNoteSchema),
      (c, .insert queryNoteSchema (.identity 7) "Join" [⟨"Rank", .integer, .integer 5⟩])]
    let st' := (Store.perform .ensureNew st).2
    Reached (fun _ => True) st ∧ MadeAnew st st' ∧ resembles queryNoteSchema.stem = false ∧
      (st.set? queryNoteSchema).map (·.rows.length) = some 1 ∧ st'.hasTable queryNoteSchema.structureTable = false ∧
      ∃ st'' t, c.perform (.upsert queryNoteSchema) st' = (.ok .done, st'') ∧
        st''.set? queryNoteSchema = some t ∧ t.rows = [] ∧ t.indexRows = [] ∧ c.Reserves queryNoteSchema 3 1 st'' := by
  intro c st st'
  have hst : Reached (fun _ => True) st :=
    (Reached.manage (.opened ":memory:" false) .create).calls fun x _ => x.2.about_all
  have hrun : (Store.perform .ensureNew st).1 = .ok () ∧
      (st.set? queryNoteSchema).map (·.rows.length) = some 1 := by decide +kernel
  have hnew : MadeAnew st st' := Or.inl (Prod.ext hrun.1 rfl)
  have hname : resembles queryNoteSchema.stem = false := by decide
  obtain ⟨hrows, -, hupsert⟩ := (newDatabase_empty hst hnew).2 queryNoteSchema hname
  obtain ⟨st'', t, hdone, hset, hempty, hindexRows, hreserves⟩ := hupsert c rfl
  exact ⟨hst, hnew, hname, hrun.2, hrows, st'', t, hdone, hset, hempty, hindexRows, hreserves rfl 3⟩

/-- Notes whose name begins with the engine's word. -/
def sqliteNoteSchema : Schema := .ofShape "" "SqliteNote" .identity [⟨"Rank", "Integer", .integer, false, false⟩]

/-- The seventh of these notes is in a database made anew, with its index row, and the next identity is the eighth. -/
theorem newDatabase_keeps_notes :
    let c : Client := {}
    let st := (Store.perform .create {}).2.after [(c, .upsert sqliteNoteSchema),
      (c, .insert sqliteNoteSchema (.identity 7) "Join" [⟨"Rank", .integer, .integer 5⟩])]
    let st' := (Store.perform .ensureNew st).2
    let st'' := (c.perform (.upsert sqliteNoteSchema) st').2
    sqliteNoteSchema.Builds ∧ Reached (fun _ => True) st ∧ MadeAnew st st' ∧
      st'.hasTable sqliteNoteSchema.structureTable = true ∧
      c.perform (.upsert sqliteNoteSchema) st' = (.ok .done, st'') ∧
      (st''.set? sqliteNoteSchema).map (fun t => (t.rows.length, t.indexRows.length)) = some (1, 1) ∧
      c.Reserves sqliteNoteSchema 1 8 st'' := by
  intro c st st' st''
  have hbuilds : sqliteNoteSchema.Builds := Schema.builds_ofShape (by decide) rfl
  have hst : Reached (fun _ => True) st :=
    (Reached.manage (.opened ":memory:" false) .create).calls fun x _ => x.2.about_all
  have hrun : (Store.perform .ensureNew st).1 = .ok () ∧ st'.hasTable sqliteNoteSchema.structureTable = true ∧
      (c.perform (.upsert sqliteNoteSchema) st').1 = .ok .done ∧
      (st''.set? sqliteNoteSchema).map (fun t => (t.rows.length, t.indexRows.length)) = some (1, 1) ∧
      (c.perform (.reserve sqliteNoteSchema 1) st'').1 = .ok (.identity 8) := by decide +kernel
  obtain ⟨hnew, htable, hupsert, hdata, hreserves⟩ := hrun
  exact ⟨hbuilds, hst, Or.inl (Prod.ext hnew rfl), htable, Prod.ext hupsert rfl, hdata, hreserves⟩

end DocStore.Store
