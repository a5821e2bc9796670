import DocStore.Proofs.Store.Writes

/-! What calls do to the tables themselves. Bringing a set to its shape changes no other set, and the tables of the
    schema are there from then on; a call that neither does this nor drops a set changes rows at most. -/

namespace DocStore.Store

open Sql (Datum)

/-! ### Sets by their names -/

section
variable {st : Store} {s : Schema} {t t' : TableSet}

theorem Named.stem (hn : st.Named) (hset : st.set? s = some t) : folded t.stem = folded s.stem :=
  (hn _ (Assoc.mem_of_get? hset)).symm

theorem Named.putSet (hn : st.Named) (t : TableSet) : (st.putSet t).Named := by
  intro e he
  rcases Assoc.mem_insert he with rfl | hin
  · rfl
  · exact hn e hin

theorem Named.of_mem {st' : Store} (hn : st.Named) (hsets : ∀ e ∈ st'.sets, e ∈ st.sets) : st'.Named :=
  fun e he => hn e (hsets e he)

theorem Named.of_sets {st' : Store} (hn : st.Named) (hsets : st'.sets = st.sets) : st'.Named :=
  hn.of_mem fun _ he => hsets ▸ he

theorem set?_of_sets {st' : Store} (hsets : st'.sets = st.sets) (s : Schema) : st'.set? s = st.set? s := by
  rw [set?, set?, hsets]

theorem set?_putSet_self (hstem : folded t.stem = folded s.stem) : (st.putSet t).set? s = some t := by
  rw [set?_putSet, if_pos hstem]

theorem putSet_putSet (hstem : t'.stem = t.stem) : (st.putSet t).putSet t' = st.putSet t' := by
  rw [Store.putSet, Store.putSet, Store.putSet, hstem, Assoc.insert_insert]

theorem putSet_of_set? (hset : st.set? s = some t) (hstem : folded t.stem = folded s.stem) : st.putSet t = st := by
  rw [Store.putSet, hstem, Assoc.insert_of_get? hset]

end

/-! ### Reshaping -/

/-- From one store to the next nothing changes but the indexes and index rows of the set of a schema, which may be
    new. -/
structure Reshaped (s : Schema) (st st' : Store) : Prop where
  named : st'.Named
  bookkeeping : st'.bookkeeping = st.bookkeeping
  rows : ∀ {name t}, st.sets.get? name = some t → ∃ t', st'.sets.get? name = some t' ∧ TableSet.SameRows t t'
  others : ∀ name ≠ folded s.stem, st'.sets.get? name = st.sets.get? name

section
variable {s : Schema} {st st' st'' : Store} {t t' : TableSet}

theorem Reshaped.refl (hn : st.Named) : Reshaped s st st :=
  ⟨hn, rfl, fun {_ t} hget => ⟨t, hget, rfl, rfl, rfl⟩, fun _ _ => rfl⟩

theorem Reshaped.trans (h : Reshaped s st st') (h' : Reshaped s st' st'') : Reshaped s st st'' where
  named := h'.named
  bookkeeping := h'.bookkeeping.trans h.bookkeeping
  rows hget := by
    obtain ⟨t₁, hget₁, hsame₁⟩ := h.rows hget
    obtain ⟨t₂, hget₂, hsame₂⟩ := h'.rows hget₁
    exact ⟨t₂, hget₂, hsame₂.rows.trans hsame₁.rows, hsame₂.stem.trans hsame₁.stem,
      hsame₂.affinity.trans hsame₁.affinity⟩
  others name hne := (h'.others name hne).trans (h.others name hne)

theorem Reshaped.present (h : Reshaped s st st') (hset : (st.set? s).isSome) : (st'.set? s).isSome := by
  obtain ⟨t, hget⟩ := Option.isSome_iff_exists.mp hset
  obtain ⟨t', hget', -⟩ := h.rows hget
  exact Option.isSome_iff_exists.mpr ⟨t', hget'⟩

theorem Reshaped.putNew (hn : st.Named) (hset : st.set? s = none) (hstem : folded t.stem = folded s.stem) :
    Reshaped s st (st.putSet t) where
  named := hn.putSet t
  bookkeeping := rfl
  rows {name t₀} hget := by
    have hne : folded s.stem ≠ name := by
      rintro rfl
      rw [set?, hget] at hset
      cases hset
    exact ⟨t₀, by rw [Store.putSet, Assoc.get?_insert, hstem, if_neg hne, hget], rfl, rfl, rfl⟩
  others name hne := by rw [Store.putSet, Assoc.get?_insert, hstem, if_neg hne.symm]

theorem Reshaped.putSame (hn : st.Named) (hset : st.set? s = some t) (hsame : TableSet.SameRows t t') :
    Reshaped s st (st.putSet t') where
  named := hn.putSet t'
  bookkeeping := rfl
  rows {name t₀} hget := by
    rw [Store.putSet, Assoc.get?_insert, hsame.stem, hn.stem hset]
    split
    · rename_i hname
      rw [← hname] at hget
      cases hset.symm.trans hget
      exact ⟨t', rfl, hsame⟩
    · exact ⟨t₀, hget, rfl, rfl, rfl⟩
  others name hne := by rw [Store.putSet, Assoc.get?_insert, hsame.stem, hn.stem hset, if_neg hne.symm]

theorem withTables_reshaped (hn : st.Named) (h : withTables s st = .ok st') :
    Reshaped s st st' ∧ (st'.set? s).isSome := by
  rcases withTables_eq_ok h with ⟨rfl, hset⟩ | ⟨hset, rfl⟩
  · exact ⟨.refl hn, hset⟩
  · have hstem : folded ({ stem := s.stem, affinity := .ofIdType s.idType } : TableSet).stem = folded s.stem := rfl
    exact ⟨.putNew hn hset hstem, by rw [set?_putSet_self hstem]; rfl⟩

theorem ensureIndex_reshaped (hn : st.Named) {i : Index} (h : ensureIndex s st i = .ok st') : Reshaped s st st' := by
  rcases ensureIndex_eq_ok h with rfl | ⟨t, indexes, hset, rfl⟩
  · exact .refl hn
  · exact .putSame hn hset ⟨rfl, rfl, rfl⟩

theorem ensureIndexes_reshaped : ∀ {is : List Index} {st st' : Store}, st.Named →
    is.foldlM (ensureIndex s) st = .ok st' → Reshaped s st st'
  | [], _, _, hn, h => by
    cases h
    exact .refl hn
  | i :: is, st, st', hn, h => by
    rw [List.foldlM_cons] at h
    obtain ⟨st₁, hone, hrest⟩ := bind_eq_ok.mp h
    have hfirst := ensureIndex_reshaped hn hone
    exact hfirst.trans (ensureIndexes_reshaped hfirst.named hrest)

theorem shaped_reshaped (hn : st.Named) (h : shaped s st = .ok st') : Reshaped s st st' ∧ (st'.set? s).isSome := by
  obtain ⟨st₁, st₂, htables, hindexes, h⟩ := shaped_eq_ok h
  obtain ⟨hfirst, hpresent⟩ := withTables_reshaped hn htables
  have hsecond := ensureIndexes_reshaped hfirst.named hindexes
  rcases h with ⟨-, rfl⟩ | ⟨t, hset, rfl⟩
  · exact ⟨hfirst.trans hsecond, hsecond.present hpresent⟩
  · have hlast : Reshaped s st₂ (st₂.putSet (t.withoutStale s)) :=
      .putSame hsecond.named hset ⟨rfl, rfl, rfl⟩
    exact ⟨(hfirst.trans hsecond).trans hlast, hlast.present (hsecond.present hpresent)⟩

end

/-! ### Rows -/

/-- A set without what is in its tables. -/
def TableSet.shape (t : TableSet) : TableSet := { t with rows := [], indexRows := [] }

/-- From one store to the next nothing changes but rows and which identities come next. -/
structure Refilled (st st' : Store) : Prop where
  named : st'.Named
  fingerprints : st'.bookkeeping.map (·.fingerprints) = st.bookkeeping.map (·.fingerprints)
  shapes : ∀ name, (st'.sets.get? name).map (·.shape) = (st.sets.get? name).map (·.shape)

section
variable {s : Schema} {st st' st'' : Store}

theorem Refilled.of_sets (hn : st.Named) (hsets : st'.sets = st.sets)
    (hfingerprints : st'.bookkeeping.map (·.fingerprints) = st.bookkeeping.map (·.fingerprints)) : Refilled st st' :=
  ⟨hn.of_sets hsets, hfingerprints, fun name => by rw [hsets]⟩

theorem Refilled.refl (hn : st.Named) : Refilled st st := .of_sets hn rfl rfl

theorem Refilled.trans (h : Refilled st st') (h' : Refilled st' st'') : Refilled st st'' where
  named := h'.named
  fingerprints := h'.fingerprints.trans h.fingerprints
  shapes name := (h'.shapes name).trans (h.shapes name)

theorem Refilled.putSet (hn : st.Named) {t t' : TableSet} (hset : st.set? s = some t) (hshape : t'.shape = t.shape) :
    Refilled st (st.putSet t') where
  named := hn.putSet t'
  fingerprints := rfl
  shapes name := by
    have hstem : t'.shape.stem = t.shape.stem := congrArg TableSet.stem hshape
    change t'.stem = t.stem at hstem
    rw [Store.putSet, Assoc.get?_insert, hstem, hn.stem hset]
    split
    · rename_i hname
      rw [← hname]
      show some t'.shape = (st.set? s).map _
      rw [hset, hshape]
      rfl
    · rfl

end

/-- What a call that does not change the tables themselves does to a set. Index rows come from the entries it writes, and
    a row of another id from the id it adds. -/
inductive TableSet.RowChange (es : List IndexEntry) (added : Option DocId) (t : TableSet) : TableSet → Prop
  | insert {id : DocId} {payload : String} {t₁ t₂ : TableSet} (hadded : added = some id)
      (hrow : t.insertRow (t.idDatum id) payload = .ok t₁)
      (hentries : t₁.insertEntries (t.idDatum id) es = .ok t₂) : RowChange es added t t₂
  | replace {id : DocId} {payload : String} {t' : TableSet}
      (hfound : ∃ r ∈ t.rows, t.finds (t.idDatum id) r.id = true)
      (hentries : ((t.withPayload (t.idDatum id) payload).withoutIndexRows (same · (t.idDatum id))).insertEntries
        (t.idDatum id) es = .ok t') : RowChange es added t t'
  | deleteKeys (ids : List DocId) : RowChange es added t
      ((t.withoutIndexRows fun d => (ids.map t.idDatum).any (same d)).withoutRows (t.findsAny (ids.map t.idDatum)))
  | deleteInterval (low high : DocId) : RowChange es added t
      ((t.withoutIndexRows (within (t.idDatum low) (t.idDatum high))).withoutRows
        (within (t.idDatum low) (t.idDatum high)))

section
variable {es : List IndexEntry} {added : Option DocId} {t t' : TableSet}

theorem TableSet.RowChange.shape (h : t.RowChange es added t') : t'.shape = t.shape := by
  cases h with
  | insert _ hrow hentries =>
    rw [insertEntries_eq_ok hentries, (insertRow_eq_ok hrow).1]
    rfl
  | replace _ hentries =>
    rw [insertEntries_eq_ok hentries]
    rfl
  | deleteKeys | deleteInterval => rfl

theorem TableSet.RowChange.stem (h : t.RowChange es added t') : t'.stem = t.stem := by
  have hshape : t'.shape.stem = t.shape.stem := congrArg TableSet.stem h.shape
  exact hshape

theorem TableSet.RowChange.indexes (h : t.RowChange es added t') : t'.indexes = t.indexes := by
  have hshape : t'.shape.indexes = t.shape.indexes := congrArg TableSet.indexes h.shape
  exact hshape

theorem TableSet.RowChange.affinity (h : t.RowChange es added t') : t'.affinity = t.affinity := by
  have hshape : t'.shape.affinity = t.shape.affinity := congrArg TableSet.affinity h.shape
  exact hshape

/-- A row has the id of one that was there, or the id that was added. -/
theorem TableSet.RowChange.ids (h : t.RowChange es added t') {r : StructureRow} (hr : r ∈ t'.rows) :
    (∃ r₀ ∈ t.rows, r.id = r₀.id) ∨ ∃ id, added = some id ∧ r.id = t.idDatum id := by
  cases h with
  | insert hadded hrow hentries =>
    rw [insertEntries_eq_ok hentries, (insertRow_eq_ok hrow).1] at hr
    rcases List.mem_append.mp hr with hr | hr
    · exact Or.inl ⟨r, hr, rfl⟩
    · rw [List.mem_singleton.mp hr]
      exact Or.inr ⟨_, hadded, rfl⟩
  | replace _ hentries =>
    rw [insertEntries_eq_ok hentries] at hr
    obtain ⟨r₀, hr₀, rfl⟩ := List.mem_map.mp hr
    refine Or.inl ⟨r₀, hr₀, ?_⟩
    split <;> rfl
  | deleteKeys | deleteInterval => exact Or.inl ⟨r, (List.mem_filter.mp hr).1, rfl⟩

end

/-- A property of stores that is kept when the set that is written is put back with changed rows, and when the
    identities that come next are noted. -/
structure RowsKept (written : Option (Schema × List IndexEntry)) (added : Option DocId) (I : Store → Prop) : Prop where
  put : ∀ {st : Store} {s : Schema} {es : List IndexEntry} {t t' : TableSet}, written = some (s, es) → I st →
    st.set? s = some t → t.RowChange es added t' → I (st.putSet t')
  note : ∀ {st : Store} {b : Bookkeeping} (nextIds : Assoc Key Int), I st → st.bookkeeping = some b →
    I { st with bookkeeping := some { b with nextIds } }

theorem rowsKept_refilled (written : Option (Schema × List IndexEntry)) (added : Option DocId) (st : Store) :
    RowsKept written added (Refilled st) where
  put _ h hset hchange := h.trans (.putSet h.named hset hchange.shape)
  note nextIds h hb := h.trans (.of_sets h.named rfl (by rw [hb]; rfl))

theorem RowsKept.deleteChunks {I : Store → Prop} {s : Schema} {es : List IndexEntry} {added : Option DocId}
    (hI : RowsKept (some (s, es)) added I) :
    ∀ {parts : List (List DocId)} {st st' : Store} {n : Nat}, I st → Store.deleteChunks s st parts = .ok (n, st') →
      I st'
  | [], _, _, _, hst, h => by
    cases h
    exact hst
  | ids :: parts, st, st', n, hst, h => by
    obtain ⟨n₁, n₂, st₁, hone, hrest⟩ := deleteChunks_cons_eq_ok h
    obtain ⟨t, _, hset, rfl, rfl⟩ := deleteChunk_eq_ok hone
    exact hI.deleteChunks (hI.put rfl hst hset (.deleteKeys ids)) hrest

/-! ### Calls -/

/-- Whether a call changes the tables themselves. -/
def Client.Call.shapes : Client.Call → Bool
  | .upsert _ | .drop _ => true
  | _ => false

/-- The schema whose set a call writes, with the index entries that it writes. -/
def Client.Call.written? : Client.Call → Option (Schema × List IndexEntry)
  | .insert s _ _ es | .replace s _ _ es => some (s, es)
  | .deleteMany s _ | .deleteInterval s _ _ => some (s, [])
  | _ => none

/-- The id that a call adds. -/
def Client.Call.added? : Client.Call → Option DocId
  | .insert _ id .. => some id
  | _ => none

section
variable {s : Schema} {st st' : Store}

theorem upsert_named (hn : st.Named) {u : Unit} (h : upsert s st = (.ok u, st')) : st'.Named := by
  obtain ⟨b, -, ⟨-, rfl⟩ | ⟨st₁, hshaped, rfl⟩⟩ := upsert_eq_ok h
  · exact hn
  · exact (shaped_reshaped hn hshaped).1.named.of_sets rfl

theorem drop_named (hn : st.Named) {u : Unit} (h : drop s st = (.ok u, st')) : st'.Named :=
  hn.of_mem fun _ he => (List.mem_filter.mp (drop_sets h ▸ he)).1

namespace Client

theorem perform_rows {I : Store → Prop} (c : Client) {call : Call} (hI : RowsKept call.written? call.added? I)
    (hcall : call.shapes = false) : Step.Keeps I (c.perform call) := by
  cases call with
  | upsert | drop => cases hcall
  | insert => exact .map (c.guarded_keeps (.transaction _) fun hst hdone => by
      obtain ⟨t, t₁, t₂, hset, hrow, hentries, rfl⟩ := insert_eq_ok hdone
      exact hI.put rfl hst hset (.insert rfl hrow hentries))
  | replace => exact .map (c.guarded_keeps (.transaction _) fun hst hdone => by
      obtain ⟨t, t', hset, hfound, hentries, rfl⟩ := replace_eq_ok hdone
      exact hI.put rfl hst hset (.replace hfound hentries))
  | deleteMany => exact .map (c.guarded_keeps (.transaction _) fun hst hdone =>
      hI.deleteChunks hst (writing_eq_ok hdone))
  | deleteInterval => exact .map (c.guarded_keeps (.transaction _) fun hst hdone => by
      obtain ⟨t, p, hset, rfl, rfl⟩ := deleteInterval_eq_ok hdone
      exact hI.put rfl hst hset (.deleteInterval ..))
  | reserve => exact .map (.andThen (.checked _) fun _ => c.guarded_keeps (.transaction _) fun hst hdone => by
      obtain ⟨b, t, n, hb, -, -, -, rfl⟩ := Store.reserve_eq_ok hdone
      exact hI.note _ hst hb)
  | _ => exact .map (guarded_ensures (.of_reads fun _ => rfl) c)

/-- A call that does not change the tables themselves changes rows at most. -/
theorem perform_refilled (c : Client) {call : Call} (hcall : call.shapes = false) (st : Store) :
    Step.Keeps (Refilled st) (c.perform call) :=
  c.perform_rows (rowsKept_refilled _ _ st) hcall

theorem perform_named (c : Client) (call : Call) : Step.Keeps Named (c.perform call) := by
  cases call with
  | upsert => exact .map (c.guarded_keeps (.transaction _) fun hn hdone => upsert_named hn hdone)
  | drop => exact .map (c.guarded_keeps (.transaction _) fun hn hdone => drop_named hn hdone)
  | _ => exact .of_state fun st hn => (perform_refilled c rfl st st (.refl hn)).1.named

end Client

end

end DocStore.Store
