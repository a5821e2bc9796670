import DocStore.Proofs.Store.Shapes

/-! Writes as a whole. A write is made of statements that change the tables one by one, and a later one may fail when
    earlier ones were carried out. What the store does is to carry the statements of a write out in their order and,
    if one of them fails, to undo those before it. -/

namespace DocStore

/-! ### Steps that are undone -/

namespace Step

variable {ε σ α β : Type}

/-- Carries a step out and, if it fails, undoes what it did. -/
def orUndone (m : Step ε σ α) : Step ε σ α := fun s =>
  match m s with
  | (.ok a, s') => (.ok a, s')
  | (.error e, _) => (.error e, s)

/-- A step ends as a change at once would. Where it fails, what it did until then does not matter. -/
def EndsAs (m : Step ε σ α) (s : σ) : Except ε (α × σ) → Prop
  | .ok (a, s') => m s = (.ok a, s')
  | .error e => (m s).1 = .error e

section
variable {m : Step ε σ α} {f : σ → Except ε (α × σ)} {s s' : σ} {r : Except ε (α × σ)}

theorem EndsAs.transaction (h : m.EndsAs s (f s)) : Step.transaction f s = m.orUndone s := by
  rw [Step.transaction, orUndone]
  cases hf : f s with
  | ok x =>
    rw [hf] at h
    have hm : m s = (.ok x.1, x.2) := h
    rw [hm]
  | error e =>
    rw [hf] at h
    have hm : m s = (.error e, (m s).2) := Prod.ext h rfl
    rw [hm]

theorem endsAs_transaction (f : σ → Except ε (α × σ)) (s : σ) : (Step.transaction f).EndsAs s (f s) := by
  rw [EndsAs.eq_def]
  split
  · exact transaction_ok ‹_›
  · rw [transaction_error ‹_›]

theorem EndsAs.of_ok {a : α} {k : α → Step ε σ β} {r : Except ε (β × σ)} (hm : m s = (.ok a, s'))
    (hk : (k a).EndsAs s' r) : (m >>= k).EndsAs s r := by
  unfold EndsAs at hk ⊢
  rw [bind_ok hm]
  exact hk

theorem EndsAs.of_error {e : ε} {k : α → Step ε σ β} (hm : (m s).1 = .error e) :
    (m >>= k).EndsAs s (.error e) := by
  have herror : m s = (.error e, (m s).2) := Prod.ext hm rfl
  show ((m >>= k) s).1 = _
  rw [bind_error herror]

/-- Whether what was answered is put otherwise does not matter. -/
theorem map_orUndone (f : α → β) : m.orUndone.map f s = (m.map f).orUndone s := by
  rw [Step.map, orUndone, orUndone, Step.map]
  cases m s with
  | mk r s' => cases r <;> rfl

theorem orUndone_of_reads (h : (m s).2 = s) : m.orUndone s = m s := by
  rw [orUndone]
  cases hm : m s with
  | mk r s' =>
    rw [hm] at h
    cases h
    cases r <;> rfl

end

end Step

namespace Store

open Sql (Datum)

/-! ### Statements about one set -/

/-- The store with another set in the place of that of a schema. -/
def withSet (st : Store) (s : Schema) (t : TableSet) : Store := { st with sets := st.sets.insert (folded s.stem) t }

/-- A statement about the set of a schema, of which it names one table. -/
def statement {α : Type} (s : Schema) (table : String) (f : TableSet → Except StoreError (α × TableSet)) : Do α :=
  writing fun st =>
    match st.set? s with
    | none => .error (.queryFailed (noTable table))
    | some t => (f t).map fun (a, t') => (a, st.withSet s t')

/-- A step that ends as a change of the set of a schema does, if there is one. -/
def OnSet {α : Type} (s : Schema) (m : Do α) (f : TableSet → Except StoreError (α × TableSet)) : Prop :=
  ∀ ⦃st : Store⦄ ⦃t : TableSet⦄, st.set? s = some t →
    m.EndsAs st (((f t).map fun (a, t') => (a, st.withSet s t')).mapError Error.store)

section
variable {α β : Type} {st : Store} {s : Schema} {t t' : TableSet}

theorem set?_withSet (st : Store) (s : Schema) (t : TableSet) : (st.withSet s t).set? s = some t := by
  rw [set?, withSet, Assoc.get?_insert, if_pos rfl]

theorem withSet_withSet (st : Store) (s : Schema) (t t' : TableSet) :
    (st.withSet s t).withSet s t' = st.withSet s t' := by
  rw [withSet, withSet, withSet, Assoc.insert_insert]

theorem withSet_self (hset : st.set? s = some t) : st.withSet s t = st := by
  rw [withSet, Assoc.insert_of_get? hset]

/-- A set that keeps its stem is put back where it was. -/
theorem Named.putSet_eq (hn : st.Named) (hset : st.set? s = some t) (hstem : t'.stem = t.stem) :
    st.putSet t' = st.withSet s t' := by
  rw [Store.putSet, withSet, hstem, hn.stem hset]

theorem statement_none {table : String} {f : TableSet → Except StoreError (α × TableSet)} (hset : st.set? s = none) :
    (statement s table f st).1 = .error (.store (.queryFailed (noTable table))) := by
  rw [statement, writing, Step.transaction_error]
  rw [hset]
  rfl

theorem onSet_statement (table : String) (f : TableSet → Except StoreError (α × TableSet)) :
    OnSet s (statement s table f) f := by
  intro st t hset
  have h : (statement s table f).EndsAs st _ := Step.endsAs_transaction _ st
  dsimp only at h
  rw [hset] at h
  exact h

theorem onSet_pure (a : α) : OnSet s (pure a) fun t => .ok (a, t) := by
  intro st t hset
  show (pure a : Do α) st = (.ok a, st.withSet s t)
  rw [withSet_self hset, Step.pure_apply]

theorem onSet_fail (e : StoreError) : OnSet s (Step.fail (.store e) : Do α) fun _ => .error e :=
  fun _ _ _ => rfl

theorem OnSet.congr {m : Do α} {f g : TableSet → Except StoreError (α × TableSet)} (hm : OnSet s m f)
    (h : ∀ t, f t = g t) : OnSet s m g :=
  funext h ▸ hm

theorem OnSet.bind {m : Do α} {k : α → Do β} {f : TableSet → Except StoreError (α × TableSet)}
    {g : α → TableSet → Except StoreError (β × TableSet)} (hm : OnSet s m f) (hk : ∀ a, OnSet s (k a) (g a)) :
    OnSet s (m >>= k) fun t => f t >>= fun (a, t') => g a t' := by
  intro st t hset
  have hfirst := hm hset
  dsimp only
  cases hf : f t with
  | error e =>
    rw [hf] at hfirst
    exact .of_error hfirst
  | ok x =>
    rw [hf] at hfirst
    have hrest := hk x.1 (set?_withSet st s x.2)
    simp only [withSet_withSet] at hrest
    exact .of_ok hfirst hrest

theorem writing_eq_orUndone {m : Do α} {g : Store → Except StoreError (α × Store)}
    (hm : m.EndsAs st ((g st).mapError Error.store)) : writing g st = m.orUndone st :=
  Step.EndsAs.transaction hm

/-- A write that changes one set, as the statements about it. -/
theorem OnSet.writing {m : Do α} {f : TableSet → Except StoreError (α × TableSet)}
    {g : Store → Except StoreError (α × Store)} (hm : OnSet s m f) (hset : st.set? s = some t)
    (hg : g st = (f t).map fun (a, t') => (a, st.withSet s t')) : writing g st = m.orUndone st := by
  refine writing_eq_orUndone ?_
  rw [hg]
  exact hm hset

/-- A write that misses its set fails as the first statement does. -/
theorem writing_none {table : String} {f : TableSet → Except StoreError (α × TableSet)} {k : α → Do β}
    {g : Store → Except StoreError (β × Store)} (hset : st.set? s = none)
    (hg : g st = .error (.queryFailed (noTable table))) :
    writing g st = (statement s table f >>= k).orUndone st := by
  refine writing_eq_orUndone ?_
  rw [hg]
  exact .of_error (statement_none hset)

end

def addRow (s : Schema) (id : DocId) (payload : String) : Do Unit := statement s s.structureTable fun t =>
  (t.insertRow (t.idDatum id) payload).map ((), ·)

def addIndexRow (s : Schema) (id : DocId) (e : IndexEntry) : Do Unit := statement s s.indexesTable fun t =>
  (t.insertIndexRow (TableSet.rowOf (t.idDatum id) e)).map ((), ·)

/-- Changes the payload of an id; tells how many rows there were. -/
def setPayload (s : Schema) (id : DocId) (payload : String) : Do Nat := statement s s.structureTable fun t =>
  let p := t.finds (t.idDatum id)
  .ok ((t.rowsWhere p).length, { t with rows := t.rows.map fun r => if p r.id then { r with payload } else r })

def deleteIndexRows (s : Schema) (p : TableSet → Datum → Bool) : Do Unit := statement s s.indexesTable fun t =>
  .ok ((), t.withoutIndexRows (p t))

/-- Deletes structures; tells how many there were. -/
def deleteRows (s : Schema) (p : TableSet → Datum → Bool) : Do Nat := statement s s.structureTable fun t =>
  .ok ((t.rowsWhere (p t)).length, t.withoutRows (p t))

/-! ### Inserting, replacing and deleting -/

def insertStatements (s : Schema) (id : DocId) (payload : String) (es : List IndexEntry) : Do Unit := do
  addRow s id payload
  Step.forEach (addIndexRow s id) es

def replaceStatements (s : Schema) (id : DocId) (payload : String) (es : List IndexEntry) : Do Unit := do
  let n ← setPayload s id payload
  if n = 0 then Step.fail (.store (.notFound s.key.text id.text))
  else
    deleteIndexRows s fun t => (same · (t.idDatum id))
    Step.forEach (addIndexRow s id) es

/-- Deletes structures after their index rows; tells how many there were. -/
def deleteWhere (s : Schema) (q p : TableSet → Datum → Bool) : Do Nat := do
  deleteIndexRows s q
  deleteRows s p

def deleteChunkStatements (s : Schema) (ids : List DocId) : Do Nat :=
  deleteWhere s (fun t d => (ids.map t.idDatum).any (same d)) fun t => t.findsAny (ids.map t.idDatum)

def deleteChunksStatements (s : Schema) : List (List DocId) → Do Nat
  | [] => pure 0
  | ids :: rest => do
    let n ← deleteChunkStatements s ids
    let m ← deleteChunksStatements s rest
    pure (n + m)

def deleteIntervalStatements (s : Schema) (low high : DocId) : Do Nat :=
  deleteWhere s (fun t => within (t.idDatum low) (t.idDatum high)) fun t => within (t.idDatum low) (t.idDatum high)

section
variable {st : Store} {s : Schema} {id : DocId} {payload : String} {es : List IndexEntry}

theorem insertIndexRow_idDatum {t t' : TableSet} {r : IndexRow} (h : t.insertIndexRow r = .ok t') (id : DocId) :
    t'.idDatum id = t.idDatum id := by
  rw [TableSet.insertIndexRow] at h
  split at h <;> cases h
  rfl

theorem onSet_addIndexRows : ∀ {es : List IndexEntry}, OnSet s (Step.forEach (addIndexRow s id) es) fun t =>
    (t.insertEntries (t.idDatum id) es).map ((), ·)
  | [] => onSet_pure ()
  | e :: es => by
    have hrest : OnSet s (Step.forEach (addIndexRow s id) es) _ := onSet_addIndexRows
    refine ((onSet_statement s.indexesTable _).bind fun _ => hrest).congr fun t => ?_
    have hrow : t.insertIndexRow ⟨t.idDatum id, e.path, e.code, .ofValue e.value⟩ =
        t.insertIndexRow (TableSet.rowOf (t.idDatum id) e) := rfl
    rw [TableSet.insertEntries, hrow]
    show (t.insertIndexRow (TableSet.rowOf (t.idDatum id) e)).map _ >>= _ = _
    cases hone : t.insertIndexRow (TableSet.rowOf (t.idDatum id) e) with
    | error err => rfl
    | ok t' =>
      -- the next row is written under the same datum
      show (t'.insertEntries (t'.idDatum id) es).map _ = _
      rw [insertIndexRow_idDatum hone]

theorem insert_eq_orUndone (hn : st.Named) :
    insert s id payload es st = (insertStatements s id payload es).orUndone st := by
  cases hset : st.set? s with
  | none => exact writing_none hset (by rw [structureSet_none hset]; rfl)
  | some t =>
    refine ((onSet_statement s.structureTable _).bind fun _ => onSet_addIndexRows).writing hset ?_
    rw [structureSet_some hset]
    show (t.insertRow (t.idDatum id) payload >>= fun t₁ => t₁.insertEntries (t.idDatum id) es >>= fun t₂ =>
      Except.ok ((), st.putSet t₂)) = _
    cases hrow : t.insertRow (t.idDatum id) payload with
    | error e => rfl
    | ok t₁ =>
      have heq := (TableSet.insertRow_eq_ok hrow).1
      have hdatum : t₁.idDatum id = t.idDatum id := by rw [heq]; rfl
      show (t₁.insertEntries (t.idDatum id) es >>= _) =
        ((t₁.insertEntries (t₁.idDatum id) es).map _).map _
      rw [hdatum]
      cases hentries : t₁.insertEntries (t.idDatum id) es with
      | error e => rfl
      | ok t₂ =>
        have hstem : t₂.stem = t.stem := by rw [(TableSet.insertEntries_sameRows hentries).stem, heq]
        exact congrArg (fun st => Except.ok ((), st)) (hn.putSet_eq hset hstem)

/-- The payload is changed where the id is found, and the index rows are written anew. -/
theorem onSet_replaceStatements : OnSet s (replaceStatements s id payload es) fun t =>
    if t.rows.any fun r => t.finds (t.idDatum id) r.id then
      (((t.withPayload (t.idDatum id) payload).withoutIndexRows (same · (t.idDatum id))).insertEntries
        (t.idDatum id) es).map ((), ·)
    else .error (.notFound s.key.text id.text) := by
  have hrest (n : Nat) : OnSet s
      (if n = 0 then Step.fail (.store (.notFound s.key.text id.text))
        else do
          deleteIndexRows s fun t => (same · (t.idDatum id))
          Step.forEach (addIndexRow s id) es) fun t =>
      if n = 0 then .error (.notFound s.key.text id.text)
      else ((t.withoutIndexRows (same · (t.idDatum id))).insertEntries (t.idDatum id) es).map ((), ·) := by
    split
    · exact onSet_fail _
    · exact (onSet_statement s.indexesTable _).bind fun _ => onSet_addIndexRows
  refine ((onSet_statement s.structureTable _).bind hrest).congr fun t => ?_
  have hcount : (t.rowsWhere (t.finds (t.idDatum id))).length = 0 ↔
      ¬t.rows.any (fun r => t.finds (t.idDatum id) r.id) := by
    rw [List.length_eq_zero_iff, TableSet.rowsWhere, List.filter_eq_nil_iff, List.any_eq_true]
    simp only [not_exists, not_and]
  by_cases hany : t.rows.any fun r => t.finds (t.idDatum id) r.id
  · -- an id that is found at all is found by what is the same
    have hkey : t.isKey (t.idDatum id) = true := by
      obtain ⟨r, -, hfinds⟩ := List.any_eq_true.mp hany
      exact (Bool.and_eq_true_iff.mp hfinds).1
    have hfinds (d : Datum) : t.finds (t.idDatum id) d = same d (t.idDatum id) := by
      rw [TableSet.finds, hkey, Bool.true_and]
    show ite _ _ _ = ite _ _ _
    rw [if_pos hany, if_neg (hcount.not.mpr (not_not.mpr hany))]
    simp only [hfinds]
    rfl
  · show ite _ _ _ = ite _ _ _
    rw [if_neg hany, if_pos (hcount.mpr hany)]

theorem replace_eq_orUndone (hn : st.Named) :
    replace s id payload es st = (replaceStatements s id payload es).orUndone st := by
  cases hset : st.set? s with
  | none => exact writing_none hset (by rw [structureSet_none hset]; rfl)
  | some t =>
    refine onSet_replaceStatements.writing hset ?_
    rw [structureSet_some hset]
    show (if !t.rows.any (fun r => t.finds (t.idDatum id) r.id) then
      throw (StoreError.notFound s.key.text id.text) >>= fun _ => _ else _) = _
    cases hany : t.rows.any fun r => t.finds (t.idDatum id) r.id with
    | false => rfl
    | true =>
      show (TableSet.insertEntries _ _ es >>= fun t' => Except.ok ((), st.putSet t')) =
        ((TableSet.insertEntries _ _ es).map _).map _
      cases hentries : ((t.withPayload (t.idDatum id) payload).withoutIndexRows (same · (t.idDatum id))).insertEntries
          (t.idDatum id) es with
      | error e => rfl
      | ok t' =>
        have hstem : t'.stem = t.stem := (TableSet.insertEntries_sameRows hentries).stem
        exact congrArg (fun st => Except.ok ((), st)) (hn.putSet_eq hset hstem)

theorem onSet_deleteWhere {q p : TableSet → Datum → Bool} (hp : ∀ t, p (t.withoutIndexRows (q t)) = p t) :
    OnSet s (deleteWhere s q p) fun t =>
      .ok ((t.rowsWhere (p t)).length, (t.withoutIndexRows (q t)).withoutRows (p t)) := by
  refine ((onSet_statement s.indexesTable _).bind fun _ => onSet_statement s.structureTable _).congr fun t => ?_
  show Except.ok (_, (t.withoutIndexRows (q t)).withoutRows (p (t.withoutIndexRows (q t)))) = _
  rw [hp]
  rfl

theorem deleteChunk_endsAs (hn : st.Named) (ids : List DocId) :
    (deleteChunkStatements s ids).EndsAs st ((deleteChunk s st ids).mapError Error.store) := by
  cases hset : st.set? s with
  | none =>
    rw [deleteChunk, indexSet, hset]
    exact .of_error (statement_none hset)
  | some t =>
    rw [deleteChunk, indexSet, hset]
    show Step.EndsAs _ st (.ok (_, st.putSet _))
    rw [hn.putSet_eq hset]
    · exact onSet_deleteWhere (fun _ => rfl) hset
    · rfl

theorem deleteChunks_endsAs : ∀ {parts : List (List DocId)} {st : Store}, st.Named →
    (deleteChunksStatements s parts).EndsAs st ((deleteChunks s st parts).mapError Error.store)
  | [], _, _ => rfl
  | ids :: parts, st, hn => by
    have hone := deleteChunk_endsAs (s := s) hn ids
    rw [deleteChunks]
    cases hr : deleteChunk s st ids with
    | error e =>
      rw [hr] at hone
      exact .of_error hone
    | ok x =>
      obtain ⟨n, st₁⟩ := x
      rw [hr] at hone
      obtain ⟨t, _, -, -, heq⟩ := deleteChunk_eq_ok hr
      have hrest : (deleteChunksStatements s parts).EndsAs st₁ _ := deleteChunks_endsAs (heq ▸ hn.putSet _)
      refine .of_ok hone ?_
      dsimp only
      cases hm : deleteChunks s st₁ parts with
      | error e =>
        rw [hm] at hrest
        exact .of_error hrest
      | ok y =>
        rw [hm] at hrest
        exact .of_ok hrest rfl

theorem deleteMany_eq_orUndone (hn : st.Named) (ids : List DocId) :
    deleteMany s ids st = (deleteChunksStatements s (idChunks ids)).orUndone st :=
  writing_eq_orUndone (deleteChunks_endsAs hn)

theorem deleteInterval_eq_orUndone (hn : st.Named) (low high : DocId) :
    deleteInterval s low high st = (deleteIntervalStatements s low high).orUndone st := by
  cases hset : st.set? s with
  | none => exact writing_none hset (by rw [indexSet, hset]; rfl)
  | some t =>
    refine (onSet_deleteWhere fun _ => rfl).writing hset ?_
    rw [indexSet, hset]
    show Except.ok (_, st.putSet _) = Except.ok (_, st.withSet s _)
    rw [hn.putSet_eq hset]
    rfl

end

/-! ### Bookkeeping -/

/-- A statement about the bookkeeping. -/
def noting (missing : Error) (f : Bookkeeping → Bookkeeping) : Do Unit := Step.transaction fun st =>
  match st.bookkeeping with
  | none => .error missing
  | some b => .ok ((), { st with bookkeeping := some (f b) })

/-- Reads an entry of the bookkeeping. -/
def noted {α : Type} (missing : Error) (f : Bookkeeping → α) : Do α := Step.query fun st =>
  match st.bookkeeping with
  | none => .error missing
  | some b => .ok (f b)

def readGreatestId (s : Schema) : Do Int := reading fun st => do
  let t ← st.structureSet s
  match greatestId? t.rows with
  | none => throw noGreatestId
  | some n => pure n

def reserveStatements (s : Schema) (count : Nat) : Do Int := do
  let next ← noted (.store (.queryFailed noIdentities)) (·.nextIds.get? s.key)
  let greatest ← readGreatestId s
  let first := max (next.getD 1) (greatest + 1)
  noting (.store (.queryFailed noIdentities)) fun b => { b with nextIds := b.nextIds.insert s.key (first + count) }
  pure first

def dropStatements (s : Schema) : Do Unit := do
  Step.update fun st => { st with sets := st.sets.erase (folded s.stem) }
  noting (schemaFailed s noSchemas) fun b => { b with fingerprints := b.fingerprints.erase s.key }
  noting (schemaFailed s noIdentities) fun b => { b with nextIds := b.nextIds.erase s.key }

section
variable {α : Type} {st : Store} {s : Schema} {missing : Error}

theorem noting_none {f : Bookkeeping → Bookkeeping} (hb : st.bookkeeping = none) :
    noting missing f st = (.error missing, st) := by
  rw [noting, Step.transaction_error]
  rw [hb]

theorem noting_some {f : Bookkeeping → Bookkeeping} {b : Bookkeeping} (hb : st.bookkeeping = some b) :
    noting missing f st = (.ok (), { st with bookkeeping := some (f b) }) := by
  rw [noting, Step.transaction_ok]
  rw [hb]

theorem noted_none {f : Bookkeeping → α} (hb : st.bookkeeping = none) :
    noted missing f st = (.error missing, st) := by
  rw [noted, Step.query, hb]

theorem noted_some {f : Bookkeeping → α} {b : Bookkeeping} (hb : st.bookkeeping = some b) :
    noted missing f st = (.ok (f b), st) := by
  rw [noted, Step.query, hb]

theorem readGreatestId_error {e : StoreError} (hset : st.structureSet s = .error e) :
    readGreatestId s st = (.error (.store e), st) := by
  rw [readGreatestId, reading, Step.query, hset]
  rfl

theorem readGreatestId_ok {t : TableSet} (hset : st.structureSet s = .ok t) :
    readGreatestId s st = ((greatestId? t.rows).elim (.error (.store noGreatestId)) .ok, st) := by
  rw [readGreatestId, reading, Step.query, hset]
  show (Except.mapError Error.store (match greatestId? t.rows with
    | none => throw noGreatestId
    | some n => pure n), st) = _
  cases greatestId? t.rows <;> rfl

theorem reserve_eq_orUndone (s : Schema) (count : Nat) :
    reserve s count st = (reserveStatements s count).orUndone st := by
  refine writing_eq_orUndone ?_
  cases hb : st.bookkeeping with
  | none => exact .of_error (congrArg Prod.fst (noted_none hb))
  | some b =>
    refine .of_ok (noted_some hb) ?_
    cases hset : st.structureSet s with
    | error e => exact .of_error (congrArg Prod.fst (readGreatestId_error hset))
    | ok t =>
      have hread := readGreatestId_ok hset
      show Step.EndsAs _ st (Except.mapError Error.store (match greatestId? t.rows with
        | none => throw noGreatestId
        | some n => _))
      cases hgreatest : greatestId? t.rows with
      | none =>
        rw [hgreatest] at hread
        exact .of_error (congrArg Prod.fst hread)
      | some n =>
        rw [hgreatest] at hread
        exact .of_ok hread (.of_ok (noting_some hb) rfl)

theorem drop_eq_orUndone (s : Schema) : drop s st = (dropStatements s).orUndone st := by
  refine Step.EndsAs.transaction ?_
  cases hb : st.bookkeeping with
  | none =>
    have hdropped : ({ st with sets := st.sets.erase (folded s.stem) } : Store).bookkeeping = none := hb
    exact .of_ok rfl (.of_error (congrArg Prod.fst (noting_none hdropped)))
  | some b =>
    let dropped : Store := { st with sets := st.sets.erase (folded s.stem) }
    have hdropped : dropped.bookkeeping = some b := hb
    have hforgotten : ({ dropped with bookkeeping := some { b with fingerprints := b.fingerprints.erase s.key } } :
      Store).bookkeeping = some { b with fingerprints := b.fingerprints.erase s.key } := rfl
    exact .of_ok rfl (.of_ok (noting_some hdropped) (noting_some hforgotten))

end

/-! ### Shapes -/

/-- A statement that changes tables or indexes. -/
def defining (s : Schema) (f : Store → Except String Store) : Do Unit := Step.transaction fun st =>
  ((f st).mapError (schemaFailed s)).map ((), ·)

/-- Deletes the index rows of members that a schema does not have. -/
def deleteStale (s : Schema) : Do Unit := defining s fun st =>
  match st.set? s with
  | none => .error (noTable s.indexesTable)
  | some t => .ok (st.withSet s (t.withoutStale s))

def shapeStatements (s : Schema) : Do Unit := do
  defining s (withTables s)
  Step.forEach (fun i => defining s (ensureIndex s · i)) (indexesOf s)
  deleteStale s

def upsertStatements (s : Schema) : Do Unit := do
  let stored ← noted (.store (.databaseFailed ("database is not initialized: " ++ noSchemas)))
    (·.fingerprints.get? s.key)
  if stored = some s.fingerprint then pure ()
  else
    shapeStatements s
    noting (schemaFailed s noSchemas) fun b => { b with fingerprints := b.fingerprints.insert s.key s.fingerprint }

section
variable {st st' : Store} {s : Schema}

theorem defining_ok {f : Store → Except String Store} (h : f st = .ok st') : defining s f st = (.ok (), st') := by
  rw [defining, Step.transaction_ok]
  rw [h]
  rfl

theorem defining_error {f : Store → Except String Store} {reason : String} (h : f st = .error reason) :
    defining s f st = (.error (schemaFailed s reason), st) := by
  rw [defining, Step.transaction_error]
  rw [h]
  rfl

theorem deleteStale_some {t : TableSet} (hset : st.set? s = some t) :
    deleteStale s st = (.ok (), st.withSet s (t.withoutStale s)) := by
  refine defining_ok ?_
  rw [hset]

theorem indexes_endsAs : ∀ {is : List Index} {st : Store},
    (Step.forEach (fun i => defining s (ensureIndex s · i)) is).EndsAs st
      (((is.foldlM (ensureIndex s) st).mapError (schemaFailed s)).map ((), ·))
  | [], _ => rfl
  | i :: is, st => by
    rw [List.foldlM_cons]
    cases hone : ensureIndex s st i with
    | error reason => exact .of_error (congrArg Prod.fst (defining_error hone))
    | ok st₁ => exact .of_ok (defining_ok hone) indexes_endsAs

/-- When the stale rows are deleted, the table that they are deleted from is there. -/
theorem shape_endsAs (hn : st.Named) : (shapeStatements s).EndsAs st
    (((shaped s st).mapError (schemaFailed s)).map ((), ·)) := by
  rw [shaped]
  cases htables : withTables s st with
  | error reason => exact .of_error (congrArg Prod.fst (defining_error htables))
  | ok st₁ =>
    refine .of_ok (defining_ok htables) ?_
    obtain ⟨hfirst, hpresent⟩ := withTables_reshaped hn htables
    have hall : (Step.forEach (fun i => defining s (ensureIndex s · i)) (indexesOf s)).EndsAs st₁ _ := indexes_endsAs
    show Step.EndsAs _ st₁ (((((indexesOf s).foldlM (ensureIndex s) st₁ >>= _)).mapError _).map _)
    cases hindexes : (indexesOf s).foldlM (ensureIndex s) st₁ with
    | error reason =>
      rw [hindexes] at hall
      exact .of_error hall
    | ok st₂ =>
      rw [hindexes] at hall
      refine .of_ok hall ?_
      have hsecond := ensureIndexes_reshaped hfirst.named hindexes
      obtain ⟨t, hset⟩ := Option.isSome_iff_exists.mp (hsecond.present hpresent)
      dsimp only [bind, Except.bind]
      rw [hset]
      dsimp only [pure, Except.pure]
      rw [hsecond.named.putSet_eq hset]
      · exact deleteStale_some hset
      · rfl

theorem upsert_eq_orUndone (hn : st.Named) : upsert s st = (upsertStatements s).orUndone st := by
  refine Step.EndsAs.transaction ?_
  cases hb : st.bookkeeping with
  | none => exact .of_error (congrArg Prod.fst (noted_none hb))
  | some b =>
    refine .of_ok (noted_some hb) ?_
    dsimp only
    split
    · rfl
    · have hshape := shape_endsAs (s := s) hn
      cases hshaped : shaped s st with
      | error reason =>
        rw [hshaped] at hshape
        exact .of_error hshape
      | ok st₁ =>
        rw [hshaped] at hshape
        refine .of_ok hshape ?_
        have hb₁ : st₁.bookkeeping = some b := (shaped_reshaped hn hshaped).1.bookkeeping.trans hb
        show noting _ _ _ = (.ok (), _)
        exact noting_some hb₁

end

namespace Client

/-! ### Clients -/

/-- Carries out what a call of a client is made of, and leaves what was done if a part of it fails. -/
def issue (c : Client) : Call → Do Reply
  | .upsert s => (c.guarded (upsertStatements s)).map fun _ => .done
  | .drop s => (c.guarded (dropStatements s)).map fun _ => .done
  | .reserve s n => (do
      Step.ofExcept (checkIdentities "reserve_identities" s)
      c.guarded (reserveStatements s n) : Do Int).map .identity
  | .insert s id payload es => (c.guarded (insertStatements s id payload es)).map fun _ => .done
  | .replace s id payload es => (c.guarded (replaceStatements s id payload es)).map fun _ => .done
  | .deleteMany s ids => (c.guarded (deleteChunksStatements s (idChunks ids))).map .number
  | .deleteInterval s low high => (c.guarded (deleteIntervalStatements s low high)).map .number
  | call => c.perform call

section
variable {α β : Type} {st : Store} {m m' : Do α}

theorem guarded_orUndone (c : Client) (h : m st = m'.orUndone st) : c.guarded m st = (c.guarded m').orUndone st := by
  rw [guarded, guarded]
  split
  · rfl
  · exact h

theorem map_eq_orUndone (f : α → β) (h : m st = m'.orUndone st) : m.map f st = (m'.map f).orUndone st := by
  rw [← Step.map_orUndone, Step.map, Step.map, h]

/-- A read changes nothing, so there is nothing to undo. -/
theorem read_eq_orUndone (c : Client) (f : α → Reply) (h : (m st).2 = st) :
    (c.guarded m).map f st = ((c.guarded m).map f).orUndone st :=
  (Step.orUndone_of_reads ((Step.map_state ..).trans (c.guarded_reads h))).symm

theorem perform_eq_orUndone (hn : st.Named) (c : Client) (call : Call) :
    c.perform call st = (c.issue call).orUndone st := by
  cases call with
  | upsert s => exact map_eq_orUndone _ (c.guarded_orUndone (upsert_eq_orUndone hn))
  | drop s => exact map_eq_orUndone _ (c.guarded_orUndone (drop_eq_orUndone s))
  | reserve s n =>
    refine map_eq_orUndone _ ?_
    rw [Client.reserve]
    cases hcheck : checkIdentities "reserve_identities" s with
    | error e => rfl
    | ok u => exact c.guarded_orUndone (reserve_eq_orUndone s n)
  | insert s id payload es => exact map_eq_orUndone _ (c.guarded_orUndone (insert_eq_orUndone hn))
  | replace s id payload es => exact map_eq_orUndone _ (c.guarded_orUndone (replace_eq_orUndone hn))
  | deleteMany s ids => exact map_eq_orUndone _ (c.guarded_orUndone (deleteMany_eq_orUndone hn ids))
  | deleteInterval s low high => exact map_eq_orUndone _ (c.guarded_orUndone (deleteInterval_eq_orUndone hn low high))
  | _ => exact c.read_eq_orUndone _ rfl

end

/-- A call that fails leaves every table, every index, what is noted of the shapes and the identities that come next
    as they were, however many of its statements had been carried out; and one that goes well leaves what all of its
    statements leave. -/
theorem perform_atomic (c : Client) (call : Call) (st : Store) :
    (∀ e st', c.perform call st = (.error e, st') → st' = st) ∧
      (st.Named → c.perform call st = (c.issue call).orUndone st ∧ (c.perform call st).2.Named) :=
  ⟨fun _ _ h => c.perform_whole call h, fun hn => ⟨c.perform_eq_orUndone hn call, (c.perform_named call st hn).1⟩⟩

/-- Members of a club with their names and cards. -/
def clubSchema : Schema :=
  { key := ⟨"Member"⟩, ns := "", name := "Member", idType := .identity, fingerprint := "1"
    members := [⟨"Card", "String", .string, true, false⟩, ⟨"Name", "String", .string, false, false⟩] }

/-- The club with one member, whose card is the seventh. -/
def clubStore : Store :=
  { bookkeeping := some { fingerprints := [(⟨"Member"⟩, "1")], nextIds := [(⟨"Member"⟩, 2)] }
    sets := [("member", { stem := "Member", affinity := .integer, rows := [⟨.integer 1, "Ada"⟩]
                          indexRows := [⟨.integer 1, "Card", .string, .text "7"⟩]
                          indexes := indexesOf clubSchema })] }

/-- When the card of a second member turns out to be taken, the member and their name have been written. -/
theorem perform_atomic_club :
    let c : Client := {}
    let call := Call.insert clubSchema (.identity 2) "Bob"
      [⟨"Name", .string, .string "Bob"⟩, ⟨"Card", .string, .string "7"⟩]
    let e : Error := .store (.queryFailed "UNIQUE constraint failed: MemberIndexes.StringValue")
    c.perform call clubStore = (.error e, clubStore) ∧ clubStore.Named ∧
      ((c.issue call clubStore).2.set? clubSchema).map (fun t => (t.rows.length, t.indexRows.length)) = some (2, 2) ∧
      c.perform call clubStore = (c.issue call).orUndone clubStore := by
  intro c call e
  have hn : clubStore.Named := by
    intro x hx
    cases List.mem_singleton.mp hx
    decide +kernel
  have he : (c.perform call clubStore).1 = .error e := by decide +kernel
  have hrun : c.perform call clubStore = (.error e, (c.perform call clubStore).2) := Prod.ext he rfl
  have hatomic := perform_atomic c call clubStore
  refine ⟨?_, hn, by decide +kernel, (hatomic.2 hn).1⟩
  rw [hrun, hatomic.1 e _ hrun]

end Client

end Store

end DocStore
