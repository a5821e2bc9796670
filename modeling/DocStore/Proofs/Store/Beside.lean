import DocStore.Proofs.Query.Over
import DocStore.Proofs.Schema.Built
import DocStore.Proofs.Store.Atomic
import DocStore.Proofs.Store.Identities
import DocStore.Proofs.Store.Recorded

/-! Sets beside each other. The tables of two types are four different ones if and only if their keys differ in more
    than the case of letters and an underscore in the place of a dot. A call about one of two such types leaves the
    data of the other as they are, and does and answers the same whatever these data are. -/

namespace DocStore.Store

open Sql (Datum Row Tables)

/-! ### The tables of two types -/

/-- Whether two schemas have four tables, no two of them of one name. -/
def FourTables (s s' : Schema) : Prop :=
  [s.structureTable, s.indexesTable, s'.structureTable, s'.indexesTable].Pairwise fun a b => Text.sameName a b = false

instance (s s' : Schema) : Decidable (FourTables s s') :=
  inferInstanceAs (Decidable (List.Pairwise ..))

theorem sameName_comm (a b : String) : Text.sameName a b = Text.sameName b a := by
  rw [Bool.eq_iff_iff, sameName_iff, sameName_iff, eq_comm]

theorem fourTables_iff {s s' : Schema} : FourTables s s' ↔ folded s.stem ≠ folded s'.stem := by
  have hrows : Text.sameName s.structureTable s'.structureTable = decide (folded s.stem = folded s'.stem) :=
    sameName_append ..
  have hindexes : Text.sameName s.indexesTable s'.indexesTable = decide (folded s.stem = folded s'.stem) :=
    sameName_append ..
  have hmixed (s s' : Schema) : Text.sameName s.structureTable s'.indexesTable = false := by
    rw [sameName_comm]
    exact not_sameName ..
  have hmixed' (s s' : Schema) : Text.sameName s.indexesTable s'.structureTable = false := not_sameName ..
  simp [FourTables, hrows, hindexes, hmixed, hmixed']

/-! ### Other data in a set -/

/-- The set of a name, with other data if it is filed under the stem of a schema. -/
def otherData (s : Schema) (rows : List StructureRow) (indexRows : List IndexRow) (name : String) (t : TableSet) :
    TableSet :=
  if name = folded s.stem then { t with rows, indexRows } else t

/-- The store with other data in the set of a schema. -/
def withData (st : Store) (s : Schema) (rows : List StructureRow) (indexRows : List IndexRow) : Store :=
  { st with sets := st.sets.map fun e => (e.1, otherData s rows indexRows e.1 e.2) }

/-- Whether a name is that of no table of a schema. -/
def Foreign (s : Schema) (name : String) : Prop :=
  Text.sameName name s.structureTable = false ∧ Text.sameName name s.indexesTable = false

section
variable {s s' : Schema} {st : Store} {t : TableSet}

theorem foreign_structureTable (hne : folded s.stem ≠ folded s'.stem) : Foreign s' s.structureTable := by
  have h := fourTables_iff.mpr hne
  simp only [FourTables, List.pairwise_cons, List.mem_cons, forall_eq_or_imp] at h
  exact ⟨h.1.2.1, h.1.2.2.1⟩

theorem foreign_indexesTable (hne : folded s.stem ≠ folded s'.stem) : Foreign s' s.indexesTable := by
  have h := fourTables_iff.mpr hne
  simp only [FourTables, List.pairwise_cons, List.mem_cons, forall_eq_or_imp] at h
  exact ⟨h.2.1.1, h.2.1.2.1⟩

/-- Names that are the same are foreign to the same schemas. -/
theorem Foreign.congr {name name' : String} (h : Foreign s name) (hname : Text.sameName name' name = true) :
    Foreign s name' := by
  have heq (table : String) : Text.sameName name' table = Text.sameName name table := by
    rw [Bool.eq_iff_iff, sameName_iff, sameName_iff, sameName_iff.mp hname]
  exact ⟨(heq _).trans h.1, (heq _).trans h.2⟩

variable (rows : List StructureRow) (indexRows : List IndexRow)

theorem Named.withData (hn : st.Named) : (st.withData s rows indexRows).Named := by
  intro e he
  obtain ⟨e', he', rfl⟩ := List.mem_map.mp he
  have hstem := hn e' he'
  rw [otherData]
  split <;> exact hstem

theorem set?_withData (hne : folded s.stem ≠ folded s'.stem) :
    (st.withData s' rows indexRows).set? s = st.set? s := by
  have hsame : otherData s' rows indexRows (folded s.stem) = id := funext fun t => if_neg hne
  rw [set?, set?, Store.withData, Assoc.get?_map (otherData s' rows indexRows), hsame, Option.map_id_fun, id]

theorem withSet_withData (hne : folded s.stem ≠ folded s'.stem) :
    (st.withData s' rows indexRows).withSet s t = (st.withSet s t).withData s' rows indexRows := by
  have h := Assoc.insert_map (otherData s' rows indexRows) st.sets (folded s.stem) t
  rw [otherData, if_neg hne] at h
  rw [withSet, withSet, Store.withData, Store.withData, h]

theorem putSet_withData (hne : folded t.stem ≠ folded s'.stem) :
    (st.withData s' rows indexRows).putSet t = (st.putSet t).withData s' rows indexRows := by
  have h := Assoc.insert_map (otherData s' rows indexRows) st.sets (folded t.stem) t
  rw [otherData, if_neg hne] at h
  rw [putSet, putSet, Store.withData, Store.withData, h]

/-! ### What is seen of other data -/

/-- Which tables a set has does not depend on what is in them. -/
theorem isSome_rowsOf?_data (name : String) :
    (({ t with rows, indexRows } : TableSet).rowsOf? name).isSome = (t.rowsOf? name).isSome := by
  unfold TableSet.rowsOf? TableSet.structureTable TableSet.indexesTable
  split
  · rfl
  · split <;> rfl

theorem hasTable_withData (name : String) : (st.withData s' rows indexRows).hasTable name = st.hasTable name := by
  rw [hasTable, hasTable, rowsOf?, rowsOf?, List.isSome_findSome?, List.isSome_findSome?, Store.withData, List.any_map]
  refine congrArg (List.any st.sets) (funext fun e => ?_)
  dsimp only [Function.comp, otherData]
  split
  · exact isSome_rowsOf?_data ..
  · rfl

theorem hasIndex_withData (name : String) : (st.withData s' rows indexRows).hasIndex name = st.hasIndex name := by
  rw [hasIndex, hasIndex, Store.withData, List.any_map]
  refine congrArg (List.any st.sets) (funext fun e => ?_)
  dsimp only [Function.comp, otherData]
  split <;> rfl

theorem affinityOf_withData (name : String) :
    (st.withData s' rows indexRows).affinityOf name = st.affinityOf name := by
  rw [affinityOf, affinityOf, Store.withData, List.findSome?_map]
  refine congrArg (fun f => (List.findSome? f st.sets).getD default) (funext fun e => ?_)
  dsimp only [Function.comp, otherData]
  split
  · rw [isSome_rowsOf?_data]
  · rfl

/-- A set that is filed under the stem of a schema has no table of a foreign name. -/
theorem rowsOf?_foreign {name : String} (hname : Foreign s name) (hstem : folded t.stem = folded s.stem) :
    t.rowsOf? name = none := by
  have heq (ending : String) : Text.sameName name (t.stem ++ ending) = Text.sameName name (s.stem ++ ending) := by
    rw [Bool.eq_iff_iff, sameName_iff, sameName_iff, folded_append, folded_append, hstem]
  have hrows : Text.sameName name t.structureTable = false := (heq "Structure").trans hname.1
  have hindexes : Text.sameName name t.indexesTable = false := (heq "Indexes").trans hname.2
  rw [TableSet.rowsOf?, hrows, hindexes]
  rfl

theorem rowsOf?_withData (hn : st.Named) {name : String} (hname : Foreign s' name) :
    (st.withData s' rows indexRows).rowsOf? name = st.rowsOf? name := by
  rw [rowsOf?, rowsOf?, Store.withData, List.findSome?_map]
  unfold Named at hn
  generalize st.sets = sets at hn ⊢
  induction sets with
  | nil => simp only [List.findSome?_nil]
  | cons e sets ih =>
    rw [List.findSome?_cons, List.findSome?_cons, ih fun e he => hn e (List.mem_cons_of_mem _ he)]
    dsimp only [Function.comp, otherData]
    by_cases hk : e.1 = folded s'.stem
    · have hstem : folded e.2.stem = folded s'.stem := (hn e (List.mem_cons_self ..)).symm.trans hk
      have hother : ({ e.2 with rows, indexRows } : TableSet).rowsOf? name = none := rowsOf?_foreign hname hstem
      rw [if_pos hk, hother, rowsOf?_foreign hname hstem]
    · rw [if_neg hk]

theorem tables_withData (hn : st.Named) :
    Tables.Agree (Foreign s') (st.withData s' rows indexRows).tables st.tables := by
  intro name hname
  rw [tables, tables, rowsOf?_withData rows indexRows hn hname]

end

/-! ### Steps beside a set -/

/-- From one store to the next nothing of a type has changed: not its set, its fingerprint nor the identity that it has
    next. -/
structure Untouched (s : Schema) (st st' : Store) : Prop where
  set : st'.set? s = st.set? s
  fingerprint : st'.fingerprint? s.key = st.fingerprint? s.key
  counter : st'.counter s.key = st.counter s.key

/-- A step that changes nothing of a type, and does and answers the same whatever is in the set of the type. -/
structure Beside {α : Type} (s : Schema) (m : Do α) : Prop where
  named : ∀ {st}, st.Named → (m st).2.Named
  untouched : ∀ {st}, st.Named → Untouched s st (m st).2
  blind : ∀ {st}, st.Named → ∀ rows indexRows,
    m (st.withData s rows indexRows) = ((m st).1, (m st).2.withData s rows indexRows)

section
variable {s s' : Schema} {st st' st'' : Store}

theorem Untouched.refl (s : Schema) (st : Store) : Untouched s st st := ⟨rfl, rfl, rfl⟩

theorem Untouched.trans (h : Untouched s st st') (h' : Untouched s st' st'') : Untouched s st st'' :=
  ⟨h'.set.trans h.set, h'.fingerprint.trans h.fingerprint, h'.counter.trans h.counter⟩

/-- Nothing is noted of a set, so only the set itself can have changed. -/
theorem Untouched.of_bookkeeping (hset : st'.set? s = st.set? s) (hb : st'.bookkeeping = st.bookkeeping) :
    Untouched s st st' :=
  ⟨hset, by rw [fingerprint?, fingerprint?, hb], counter_of_bookkeeping hb _⟩

namespace Beside

variable {α β : Type} {m : Do α}

theorem query {f : Store → Except Error α}
    (h : ∀ {st : Store}, st.Named → ∀ rows indexRows, f (st.withData s rows indexRows) = f st) :
    Beside s (Step.query f) where
  named hn := hn
  untouched _ := .refl ..
  blind {st} hn rows indexRows := congrArg (·, st.withData s rows indexRows) (h hn rows indexRows)

theorem reading {f : Store → Except StoreError α}
    (h : ∀ {st : Store}, st.Named → ∀ rows indexRows, f (st.withData s rows indexRows) = f st) :
    Beside s (Store.reading f) :=
  query fun hn rows indexRows => congrArg (Except.mapError Error.store) (h hn rows indexRows)

theorem ofExcept (r : Except Error α) : Beside s (Step.ofExcept r) := query (f := fun _ => r) fun _ _ _ => rfl

theorem pure (a : α) : Beside s (Pure.pure a : Do α) := ofExcept (.ok a)

theorem fail (e : Error) : Beside s (Step.fail e : Do α) := ofExcept (.error e)

/-- A change that is made as a whole or not at all. -/
theorem transaction {f : Store → Except Error (α × Store)}
    (hok : ∀ {st st' : Store} {a : α}, st.Named → f st = .ok (a, st') → st'.Named ∧ Untouched s st st')
    (hblind : ∀ {st : Store}, st.Named → ∀ rows indexRows, f (st.withData s rows indexRows) =
      (f st).map fun x => (x.1, x.2.withData s rows indexRows)) : Beside s (Step.transaction f) where
  named {st} hn := by
    cases hf : f st with
    | error e => rwa [Step.transaction_error hf]
    | ok x =>
      rw [Step.transaction_ok hf]
      exact (hok hn hf).1
  untouched {st} hn := by
    cases hf : f st with
    | error e =>
      rw [Step.transaction_error hf]
      exact .refl ..
    | ok x =>
      rw [Step.transaction_ok hf]
      exact (hok hn hf).2
  blind {st} hn rows indexRows := by
    have h := hblind hn rows indexRows
    cases hf : f st with
    | error e =>
      rw [hf] at h
      rw [Step.transaction_error hf, Step.transaction_error h]
    | ok x =>
      rw [hf] at h
      rw [Step.transaction_ok hf, Step.transaction_ok h]

theorem writing {f : Store → Except StoreError (α × Store)}
    (hok : ∀ {st st' : Store} {a : α}, st.Named → f st = .ok (a, st') → st'.Named ∧ Untouched s st st')
    (hblind : ∀ {st : Store}, st.Named → ∀ rows indexRows, f (st.withData s rows indexRows) =
      (f st).map fun x => (x.1, x.2.withData s rows indexRows)) : Beside s (Store.writing f) :=
  .transaction (fun hn h => hok hn (mapError_eq_ok.mp h)) fun {st} hn rows indexRows => by
    rw [hblind hn rows indexRows]
    cases f st <;> rfl

theorem bind {k : α → Do β} (hm : Beside s m) (hk : ∀ a, Beside s (k a)) : Beside s (m >>= k) where
  named {st} hn := by
    have hfirst := hm.named hn
    cases hr : m st with
    | mk r st' =>
      rw [hr] at hfirst
      cases r with
      | error e => rwa [Step.bind_error hr]
      | ok a =>
        rw [Step.bind_ok hr]
        exact (hk a).named hfirst
  untouched {st} hn := by
    have hnamed := hm.named hn
    have hfirst := hm.untouched hn
    cases hr : m st with
    | mk r st' =>
      rw [hr] at hnamed hfirst
      cases r with
      | error e => rwa [Step.bind_error hr]
      | ok a =>
        rw [Step.bind_ok hr]
        exact hfirst.trans ((hk a).untouched hnamed)
  blind {st} hn rows indexRows := by
    have hnamed := hm.named hn
    have hfirst := hm.blind hn rows indexRows
    cases hr : m st with
    | mk r st' =>
      rw [hr] at hnamed hfirst
      cases r with
      | error e => rw [Step.bind_error hr, Step.bind_error hfirst]
      | ok a =>
        rw [Step.bind_ok hr, Step.bind_ok hfirst]
        exact (hk a).blind hnamed rows indexRows

theorem map (hm : Beside s m) (f : α → β) : Beside s (m.map f) := hm.bind fun a => pure (f a)

theorem forEach {f : α → Do Unit} (hf : ∀ a, Beside s (f a)) : ∀ {items : List α}, Beside s (Step.forEach f items)
  | [] => pure ()
  | a :: _ => (hf a).bind fun _ => forEach hf

/-- What is undone has changed nothing. -/
theorem orUndone (hm : Beside s m) : Beside s m.orUndone where
  named {st} hn := by
    have h := hm.named hn
    rw [Step.orUndone]
    cases hr : m st with
    | mk r st' =>
      rw [hr] at h
      cases r <;> assumption
  untouched {st} hn := by
    have h := hm.untouched hn
    rw [Step.orUndone]
    cases hr : m st with
    | mk r st' =>
      rw [hr] at h
      cases r
      · exact .refl ..
      · exact h
  blind {st} hn rows indexRows := by
    have h := hm.blind hn rows indexRows
    rw [Step.orUndone, Step.orUndone, h]
    cases hr : m st with
    | mk r st' => cases r <;> rfl

theorem guarded (hm : Beside s m) (c : Client) : Beside s (c.guarded m) := by
  rw [Client.guarded]
  split
  · exact fail _
  · exact hm

end Beside

end

/-! ### Statements -/

section
variable {s s' : Schema} (hne : folded s.stem ≠ folded s'.stem)
include hne

theorem untouched_withSet (st : Store) (t : TableSet) : Untouched s' st (st.withSet s t) := by
  refine .of_bookkeeping ?_ rfl
  rw [set?, withSet, Assoc.get?_insert, if_neg hne]
  rfl

theorem beside_statement {α : Type} (table : String) {f : TableSet → Except StoreError (α × TableSet)}
    (hstem : ∀ {t t' a}, f t = .ok (a, t') → t'.stem = t.stem) : Beside s' (statement s table f) := by
  refine .writing (fun {st st' a} hn h => ?_) fun {st} _ rows indexRows => ?_
  · cases hset : st.set? s with
    | none =>
      rw [hset] at h
      cases h
    | some t =>
      rw [hset] at h
      obtain ⟨⟨a', t'⟩, hf, heq⟩ := map_eq_ok.mp h
      cases heq
      have hput := hn.putSet_eq hset (hstem hf)
      exact ⟨hput ▸ hn.putSet t', untouched_withSet hne st t'⟩
  · rw [set?_withData rows indexRows hne]
    cases st.set? s with
    | none => rfl
    | some t =>
      dsimp only
      cases f t with
      | error e => rfl
      | ok x =>
        obtain ⟨a, t'⟩ := x
        exact congrArg (fun st => Except.ok (a, st)) (withSet_withData rows indexRows hne)

theorem beside_addIndexRow (id : DocId) (e : IndexEntry) : Beside s' (addIndexRow s id e) :=
  beside_statement hne _ fun {t t' a} h => by
    obtain ⟨t₁, hrow, heq⟩ := map_eq_ok.mp h
    cases heq
    rw [TableSet.insertIndexRow] at hrow
    split at hrow <;> cases hrow
    rfl

theorem beside_insertStatements (id : DocId) (payload : String) (es : List IndexEntry) :
    Beside s' (insertStatements s id payload es) := by
  have hrow : Beside s' (addRow s id payload) := beside_statement hne _ fun {t t' a} h => by
    obtain ⟨t₁, hrow, heq⟩ := map_eq_ok.mp h
    cases heq
    rw [(TableSet.insertRow_eq_ok hrow).1]
  exact hrow.bind fun _ => .forEach (beside_addIndexRow hne id)

theorem beside_deleteIndexRows (p : TableSet → Datum → Bool) : Beside s' (deleteIndexRows s p) :=
  beside_statement hne _ fun {t t' a} h => by
    cases h
    rfl

theorem beside_replaceStatements (id : DocId) (payload : String) (es : List IndexEntry) :
    Beside s' (replaceStatements s id payload es) := by
  have hpayload : Beside s' (setPayload s id payload) := beside_statement hne _ fun {t t' a} h => by
    cases h
    rfl
  refine hpayload.bind fun n => ?_
  split
  · exact .fail _
  · exact (beside_deleteIndexRows hne _).bind fun _ => .forEach (beside_addIndexRow hne id)

theorem beside_deleteWhere (q p : TableSet → Datum → Bool) : Beside s' (deleteWhere s q p) := by
  have hrows : Beside s' (deleteRows s p) := beside_statement hne _ fun {t t' a} h => by
    cases h
    rfl
  exact (beside_deleteIndexRows hne q).bind fun _ => hrows

theorem beside_deleteChunksStatements : ∀ parts : List (List DocId), Beside s' (deleteChunksStatements s parts)
  | [] => .pure 0
  | _ :: parts =>
    (beside_deleteWhere hne _ _).bind fun _ => (beside_deleteChunksStatements parts).bind fun _ => .pure _

/-! ### Bookkeeping -/

omit hne in
theorem beside_noting {missing : Error} {f : Bookkeeping → Bookkeeping}
    (hfingerprint : ∀ b, (f b).fingerprints.get? s'.key = b.fingerprints.get? s'.key)
    (hnext : ∀ b, (f b).nextIds.get? s'.key = b.nextIds.get? s'.key) : Beside s' (noting missing f) := by
  refine .transaction (fun {st st' a} hn h => ?_) fun {st} _ rows indexRows => ?_
  · cases hb : st.bookkeeping with
    | none =>
      rw [hb] at h
      cases h
    | some b =>
      rw [hb] at h
      cases h
      refine ⟨hn.of_sets rfl, rfl, ?_, ?_⟩
      · rw [fingerprint?_of_some rfl, fingerprint?_of_some hb, hfingerprint]
      · rw [counter_of_some rfl, counter_of_some hb, hnext]
  · have hsame : (st.withData s' rows indexRows).bookkeeping = st.bookkeeping := rfl
    rw [hsame]
    cases st.bookkeeping <;> rfl

omit hne in
theorem beside_noted {α : Type} (missing : Error) (f : Bookkeeping → α) : Beside s' (noted missing f) :=
  .query fun _ _ _ => rfl

theorem structureSet_withData {st : Store} (rows : List StructureRow) (indexRows : List IndexRow) :
    (st.withData s' rows indexRows).structureSet s = st.structureSet s := by
  rw [structureSet, structureSet, set?_withData rows indexRows hne]

variable (hkey : s.key ≠ s'.key)
include hkey

theorem beside_reserveStatements (count : Nat) : Beside s' (reserveStatements s count) := by
  have hgreatest : Beside s' (readGreatestId s) := .reading fun _ rows indexRows => by
    rw [structureSet_withData hne]
  refine (beside_noted _ _).bind fun next => hgreatest.bind fun greatest => ?_
  refine Beside.bind (beside_noting (fun _ => rfl) fun b => ?_) fun _ => .pure _
  exact (Assoc.get?_insert ..).trans (if_neg hkey)

theorem beside_dropStatements : Beside s' (dropStatements s) := by
  have herase : Beside s' (Step.update fun st => { st with sets := st.sets.erase (folded s.stem) } : Do Unit) := by
    refine ⟨fun hn => hn.of_mem fun _ he => (List.mem_filter.mp he).1, fun {st} _ => ?_,
      fun {st} _ rows indexRows => ?_⟩
    · exact .of_bookkeeping ((Assoc.get?_erase ..).trans (if_neg hne)) rfl
    · refine congrArg (fun sets => (Except.ok (), ({ st with sets } : Store))) ?_
      exact Assoc.erase_map (otherData s' rows indexRows) st.sets (folded s.stem)
  refine herase.bind fun _ => Beside.bind (beside_noting (fun b => ?_) fun _ => rfl) fun _ =>
    beside_noting (fun _ => rfl) fun b => ?_
  · exact (Assoc.get?_erase ..).trans (if_neg hkey)
  · exact (Assoc.get?_erase ..).trans (if_neg hkey)

/-! ### Shapes -/

omit hkey in
theorem Reshaped.untouched {st st' : Store} (h : Reshaped s st st') : Untouched s' st st' :=
  .of_bookkeeping (h.others _ hne.symm) h.bookkeeping

omit hkey in
theorem beside_defining {f : Store → Except String Store}
    (hok : ∀ {st st' : Store}, st.Named → f st = .ok st' → Reshaped s st st')
    (hblind : ∀ {st : Store}, st.Named → ∀ rows indexRows, f (st.withData s' rows indexRows) =
      (f st).map (·.withData s' rows indexRows)) : Beside s' (defining s f) := by
  refine .transaction (fun {st st' a} hn h => ?_) fun {st} hn rows indexRows => ?_
  · obtain ⟨st₁, hf, heq⟩ := map_eq_ok.mp h
    cases heq
    have hreshaped := hok hn (mapError_eq_ok.mp hf)
    exact ⟨hreshaped.named, hreshaped.untouched hne⟩
  · rw [hblind hn rows indexRows]
    cases f st <;> rfl

omit hkey in
theorem beside_withTables : Beside s' (defining s (withTables s)) := by
  refine beside_defining hne (fun hn h => (withTables_reshaped hn h).1) fun {st} _ rows indexRows => ?_
  have hcheck (name : String) : (st.withData s' rows indexRows).checkTable name = st.checkTable name := by
    rw [checkTable, checkTable, hasTable_withData, hasIndex_withData]
  rw [withTables, withTables, hcheck, hcheck, set?_withData rows indexRows hne]
  cases st.checkTable s.structureTable with
  | error reason => rfl
  | ok u =>
    cases st.checkTable s.indexesTable with
    | error reason => rfl
    | ok u' =>
      cases st.set? s with
      | some t => rfl
      | none => exact congrArg Except.ok (putSet_withData rows indexRows hne)

omit hkey in
theorem beside_ensureIndex (i : Index) : Beside s' (defining s (ensureIndex s · i)) := by
  refine beside_defining hne (fun hn h => ensureIndex_reshaped hn h) fun {st} hn rows indexRows => ?_
  rw [ensureIndex, ensureIndex, hasTable_withData, hasIndex_withData, set?_withData rows indexRows hne]
  cases checkName i.name with
  | error reason => rfl
  | ok u =>
    cases st.hasTable i.name with
    | true => rfl
    | false =>
      cases hset : st.set? s with
      | none => rfl
      | some t =>
        have hput (indexes : List Index) : (st.withData s' rows indexRows).putSet { t with indexes } =
            (st.putSet { t with indexes }).withData s' rows indexRows :=
          putSet_withData rows indexRows ((hn.stem hset).trans_ne hne)
        cases st.hasIndex i.name with
        | true => rfl
        | false =>
          cases i.unique with
          | none => exact congrArg Except.ok (hput _)
          | some x =>
            obtain ⟨path, code⟩ := x
            cases hrepeat : hasRepeat path code t.indexRows with
            | true =>
              simp only [hrepeat]
              rfl
            | false =>
              simp only [hrepeat]
              exact congrArg Except.ok (hput _)

omit hkey in
theorem beside_deleteStale : Beside s' (deleteStale s) := by
  refine beside_defining hne (fun {st st'} hn h => ?_) fun {st} _ rows indexRows => ?_
  · cases hset : st.set? s with
    | none =>
      rw [hset] at h
      cases h
    | some t =>
      rw [hset] at h
      cases h
      have hput : st.putSet (t.withoutStale s) = st.withSet s (t.withoutStale s) := hn.putSet_eq hset rfl
      rw [← hput]
      exact .putSame hn hset ⟨rfl, rfl, rfl⟩
  · rw [set?_withData rows indexRows hne]
    cases st.set? s with
    | none => rfl
    | some t => exact congrArg Except.ok (withSet_withData rows indexRows hne)

theorem beside_upsertStatements : Beside s' (upsertStatements s) := by
  refine (beside_noted _ _).bind fun stored => ?_
  split
  · exact .pure ()
  · have hshape : Beside s' (shapeStatements s) :=
      (beside_withTables hne).bind fun _ => (Beside.forEach (beside_ensureIndex hne)).bind fun _ =>
        beside_deleteStale hne
    refine hshape.bind fun _ => beside_noting (fun b => ?_) fun _ => rfl
    exact (Assoc.get?_insert ..).trans (if_neg hkey)

end

end DocStore.Store
