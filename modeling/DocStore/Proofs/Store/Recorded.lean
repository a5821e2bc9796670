import DocStore.Proofs.Store.Shapes

/-! What the bookkeeping says of the shapes. In every store that calls of clients and of the lifecycle lead to, a
    fingerprint stands for tables that are there and are as bringing them to its shape has left them, but for rows. -/

namespace DocStore.Store

/-! ### Stores that are reached -/

/-- Schemas of types that have their tables for themselves. A type may change its members and the type of its ids. -/
def Separate (types : Schema → Prop) : Prop :=
  ∀ {s s' : Schema}, types s → types s' → (s.key = s'.key ↔ folded s.stem = folded s'.stem)

/-- Whether a call that changes tables is about some types. -/
def Client.Call.About (types : Schema → Prop) : Client.Call → Prop
  | .upsert s | .drop s => types s
  | _ => True

/-- A store that is reached from a new one by calls of the lifecycle and by calls of clients about some types, whatever
    they answer. -/
inductive Reached (types : Schema → Prop) : Store → Prop
  | opened (location : String) (readOnly : Bool) : Reached types { location, readOnly }
  | manage {st : Store} (h : Reached types st) (c : Store.Call) : Reached types (Store.perform c st).2
  | call {st : Store} (h : Reached types st) (c : Client) {call : Client.Call} (hcall : call.About types) :
      Reached types (c.perform call st).2

/-- What holds of a new store, and is kept by the lifecycle and by calls about some types, holds of every store that is
    reached. -/
theorem Reached.keeps {types : Schema → Prop} {I : Store → Prop}
    (hopened : ∀ location readOnly, I { location, readOnly }) (hcreated : ∀ st, I st → I st.created)
    (hemptied : ∀ st, I st → I st.emptied)
    (hcall : ∀ (c : Client) {call : Client.Call}, call.About types → Step.Keeps I (c.perform call)) {st : Store}
    (h : Reached types st) : I st := by
  induction h with
  | opened location readOnly => exact hopened location readOnly
  | @manage st _ c ih => exact (manage_keeps_of hcreated hemptied c st ih).1
  | @call st _ c call habout ih => exact (hcall c habout st ih).1

/-- The fingerprint that is noted for a type. -/
def fingerprint? (st : Store) (k : Key) : Option String := st.bookkeeping.bind (·.fingerprints.get? k)

/-- A store whose set of a schema is as the set was left when it was brought to the shape of the schema, but for
    rows. -/
def ShapedBy (types : Schema → Prop) (s : Schema) (st : Store) : Prop :=
  ∃ st₀ st₁ t₁ t, Reached types st₀ ∧ st₀.fingerprint? s.key ≠ some s.fingerprint ∧ upsert s st₀ = (.ok (), st₁) ∧
    st₁.set? s = some t₁ ∧ st.set? s = some t ∧ t.shape = t₁.shape

/-- Schemas with the same tables. Members may have been declared with other names of their types, which are for
    information only. -/
structure Alike (s s' : Schema) : Prop where
  key : s.key = s'.key
  stem : s.stem = s'.stem
  idType : s.idType = s'.idType
  fingerprint : s.fingerprint = s'.fingerprint
  members : s.members.map (fun m => (m.path, m.code, m.unique)) = s'.members.map fun m => (m.path, m.code, m.unique)

/-- Whether the fingerprint of a schema tells it apart from all other schemas of its type. -/
def Told (types : Schema → Prop) (s : Schema) : Prop :=
  ∀ {s₀}, types s₀ → s₀.key = s.key → s₀.fingerprint = s.fingerprint → Alike s₀ s

/-- A store in which the fingerprint of a schema is noted, and the tables of the schema are there in the shape of a
    schema of this fingerprint, which is the schema's own if fingerprints tell shapes apart. -/
structure Carries (types : Schema → Prop) (s : Schema) (st : Store) : Prop where
  fingerprint : st.fingerprint? s.key = some s.fingerprint
  structures : st.hasTable s.structureTable = true
  indexes : st.hasTable s.indexesTable = true
  shaped : ∃ s₀, types s₀ ∧ s₀.key = s.key ∧ s₀.fingerprint = s.fingerprint ∧ ShapedBy types s₀ st
  own : Told types s → ShapedBy types s st

/-! ### Fingerprints -/

section
variable {st st' : Store} {s : Schema} {k : Key}

theorem fingerprint?_of_some {b : Bookkeeping} (hb : st.bookkeeping = some b) (k : Key) :
    st.fingerprint? k = b.fingerprints.get? k := by
  rw [fingerprint?, hb]
  rfl

theorem Refilled.fingerprint? (h : Refilled st st') (k : Key) : st'.fingerprint? k = st.fingerprint? k := by
  have hmap (st : Store) : st.fingerprint? k = (st.bookkeeping.map (·.fingerprints)).bind (·.get? k) := by
    rw [Store.fingerprint?, Option.bind_map]
    rfl
  rw [hmap, hmap, h.fingerprints]

theorem upsert_fingerprint? {u : Unit} (h : upsert s st = (.ok u, st')) (k : Key) :
    st'.fingerprint? k = if s.key = k then some s.fingerprint else st.fingerprint? k := by
  obtain ⟨b, hb, ⟨hcurrent, rfl⟩ | ⟨st₁, -, rfl⟩⟩ := upsert_eq_ok h
  · rw [fingerprint?_of_some hb]
    split
    · rename_i hk
      rw [← hk, hcurrent]
    · rfl
  · rw [fingerprint?_of_some rfl, fingerprint?_of_some hb]
    exact Assoc.get?_insert ..

/-- Nothing is done if the fingerprint is noted already. -/
theorem upsert_of_current (h : st.fingerprint? s.key = some s.fingerprint) : upsert s st = (.ok (), st) := by
  obtain ⟨b, hb, hcurrent⟩ := Option.bind_eq_some_iff.mp h
  refine Step.transaction_ok ?_
  rw [hb]
  exact if_pos hcurrent

theorem drop_fingerprint? {u : Unit} (h : drop s st = (.ok u, st')) (k : Key) :
    st'.fingerprint? k = if s.key = k then none else st.fingerprint? k := by
  obtain ⟨b, hb, rfl⟩ := drop_eq_ok h
  rw [fingerprint?_of_some rfl, fingerprint?_of_some hb]
  exact Assoc.get?_erase ..

theorem created_fingerprint? (st : Store) (k : Key) : st.created.fingerprint? k = st.fingerprint? k := by
  rw [created, fingerprint?, fingerprint?]
  cases st.bookkeeping <;> rfl

end

/-! ### Schemas alike -/

section
variable {s s' : Schema} (h : Alike s s')
include h

theorem Alike.set?_eq (st : Store) : st.set? s = st.set? s' := by
  rw [set?, set?, h.stem]

theorem Alike.indexesOf_eq : indexesOf s = indexesOf s' := by
  have hunique (s : Schema) : (s.members.filter (·.unique)).map (fun m => (m.path, m.code)) =
      ((s.members.map fun m => (m.path, m.code, m.unique)).filter (·.2.2)).map fun x => (x.1, x.2.1) := by
    rw [List.filter_map, List.map_map]
    rfl
  have hindexes (s : Schema) : indexesOf s = [⟨Schema.indexesTableOf s.stem ++ "_" ++ Sql.Column.id.name, none⟩,
      ⟨Schema.indexesTableOf s.stem ++ "_" ++ Sql.Column.path.name, none⟩] ++
      ((s.members.filter (·.unique)).map fun m => (m.path, m.code)).map fun x =>
        ⟨Schema.indexesTableOf s.stem ++ "_uq_" ++ x.1, some x⟩ := by
    rw [List.map_map]
    rfl
  rw [hindexes, hindexes, hunique, hunique, h.stem, h.members]

theorem Alike.withTables_eq (st : Store) : withTables s st = withTables s' st := by
  rw [withTables, withTables, Schema.structureTable, Schema.structureTable, Schema.indexesTable, Schema.indexesTable,
    h.set?_eq, h.stem, h.idType]

theorem Alike.ensureIndex_eq : ensureIndex s = ensureIndex s' := by
  funext st i
  rw [ensureIndex, ensureIndex, h.set?_eq]

theorem Alike.declares_eq (path : String) : s.members.any (·.path == path) = s'.members.any (·.path == path) := by
  have hpaths (s : Schema) : s.members.any (·.path == path) =
      (s.members.map fun m => (m.path, m.code, m.unique)).any (·.1 == path) := by
    rw [List.any_map]
    rfl
  rw [hpaths, hpaths, h.members]

theorem Alike.withoutStale_eq (t : TableSet) : t.withoutStale s = t.withoutStale s' := by
  simp only [TableSet.withoutStale, h.declares_eq]

theorem Alike.shaped_eq (st : Store) : shaped s st = shaped s' st := by
  simp only [shaped, h.withTables_eq, h.ensureIndex_eq, h.indexesOf_eq, h.set?_eq, h.withoutStale_eq]

theorem Alike.upsert_eq : upsert s = upsert s' := by
  unfold upsert
  simp only [h.key, h.fingerprint, h.shaped_eq, schemaFailed]

theorem Alike.shapedBy {types : Schema → Prop} {st : Store} (hst : ShapedBy types s st) : ShapedBy types s' st := by
  obtain ⟨st₀, st₁, t₁, t, hreached, hold, hupsert, hset₁, hset, hsame⟩ := hst
  rw [h.key, h.fingerprint] at hold
  rw [h.upsert_eq] at hupsert
  rw [h.set?_eq] at hset₁ hset
  exact ⟨st₀, st₁, t₁, t, hreached, hold, hupsert, hset₁, hset, hsame⟩

end

/-! ### What fingerprints stand for -/

/-- A store whose fingerprints of types stand for tables in their shapes. -/
structure Recorded (types : Schema → Prop) (st : Store) : Prop where
  named : st.Named
  shaped : ∀ {s}, types s → ∀ {fp}, st.fingerprint? s.key = some fp →
    ∃ s₀, types s₀ ∧ s₀.key = s.key ∧ s₀.fingerprint = fp ∧ ShapedBy types s₀ st

section
variable {types : Schema → Prop} {st st' : Store} {s : Schema}

theorem ShapedBy.set (h : ShapedBy types s st) : ∃ t, st.set? s = some t := by
  obtain ⟨-, -, -, t, -, -, -, -, hset, -⟩ := h
  exact ⟨t, hset⟩

theorem ShapedBy.of_shape (h : ShapedBy types s st)
    (hshape : (st'.set? s).map (·.shape) = (st.set? s).map (·.shape)) : ShapedBy types s st' := by
  obtain ⟨st₀, st₁, t₁, t, hreached, hold, hupsert, hset₁, hset, hsame⟩ := h
  rw [hset] at hshape
  obtain ⟨t', hset', hsame'⟩ := Option.map_eq_some_iff.mp hshape
  exact ⟨st₀, st₁, t₁, t', hreached, hold, hupsert, hset₁, hset', hsame'.trans hsame⟩

/-- Nothing has to be known but of the fingerprints that are still noted, each of which is new with its tables or has
    kept its tables. -/
theorem Recorded.frame (hd : Separate types) (h : Recorded types st) (hn : st'.Named)
    (hframe : ∀ {s}, types s → ∀ {fp}, st'.fingerprint? s.key = some fp →
      (∃ s₀, types s₀ ∧ s₀.key = s.key ∧ s₀.fingerprint = fp ∧ ShapedBy types s₀ st') ∨
        st.fingerprint? s.key = some fp ∧ (st'.set? s).map (·.shape) = (st.set? s).map (·.shape)) :
    Recorded types st' := by
  refine ⟨hn, fun {s} hs {fp} hfp => ?_⟩
  obtain hnew | ⟨hold, hshape⟩ := hframe hs hfp
  · exact hnew
  · obtain ⟨s₀, hs₀, hkey, heq, hshaped⟩ := h.shaped hs hold
    have hset (st : Store) : st.set? s₀ = st.set? s := set?_congr ((hd hs₀ hs).mp hkey)
    exact ⟨s₀, hs₀, hkey, heq, hshaped.of_shape (by rw [hset, hset, hshape])⟩

theorem Recorded.refilled (hd : Separate types) (h : Recorded types st) (hr : Refilled st st') : Recorded types st' :=
  h.frame hd hr.named fun {s} _ {_} hfp => Or.inr ⟨hr.fingerprint? s.key ▸ hfp, hr.shapes _⟩

theorem Recorded.created (hd : Separate types) (h : Recorded types st) : Recorded types st.created :=
  h.frame hd (h.named.of_sets rfl) fun {s} _ {_} hfp => Or.inr ⟨created_fingerprint? st s.key ▸ hfp, rfl⟩

theorem Recorded.emptied (hd : Separate types) (h : Recorded types st) : Recorded types st.emptied :=
  h.frame hd (h.named.of_mem fun _ he => (List.mem_filter.mp he).1) nofun

theorem Recorded.drop (hd : Separate types) (h : Recorded types st) (hs : types s) {u : Unit}
    (hdone : Store.drop s st = (.ok u, st')) : Recorded types st' := by
  refine h.frame hd (drop_named h.named hdone) fun {s'} hs' {fp} hfp => ?_
  rw [drop_fingerprint? hdone] at hfp
  split at hfp
  · cases hfp
  · rename_i hkey
    refine Or.inr ⟨hfp, ?_⟩
    rw [set?, drop_sets hdone, Assoc.get?_erase, if_neg (mt (hd hs hs').mpr hkey)]
    rfl

theorem Recorded.upsert (hd : Separate types) (h : Recorded types st) (hreached : Reached types st) (hs : types s)
    (hdone : Store.upsert s st = (.ok (), st')) : Recorded types st' := by
  by_cases hcurrent : st.fingerprint? s.key = some s.fingerprint
  · rw [upsert_of_current hcurrent] at hdone
    cases hdone
    exact h
  · obtain ⟨b, hb, ⟨hcurrent', -⟩ | ⟨st₁, hshaped, hst'⟩⟩ := upsert_eq_ok hdone
    · exact absurd (fingerprint?_of_some hb s.key ▸ hcurrent') hcurrent
    -- the fingerprint of this type is new with its tables; those of other types stand for sets of other names
    obtain ⟨hreshaped, hpresent⟩ := shaped_reshaped h.named hshaped
    have hsets : st'.sets = st₁.sets := by rw [hst']
    refine h.frame hd (hreshaped.named.of_sets hsets) fun {s'} hs' {fp} hfp => ?_
    rw [upsert_fingerprint? hdone] at hfp
    split at hfp
    · rename_i hkey
      obtain ⟨t, hset⟩ := Option.isSome_iff_exists.mp ((set?_of_sets hsets s).symm ▸ hpresent)
      exact Or.inl ⟨s, hs, hkey, Option.some.inj hfp, st, st', t, t, hreached, hcurrent, hdone, hset, hset, rfl⟩
    · rename_i hkey
      refine Or.inr ⟨hfp, congrArg _ ?_⟩
      rw [set?_of_sets hsets]
      exact hreshaped.others _ (mt (fun h => (hd hs hs').mpr h.symm) hkey)

/-! ### From a new store on -/

theorem recorded_opened (location : String) (readOnly : Bool) : Recorded types { location, readOnly } := ⟨nofun, nofun⟩

theorem Recorded.perform (hd : Separate types) (h : Recorded types st) (c : Store.Call) :
    Recorded types (Store.perform c st).2 :=
  (manage_keeps_of (I := Recorded types) (fun _ h => h.created hd) (fun _ h => h.emptied hd) c st h).1

/-- In every store that is reached the fingerprints of types stand for tables in their shapes. -/
theorem Reached.recorded (hd : Separate types) (h : Reached types st) : Recorded types st := by
  induction h with
  | opened location readOnly => exact recorded_opened location readOnly
  | manage _ c ih => exact ih.perform hd c
  | @call st hst c call hcall ih =>
    have hwhole {m : Do Unit} (hm : Step.Whole m) (hdone : ∀ {u st'}, m st = (.ok u, st') → Recorded types st') :
        Recorded types (c.guarded m st).2 := by
      cases hr : c.guarded m st with
      | mk r st' =>
        cases r with
        | error e => exact Client.guarded_whole hm c hr ▸ ih
        | ok u => exact hdone (Client.guarded_eq_ok hr)
    cases call with
    | upsert s =>
      rw [Client.perform, Step.map_state]
      exact hwhole (.transaction _) (ih.upsert hd hst hcall)
    | drop s =>
      rw [Client.perform, Step.map_state]
      exact hwhole (.transaction _) (ih.drop hd hcall)
    | _ => exact ih.refilled hd (c.perform_refilled rfl st st (.refl ih.named)).1

/-- The sets of a store that is reached are filed under their stems, whether or not types share them. -/
theorem Reached.filed (h : Reached types st) : st.Named :=
  h.keeps (fun _ _ => nofun) (fun _ hn => hn.of_sets rfl) (fun _ hn => hn.of_mem fun _ he => (List.mem_filter.mp he).1)
    fun c _ _ => c.perform_named _

theorem Reached.named (hd : Separate types) (h : Reached types st) : st.Named := (h.recorded hd).named

theorem Reached.carries (hd : Separate types) (h : Reached types st) (hs : types s)
    (hfp : st.fingerprint? s.key = some s.fingerprint) : Carries types s st := by
  have hrecorded := h.recorded hd
  obtain ⟨s₀, hs₀, hkey, heq, hshaped⟩ := hrecorded.shaped hs hfp
  obtain ⟨t, hset⟩ := hshaped.set
  rw [set?_congr ((hd hs₀ hs).mp hkey)] at hset
  exact ⟨hfp, hasTable_structureTable hrecorded.named hset, hasTable_indexesTable hrecorded.named hset,
    ⟨s₀, hs₀, hkey, heq, hshaped⟩, fun htold => (htold hs₀ hkey heq).shapedBy hshaped⟩

/-! ### Rows after that -/

section
variable {run : List (Client × Client.Call)}

theorem Client.Call.about_all (call : Client.Call) : call.About fun _ => True := by
  cases call <;> exact trivial

theorem Client.Call.about_of_rows {call : Client.Call} (h : call.shapes = false) : call.About types := by
  cases call with
  | upsert | drop => cases h
  | _ => trivial

theorem Reached.calls (h : Reached types st) (hrun : ∀ x ∈ run, x.2.About types) : Reached types (st.after run) :=
  after_keeps (fun x hx => .of_state fun _ hst => hst.call x.1 (hrun x hx)) h

theorem Reached.after (h : Reached types st) (hrun : ∀ x ∈ run, x.2.shapes = false) : Reached types (st.after run) :=
  h.calls fun x hx => Client.Call.about_of_rows (hrun x hx)

theorem Named.refilled_after (hn : st.Named) (hrun : ∀ x ∈ run, x.2.shapes = false) : Refilled st (st.after run) :=
  after_keeps (fun x hx => x.1.perform_refilled (hrun x hx) st) (.refl hn)

/-- Tables that are there stay in their shapes while rows are written. -/
theorem Reached.carries_after (hd : Separate types) (h : Reached types st) (hs : types s)
    (hfp : st.fingerprint? s.key = some s.fingerprint) (hrun : ∀ x ∈ run, x.2.shapes = false) :
    Carries types s (st.after run) :=
  (h.after hrun).carries hd hs (((h.named hd).refilled_after hrun).fingerprint? s.key ▸ hfp)

end

end

end DocStore.Store
