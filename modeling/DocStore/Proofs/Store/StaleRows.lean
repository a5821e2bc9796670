import DocStore.Proofs.Payload
import DocStore.Proofs.Store.History

/-! Index rows of shapes that are gone. A type that is brought to a shape loses the index rows of paths that the shape
    does not declare, whatever codes they have, and keeps those of the paths that it does declare, in the columns of the
    codes that they were written with. So the columns that a path has values in are those of the codes that it had since
    it was last not declared. -/

namespace DocStore.Store

open Sql (Datum Affinity)

/-! ### Codes of a path -/

/-- The codes that a path had in shapes, the last one first, back to the shape that did not declare it. -/
def codes (path : String) : List Schema → List TypeCode
  | [] => []
  | s :: older =>
    match s.member? path with
    | none => []
    | some m => m.code :: codes path older

section
variable {path : String} {s s' : Schema} {m : Member} {shapes : List Schema}

theorem codes_of_member (hm : s.member? path = some m) : codes path (s :: shapes) = m.code :: codes path shapes := by
  rw [codes, hm]

theorem exists_member (h : s.members.any (·.path == path) = true) : ∃ m, s.member? path = some m := by
  obtain ⟨m, hm, hpath⟩ := List.any_eq_true.mp h
  exact Option.isSome_iff_exists.mp (List.find?_isSome.mpr ⟨m, hm, hpath⟩)

/-- The same shape once more takes no code away. -/
theorem codes_again (h : Alike s s') : codes path (s' :: shapes) ⊆ codes path (s :: s' :: shapes) := by
  cases hm : s'.member? path with
  | none =>
    rw [codes, hm]
    exact List.nil_subset _
  | some m =>
    obtain ⟨hin, hpath⟩ := Schema.member?_eq_some hm
    have hthere : s'.members.any (·.path == path) = true := List.any_eq_true.mpr ⟨m, hin, beq_iff_eq.mpr hpath⟩
    rw [← h.declares_eq] at hthere
    obtain ⟨m', hm'⟩ := exists_member hthere
    rw [codes_of_member hm']
    exact List.subset_cons_self ..

end

/-! ### Index rows of a set -/

/-- A call that changes rows at most, and writes no values to the set of a schema but those of the schema's members. -/
def Client.Call.Follows (s : Schema) (call : Client.Call) : Prop :=
  call.shapes = false ∧ ∀ s' es, call.written? = some (s', es) → folded s'.stem = folded s.stem →
    ∀ e ∈ es, ∃ m ∈ s.members, m.path = e.path ∧ m.code = e.code

section
variable {s : Schema} {st st' : Store} {t t' : TableSet} {es : List IndexEntry} {added : Option DocId}

/-- A row was there, or it is one of the entries that were written. -/
theorem TableSet.RowChange.mem_indexRows (h : t.RowChange es added t') {r : IndexRow} (hr : r ∈ t'.indexRows) :
    r ∈ t.indexRows ∨ ∃ e ∈ es, r.path = e.path ∧ r.code = e.code := by
  have hadded {t t' : TableSet} {d : Datum} (hentries : t.insertEntries d es = .ok t') (hr : r ∈ t'.indexRows) :
      r ∈ t.indexRows ∨ ∃ e ∈ es, r.path = e.path ∧ r.code = e.code := by
    rw [insertEntries_eq_ok hentries] at hr
    refine (List.mem_append.mp hr).imp_right fun hr => ?_
    obtain ⟨e, he, rfl⟩ := List.mem_map.mp hr
    exact ⟨e, he, rfl, rfl⟩
  cases h with
  | insert _ hrow hentries =>
    refine (hadded hentries hr).imp_left fun hr => ?_
    rw [(insertRow_eq_ok hrow).1] at hr
    exact hr
  | replace _ hentries => exact (hadded hentries hr).imp_left fun hr => (List.mem_filter.mp hr).1
  | deleteKeys | deleteInterval => exact Or.inl (List.mem_filter.mp hr).1

theorem ensureIndexes_of_set : ∀ {is : List Index} {st st' : Store} {t : TableSet}, st.Named → st.set? s = some t →
    is.foldlM (ensureIndex s) st = .ok st' → ∃ indexes, st'.set? s = some { t with indexes }
  | [], _, _, t, _, hset, hdone => by
    cases hdone
    exact ⟨t.indexes, hset⟩
  | i :: is, st, st', t, hn, hset, hdone => by
    rw [List.foldlM_cons] at hdone
    obtain ⟨st₁, hone, hrest⟩ := bind_eq_ok.mp hdone
    rcases ensureIndex_of_set hset hone with ⟨-, rfl⟩ | ⟨-, rfl⟩
    · exact ensureIndexes_of_set hn hset hrest
    · have hstem : folded t.stem = folded s.stem := hn.stem hset
      obtain ⟨indexes, hset'⟩ :=
        ensureIndexes_of_set (t := { t with indexes := t.indexes ++ [i] }) (hn.putSet _) (set?_putSet_self hstem) hrest
      exact ⟨indexes, hset'⟩

/-- What bringing a set to a shape makes of the one that was there, or of a new one. -/
theorem shaped_of_set (hn : st.Named) (h : shaped s st = .ok st') : ∃ (t : TableSet) (indexes : List Index),
    (st.set? s = some t ∨ st.set? s = none ∧ t.indexRows = []) ∧
      st'.set? s = some { t.withoutStale s with indexes } := by
  obtain ⟨st₁, st₂, htables, hindexes, hlast⟩ := shaped_eq_ok h
  obtain ⟨t, ht, hn₁, hset₁⟩ : ∃ t, (st.set? s = some t ∨ st.set? s = none ∧ t.indexRows = []) ∧ st₁.Named ∧
      st₁.set? s = some t := by
    rcases withTables_eq_ok htables with ⟨rfl, hset⟩ | ⟨hset, rfl⟩
    · obtain ⟨t, hset⟩ := Option.isSome_iff_exists.mp hset
      exact ⟨t, Or.inl hset, hn, hset⟩
    · exact ⟨_, Or.inr ⟨hset, rfl⟩, hn.putSet _, set?_putSet_self rfl⟩
  obtain ⟨indexes, hset₂⟩ := ensureIndexes_of_set hn₁ hset₁ hindexes
  refine ⟨t, indexes, ht, ?_⟩
  rcases hlast with ⟨hnone, -⟩ | ⟨t₂, hset, rfl⟩
  · rw [hset₂] at hnone
    cases hnone
  · cases hset₂.symm.trans hset
    have hstem : folded t.stem = folded s.stem := hn₁.stem hset₁
    exact set?_putSet_self hstem

end

/-! ### Along a history -/

/-- A store in which the set of a type, which is there if the type has a shape, holds values only in the columns of
    codes that their paths had. -/
structure Coded (k : Key) (st : Store) (shapes : List Schema) : Prop where
  present : shapes ≠ [] → (st.sets.get? (folded k.stem)).isSome
  codes : ∀ {t}, st.sets.get? (folded k.stem) = some t → ∀ r ∈ t.indexRows, r.code ∈ codes r.path shapes

section
variable {k : Key} {s : Schema} {st st' : Store} {shapes : List Schema}

theorem Coded.shaped (h : Coded k st shapes) (hn : st.Named) (hstem : s.stem = k.stem)
    (hdone : Store.shaped s st = .ok st') : Coded k st' (s :: shapes) := by
  obtain ⟨t, indexes, ht, hset'⟩ := shaped_of_set hn hdone
  rw [set?, hstem] at ht hset'
  refine ⟨fun _ => Option.isSome_iff_exists.mpr ⟨_, hset'⟩, fun {t'} hget r hr => ?_⟩
  cases hset'.symm.trans hget
  obtain ⟨hr, hdeclared⟩ := List.mem_filter.mp hr
  obtain ⟨m, hm⟩ := exists_member hdeclared
  rw [codes_of_member hm]
  rcases ht with hset | ⟨-, hempty⟩
  · exact List.mem_cons_of_mem _ (h.codes hset r hr)
  · rw [hempty] at hr
    cases hr

/-- A set may be put back with rows of the codes of the last shape, if it is that of the type. -/
theorem Coded.putSet (h : Coded k st (s :: shapes)) (hs : s.Builds) {t t' : TableSet} {es : List IndexEntry}
    {added : Option DocId} (hget : st.sets.get? (folded t'.stem) = some t) (hchange : t.RowChange es added t')
    (hes : folded t'.stem = folded k.stem → ∀ e ∈ es, ∃ m ∈ s.members, m.path = e.path ∧ m.code = e.code) :
    Coded k (st.putSet t') (s :: shapes) := by
  by_cases hstem : folded t'.stem = folded k.stem
  · have hput : (st.putSet t').sets.get? (folded k.stem) = some t' := by
      rw [Store.putSet, Assoc.get?_insert, if_pos hstem]
    refine ⟨fun _ => Option.isSome_iff_exists.mpr ⟨t', hput⟩, fun {t₁} hget₁ r hr => ?_⟩
    cases hput.symm.trans hget₁
    rcases hchange.mem_indexRows hr with hr | ⟨e, he, hpath, hcode⟩
    · exact h.codes (hstem ▸ hget) r hr
    · obtain ⟨m, hm, hpath', hcode'⟩ := hes hstem e he
      have hmember : s.member? r.path = some m := by
        rw [hpath, ← hpath']
        exact hs.member?_of_mem hm
      rw [codes_of_member hmember, hcode, ← hcode']
      exact List.mem_cons_self ..
  · have hput : (st.putSet t').sets.get? (folded k.stem) = st.sets.get? (folded k.stem) := by
      rw [Store.putSet, Assoc.get?_insert, if_neg hstem]
    exact ⟨fun hne => hput ▸ h.present hne, fun {t₁} hget₁ => h.codes (hput ▸ hget₁)⟩

/-- The rows that a call writes have the codes of the last shape. -/
theorem Coded.write (h : Coded k st (s :: shapes)) (hn : st.Named) (hs : s.Builds) (hstem : s.stem = k.stem)
    (c : Client) {call : Client.Call} (hcall : call.Follows s) : Coded k (c.perform call st).2 (s :: shapes) := by
  obtain ⟨hrows, hwritten⟩ := hcall
  have hkept : RowsKept call.written? call.added? fun st => st.Named ∧ Coded k st (s :: shapes) := by
    refine ⟨fun {st s' es t t'} hw hst hset hchange => ?_, fun _ hst _ =>
      ⟨hst.1.of_sets rfl, hst.2.present, hst.2.codes⟩⟩
    have hstem' : folded t'.stem = folded s'.stem := by rw [hchange.stem, hst.1.stem hset]
    refine ⟨hst.1.putSet t', hst.2.putSet hs (hstem' ▸ hset) hchange fun hown => ?_⟩
    exact hwritten s' es hw (by rw [← hstem', hown, hstem])
  exact (c.perform_rows hkept hrows st ⟨hn, h⟩).1.2

theorem tracks_coded (k : Key) : Tracks Client.Call.Follows k (Coded k) where
  sets hsets h := ⟨fun hne => hsets ▸ h.present hne, fun {_} hget => h.codes (hsets ▸ hget)⟩
  again halike h :=
    ⟨fun _ => h.present (List.cons_ne_nil _ _), fun {_} hget r hr => codes_again halike (h.codes hget r hr)⟩
  shaped hn hstem hdone h := h.shaped hn hstem hdone
  write c _ hn hs hstem hcall h := h.write hn hs hstem c hcall

variable {st₀ : Store}

/-- After a type was brought to a shape, every index row of its set is of a member of the shape, and it has its value in
    the column of a code that the member's path had since it was last not declared. If the path had no code but the one
    that it has in the shape, the value is in the column of this code and all other columns hold none. -/
theorem indexRows_current (hnew : New k st₀) (h : History Client.Call.Follows k st₀ st (s :: shapes))
    (hd : Discerned (s :: shapes)) : ∃ t, st.set? s = some t ∧ ∀ r ∈ t.indexRows, ∃ m ∈ s.members, m.path = r.path ∧
      r.code ∈ codes m.path (s :: shapes) ∧ ((∀ code ∈ codes m.path (s :: shapes), code = m.code) →
        ∀ code, r.row (.value code) = if code = m.code then r.value else .null) := by
  obtain ⟨hs, hkey⟩ := h.built s (List.mem_cons_self ..)
  have hstart : Coded k st₀ [] := by
    refine ⟨fun hne => absurd rfl hne, fun {t} hget => ?_⟩
    rw [hnew.set] at hget
    cases hget
  have hcoded := h.tracks hnew (fun hcall => hcall.1) (tracks_coded k) hstart hd
  obtain ⟨t, hset⟩ := Option.isSome_iff_exists.mp (hcoded.present (List.cons_ne_nil _ _))
  refine ⟨t, ?_, fun r hr => ?_⟩
  · rw [set?, hs.stem_eq, hkey, hset]
  · have hcode := hcoded.codes hset r hr
    cases hm : s.member? r.path with
    | none =>
      rw [codes, hm] at hcode
      cases hcode
    | some m =>
      obtain ⟨hin, hpath⟩ := Schema.member?_eq_some hm
      rw [← hpath] at hcode
      refine ⟨m, hin, hpath, hcode, fun hall code => ?_⟩
      rw [IndexRow.row, hall r.code hcode]

/-- Users with their ages, with their names too, and with ages that are texts. -/
def ageSchema : Schema := .ofShape "" "User" .identity [⟨"Age", "Integer", .integer, false, false⟩]

def ageNameSchema : Schema :=
  .ofShape "" "User" .identity [⟨"Age", "Integer", .integer, false, false⟩, ⟨"Name", "String", .string, false, false⟩]

def ageTextSchema : Schema := .ofShape "" "User" .identity [⟨"Age", "String", .string, false, false⟩]

/-- Ages stay in their column when names are added. -/
theorem indexRows_current_users :
    let c : Client := {}
    let es : List IndexEntry := [⟨"Age", .integer, .integer 5⟩]
    let st₀ := (Store.perform .create {}).2
    let st := st₀.after [(c, .upsert ageSchema), (c, .insert ageSchema (.identity 1) "Ann" es),
      (c, .upsert ageNameSchema)]
    let shapes := [ageNameSchema, ageSchema]
    New ageNameSchema.key st₀ ∧ History Client.Call.Follows ageNameSchema.key st₀ st shapes ∧ Discerned shapes ∧
      ∃ t, st.set? ageNameSchema = some t ∧ t.indexRows.length = 1 ∧ ∀ r ∈ t.indexRows, ∃ m ∈ ageNameSchema.members,
        m.path = r.path ∧ ∀ code, r.row (.value code) = if code = m.code then r.value else .null := by
  intro c es st₀ st shapes
  have hnew : New ageNameSchema.key st₀ := ⟨.manage (.opened ":memory:" false) .create, rfl, rfl⟩
  have hrun : (c.perform (.upsert ageSchema) st₀).1 = .ok .done ∧
      (c.perform (.upsert ageNameSchema) (st₀.after [(c, .upsert ageSchema),
        (c, .insert ageSchema (.identity 1) "Ann" es)])).1 = .ok .done ∧
      ageNameSchema.fingerprint ≠ ageSchema.fingerprint ∧
      (st.set? ageNameSchema).map (·.indexRows.length) = some 1 := by
    decide +kernel
  obtain ⟨hfirst, hlast, hfingerprint, hlength⟩ := hrun
  have hwrite : (Client.Call.insert ageSchema (.identity 1) "Ann" es).Follows ageSchema := by
    refine ⟨rfl, ?_⟩
    rintro s' es' ⟨⟩ -
    decide
  have hbefore : ageSchema.Builds := Schema.builds_ofShape (by decide) rfl
  have hafter : ageNameSchema.Builds := Schema.builds_ofShape (by decide) rfl
  have hhistory : History Client.Call.Follows ageNameSchema.key st₀ st shapes :=
    .reshaped hbefore rfl hafter rfl c hwrite hfirst hlast
  have hd : Discerned shapes := discerned_of_pairwise (List.pairwise_pair.mpr hfingerprint)
  have hcodes : ∀ m ∈ ageNameSchema.members, ∀ code ∈ codes m.path shapes, code = m.code := by decide
  obtain ⟨t, hset, hrows⟩ := indexRows_current hnew hhistory hd
  rw [hset] at hlength
  refine ⟨hnew, hhistory, hd, t, hset, Option.some.inj hlength, fun r hr => ?_⟩
  obtain ⟨m, hm, hpath, -, hcolumns⟩ := hrows r hr
  exact ⟨m, hm, hpath, hcolumns (hcodes m hm)⟩

/-- Ages are texts, yet the index row of an age holds a number, and nothing in the column of texts. -/
theorem indexRows_stale :
    let c : Client := {}
    let es : List IndexEntry := [⟨"Age", .integer, .integer 5⟩]
    let st₀ := (Store.perform .create {}).2
    let st := st₀.after [(c, .upsert ageSchema), (c, .insert ageSchema (.identity 1) "Ann" es),
      (c, .upsert ageTextSchema)]
    let shapes := [ageTextSchema, ageSchema]
    let r : IndexRow := ⟨.integer 1, "Age", .integer, .integer 5⟩
    New ageTextSchema.key st₀ ∧ History Client.Call.Follows ageTextSchema.key st₀ st shapes ∧ Discerned shapes ∧
      (st.set? ageTextSchema).map (·.indexRows) = some [r] ∧
      (ageTextSchema.member? r.path).map (·.code) = some .string ∧
      r.row (.value .string) = .null ∧ r.row (.value .integer) = .integer 5 := by
  intro c es st₀ st shapes r
  have hnew : New ageTextSchema.key st₀ := ⟨.manage (.opened ":memory:" false) .create, rfl, rfl⟩
  have hrun : (c.perform (.upsert ageSchema) st₀).1 = .ok .done ∧
      (c.perform (.upsert ageTextSchema) (st₀.after [(c, .upsert ageSchema),
        (c, .insert ageSchema (.identity 1) "Ann" es)])).1 = .ok .done ∧
      ageTextSchema.fingerprint ≠ ageSchema.fingerprint ∧
      (st.set? ageTextSchema).map (·.indexRows) = some [r] := by
    decide +kernel
  obtain ⟨hfirst, hlast, hfingerprint, hrows⟩ := hrun
  have hwrite : (Client.Call.insert ageSchema (.identity 1) "Ann" es).Follows ageSchema := by
    refine ⟨rfl, ?_⟩
    rintro s' es' ⟨⟩ -
    decide
  have hbefore : ageSchema.Builds := Schema.builds_ofShape (by decide) rfl
  have hafter : ageTextSchema.Builds := Schema.builds_ofShape (by decide) rfl
  have hhistory : History Client.Call.Follows ageTextSchema.key st₀ st shapes :=
    .reshaped hbefore rfl hafter rfl c hwrite hfirst hlast
  have hd : Discerned shapes := discerned_of_pairwise (List.pairwise_pair.mpr hfingerprint)
  exact ⟨hnew, hhistory, hd, hrows, by decide, rfl, rfl⟩

end

end DocStore.Store
