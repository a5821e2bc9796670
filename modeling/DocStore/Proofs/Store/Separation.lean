import DocStore.Proofs.Store.Beside

/-! Calls about one type and the data of another. If the tables of the two are four different ones, no call about the
    one changes or drops what is held of the other, and none does or answers anything that depends on it. -/

namespace DocStore.Store

/-! ### Calls about one type -/

/-- A call about the set of a schema. Its statements are compiled for the schema; one of the caller's own selects from
    a table of the schema. -/
def Client.Call.Of (s : Schema) : Client.Call → Prop
  | .upsert s' | .drop s' | .fetch s' _ | .fetchMany s' _ | .fetchInterval s' _ _ | .fetchAll s' | .count s'
  | .holds s' _ | .reserve s' _ | .insert s' _ _ _ | .replace s' _ _ _ | .deleteMany s' _ | .deleteInterval s' _ _ =>
    s' = s
  | .countWhere s' f | .idsWhere s' f => s' = s ∧ ∃ d p, s.compileFilter d p = .ok f
  | .select q => ∃ d query, s.compileQuery d query = .ok q
  | .selectRaw q => ∀ r, Sql.RawSelect.ofText? q.sql = some r → ¬Foreign s r.table

/-- A call about the set of a type, in one of the shapes that the type may have. -/
def Client.Call.On (k : Key) (call : Client.Call) : Prop := ∃ s : Schema, s.Builds ∧ s.key = k ∧ call.Of s

/-! ### Reads -/

section
variable {s s' : Schema} (hne : folded s.stem ≠ folded s'.stem)
include hne

/-- A read of the set of a schema. -/
theorem beside_readingSet {α : Type} (f : TableSet → Except StoreError α) :
    Beside s' (reading fun st => st.structureSet s >>= f) :=
  .reading fun _ rows indexRows => by rw [structureSet_withData hne]

theorem fetchChunks_withData {st : Store} (rows : List StructureRow) (indexRows : List IndexRow) :
    ∀ parts : List (List DocId), fetchChunks s (st.withData s' rows indexRows) parts = fetchChunks s st parts
  | [] => rfl
  | ids :: parts => by
    rw [fetchChunks, fetchChunks, fetchChunk, fetchChunk, structureSet_withData hne,
      fetchChunks_withData rows indexRows parts]

theorem beside_fetchMany (ids : List DocId) : Beside s' (fetchMany s ids) :=
  .query fun _ rows indexRows => fetchChunks_withData hne rows indexRows _

theorem beside_select {d : Dialect} {query : Query} {q : CompiledQuery} (h : s.compileQuery d query = .ok q) :
    Beside s' (select q) := by
  have hover := compileQuery_over (foreign_structureTable hne) (foreign_indexesTable hne) h
  refine .reading fun hn rows indexRows => ?_
  have hagree : Sql.Tables.Agree (Foreign s') _ _ := tables_withData rows indexRows hn
  dsimp only
  rw [hasTable_withData, Sql.Statement.visited_congr hagree _ hover, Sql.checkRows_congr hagree _ hover.filter,
    Sql.Statement.rows_congr hagree _ hover]

theorem filtered_withData {d : Dialect} {p : Option Predicate} {f : CompiledFilter} (h : s.compileFilter d p = .ok f)
    {st : Store} (hn : st.Named) (rows : List StructureRow) (indexRows : List IndexRow) (sql : String) (n : Nat) :
    filtered s f sql n (st.withData s' rows indexRows) = filtered s f sql n st := by
  have hover := compileFilter_over (foreign_indexesTable hne) h
  have hagree : Sql.Tables.Agree (Foreign s') _ _ := tables_withData rows indexRows hn
  simp only [filtered, structureSet_withData hne, Sql.checkRows_congr hagree _ hover,
    Sql.satisfies_congr hagree _ hover]

theorem beside_selectRaw {q : RawQuery} (h : ∀ r, Sql.RawSelect.ofText? q.sql = some r → ¬Foreign s r.table) :
    Beside s' (selectRaw q) := by
  refine .reading fun hn rows indexRows => ?_
  cases hread : Sql.RawSelect.ofText? q.sql with
  | none => rfl
  | some r =>
    -- the table is one of the schema's, and these are foreign to the other schema
    have hforeign : Foreign s' r.table := by
      have hown := h r hread
      cases hrows : Text.sameName r.table s.structureTable with
      | true => exact (foreign_structureTable hne).congr hrows
      | false =>
        cases hindexes : Text.sameName r.table s.indexesTable with
        | true => exact (foreign_indexesTable hne).congr hindexes
        | false => exact absurd ⟨hrows, hindexes⟩ hown
    dsimp only
    rw [rowsOf?_withData rows indexRows hn hforeign, affinityOf_withData]

end

/-! ### Calls -/

/-- Steps that do the same on stores whose sets are filed are beside the same sets. -/
theorem Beside.congr {α : Type} {s : Schema} {m m' : Do α} (hm : Beside s m)
    (h : ∀ {st : Store}, st.Named → m' st = m st) : Beside s m' where
  named hn := by
    rw [h hn]
    exact hm.named hn
  untouched hn := by
    rw [h hn]
    exact hm.untouched hn
  blind hn rows indexRows := by
    rw [h hn, h (hn.withData rows indexRows)]
    exact hm.blind hn rows indexRows

section
variable {s s' : Schema}

theorem Client.issue_beside (hne : folded s.stem ≠ folded s'.stem) (hkey : s.key ≠ s'.key) (c : Client)
    {call : Client.Call} (hcall : call.Of s) : Beside s' (c.issue call) := by
  cases call with
  | upsert =>
    cases hcall
    exact ((beside_upsertStatements hne hkey).guarded c).map _
  | drop =>
    cases hcall
    exact ((beside_dropStatements hne hkey).guarded c).map _
  | fetch | fetchInterval | fetchAll | count | holds =>
    cases hcall
    exact ((beside_readingSet hne _).guarded c).map _
  | fetchMany =>
    cases hcall
    exact ((beside_fetchMany hne _).guarded c).map _
  | select q =>
    obtain ⟨d, query, hcompiled⟩ := hcall
    exact ((beside_select hne hcompiled).guarded c).map _
  | selectRaw q => exact ((beside_selectRaw hne hcall).guarded c).map _
  | countWhere _ f =>
    obtain ⟨rfl, d, p, hcompiled⟩ := hcall
    have hcount : Beside s' (countWhere _ f) := .reading fun hn rows indexRows => by
      rw [filtered_withData hne hcompiled hn]
    exact (hcount.guarded c).map _
  | idsWhere _ f =>
    obtain ⟨rfl, d, p, hcompiled⟩ := hcall
    have hids : Beside s' (idsWhere _ f) := .query fun hn rows indexRows => by
      rw [filtered_withData hne hcompiled hn]
    exact (hids.guarded c).map _
  | reserve _ n =>
    cases hcall
    exact ((Beside.ofExcept _).bind fun _ => (beside_reserveStatements hne hkey n).guarded c).map _
  | insert _ id payload es =>
    cases hcall
    exact ((beside_insertStatements hne id payload es).guarded c).map _
  | replace _ id payload es =>
    cases hcall
    exact ((beside_replaceStatements hne id payload es).guarded c).map _
  | deleteMany _ ids =>
    cases hcall
    exact ((beside_deleteChunksStatements hne _).guarded c).map _
  | deleteInterval =>
    cases hcall
    exact ((beside_deleteWhere hne _ _).guarded c).map _

theorem Client.perform_beside (hne : folded s.stem ≠ folded s'.stem) (hkey : s.key ≠ s'.key) (c : Client)
    {call : Client.Call} (hcall : call.Of s) : Beside s' (c.perform call) :=
  (c.issue_beside hne hkey hcall).orUndone.congr fun hn => c.perform_eq_orUndone hn call

/-- What single calls do not touch, a run of them does not touch. -/
theorem after_beside : ∀ {run : List (Client × Client.Call)} {st : Store},
    (∀ x ∈ run, Beside s' (x.1.perform x.2)) → st.Named → (st.after run).Named ∧ Untouched s' st (st.after run) ∧
      ∀ rows indexRows, (st.withData s' rows indexRows).after run = (st.after run).withData s' rows indexRows
  | [], _, _, hn => ⟨hn, .refl .., fun _ _ => rfl⟩
  | x :: run, st, hrun, hn => by
    have hone := hrun x (List.mem_cons_self ..)
    obtain ⟨hnamed, huntouched, hblind⟩ := after_beside (fun y hy => hrun y (List.mem_cons_of_mem _ hy)) (hone.named hn)
    refine ⟨hnamed, (hone.untouched hn).trans huntouched, fun rows indexRows => ?_⟩
    have hnext : (x.1.perform x.2 (st.withData s' rows indexRows)).2 =
        (x.1.perform x.2 st).2.withData s' rows indexRows := congrArg Prod.snd (hone.blind hn rows indexRows)
    show after (x.1.perform x.2 (st.withData s' rows indexRows)).2 run = _
    rw [hnext]
    exact hblind rows indexRows

end

/-- The tables of two types are four different ones if and only if their keys differ in more than the case of letters
    and an underscore in the place of a dot. If so, whatever calls about the one leave of the other what was there, and
    all that they do and answer is the same with other data in the other's set. -/
theorem sets_beside {s s' : Schema} (hs : s.Builds) (hs' : s'.Builds) :
    (FourTables s s' ↔ folded s.key.stem ≠ folded s'.key.stem) ∧
      (FourTables s s' → ∀ st, Reached (fun _ => True) st → ∀ run : List (Client × Client.Call),
        (∀ x ∈ run, x.2.On s.key) → Untouched s' st (st.after run) ∧ ∀ rows indexRows,
          (st.withData s' rows indexRows).after run = (st.after run).withData s' rows indexRows ∧
          ∀ (c : Client) call, call.On s.key →
            (c.perform call ((st.withData s' rows indexRows).after run)).1 = (c.perform call (st.after run)).1) := by
  refine ⟨by rw [fourTables_iff, hs.stem_eq, hs'.stem_eq], fun hfour st hst run hrun => ?_⟩
  have hne := fourTables_iff.mp hfour
  have hkey : s.key ≠ s'.key := fun hkey => hne (congrArg folded (hs.stem_congr hs' hkey))
  -- a type has the same tables in all of its shapes
  have hbeside (c : Client) {call : Client.Call} (hcall : call.On s.key) : Beside s' (c.perform call) := by
    obtain ⟨s₁, hs₁, hkey₁, hof⟩ := hcall
    exact c.perform_beside (hs₁.stem_congr hs hkey₁ ▸ hne) (hkey₁ ▸ hkey) hof
  obtain ⟨hn, huntouched, hblind⟩ := after_beside (fun x hx => hbeside x.1 (hrun x hx)) hst.filed
  refine ⟨huntouched, fun rows indexRows => ⟨hblind rows indexRows, fun c call hcall => ?_⟩⟩
  rw [hblind rows indexRows, (hbeside c hcall).blind hn]

/-- Orders of a namespace, and a type of its own whose name lacks only the underscore. -/
def orderSchema : Schema := .ofShape "Sales" "Order" .identity [⟨"Price", "Integer", .integer, false, false⟩]

def salesOrderSchema : Schema := .ofShape "" "SalesOrder" .identity [⟨"Weight", "Integer", .integer, false, false⟩]

/-- Dropping the orders leaves the others. -/
theorem sets_beside_orders :
    let c : Client := {}
    let st := (Store.perform .create {}).2.after [(c, .upsert orderSchema), (c, .upsert salesOrderSchema),
      (c, .insert salesOrderSchema (.identity 1) "Tea" [⟨"Weight", .integer, .integer 5⟩])]
    let run : List (Client × Client.Call) := [(c, .insert orderSchema (.identity 1) "Cup" []), (c, .drop orderSchema)]
    orderSchema.Builds ∧ salesOrderSchema.Builds ∧ FourTables orderSchema salesOrderSchema ∧
      Reached (fun _ => True) st ∧ (∀ x ∈ run, x.2.On orderSchema.key) ∧
      (st.set? salesOrderSchema).map (·.rows.length) = some 1 ∧ (st.after run).set? orderSchema = none ∧
      Untouched salesOrderSchema st (st.after run) := by
  intro c st run
  have horder : orderSchema.Builds := Schema.builds_ofShape (by decide) rfl
  have hsales : salesOrderSchema.Builds := Schema.builds_ofShape (by decide) rfl
  have hfour : FourTables orderSchema salesOrderSchema := by decide +kernel
  have hst : Reached (fun _ => True) st :=
    (Reached.manage (.opened ":memory:" false) .create).calls fun x _ => x.2.about_all
  have hrun : ∀ x ∈ run, x.2.On orderSchema.key :=
    List.forall_mem_cons.mpr ⟨⟨orderSchema, horder, rfl, rfl⟩, List.forall_mem_singleton.mpr
      ⟨orderSchema, horder, rfl, rfl⟩⟩
  have hdata : (st.set? salesOrderSchema).map (·.rows.length) = some 1 ∧ (st.after run).set? orderSchema = none := by
    decide +kernel
  exact ⟨horder, hsales, hfour, hst, hrun, hdata.1, hdata.2, ((sets_beside horder hsales).2 hfour st hst run hrun).1⟩

/-- Lines of a namespace, and a type of another key whose tables have the same names. -/
def lineSchema : Schema := .ofShape "Sales_Order" "Line" .identity [⟨"Price", "Integer", .integer, false, false⟩]

def orderLineSchema : Schema := .ofShape "Sales" "Order_Line" .identity [⟨"Weight", "Integer", .integer, false, false⟩]

/-- The line is counted among the order lines, and with them it is dropped. -/
theorem sets_shared :
    let c : Client := {}
    let st := (Store.perform .create {}).2.after [(c, .upsert lineSchema),
      (c, .insert lineSchema (.identity 1) "Tea" [⟨"Price", .integer, .integer 5⟩]), (c, .upsert orderLineSchema)]
    lineSchema.Builds ∧ orderLineSchema.Builds ∧ lineSchema.key ≠ orderLineSchema.key ∧
      ¬FourTables lineSchema orderLineSchema ∧ Reached (fun _ => True) st ∧
      (Client.Call.drop orderLineSchema).On orderLineSchema.key ∧
      (st.set? lineSchema).map (·.rows.length) = some 1 ∧
      (c.perform (.count orderLineSchema) st).1 = .ok (.number 1) ∧
      (c.perform (.drop orderLineSchema) st).2.set? lineSchema = none := by
  intro c st
  have hline : lineSchema.Builds := Schema.builds_ofShape (by decide) rfl
  have horderLine : orderLineSchema.Builds := Schema.builds_ofShape (by decide) rfl
  have hst : Reached (fun _ => True) st :=
    (Reached.manage (.opened ":memory:" false) .create).calls fun x _ => x.2.about_all
  refine ⟨hline, horderLine, by decide, by decide +kernel, hst, ⟨orderLineSchema, horderLine, rfl, rfl⟩, ?_⟩
  decide +kernel

end DocStore.Store
