import DocStore.Proofs.Assoc
import DocStore.Proofs.Schema.Built
import DocStore.Proofs.Step
import DocStore.Proofs.Store.Outcomes
import DocStore.Store.Client

/-! Clients that were closed. A closed client refuses every call and changes nothing, the others go on with the same data
    as if it had not been there, and none of them is told that it was closed. Reserving identities for ids that are none
    is refused before it is looked at whether the client was closed. -/

namespace DocStore

/-! ### Errors that do not occur -/

/-- A computation that does not fail with an error. -/
def Avoids {ε α : Type} (e : ε) (x : Except ε α) : Prop := x ≠ .error e

namespace Avoids

variable {ε ε' α β : Type} {e : ε}

theorem bind {x : Except ε α} {f : α → Except ε β} (hx : Avoids e x) (hf : ∀ a, Avoids e (f a)) :
    Avoids e (x >>= f) := by
  cases x with
  | error e' => exact fun h => hx (congrArg _ (Except.error.inj h))
  | ok a => exact hf a

theorem map {x : Except ε α} (hx : Avoids e x) (f : α → β) : Avoids e (x.map f) := by
  cases x with
  | error e' => exact fun h => hx (congrArg _ (Except.error.inj h))
  | ok a => exact nofun

theorem mapError {x : Except ε' α} {f : ε' → ε} (h : ∀ e', x = .error e' → f e' ≠ e) : Avoids e (x.mapError f) := by
  cases x with
  | error e' => exact fun heq => h e' rfl (Except.error.inj heq)
  | ok a => exact nofun

/-- Said of another type of answers. -/
theorem of_error {x : Except ε α} {e' : ε} (hx : Avoids e x) (h : x = .error e') :
    Avoids e (.error e' : Except ε β) := fun heq => hx (Except.error.inj heq ▸ h)

end Avoids

namespace Step

variable {ε σ α β : Type} {e : ε}

/-- A step that never fails with an error. -/
def Avoids (e : ε) (m : Step ε σ α) : Prop := ∀ s, DocStore.Avoids e (m s).1

theorem Avoids.map {m : Step ε σ α} (h : m.Avoids e) (f : α → β) : (m.map f).Avoids e := fun s => by
  rw [map_answer]
  exact (h s).map f

theorem Avoids.transaction {f : σ → Except ε (α × σ)} (h : ∀ s, DocStore.Avoids e (f s)) :
    (Step.transaction f).Avoids e := fun s => by
  cases hf : f s with
  | error e' =>
    rw [transaction_error hf]
    exact (h s).of_error hf
  | ok x =>
    rw [transaction_ok hf]
    exact nofun

end Step

namespace Store

section
variable {st : Store} {s : Schema}

theorem avoids_store {α : Type} {x : Except StoreError α} (h : Avoids .connectionClosed x) :
    Avoids (.store .connectionClosed) (x.mapError Error.store) :=
  .mapError fun _ he heq => h (Error.store.inj heq ▸ he)

theorem avoids_reading {α : Type} {f : Store → Except StoreError α} (h : ∀ st, Avoids .connectionClosed (f st)) :
    (reading f).Avoids (.store .connectionClosed) := fun st => avoids_store (h st)

theorem avoids_writing {α : Type} {f : Store → Except StoreError (α × Store)}
    (h : ∀ st, Avoids .connectionClosed (f st)) : (writing f).Avoids (.store .connectionClosed) :=
  .transaction fun st => avoids_store (h st)

theorem avoids_structureSet : Avoids .connectionClosed (st.structureSet s) := by
  rw [structureSet]
  split <;> rintro ⟨⟩

theorem avoids_indexSet : Avoids .connectionClosed (st.indexSet s) := by
  rw [indexSet]
  split <;> rintro ⟨⟩

/-! ### Reading -/

theorem avoids_ofSet {α : Type} (f : TableSet → α) :
    (reading fun st => do let t ← st.structureSet s; pure (f t)).Avoids (.store .connectionClosed) :=
  avoids_reading fun _ => avoids_structureSet.bind fun _ => nofun

theorem avoids_idOf (t : IdType) (d : Sql.Datum) : Avoids (.store .connectionClosed) (idOf t d) := by
  cases d with
  | null => exact nofun
  | real x => exact nofun
  | integer n => exact .mapError fun _ _ => nofun
  | text a => exact .mapError fun _ _ => nofun

theorem avoids_idsOf (t : IdType) (ds : List Sql.Datum) : Avoids (.store .connectionClosed) (idsOf t ds) := by
  induction ds with
  | nil => exact nofun
  | cons d ds ih =>
    rw [idsOf]
    split
    · exact (avoids_idOf t d).of_error ‹_›
    · exact ih.map _

theorem avoids_fetchChunks (parts : List (List DocId)) :
    Avoids (.store .connectionClosed) (fetchChunks s st parts) := by
  induction parts with
  | nil => exact nofun
  | cons ids parts ih =>
    rw [fetchChunks]
    split
    · rename_i e he
      have hone : Avoids (.store .connectionClosed) (fetchChunk s st ids) :=
        (avoids_store avoids_structureSet).bind fun _ => (avoids_idsOf _ _).bind fun _ => by rintro ⟨⟩
      exact hone.of_error he
    · exact ih.map _

theorem avoids_bounded (sql : String) (r : Except Sql.Excess Unit) : Avoids .connectionClosed (bounded sql r) :=
  .mapError fun _ _ => nofun

theorem avoids_filtered (f : CompiledFilter) (sql : String) (terms : Nat) :
    Avoids .connectionClosed (filtered s f sql terms st) :=
  (avoids_bounded _ _).bind fun _ => avoids_structureSet.bind fun _ => (avoids_bounded _ _).bind fun _ =>
    (avoids_bounded _ _).bind fun _ => nofun

theorem avoids_select (q : CompiledQuery) : (select q).Avoids (.store .connectionClosed) :=
  avoids_reading fun st => (avoids_bounded _ _).bind fun _ => by
    dsimp only
    split
    · exact nofun
    · exact (avoids_bounded _ _).bind fun _ => (avoids_bounded _ _).bind fun _ => nofun

theorem avoids_selectRaw (q : RawQuery) : (selectRaw q).Avoids (.store .connectionClosed) :=
  avoids_reading fun st => by
    split
    · exact nofun
    · split
      · exact nofun
      · split <;> exact nofun

/-! ### Writing -/

theorem avoids_insertRow (t : TableSet) (id : Sql.Datum) (payload : String) :
    Avoids .connectionClosed (t.insertRow id payload) := by
  rw [TableSet.insertRow.eq_def]
  split
  · exact nofun
  · exact nofun
  · exact nofun
  · split <;> exact nofun

theorem avoids_insertEntries (id : Sql.Datum) (t : TableSet) (es : List IndexEntry) :
    Avoids .connectionClosed (t.insertEntries id es) := by
  induction es generalizing t with
  | nil => exact nofun
  | cons e es ih =>
    rw [TableSet.insertEntries]
    split
    · rename_i err herr
      rw [TableSet.insertIndexRow] at herr
      split at herr <;> cases herr
      rintro ⟨⟩
    · exact ih _

theorem avoids_deleteChunks (parts : List (List DocId)) : Avoids .connectionClosed (deleteChunks s st parts) := by
  induction parts generalizing st with
  | nil => exact nofun
  | cons ids parts ih =>
    rw [deleteChunks]
    split
    · rename_i e he
      have hone : Avoids .connectionClosed (deleteChunk s st ids) := avoids_indexSet.bind fun _ => by rintro ⟨⟩
      exact hone.of_error he
    · exact ih.map _

theorem avoids_deleteInterval (low high : DocId) :
    (deleteInterval s low high).Avoids (.store .connectionClosed) :=
  avoids_writing fun _ => avoids_indexSet.bind fun _ => nofun

theorem avoids_insert (id : DocId) (payload : String) (es : List IndexEntry) :
    (insert s id payload es).Avoids (.store .connectionClosed) :=
  avoids_writing fun _ => avoids_structureSet.bind fun _ => (avoids_insertRow _ _ _).bind fun _ =>
    (avoids_insertEntries _ _ _).bind fun _ => nofun

theorem avoids_replace (id : DocId) (payload : String) (es : List IndexEntry) :
    (replace s id payload es).Avoids (.store .connectionClosed) :=
  avoids_writing fun _ => avoids_structureSet.bind fun _ => by
    dsimp only
    split
    · exact nofun
    · exact (avoids_insertEntries _ _ _).bind fun _ => nofun

theorem avoids_reserve (count : Nat) : (reserve s count).Avoids (.store .connectionClosed) :=
  avoids_writing fun st => by
    split
    · exact nofun
    · refine avoids_structureSet.bind fun t => ?_
      split <;> exact nofun

theorem avoids_upsert : (upsert s).Avoids (.store .connectionClosed) := .transaction fun st => by
  split
  · rintro ⟨⟩
  · split
    · rintro ⟨⟩
    · split <;> rintro ⟨⟩

theorem avoids_drop : (drop s).Avoids (.store .connectionClosed) := .transaction fun st => by
  split <;> exact nofun

end

/-! ### Calls -/

namespace Client

variable {cl : Client}

/-- What a call is refused with before anything else is looked at. -/
def Call.refusal? : Call → Option Error
  | .reserve s _ =>
    if s.idType.isIdentity then none
    else some (.unsupported (.idType "reserve_identities" s.key.text s.idType.name))
  | _ => none

theorem avoids_guarded {α : Type} {e : Error} {m : Do α} (h : cl.closed = false) (hm : m.Avoids e) :
    (cl.guarded m).Avoids e := by
  rw [guarded_open h]
  exact hm

/-- A closed client fails at once, whatever it is asked to do. -/
theorem perform_closed (h : cl.closed = true) (call : Call) :
    cl.perform call = Step.fail (call.refusal?.getD (.store .connectionClosed)) := by
  cases call with
  | reserve s count =>
    rw [perform, reserve, guarded_closed h, checkIdentities, Call.refusal?]
    cases s.idType.isIdentity <;> rfl
  | _ =>
    rw [perform, guarded_closed h]
    rfl

/-- An open client never says that it was closed. -/
theorem perform_avoids (h : cl.closed = false) (call : Call) :
    (cl.perform call).Avoids (.store .connectionClosed) := by
  cases call with
  | upsert s => exact (avoids_guarded h avoids_upsert).map _
  | drop s => exact (avoids_guarded h avoids_drop).map _
  | fetch s id => exact (avoids_guarded h (avoids_ofSet _)).map _
  | fetchMany s ids => exact (avoids_guarded h fun st => avoids_fetchChunks _).map _
  | fetchInterval s low high => exact (avoids_guarded h (avoids_ofSet _)).map _
  | fetchAll s => exact (avoids_guarded h (avoids_ofSet _)).map _
  | select q => exact (avoids_guarded h (avoids_select q)).map _
  | selectRaw q => exact (avoids_guarded h (avoids_selectRaw q)).map _
  | count s => exact (avoids_guarded h (avoids_ofSet _)).map _
  | countWhere s f => exact (avoids_guarded h (avoids_reading fun st => (avoids_filtered _ _ _).map _)).map _
  | holds s id => exact (avoids_guarded h (avoids_ofSet _)).map _
  | idsWhere s f =>
    exact (avoids_guarded h fun st => (avoids_store (avoids_filtered _ _ _)).bind fun _ => avoids_idsOf _ _).map _
  | reserve s count =>
    refine .map (fun st => ?_) _
    rw [reserve, guarded_open h, checkIdentities]
    cases s.idType.isIdentity
    · rintro ⟨⟩
    · exact avoids_reserve count st
  | insert s id payload es => exact (avoids_guarded h (avoids_insert id payload es)).map _
  | replace s id payload es => exact (avoids_guarded h (avoids_replace id payload es)).map _
  | deleteMany s ids => exact (avoids_guarded h (avoids_writing fun st => avoids_deleteChunks _)).map _
  | deleteInterval s low high => exact (avoids_guarded h (avoids_deleteInterval low high)).map _

end Client

end Store

namespace Connections

/-! ### Clients side by side -/

/-- What can be done to a store and its clients. -/
inductive Event where
  | connect (name : String)
  | close (name : String)
  | call (name : String) (c : Store.Client.Call)
  | manage (c : Store.Call)

/-- The client that is asked, if it is one. -/
def Event.client? : Event → Option String
  | .connect name | .close name | .call name _ => some name
  | .manage _ => none

/-- The store and its clients after an event. -/
def step (c : Connections) : Event → Connections
  | .connect name => c.connect name
  | .close name => (close name c).2
  | .call name call => (perform name call c).2
  | .manage call => (manage call c).2

/-- The store and its clients after some events. -/
def after (c : Connections) (es : List Event) : Connections := es.foldl step c

theorem after_append (c : Connections) (es es' : List Event) : c.after (es ++ es') = (c.after es).after es' :=
  List.foldl_append ..

section
variable {c d : Connections} {name other : String}

theorem client_of_insert {cl : Store.Client} (h : d.clients = c.clients.insert name cl) (other : String) :
    d.client other = if name = other then cl else c.client other := by
  rw [client, h, Assoc.get?_insert]
  split <;> rfl

theorem client_connect (c : Connections) (name other : String) :
    (c.connect name).client other = if name = other then {} else c.client other := client_of_insert rfl other

theorem close_of_closed (h : (c.client name).closed = true) :
    close name c = (.error (.store .connectionClosed), c) := by
  rw [close, Step.transaction_error]
  rw [Store.Client.close, if_pos h]
  rfl

theorem close_of_open (h : (c.client name).closed = false) :
    close name c = (.ok (), { c with clients := c.clients.insert name ⟨true⟩ }) := by
  rw [close, Step.transaction_ok]
  rw [Store.Client.close, if_neg (Bool.eq_false_iff.mp h)]
  rfl

/-- Closing leaves a closed client behind and changes neither the data nor the other clients. -/
theorem step_close (c : Connections) (name : String) : (c.step (.close name)).store = c.store ∧
    ∀ other, (c.step (.close name)).client other = if name = other then ⟨true⟩ else c.client other := by
  rw [step]
  cases h : (c.client name).closed with
  | true =>
    rw [close_of_closed h]
    refine ⟨rfl, fun other => ?_⟩
    split
    · rename_i heq
      rw [← heq, show c.client name = ⟨true⟩ from congrArg Store.Client.mk h]
    · rfl
  | false =>
    rw [close_of_open h]
    exact ⟨rfl, client_of_insert rfl⟩

theorem perform_of_closed (h : (c.client name).closed = true) (call : Store.Client.Call) :
    perform name call c = (.error (call.refusal?.getD (.store .connectionClosed)), c) := by
  rw [perform, Store.Client.perform_closed h]
  rfl

/-- What a closed client is asked changes nothing, as long as it is not opened again. -/
theorem step_of_closed (h : (c.client name).closed = true) {e : Event} (he : e.client? = some name)
    (hopen : e ≠ .connect name) : c.step e = c := by
  cases e with
  | connect name' =>
    cases he
    exact absurd rfl hopen
  | close name' =>
    cases he
    rw [step, close_of_closed h]
  | call name' call =>
    cases he
    rw [step, perform_of_closed h]
  | manage call => cases he

/-- A client is opened and closed by events of its own only. -/
theorem client_step {e : Event} (he : e.client? ≠ some name) : (c.step e).client name = c.client name := by
  cases e with
  | connect name' => rw [step, client_connect, if_neg fun h => he (congrArg some h)]
  | close name' => rw [(step_close c name').2, if_neg fun h => he (congrArg some h)]
  | call name' call => rfl
  | manage call => rfl

theorem closed_step (h : (c.client name).closed = true) {e : Event} (he : e ≠ .connect name) :
    ((c.step e).client name).closed = true := by
  by_cases hname : e.client? = some name
  · rw [step_of_closed h hname he]
    exact h
  · rw [client_step hname]
    exact h

theorem closed_after {es : List Event} (hes : .connect name ∉ es) (h : (c.client name).closed = true) :
    ((c.after es).client name).closed = true := by
  induction es generalizing c with
  | nil => exact h
  | cons e es ih =>
    rw [List.mem_cons, not_or] at hes
    exact ih hes.2 (closed_step h (Ne.symm hes.1))

/-- An open client stays open until it is closed itself. -/
theorem open_step (h : (c.client name).closed = false) {e : Event} (he : e ≠ .close name) :
    ((c.step e).client name).closed = false := by
  by_cases hname : e.client? = some name
  · cases e with
    | connect name' =>
      cases hname
      rw [step, client_connect, if_pos rfl]
    | close name' =>
      cases hname
      exact absurd rfl he
    | call name' call => exact h
    | manage call => cases hname
  · rw [client_step hname]
    exact h

theorem open_after {es : List Event} (hes : .close name ∉ es) (h : (c.client name).closed = false) :
    ((c.after es).client name).closed = false := by
  induction es generalizing c with
  | nil => exact h
  | cons e es ih =>
    rw [List.mem_cons, not_or] at hes
    exact ih hes.2 (open_step h (Ne.symm hes.1))

/-! ### Without a client -/

/-- The same data and the same clients, but for one. -/
structure SameBut (name : String) (c d : Connections) : Prop where
  store : c.store = d.store
  clients : ∀ other, other ≠ name → c.client other = d.client other

namespace SameBut

/-- The other clients answer the same. -/
theorem perform (h : SameBut name c d) (hother : other ≠ name) (call : Store.Client.Call) :
    (Connections.perform other call c).1 = (Connections.perform other call d).1 ∧
      SameBut name (Connections.perform other call c).2 (Connections.perform other call d).2 := by
  rw [Connections.perform, Connections.perform, h.store, h.clients other hother]
  exact ⟨rfl, rfl, h.clients⟩

/-- Events of others do the same. -/
theorem step (h : SameBut name c d) {e : Event} (he : e.client? ≠ some name) :
    SameBut name (c.step e) (d.step e) := by
  cases e with
  | connect name' =>
    refine ⟨h.store, fun other hother => ?_⟩
    rw [Connections.step, Connections.step, client_connect, client_connect, h.clients other hother]
  | close name' =>
    obtain ⟨hstore, hclients⟩ := step_close c name'
    obtain ⟨hstore', hclients'⟩ := step_close d name'
    refine ⟨by rw [hstore, hstore', h.store], fun other hother => ?_⟩
    rw [hclients, hclients', h.clients other hother]
  | call name' call => exact (h.perform (fun heq => he (congrArg some heq)) call).2
  | manage call =>
    refine ⟨?_, h.clients⟩
    show (Store.perform call c.store).2 = (Store.perform call d.store).2
    rw [h.store]

/-- All that a closed client is asked may be left out. -/
theorem after (h : SameBut name c d) {es : List Event} (hes : .connect name ∉ es)
    (hclosed : (c.client name).closed = true) :
    SameBut name (c.after es) (d.after (es.filter fun e => e.client? ≠ some name)) := by
  induction es generalizing c d with
  | nil => exact h
  | cons e es ih =>
    rw [List.mem_cons, not_or] at hes
    have hstays := closed_step hclosed (Ne.symm hes.1)
    by_cases hname : e.client? = some name
    · rw [List.filter_cons_of_neg (by simpa using hname)]
      refine ih ?_ hes.2 hstays
      rw [step_of_closed hclosed hname (Ne.symm hes.1)]
      exact h
    · rw [List.filter_cons_of_pos (by simpa using hname)]
      exact ih (h.step hname) hes.2 hstays

end SameBut

end

/-- From the first time that it was asked to close on, whatever else is done meanwhile, every call of a client fails and
    changes nothing: because the client was closed, or because of ids that are no identities, which are refused before.
    Closing it once more fails too. Every other client finds the data and answers as if the closed one had been asked
    nothing since, and if it was open and is not closed itself, no call of it fails because of a closed client. -/
theorem closed_refuses (c : Connections) (before later : List Event) (name : String)
    (hlater : .connect name ∉ later) :
    let c' := c.after (before ++ .close name :: later)
    let alone := c.after (before ++ later.filter fun e => e.client? ≠ some name)
    (∀ call, perform name call c' = (.error (call.refusal?.getD (.store .connectionClosed)), c')) ∧
      close name c' = (.error (.store .connectionClosed), c') ∧
      ∀ other, other ≠ name → ∀ call,
        ((perform other call c').1 = (perform other call alone).1 ∧
          (perform other call c').2.store = (perform other call alone).2.store) ∧
        (((c.after before).client other).closed = false → .close other ∉ later →
          (perform other call c').1 ≠ .error (.store .connectionClosed)) := by
  intro c' alone
  have hrun : c' = ((c.after before).step (.close name)).after later := after_append ..
  have hrunAlone : alone = (c.after before).after _ := after_append ..
  obtain ⟨hstore, hclients⟩ := step_close (c.after before) name
  have hclosedFirst : (((c.after before).step (.close name)).client name).closed = true := by
    rw [hclients, if_pos rfl]
  have hclosed : (c'.client name).closed = true := hrun ▸ closed_after hlater hclosedFirst
  have hsame : SameBut name c' alone := by
    rw [hrun, hrunAlone]
    refine .after ⟨hstore, fun other hother => ?_⟩ hlater hclosedFirst
    rw [hclients, if_neg (Ne.symm hother)]
  refine ⟨perform_of_closed hclosed, close_of_closed hclosed, fun other hother call => ⟨?_, fun hopen hnot => ?_⟩⟩
  · obtain ⟨hanswer, hleft⟩ := hsame.perform hother call
    exact ⟨hanswer, hleft.store⟩
  · have hstays : (c'.client other).closed = false := by
      rw [hrun]
      refine open_after hnot ?_
      rw [hclients, if_neg (Ne.symm hother)]
      exact hopen
    exact Store.Client.perform_avoids hstays call c'.store

/-- Parcels that are told apart by GUIDs. -/
def parcelSchema : Schema := .ofShape "" "Parcel" .guid [⟨"Weight", "Integer", .integer, false, false⟩]

def parcelId : DocId := .guid ⟨7⟩

/-- Two clients; a parcel is put down by the one that is closed afterwards. -/
def clerkBefore : List Event :=
  [.manage .create, .connect "clerk", .connect "porter", .call "clerk" (.upsert parcelSchema),
    .call "clerk" (.insert parcelSchema parcelId "Lamp" [⟨"Weight", .integer, .integer 5⟩])]

def clerkLater : List Event :=
  [.call "clerk" (.drop parcelSchema), .call "porter" (.replace parcelSchema parcelId "Vase" []), .close "clerk"]

theorem closed_refuses_clerk :
    let c := ({} : Connections).after (clerkBefore ++ .close "clerk" :: clerkLater)
    perform "clerk" (.deleteMany parcelSchema [parcelId]) c = (.error (.store .connectionClosed), c) ∧
      perform "clerk" (.reserve parcelSchema 1) c =
        (.error (.unsupported (.idType "reserve_identities" "Parcel" "Guid")), c) ∧
      close "clerk" c = (.error (.store .connectionClosed), c) ∧
      (perform "porter" (.fetch parcelSchema parcelId) c).1 = .ok (.payload (some "Vase")) ∧
      (perform "porter" (.fetch parcelSchema parcelId) c).1 ≠ .error (.store .connectionClosed) := by
  intro c
  have hlater : Event.connect "clerk" ∉ clerkLater := by simp [clerkLater]
  obtain ⟨hcalls, hagain, hothers⟩ := closed_refuses {} clerkBefore clerkLater "clerk" hlater
  obtain ⟨⟨hsame, -⟩, hopen⟩ := hothers "porter" (by decide) (.fetch parcelSchema parcelId)
  refine ⟨hcalls _, hcalls _, hagain, ?_, hopen rfl (by simp [clerkLater])⟩
  rw [hsame]
  decide +kernel

/-- A closed client that is asked to reserve identities for GUIDs does not say that it was closed. -/
theorem closed_not_told :
    let c := ({} : Connections).after [.manage .create, .connect "clerk", .close "clerk"]
    (c.client "clerk").closed = true ∧
      (perform "clerk" (.reserve parcelSchema 1) c).1 =
        .error (.unsupported (.idType "reserve_identities" "Parcel" "Guid")) ∧
      (perform "clerk" (.reserve parcelSchema 1) c).1 ≠ .error (.store .connectionClosed) := by
  intro c
  have hclosed : (c.client "clerk").closed = true := rfl
  rw [perform_of_closed hclosed]
  exact ⟨hclosed, rfl, nofun⟩

end Connections

end DocStore
