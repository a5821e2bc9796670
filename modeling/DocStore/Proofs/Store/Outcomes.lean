import DocStore.Proofs.Step
import DocStore.Proofs.Store.Contents
import DocStore.Store.Client

/-! What an accepted write did. A write that the store accepted has put the set of its schema back with other rows; a
    refused one has left everything alone. -/

namespace DocStore.Store

open Sql (Datum Affinity)

/-! ### Rows of one set -/

namespace TableSet

variable {t t' : TableSet}

/-- A row is added at the end, its id being new. -/
theorem insertRow_eq_ok {d : Datum} {p : String} (h : t.insertRow d p = .ok t') :
    t' = { t with rows := t.rows ++ [⟨d, p⟩] } ∧ ∀ r ∈ t.rows, same r.id d = false := by
  unfold insertRow at h
  split at h
  · cases h
  · cases h
  · cases h
  · split at h
    · cases h
    · rename_i hnew
      cases h
      exact ⟨rfl, fun r hr => Bool.eq_false_iff.mpr fun hsame => hnew (List.any_eq_true.mpr ⟨r, hr, hsame⟩)⟩

/-- A value under an id, as the row that it is written as. -/
def rowOf (id : Datum) (e : IndexEntry) : IndexRow := ⟨id, e.path, e.code, .ofValue e.value⟩

/-- The index rows are added at the end, in the order of the entries. -/
theorem insertEntries_eq_ok {id : Datum} : ∀ {es : List IndexEntry} {t t' : TableSet},
    insertEntries id t es = .ok t' → t' = { t with indexRows := t.indexRows ++ es.map (rowOf id) }
  | [], t, _, h => by
    cases h
    rw [List.map_nil, List.append_nil]
  | e :: es, t, t', h => by
    rw [insertEntries] at h
    split at h
    · cases h
    · rename_i t₁ hone
      rw [insertIndexRow] at hone
      split at hone <;> cases hone
      rw [insertEntries_eq_ok h, List.append_assoc]
      rfl

end TableSet

/-! ### Writes -/

section
variable {α : Type} {f : Store → Except StoreError (α × Store)} {st st' : Store}

theorem writing_eq_ok {a : α} (h : writing f st = (.ok a, st')) : f st = .ok (a, st') :=
  mapError_eq_ok.mp (Step.transaction_eq_ok h)

end

/-! ### Structures -/

section
variable {s : Schema} {st st' : Store} {id : DocId} {payload : String} {es : List IndexEntry}

theorem insert_eq_ok {u : Unit} (h : insert s id payload es st = (.ok u, st')) : ∃ t t₁ t₂, st.set? s = some t ∧
    t.insertRow (t.idDatum id) payload = .ok t₁ ∧ t₁.insertEntries (t.idDatum id) es = .ok t₂ ∧ st' = st.putSet t₂ := by
  obtain ⟨t, hset, h⟩ := bind_eq_ok.mp (writing_eq_ok h)
  obtain ⟨t₁, hrow, h⟩ := bind_eq_ok.mp h
  obtain ⟨t₂, hentries, h⟩ := bind_eq_ok.mp h
  cases h
  exact ⟨t, t₁, t₂, structureSet_eq_ok hset, hrow, hentries, rfl⟩

theorem replace_eq_ok {u : Unit} (h : replace s id payload es st = (.ok u, st')) : ∃ t t', st.set? s = some t ∧
    (∃ r ∈ t.rows, t.finds (t.idDatum id) r.id = true) ∧
    ((t.withPayload (t.idDatum id) payload).withoutIndexRows (same · (t.idDatum id))).insertEntries (t.idDatum id) es =
      .ok t' ∧ st' = st.putSet t' := by
  obtain ⟨t, hset, h⟩ := bind_eq_ok.mp (writing_eq_ok h)
  obtain ⟨hfound, h⟩ := guard_eq_ok.mp h
  obtain ⟨t', hentries, h⟩ := bind_eq_ok.mp h
  cases h
  exact ⟨t, t', structureSet_eq_ok hset, by simpa using hfound, hentries, rfl⟩

theorem deleteChunk_eq_ok {ids : List DocId} {n : Nat} (h : deleteChunk s st ids = .ok (n, st')) :
    ∃ t keys, st.set? s = some t ∧ keys = ids.map t.idDatum ∧
      st' = st.putSet ((t.withoutIndexRows fun d => keys.any (same d)).withoutRows (t.findsAny keys)) := by
  obtain ⟨t, hset, h⟩ := bind_eq_ok.mp h
  cases h
  exact ⟨t, _, indexSet_eq_ok hset, rfl, rfl⟩

theorem deleteChunks_cons_eq_ok {ids : List DocId} {parts : List (List DocId)} {n : Nat}
    (h : deleteChunks s st (ids :: parts) = .ok (n, st')) : ∃ n₁ n₂ st₁, deleteChunk s st ids = .ok (n₁, st₁) ∧
      deleteChunks s st₁ parts = .ok (n₂, st') := by
  rw [deleteChunks] at h
  split at h
  · cases h
  · rename_i n₁ st₁ hone
    obtain ⟨⟨n₂, st₂⟩, hrest, heq⟩ := map_eq_ok.mp h
    cases heq
    exact ⟨n₁, n₂, st₁, hone, hrest⟩

theorem deleteInterval_eq_ok {low high : DocId} {n : Nat} (h : deleteInterval s low high st = (.ok n, st')) :
    ∃ t p, st.set? s = some t ∧ p = within (t.idDatum low) (t.idDatum high) ∧
      st' = st.putSet ((t.withoutIndexRows p).withoutRows p) := by
  obtain ⟨t, hset, h⟩ := bind_eq_ok.mp (writing_eq_ok h)
  cases h
  exact ⟨t, _, indexSet_eq_ok hset, rfl, rfl⟩

theorem reserve_eq_ok {count : Nat} {first : Int} (h : reserve s count st = (.ok first, st')) : ∃ b t n,
    st.bookkeeping = some b ∧ st.set? s = some t ∧ greatestId? t.rows = some n ∧
    first = max ((b.nextIds.get? s.key).getD 1) (n + 1) ∧
    st' = { st with bookkeeping := some { b with nextIds := b.nextIds.insert s.key (first + count) } } := by
  have h := writing_eq_ok h
  cases hb : st.bookkeeping with
  | none =>
    rw [hb] at h
    cases h
  | some b =>
    rw [hb] at h
    obtain ⟨t, hset, h⟩ := bind_eq_ok.mp h
    split at h
    · cases h
    · rename_i n hgreatest
      cases h
      exact ⟨b, t, n, rfl, structureSet_eq_ok hset, hgreatest, rfl, rfl⟩

theorem reserve_sets {count : Nat} {first : Int} (h : reserve s count st = (.ok first, st')) : st'.sets = st.sets := by
  obtain ⟨b, t, n, -, -, -, -, rfl⟩ := reserve_eq_ok h
  rfl

/-! ### Sets -/

theorem withTables_eq_ok (h : withTables s st = .ok st') : st' = st ∧ (st.set? s).isSome ∨
    st.set? s = none ∧ st' = st.putSet { stem := s.stem, affinity := Affinity.ofIdType s.idType } := by
  obtain ⟨-, -, h⟩ := bind_eq_ok.mp h
  obtain ⟨-, -, h⟩ := bind_eq_ok.mp h
  split at h
  · rename_i hset
    cases h
    exact Or.inl ⟨rfl, by rw [hset]; rfl⟩
  · rename_i hset
    cases h
    exact Or.inr ⟨hset, rfl⟩

/-- An index changes no row. -/
theorem ensureIndex_eq_ok {i : Index} (h : ensureIndex s st i = .ok st') : st' = st ∨
    ∃ t indexes, st.set? s = some t ∧ st' = st.putSet { t with indexes } := by
  obtain ⟨-, -, h⟩ := bind_eq_ok.mp h
  obtain ⟨-, h⟩ := guard_eq_ok.mp h
  split at h
  · cases h
    exact Or.inl rfl
  · rename_i t hset
    split at h
    · cases h
      exact Or.inl rfl
    · split at h
      · obtain ⟨-, h⟩ := guard_eq_ok.mp h
        cases h
        exact Or.inr ⟨t, _, hset, rfl⟩
      · cases h
        exact Or.inr ⟨t, _, hset, rfl⟩

theorem shaped_eq_ok (h : shaped s st = .ok st') : ∃ st₁ st₂, withTables s st = .ok st₁ ∧
    (indexesOf s).foldlM (ensureIndex s) st₁ = .ok st₂ ∧
    (st₂.set? s = none ∧ st' = st₂ ∨ ∃ t, st₂.set? s = some t ∧ st' = st₂.putSet (t.withoutStale s)) := by
  obtain ⟨st₁, htables, h⟩ := bind_eq_ok.mp h
  obtain ⟨st₂, hindexes, h⟩ := bind_eq_ok.mp h
  refine ⟨st₁, st₂, htables, hindexes, ?_⟩
  split at h
  · rename_i t hset
    cases h
    exact Or.inr ⟨t, hset, rfl⟩
  · rename_i hset
    cases h
    exact Or.inl ⟨hset, rfl⟩

theorem upsert_eq_ok {u : Unit} (h : upsert s st = (.ok u, st')) : ∃ b, st.bookkeeping = some b ∧
    (b.fingerprints.get? s.key = some s.fingerprint ∧ st' = st ∨ ∃ st₁, shaped s st = .ok st₁ ∧
      st' = { st₁ with
        bookkeeping := some { b with fingerprints := b.fingerprints.insert s.key s.fingerprint } }) := by
  have h := Step.transaction_eq_ok h
  cases hb : st.bookkeeping with
  | none =>
    rw [hb] at h
    cases h
  | some b =>
    rw [hb] at h
    dsimp only at h
    split at h
    · rename_i hfingerprint
      cases h
      exact ⟨b, rfl, Or.inl ⟨hfingerprint, rfl⟩⟩
    · split at h
      · cases h
      · rename_i st₁ hshaped
        cases h
        exact ⟨b, rfl, Or.inr ⟨st₁, hshaped, rfl⟩⟩

theorem drop_eq_ok {u : Unit} (h : drop s st = (.ok u, st')) : ∃ b, st.bookkeeping = some b ∧
    st' = { st with
      sets := st.sets.erase (folded s.stem)
      bookkeeping := some ⟨b.fingerprints.erase s.key, b.nextIds.erase s.key⟩ } := by
  have h := Step.transaction_eq_ok h
  cases hb : st.bookkeeping with
  | none =>
    rw [hb] at h
    cases h
  | some b =>
    rw [hb] at h
    cases h
    exact ⟨b, rfl, rfl⟩

theorem drop_sets {u : Unit} (h : drop s st = (.ok u, st')) : st'.sets = st.sets.erase (folded s.stem) := by
  obtain ⟨b, -, rfl⟩ := drop_eq_ok h
  rfl

end

/-! ### Clients -/

namespace Client

variable {α : Type} {m : Do α} {c : Client} {st st' : Store}

theorem guarded_closed (h : c.closed = true) (m : Do α) : c.guarded m = Step.fail (.store .connectionClosed) := if_pos h

theorem guarded_open (h : c.closed = false) (m : Do α) : c.guarded m = m := if_neg (Bool.eq_false_iff.mp h)

theorem guarded_ensures {I : Store → Prop} {P : α → Prop} (hm : Step.Ensures I m P) (c : Client) :
    Step.Ensures I (c.guarded m) P := by
  rw [guarded]
  split
  · exact .fail _
  · exact hm

/-- Of a change that is made as a whole only the successes count. -/
theorem guarded_keeps {I : Store → Prop} (c : Client) (hm : Step.Whole m)
    (h : ∀ {st a st'}, I st → m st = (.ok a, st') → I st') : Step.Keeps I (c.guarded m) :=
  guarded_ensures (.of_whole hm h) c

theorem guarded_whole (hm : Step.Whole m) (c : Client) : Step.Whole (c.guarded m) := by
  rw [guarded]
  split
  · exact .of_reads fun _ => rfl
  · exact hm

theorem guarded_reads (c : Client) (h : (m st).2 = st) : (c.guarded m st).2 = st := by
  rw [guarded]
  split
  · rfl
  · exact h

theorem guarded_eq_ok {a : α} (h : c.guarded m st = (.ok a, st')) : m st = (.ok a, st') := by
  rw [guarded] at h
  split at h
  · cases h
  · exact h

theorem reserve_eq_ok {s : Schema} {count : Nat} {first : Int} (h : c.reserve s count st = (.ok first, st')) :
    s.idType.isIdentity = true ∧ Store.reserve s count st = (.ok first, st') := by
  obtain ⟨u, st₁, hcheck, h⟩ := Step.bind_eq_ok.mp h
  obtain ⟨hcheck, rfl⟩ := Prod.mk.inj hcheck
  rw [checkIdentities] at hcheck
  split at hcheck
  · exact ⟨‹_›, guarded_eq_ok h⟩
  · cases hcheck

/-- A call that fails changes nothing. -/
theorem perform_whole (c : Client) (call : Call) : Step.Whole (c.perform call) := by
  cases call with
  | reserve => exact .map (.andThen (fun _ => rfl) fun _ => guarded_whole (.transaction _) c) _
  | upsert | drop | insert | replace | deleteMany | deleteInterval =>
    exact .map (guarded_whole (.transaction _) c) _
  | _ => exact .map (guarded_whole (.of_reads fun _ => rfl) c) _

end Client

/-! ### Histories -/

/-- The store after some calls of clients, whatever they answered. -/
def after (st : Store) (run : List (Client × Client.Call)) : Store := run.foldl (fun st x => (x.1.perform x.2 st).2) st

theorem after_append (st : Store) (run run' : List (Client × Client.Call)) :
    st.after (run ++ run') = (st.after run).after run' :=
  List.foldl_append

theorem after_keeps {I : Store → Prop} : ∀ {run : List (Client × Client.Call)} {st : Store},
    (∀ x ∈ run, Step.Keeps I (x.1.perform x.2)) → I st → I (st.after run)
  | [], _, _, hst => hst
  | x :: run, st, hrun, hst => by
    have hnext := (hrun x (List.mem_cons_self ..) st hst).1
    show I (after (x.1.perform x.2 st).2 run)
    exact after_keeps (fun y hy => hrun y (List.mem_cons_of_mem _ hy)) hnext

end DocStore.Store
