import DocStore.Proofs.Store.Recorded

/-! What holds of every set of every store that is reached: that a set is filed once, that its indexes are those of
    schemas of its stem, that its index rows are of structures that are there. A property of sets is such a one if new
    sets have it and no change of a set takes it away. -/

namespace DocStore.Store

open Sql (Datum Affinity)

/-! ### Properties of all sets -/

/-- A property of sets that new ones of some types have and that bringing a set to a shape does not take away. -/
structure KeptShaped (types : Schema → Prop) (J : TableSet → Prop) : Prop where
  new : ∀ {s : Schema}, types s → J { stem := s.stem, affinity := .ofIdType s.idType }
  index : ∀ {s : Schema} {t : TableSet} {i : Index}, folded t.stem = folded s.stem → i ∈ indexesOf s → J t →
    J { t with indexes := t.indexes ++ [i] }
  stale : ∀ {t : TableSet} (s : Schema), J t → J (t.withoutStale s)

/-- A property of sets that new ones have and that no change of a set takes away. -/
structure Kept (J : TableSet → Prop) : Prop extends KeptShaped (fun _ => True) J where
  rows : ∀ {es : List IndexEntry} {added : Option DocId} {t t' : TableSet}, t.RowChange es added t' → J t → J t'

/-- A store whose sets are filed under their stems, each once, and all have a property. -/
structure Everywhere (J : TableSet → Prop) (st : Store) : Prop where
  named : st.Named
  once : (st.sets.map (·.1)).Nodup
  sets : ∀ e ∈ st.sets, J e.2

/-- What an index adds to a set that is there: nothing if some set has an index of its name, else itself. -/
theorem ensureIndex_of_set {s : Schema} {st st' : Store} {t : TableSet} {i : Index} (hset : st.set? s = some t)
    (h : ensureIndex s st i = .ok st') : st.hasIndex i.name = true ∧ st' = st ∨
      st.hasIndex i.name = false ∧ st' = st.putSet { t with indexes := t.indexes ++ [i] } := by
  obtain ⟨-, -, h⟩ := bind_eq_ok.mp h
  obtain ⟨-, h⟩ := guard_eq_ok.mp h
  rw [hset] at h
  dsimp only at h
  split at h
  · rename_i hthere
    cases h
    exact Or.inl ⟨hthere, rfl⟩
  · rename_i hnew
    refine Or.inr ⟨Bool.eq_false_iff.mpr hnew, ?_⟩
    split at h
    · obtain ⟨-, h⟩ := guard_eq_ok.mp h
      cases h
      rfl
    · cases h
      rfl

section
variable {J : TableSet → Prop} {s : Schema} {st st' : Store} {t t' : TableSet}

theorem Everywhere.get (h : Everywhere J st) {name : String} (hget : st.sets.get? name = some t) : J t :=
  h.sets _ (Assoc.mem_of_get? hget)

theorem Everywhere.of_sublist (h : Everywhere J st) (hsets : st'.sets.Sublist st.sets) : Everywhere J st' where
  named := h.named.of_mem fun _ he => hsets.subset he
  once := h.once.sublist (hsets.map _)
  sets e he := h.sets e (hsets.subset he)

theorem Everywhere.of_sets (h : Everywhere J st) (hsets : st'.sets = st.sets) : Everywhere J st' :=
  h.of_sublist (hsets ▸ List.Sublist.refl _)

theorem Everywhere.putSet (h : Everywhere J st) (ht : J t) : Everywhere J (st.putSet t) where
  named := h.named.putSet t
  once := Assoc.nodup_insert h.once ..
  sets e he := by
    rcases Assoc.mem_insert he with rfl | he
    · exact ht
    · exact h.sets e he

section
variable {types : Schema → Prop} (hJ : KeptShaped types J)
include hJ

theorem Everywhere.withTables (h : Everywhere J st) (hs : types s) (hdone : Store.withTables s st = .ok st') :
    Everywhere J st' := by
  rcases withTables_eq_ok hdone with ⟨rfl, -⟩ | ⟨-, rfl⟩
  · exact h
  · exact h.putSet (hJ.new hs)

theorem Everywhere.ensureIndex (h : Everywhere J st) {i : Index} (hi : i ∈ indexesOf s)
    (hdone : Store.ensureIndex s st i = .ok st') : Everywhere J st' := by
  cases hset : st.set? s with
  | none =>
    rcases ensureIndex_eq_ok hdone with rfl | ⟨t, indexes, hset', -⟩
    · exact h
    · rw [hset] at hset'
      cases hset'
  | some t =>
    rcases ensureIndex_of_set hset hdone with ⟨-, rfl⟩ | ⟨-, rfl⟩
    · exact h
    · exact h.putSet (hJ.index (h.named.stem hset) hi (h.get hset))

theorem Everywhere.ensureIndexes : ∀ {is : List Index} {st st' : Store}, Everywhere J st →
    (∀ i ∈ is, i ∈ indexesOf s) → is.foldlM (Store.ensureIndex s) st = .ok st' → Everywhere J st'
  | [], _, _, h, _, hdone => by
    cases hdone
    exact h
  | i :: is, st, st', h, his, hdone => by
    rw [List.foldlM_cons] at hdone
    obtain ⟨st₁, hone, hrest⟩ := bind_eq_ok.mp hdone
    have hnext := h.ensureIndex hJ (his i (List.mem_cons_self ..)) hone
    exact hnext.ensureIndexes (fun i hi => his i (List.mem_cons_of_mem _ hi)) hrest

theorem Everywhere.shaped (h : Everywhere J st) (hs : types s) (hdone : Store.shaped s st = .ok st') :
    Everywhere J st' := by
  obtain ⟨st₁, st₂, htables, hindexes, hlast⟩ := shaped_eq_ok hdone
  have hindexed := (h.withTables hJ hs htables).ensureIndexes hJ (fun _ hi => hi) hindexes
  rcases hlast with ⟨-, rfl⟩ | ⟨t, hset, rfl⟩
  · exact hindexed
  · exact hindexed.putSet (hJ.stale s (hindexed.get hset))

theorem Everywhere.upsert (h : Everywhere J st) (hs : types s) {u : Unit}
    (hdone : Store.upsert s st = (.ok u, st')) : Everywhere J st' := by
  obtain ⟨b, -, ⟨-, rfl⟩ | ⟨st₁, hshaped, rfl⟩⟩ := upsert_eq_ok hdone
  · exact h
  · exact (h.shaped hJ hs hshaped).of_sets rfl

/-- A call about the types keeps what its changes of rows keep. -/
theorem everywhere_keeps_of (c : Client) {call : Client.Call} (hcall : call.About types)
    (hrows : ∀ {s : Schema} {es : List IndexEntry} {t t' : TableSet}, call.written? = some (s, es) →
      folded t.stem = folded s.stem → t.RowChange es call.added? t' → J t → J t') :
    Step.Keeps (Everywhere J) (c.perform call) := by
  have hkept : RowsKept call.written? call.added? (Everywhere J) :=
    ⟨fun hw h hset hchange => h.putSet (hrows hw (h.named.stem hset) hchange (h.get hset)),
      fun _ h _ => h.of_sets rfl⟩
  cases call with
  | upsert => exact .map (c.guarded_keeps (.transaction _) fun h hdone => h.upsert hJ hcall hdone)
  | drop => exact .map (c.guarded_keeps (.transaction _) fun h hdone =>
      h.of_sublist (drop_sets hdone ▸ List.filter_sublist))
  | _ => exact c.perform_rows hkept rfl

end

theorem everywhere_keeps (hJ : Kept J) (c : Client) (call : Client.Call) : Step.Keeps (Everywhere J) (c.perform call) :=
  everywhere_keeps_of hJ.toKeptShaped c call.about_all fun _ _ => hJ.rows

theorem everywhere_manage (c : Store.Call) : Step.Keeps (Everywhere J) (perform c) :=
  manage_keeps_of (fun _ h => h.of_sets rfl) (fun _ h => h.of_sublist List.filter_sublist) c

/-- What no change of a set takes away holds of all sets of all stores that are reached. -/
theorem Reached.everywhere {types : Schema → Prop} (hJ : Kept J) (h : Reached types st) : Everywhere J st :=
  h.keeps (fun _ _ => ⟨nofun, List.nodup_nil, nofun⟩) (fun _ hst => hst.of_sets rfl)
    (fun _ hst => hst.of_sublist List.filter_sublist) fun c {call} _ => everywhere_keeps hJ c call

end

/-! ### Indexes -/

/-- Whether the indexes of a set are those of schemas of its stem. -/
def TableSet.OwnIndexes (t : TableSet) : Prop :=
  ∀ i ∈ t.indexes, ∃ s : Schema, folded s.stem = folded t.stem ∧ i ∈ indexesOf s

theorem kept_ownIndexes : Kept TableSet.OwnIndexes where
  new _ := nofun
  index {s t i} hstem hi ht := by
    intro i' hi'
    rcases List.mem_append.mp hi' with hi' | hi'
    · exact ht i' hi'
    · rw [List.mem_singleton.mp hi']
      exact ⟨s, hstem.symm, hi⟩
  stale _ ht := ht
  rows {es added t t'} hchange ht := by
    rw [TableSet.OwnIndexes, hchange.stem, hchange.indexes]
    exact ht

/-! ### Owners of index rows -/

theorem idDatum_ne_null (t : TableSet) (id : DocId) : t.idDatum id ≠ .null := by
  have hreal (x : Binary64) : Affinity.ofReal x ≠ .null := by
    unfold Affinity.ofReal
    dsimp only
    split <;> rintro ⟨⟩
  have hnumber (s : String) : Affinity.numberOf s ≠ .null := by
    unfold Affinity.numberOf
    split
    · rintro ⟨⟩
    · split
      · rintro ⟨⟩
      · exact hreal _
  rw [TableSet.idDatum]
  cases t.affinity with
  | integer =>
    cases id with
    | identity | bigIdentity => rintro ⟨⟩
    | guid g => exact hnumber g.text
    | string s => exact hnumber s
  | text => cases id <;> rintro ⟨⟩

theorem same_self {d : Datum} (h : d ≠ .null) : same d d = true := by
  rw [Datum.same_eq_stands, Datum.stands_eq]
  exact ⟨h, h, Std.ReflCmp.compare_self⟩

theorem same_null (d : Datum) : same d .null = false := by
  rw [Bool.eq_false_iff, ne_eq, Datum.same_eq_stands, Datum.stands_eq]
  exact fun h => h.2.1 rfl

/-- Whether the index rows of a set are of structures that are in it. -/
def TableSet.Owned (t : TableSet) : Prop := ∀ x ∈ t.indexRows, ∃ r ∈ t.rows, same r.id x.id = true

namespace TableSet.Owned

variable {t t' : TableSet}

/-- Index rows may be added under the id of a structure. -/
theorem insertEntries (ht : t.Owned) {d : Datum} (hd : ∃ r ∈ t.rows, same r.id d = true) {es : List IndexEntry}
    (h : t.insertEntries d es = .ok t') : t'.Owned := by
  rw [insertEntries_eq_ok h]
  intro x hx
  rcases List.mem_append.mp hx with hx | hx
  · exact ht x hx
  · obtain ⟨e, -, rfl⟩ := List.mem_map.mp hx
    exact hd

/-- Structures go with their index rows. -/
theorem without (ht : t.Owned) {p q : Datum → Bool} (h : ∀ d d', same d d' = true → p d = true → q d' = true) :
    ((t.withoutIndexRows q).withoutRows p).Owned := by
  intro x hx
  obtain ⟨hx, hkept⟩ := List.mem_filter.mp hx
  obtain ⟨r, hr, hsame⟩ := ht x hx
  refine ⟨r, List.mem_filter.mpr ⟨hr, ?_⟩, hsame⟩
  cases hp : p r.id with
  | false => rfl
  | true =>
    rw [h r.id x.id hsame hp] at hkept
    cases hkept

theorem withPayload (ht : t.Owned) (d : Datum) (payload : String) : (t.withPayload d payload).Owned := by
  intro x hx
  obtain ⟨r, hr, hsame⟩ := ht x hx
  refine ⟨_, List.mem_map.mpr ⟨r, hr, rfl⟩, ?_⟩
  split <;> exact hsame

theorem withoutIndexRows (ht : t.Owned) (q : Datum → Bool) : (t.withoutIndexRows q).Owned :=
  fun x hx => ht x (List.mem_filter.mp hx).1

end TableSet.Owned

theorem kept_owned : Kept TableSet.Owned where
  new _ := nofun
  index _ _ ht := ht
  stale s ht := fun x hx => ht x (List.mem_filter.mp hx).1
  rows {es added t t'} hchange ht := by
    cases hchange with
    | @insert id payload t₁ t₂ _ hrow hentries =>
      obtain ⟨heq, -⟩ := TableSet.insertRow_eq_ok hrow
      have hnew : t₁.Owned := by
        intro x hx
        rw [heq] at hx ⊢
        obtain ⟨r, hr, hsame⟩ := ht x hx
        exact ⟨r, List.mem_append_left _ hr, hsame⟩
      refine hnew.insertEntries ⟨⟨t.idDatum id, payload⟩, ?_, same_self (idDatum_ne_null t id)⟩ hentries
      rw [heq]
      exact List.mem_append_right _ (List.mem_singleton_self _)
    | @replace id payload t' hfound hentries =>
      obtain ⟨r, hr, hfinds⟩ := hfound
      have hsame : same r.id (t.idDatum id) = true := (Bool.and_eq_true_iff.mp hfinds).2
      refine ((ht.withPayload _ _).withoutIndexRows _).insertEntries ?_ hentries
      refine ⟨_, List.mem_map.mpr ⟨r, hr, rfl⟩, ?_⟩
      split <;> exact hsame
    | deleteKeys ids =>
      refine ht.without fun d d' hsame hfound => ?_
      obtain ⟨key, hkey, -⟩ := (Option.any_eq_true ..).mp hfound
      have hin := List.mem_reverse.mp (List.mem_of_find?_eq_some hkey)
      have hmatch : same d key = true := List.find?_some hkey
      refine List.any_eq_true.mpr ⟨key, hin, ?_⟩
      rw [same_comm, ← same_congr_right hsame, same_comm]
      exact hmatch
    | deleteInterval low high =>
      exact ht.without fun d d' hsame hin => within_congr hsame _ _ ▸ hin

end DocStore.Store
