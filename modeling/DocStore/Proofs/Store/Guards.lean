import DocStore.Proofs.Store.History

/-! What histories keep unique. The index of a unique member is named for the path, it is made unless there is an index
    of that name in any case of the letters, and none is taken away again: which values a set keeps unique is not what
    its shape declares but what all of its shapes have left behind. -/

namespace DocStore.Store

/-! ### Unique paths -/

/-- The name of the index that keeps the values of a path unique. -/
def uniqueName (k : Key) (path : String) : String := Schema.indexesTableOf k.stem ++ "_uq_" ++ path

/-- Whether no set has an index of a name that a type may need. -/
def Vacant (k : Key) (st : Store) : Prop := ∀ path, st.hasIndex (uniqueName k path) = false

/-- The unique members of a schema with their codes. -/
def uniqueMembers (s : Schema) : List (String × TypeCode) := (s.members.filter (·.unique)).map fun m => (m.path, m.code)

/-- What keeps values unique after another unique member: the first member of a path counts. -/
def addGuard (gs : List (String × TypeCode)) (g : String × TypeCode) : List (String × TypeCode) :=
  if gs.any fun g' => Text.sameName g.1 g'.1 then gs else gs ++ [g]

/-- The paths that shapes have left unique, the last shape first, each with the code whose values are compared. -/
def guards : List Schema → List (String × TypeCode)
  | [] => []
  | s :: older => (uniqueMembers s).foldl addGuard (guards older)

/-- The paths that a set keeps unique. -/
def TableSet.uniques (t : TableSet) : List (String × TypeCode) := t.indexes.filterMap (·.unique)

section
variable {gs : List (String × TypeCode)} {g : String × TypeCode}

theorem addGuard_of_any (h : (gs.any fun g' => Text.sameName g.1 g'.1) = true) : addGuard gs g = gs := if_pos h

theorem subset_addGuard : gs ⊆ addGuard gs g := by
  rw [addGuard]
  split
  · exact List.Subset.refl _
  · exact List.subset_append_left ..

theorem any_addGuard : ((addGuard gs g).any fun g' => Text.sameName g.1 g'.1) = true := by
  rw [addGuard]
  split
  · assumption
  · exact List.any_eq_true.mpr ⟨g, List.mem_append_right _ (List.mem_singleton_self g), sameName_iff.mpr rfl⟩

theorem subset_guards : ∀ {l gs : List (String × TypeCode)}, gs ⊆ l.foldl addGuard gs
  | [], _ => List.Subset.refl _
  | _ :: _, _ => List.Subset.trans subset_addGuard subset_guards

/-- Every path that was added is kept unique under its name. -/
theorem any_guards : ∀ {l gs : List (String × TypeCode)}, g ∈ l →
    ((l.foldl addGuard gs).any fun g' => Text.sameName g.1 g'.1) = true
  | g' :: l, gs, hg => by
    rw [List.foldl_cons]
    rcases List.mem_cons.mp hg with rfl | hg
    · have hadded : ((addGuard gs g).any fun g' => Text.sameName g.1 g'.1) = true := any_addGuard
      obtain ⟨g', hin, hname⟩ := List.any_eq_true.mp hadded
      exact List.any_eq_true.mpr ⟨g', subset_guards hin, hname⟩
    · exact any_guards hg

theorem foldl_addGuard_of_any : ∀ {l : List (String × TypeCode)},
    (∀ g ∈ l, (gs.any fun g' => Text.sameName g.1 g'.1) = true) → l.foldl addGuard gs = gs
  | [], _ => rfl
  | g :: l, h => by
    rw [List.foldl_cons, addGuard_of_any (h g (List.mem_cons_self ..))]
    exact foldl_addGuard_of_any fun g hg => h g (List.mem_cons_of_mem _ hg)

end

/-! ### Indexes of a schema -/

theorem unique_indexesOf (s : Schema) : (indexesOf s).filterMap (·.unique) = uniqueMembers s := by
  have hmembers : ((s.members.filter (·.unique)).map fun m =>
      (⟨s.indexesTable ++ "_uq_" ++ m.path, some (m.path, m.code)⟩ : Index)).filterMap (·.unique) =
        uniqueMembers s := by
    rw [List.filterMap_map, uniqueMembers]
    exact congrFun (List.filterMap_eq_map' ..) _
  rw [indexesOf, List.filterMap_append, hmembers]
  rfl

/-- The same shape once more leaves nothing new behind. -/
theorem guards_again {s s' : Schema} (h : Alike s s') (shapes : List Schema) :
    guards (s :: s' :: shapes) = guards (s' :: shapes) := by
  have hsame : uniqueMembers s = uniqueMembers s' := by rw [← unique_indexesOf, ← unique_indexesOf, h.indexesOf_eq]
  rw [guards, hsame]
  exact foldl_addGuard_of_any fun g hg => any_guards hg

/-- An index of a schema has the name for a unique path if it is the index of such a path, and the path is the same but
    for the case of letters. -/
theorem sameName_uniqueName {k : Key} {s : Schema} (hstem : folded s.stem = folded k.stem) {i : Index}
    (hi : i ∈ indexesOf s) (path : String) : Text.sameName (uniqueName k path) i.name = true ↔
      ∃ path' code, i.unique = some (path', code) ∧ Text.sameName path path' = true := by
  have hname (ending : String) : Text.sameName (uniqueName k path) (s.indexesTable ++ ending) = true ↔
      folded ("_uq_" ++ path) = folded ending := by
    have htable : folded s.indexesTable = folded (Schema.indexesTableOf k.stem) := by
      rw [Schema.indexesTable, Schema.indexesTableOf, Schema.indexesTableOf, folded_append, folded_append, hstem]
    rw [sameName_iff, uniqueName, String.append_assoc, folded_append, folded_append s.indexesTable, htable,
      String.append_right_inj]
  rcases List.mem_append.mp hi with hi | hi
  · -- the names of the other indexes go on otherwise
    have hother {ending : String} {c : Char} (cs : List Char) (hending : Text.foldCase ending.toList = '_' :: c :: cs)
        (hc : 'u' ≠ c) : Text.sameName (uniqueName k path) (s.indexesTable ++ ending) ≠ true := by
      rw [ne_eq, hname, folded_inj, hending, String.toList_append, Text.foldCase, List.map_append]
      intro heq
      exact hc (List.cons.inj (List.cons.inj heq).2).1
    rcases List.mem_pair.mp hi with rfl | rfl
    · refine iff_of_false ?_ (by rintro ⟨_, _, ⟨⟩, _⟩)
      rw [String.append_assoc]
      exact hother "tructureid".toList (by decide) (by decide : 'u' ≠ 's')
    · refine iff_of_false ?_ (by rintro ⟨_, _, ⟨⟩, _⟩)
      rw [String.append_assoc]
      exact hother "emberpath".toList (by decide) (by decide : 'u' ≠ 'm')
  · obtain ⟨m, -, rfl⟩ := List.mem_map.mp hi
    dsimp only
    rw [String.append_assoc, hname, folded_append, folded_append "_uq_", String.append_right_inj, ← sameName_iff]
    constructor
    · exact fun h => ⟨m.path, m.code, rfl, h⟩
    · rintro ⟨path', code, ⟨⟩, h⟩
      exact h

/-- The index of a unique path has the name for the path. -/
theorem name_of_unique {k : Key} {s : Schema} (hstem : s.stem = k.stem) {i : Index} (hi : i ∈ indexesOf s)
    {g : String × TypeCode} (hunique : i.unique = some g) : i.name = uniqueName k g.1 := by
  rcases List.mem_append.mp hi with hi | hi
  · rcases List.mem_pair.mp hi with rfl | rfl <;> cases hunique
  · obtain ⟨m, -, rfl⟩ := List.mem_map.mp hi
    cases hunique
    rw [uniqueName, ← hstem]
    rfl

/-! ### What is left behind -/

/-- A store whose sets have indexes of their own only, none of them of a name that a type may need but for those of the
    set of the type. -/
structure Clear (k : Key) (st : Store) : Prop where
  own : Everywhere TableSet.OwnIndexes st
  free : ∀ {name t}, st.sets.get? name = some t → name ≠ folded k.stem → ∀ i ∈ t.indexes, ∀ path,
    Text.sameName (uniqueName k path) i.name = false

/-- A store in which the set of a type, which is there if the type has a shape, keeps unique what all of its shapes have
    left behind. -/
structure Guarded (k : Key) (st : Store) (shapes : List Schema) : Prop where
  clear : Clear k st
  uniques : (st.sets.get? (folded k.stem)).map (·.uniques) = shapes.head?.map fun _ => guards shapes

section
variable {k : Key} {s : Schema} {st st' : Store} {t : TableSet} {shapes : List Schema}

theorem mem_uniques {g : String × TypeCode} : g ∈ t.uniques ↔ ∃ i ∈ t.indexes, i.unique = some g := List.mem_filterMap

/-- Some set has the index of a unique path if and only if the set of the type keeps such a path unique. -/
theorem Clear.hasIndex (h : Clear k st) (hset : st.sets.get? (folded k.stem) = some t) (path : String) :
    st.hasIndex (uniqueName k path) = t.uniques.any fun g => Text.sameName path g.1 := by
  have hstem : folded t.stem = folded k.stem := (h.own.named _ (Assoc.mem_of_get? hset)).symm
  rw [Bool.eq_iff_iff, Store.hasIndex, List.any_eq_true, List.any_eq_true]
  constructor
  · rintro ⟨⟨name, t'⟩, he, hany⟩
    obtain ⟨i, hi, hname⟩ := List.any_eq_true.mp hany
    have hget := Assoc.get?_of_mem h.own.once he
    by_cases hown : name = folded k.stem
    · subst hown
      cases hset.symm.trans hget
      obtain ⟨s, hs, hin⟩ := h.own.get hset i hi
      obtain ⟨path', code, hunique, hpath⟩ := (sameName_uniqueName (hs.trans hstem) hin path).mp hname
      exact ⟨(path', code), mem_uniques.mpr ⟨i, hi, hunique⟩, hpath⟩
    · rw [h.free hget hown i hi path] at hname
      cases hname
  · rintro ⟨⟨path', code⟩, hg, hpath⟩
    obtain ⟨i, hi, hunique⟩ := mem_uniques.mp hg
    obtain ⟨s, hs, hin⟩ := h.own.get hset i hi
    have hname := (sameName_uniqueName (hs.trans hstem) hin path).mpr ⟨path', code, hunique, hpath⟩
    exact ⟨_, Assoc.mem_of_get? hset, List.any_eq_true.mpr ⟨i, hi, hname⟩⟩

/-- Of other sets nothing has to be known but their indexes. -/
theorem Clear.of_others (h : Clear k st) (hown : Everywhere TableSet.OwnIndexes st')
    (hothers : ∀ {name t'}, name ≠ folded k.stem → st'.sets.get? name = some t' →
      ∃ t, st.sets.get? name = some t ∧ t'.indexes = t.indexes) : Clear k st' where
  own := hown
  free {name t'} hget hne i hi path := by
    obtain ⟨t, hget', hindexes⟩ := hothers hne hget
    exact h.free hget' hne i (hindexes ▸ hi) path

theorem Clear.of_sets (h : Clear k st) (hsets : st'.sets = st.sets) : Clear k st' :=
  h.of_others (h.own.of_sets hsets) fun {_ t} _ hget => ⟨t, hsets ▸ hget, rfl⟩

theorem New.guarded (h : New k st) (hvacant : Vacant k st) : Guarded k st [] where
  clear := by
    have hown := h.reached.everywhere kept_ownIndexes
    refine ⟨hown, fun {name t} hget _ i hi path => Bool.eq_false_iff.mpr fun hname => ?_⟩
    have hfree := hvacant path
    rw [hasIndex, Bool.eq_false_iff] at hfree
    exact hfree (List.any_eq_true.mpr ⟨_, Assoc.mem_of_get? hget, List.any_eq_true.mpr ⟨i, hi, hname⟩⟩)
  uniques := by
    rw [h.set]
    rfl

/-! ### Bringing a set to a shape -/

/-- The set of the type may be put back with indexes of its own. -/
theorem Clear.putSet (h : Clear k st) (hstem : folded t.stem = folded k.stem) (ht : t.OwnIndexes) :
    Clear k (st.putSet t) := by
  refine h.of_others (h.own.putSet ht) fun {name t'} hne hget => ?_
  rw [Store.putSet, Assoc.get?_insert, hstem, if_neg hne.symm] at hget
  exact ⟨t', hget, rfl⟩

/-- An index that is not there yet adds what it keeps unique, unless that is kept unique under its name. -/
theorem Clear.ensureIndex (h : Clear k st) (hstem : s.stem = k.stem) (hset : st.set? s = some t) {i : Index}
    (hi : i ∈ indexesOf s) (hdone : Store.ensureIndex s st i = .ok st') : Clear k st' ∧
      ∃ t', st'.set? s = some t' ∧ t'.uniques = (i.unique.toList).foldl addGuard t.uniques := by
  have hthere {g : String × TypeCode} (hunique : i.unique = some g) :
      st.hasIndex i.name = t.uniques.any fun g' => Text.sameName g.1 g'.1 := by
    rw [name_of_unique hstem hi hunique]
    exact h.hasIndex (hstem ▸ hset) g.1
  rcases ensureIndex_of_set hset hdone with ⟨hold, rfl⟩ | ⟨hnew, rfl⟩
  · refine ⟨h, t, hset, ?_⟩
    cases hunique : i.unique with
    | none => rfl
    | some g =>
      rw [hthere hunique] at hold
      exact (if_pos hold).symm
  · let t' : TableSet := { t with indexes := t.indexes ++ [i] }
    have hstem' : folded t.stem = folded s.stem := h.own.named.stem hset
    have hown : t'.OwnIndexes := kept_ownIndexes.index hstem' hi (h.own.get hset)
    refine ⟨h.putSet (hstem'.trans (congrArg folded hstem)) hown, t', set?_putSet_self hstem', ?_⟩
    rw [TableSet.uniques, List.filterMap_append]
    cases hunique : i.unique with
    | none =>
      rw [List.filterMap_cons_none hunique, List.filterMap_nil, List.append_nil]
      rfl
    | some g =>
      rw [hthere hunique] at hnew
      rw [List.filterMap_cons_some hunique, List.filterMap_nil]
      exact (if_neg (Bool.eq_false_iff.mp hnew)).symm

/-- The indexes of a schema together add what its unique members add. -/
theorem Clear.ensureIndexes (hstem : s.stem = k.stem) : ∀ {is : List Index} {st st' : Store} {t : TableSet},
    Clear k st → st.set? s = some t → (∀ i ∈ is, i ∈ indexesOf s) → is.foldlM (Store.ensureIndex s) st = .ok st' →
    Clear k st' ∧ ∃ t', st'.set? s = some t' ∧ t'.uniques = (is.filterMap (·.unique)).foldl addGuard t.uniques
  | [], _, _, t, h, hset, _, hdone => by
    cases hdone
    exact ⟨h, t, hset, rfl⟩
  | i :: is, st, st', t, h, hset, his, hdone => by
    rw [List.foldlM_cons] at hdone
    obtain ⟨st₁, hone, hrest⟩ := bind_eq_ok.mp hdone
    obtain ⟨hclear, t₁, hset₁, huniques₁⟩ := h.ensureIndex hstem hset (his i (List.mem_cons_self ..)) hone
    obtain ⟨hclear', t', hset', huniques'⟩ :=
      hclear.ensureIndexes hstem hset₁ (fun i hi => his i (List.mem_cons_of_mem _ hi)) hrest
    refine ⟨hclear', t', hset', ?_⟩
    rw [huniques', huniques₁, ← List.foldl_append]
    cases hunique : i.unique with
    | none => rw [List.filterMap_cons_none hunique, Option.toList_none, List.nil_append]
    | some g => rw [List.filterMap_cons_some hunique, Option.toList_some, List.singleton_append]

/-- A new set keeps nothing unique yet. -/
theorem Guarded.withTables (h : Guarded k st shapes) (hstem : s.stem = k.stem)
    (hdone : Store.withTables s st = .ok st') :
    Clear k st' ∧ ∃ t, st'.set? s = some t ∧ t.uniques = guards shapes := by
  have huniques := h.uniques
  rw [← hstem] at huniques
  change (st.set? s).map _ = _ at huniques
  rcases withTables_eq_ok hdone with ⟨rfl, hset⟩ | ⟨hset, rfl⟩
  · obtain ⟨t, hset⟩ := Option.isSome_iff_exists.mp hset
    rw [hset] at huniques
    cases shapes with
    | nil => cases huniques
    | cons s' shapes => exact ⟨h.clear, t, hset, Option.some.inj huniques⟩
  · refine ⟨h.clear.putSet (hstem ▸ rfl) (kept_ownIndexes.new trivial), _, set?_putSet_self rfl, ?_⟩
    rw [hset] at huniques
    cases shapes with
    | nil => rfl
    | cons s' shapes => cases huniques

theorem Guarded.of_set (h : Clear k st) (hstem : s.stem = k.stem) (hset : st.set? s = some t)
    (huniques : t.uniques = guards (s :: shapes)) : Guarded k st (s :: shapes) := by
  refine ⟨h, ?_⟩
  rw [← hstem]
  change (st.set? s).map _ = _
  rw [hset, Option.map_some, huniques]
  rfl

/-- A type that is brought to a shape leaves behind what its set kept unique before, and what the shape adds. -/
theorem Guarded.shaped (h : Guarded k st shapes) (hstem : s.stem = k.stem) (hdone : Store.shaped s st = .ok st') :
    Guarded k st' (s :: shapes) := by
  obtain ⟨st₁, st₂, htables, hindexes, hlast⟩ := shaped_eq_ok hdone
  obtain ⟨hclear₁, t₁, hset₁, huniques₁⟩ := h.withTables hstem htables
  obtain ⟨hclear₂, t₂, hset₂, huniques₂⟩ := hclear₁.ensureIndexes hstem hset₁ (fun _ hi => hi) hindexes
  rw [unique_indexesOf, huniques₁] at huniques₂
  rcases hlast with ⟨hnone, -⟩ | ⟨t, hset, rfl⟩
  · rw [hset₂] at hnone
    cases hnone
  · cases hset₂.symm.trans hset
    have hstem' : folded t₂.stem = folded s.stem := hclear₂.own.named.stem hset₂
    have hown : (t₂.withoutStale s).OwnIndexes := kept_ownIndexes.stale s (hclear₂.own.get hset₂)
    have hclear : Clear k (st₂.putSet (t₂.withoutStale s)) :=
      hclear₂.putSet (hstem'.trans (congrArg folded hstem)) hown
    exact .of_set hclear hstem (set?_putSet_self hstem') huniques₂

/-- Rows do not matter. -/
theorem Guarded.refilled (h : Guarded k st shapes) (hown : Everywhere TableSet.OwnIndexes st')
    (hr : Refilled st st') : Guarded k st' shapes where
  clear := by
    refine h.clear.of_others hown fun {name t'} _ hget => ?_
    have hshape := hr.shapes name
    rw [hget] at hshape
    obtain ⟨t, hget', heq⟩ := Option.map_eq_some_iff.mp hshape.symm
    exact ⟨t, hget', (congrArg TableSet.indexes heq).symm⟩
  uniques := by
    have huniques (o : Option TableSet) : o.map (·.uniques) = (o.map (·.shape)).map (·.uniques) := by
      rw [Option.map_map]
      rfl
    rw [huniques, hr.shapes, ← huniques, h.uniques]

theorem tracks_guarded (k : Key) : Tracks (fun _ call => call.shapes = false) k (Guarded k) where
  sets hsets h := ⟨h.clear.of_sets hsets, hsets ▸ h.uniques⟩
  again {_ _ _ shapes} halike h := by
    refine ⟨h.clear, h.uniques.trans ?_⟩
    rw [guards_again halike]
    rfl
  shaped _ hstem hdone h := h.shaped hstem hdone
  write {st _ _} c {call} hn _ _ hcall h := by
    have hown := (everywhere_keeps kept_ownIndexes c call st h.clear.own).1
    exact h.refilled hown (c.perform_refilled hcall st st (.refl hn)).1

/-- Whatever is written between, the set of a type keeps unique what the shapes of the type have left behind. -/
theorem History.uniques {st₀ : Store} (h : History (fun _ call => call.shapes = false) k st₀ st (s :: shapes))
    (hnew : New k st₀) (hvacant : Vacant k st₀) (hd : Discerned (s :: shapes)) :
    ∃ t, st.set? s = some t ∧ t.uniques = guards (s :: shapes) := by
  obtain ⟨hs, hkey⟩ := h.built s (List.mem_cons_self ..)
  have hguarded := h.tracks hnew id (tracks_guarded k) (hnew.guarded hvacant) hd
  obtain ⟨t, hset, huniques⟩ := Option.map_eq_some_iff.mp hguarded.uniques
  rw [← hkey, ← hs.stem_eq] at hset
  exact ⟨t, hset, huniques⟩

end

end DocStore.Store
