import DocStore.Proofs.Coherence.Database
import DocStore.Proofs.Schema.Built

/-! What the registry holds. A schema is registered under its own key, or under the key of the type that it was built
    for. The two are the same unless the type describes itself under other names than its own, and then dropping the set
    of the type does not take its schema out of the registry. -/

namespace DocStore

/-! ### Keys of types -/

/-- The namespace after a declaration. -/
def Declaration.nsAfter (ns : String) : Declaration → String
  | .inNamespace ns' => ns'
  | _ => ns

namespace SchemaBuilder

theorem declareAll_names (b : SchemaBuilder) (ds : List Declaration) :
    (b.declareAll ds).name = b.name ∧ (b.declareAll ds).ns = ds.foldl Declaration.nsAfter b.ns := by
  induction ds generalizing b with
  | nil => exact ⟨rfl, rfl⟩
  | cons d ds ih =>
    obtain ⟨hname, hns⟩ := ih (b.declare d)
    rw [declareAll, List.foldl_cons, ← declareAll, hname, hns, List.foldl_cons]
    cases d <;> exact ⟨rfl, rfl⟩

end SchemaBuilder

namespace Kind

variable {k : Kind} {s : Schema}

/-- The key that a type describes itself under. -/
def describedKey (k : Kind) : Key := Key.ofNames k.described.ns k.described.name

/-- The key of a schema is made of what the type describes. -/
theorem schema_key (h : k.schema = .ok s) : s.key = k.describedKey := by
  obtain ⟨hns, hname, -⟩ := SchemaBuilder.build_names h
  rw [(SchemaBuilder.build_eq_ok h).key, hname, hns]
  rfl

/-- A type that does nothing but declare keeps its name, and the key with it if the namespace that it declares last is
    its own or there is none. -/
theorem describedKey_eq_key {ds : List Declaration} (h : k.describe = (·.declareAll ds)) :
    k.describedKey = k.key ↔ ds.foldl Declaration.nsAfter k.ns = k.ns := by
  obtain ⟨hname, hns⟩ :=
    SchemaBuilder.declareAll_names ((SchemaBuilder.new k.name k.idType).declare (.inNamespace k.ns)) ds
  rw [describedKey, described, h, hname, hns, key]
  exact Key.ofNames_left_inj

end Kind

/-! ### The registry -/

namespace Registry

/-- What is asked of a registry. -/
inductive Call where
  | getSchema (k : Kind)
  | register (s : Schema)
  | remove (k : Key)
  | clear

/-- The registry after a call. -/
def step (r : Registry) : Call → Registry
  | .getSchema k =>
    match r.getOrBuild k.key k.schema with
    | .ok (_, r') => r'
    | .error _ => r
  | .register s => (r.register s).2
  | .remove k => r.remove k
  | .clear => {}

/-- The registry after some calls, empty in the beginning. -/
def after (calls : List Call) : Registry := calls.foldl step {}

/-- A call that can put a schema under a key. -/
def Call.Brings (key : Key) (s : Schema) : Call → Prop
  | .getSchema k => k.key = key ∧ k.schema = .ok s
  | .register s' => s'.key = key ∧ s' = s
  | .remove _ | .clear => False

section
variable {r r' : Registry} {key : Key} {s : Schema}

theorem get?_remove (r : Registry) (key key' : Key) :
    (r.remove key).get? key' = if key = key' then none else r.get? key' := Assoc.get?_erase ..

/-- What is answered was held under the key, or was built now because nothing was. -/
theorem getOrBuild_cases {build : Except ValidationError Schema} (h : r.getOrBuild key build = .ok (s, r')) :
    r.get? key = some s ∨ r.get? key = none ∧ build = .ok s := by
  rw [getOrBuild] at h
  cases hfound : r.get? key with
  | some s' =>
    rw [hfound] at h
    cases h
    exact Or.inl rfl
  | none =>
    rw [hfound] at h
    obtain ⟨s', hbuilt, heq⟩ := map_eq_ok.mp h
    cases heq
    exact Or.inr ⟨rfl, hbuilt⟩

theorem getOrBuild_fst_of_none (h : r.get? key = none) (build : Except ValidationError Schema) :
    (r.getOrBuild key build).map (·.1) = build := by
  rw [getOrBuild, h]
  cases build <;> rfl

/-- What is held after a call was held before, or the call put it there. -/
theorem get?_step {c : Call} (h : (r.step c).get? key = some s) : r.get? key = some s ∨ c.Brings key s := by
  cases c with
  | getSchema k =>
    rw [step] at h
    split at h
    · rename_i s' r' hget
      obtain ⟨hheld, hothers⟩ := get?_getOrBuild hget
      by_cases hkey : k.key = key
      · subst hkey
        rw [hheld] at h
        cases h
        exact (getOrBuild_cases hget).imp_right fun hbuilt => ⟨rfl, hbuilt.2⟩
      · rw [hothers key hkey] at h
        exact Or.inl h
    · exact Or.inl h
  | register s' =>
    have hinsert (h : get? ⟨r.schemas.insert s'.key s'⟩ key = some s) :
        r.get? key = some s ∨ (Call.register s').Brings key s := by
      rw [get?, Assoc.get?_insert] at h
      split at h
      · rename_i hkey
        exact Or.inr ⟨hkey, Option.some.inj h⟩
      · exact Or.inl h
    rw [step, register] at h
    split at h
    · split at h
      · exact Or.inl h
      · exact hinsert h
    · exact hinsert h
  | remove k =>
    rw [step, get?_remove] at h
    split at h
    · cases h
    · exact Or.inl h
  | clear => cases h

theorem get?_foldl_step {calls : List Call} (h : (calls.foldl step r).get? key = some s) :
    r.get? key = some s ∨ ∃ c ∈ calls, c.Brings key s := by
  induction calls generalizing r with
  | nil => exact Or.inl h
  | cons c calls ih =>
    rcases ih h with hheld | ⟨c', hc', hbrings⟩
    · rcases get?_step hheld with hbefore | hbrings
      · exact Or.inl hbefore
      · exact Or.inr ⟨c, List.mem_cons_self .., hbrings⟩
    · exact Or.inr ⟨c', List.mem_cons_of_mem _ hc', hbrings⟩

/-- What is held after a run was put there by one of its calls. -/
theorem get?_after {calls : List Call} (h : (after calls).get? key = some s) : ∃ c ∈ calls, c.Brings key s :=
  (get?_foldl_step h).resolve_left nofun

/-- What a call puts under a key has that key, or belongs to a type that describes itself under another one. -/
theorem Call.Brings.key_eq {c : Call} (h : c.Brings key s) :
    s.key = key ∨ ∃ k, c = .getSchema k ∧ k.key = key ∧ k.schema = .ok s ∧ k.describedKey ≠ k.key := by
  cases c with
  | getSchema k =>
    obtain ⟨rfl, hbuilt⟩ := h
    by_cases hkey : s.key = k.key
    · exact Or.inl hkey
    · exact Or.inr ⟨k, rfl, rfl, hbuilt, fun hown => hkey ((Kind.schema_key hbuilt).trans hown)⟩
  | register s' =>
    obtain ⟨hkey, rfl⟩ := h
    exact Or.inl hkey
  | remove | clear => exact h.elim

end

end Registry

/-! ### Dropping sets -/

namespace Database

variable {k : Kind} {s : Schema} {db db' : Database}

theorem onCache_registry (m : Cache.Provider.Do Unit) (db : Database) : (onCache m db).2.registry = db.registry := by
  rw [onCache]
  split <;> rfl

/-- Dropping a set takes the schema out of the registry that is held under the key of the schema. -/
theorem dropSchema_eq_ok {u : Unit} (h : dropSchema s db = (.ok u, db')) :
    db'.registry = db.registry.remove s.key := by
  obtain ⟨u₁, db₁, hclear, h⟩ := Step.bind_eq_ok.mp h
  obtain ⟨u₂, db₂, hdrop, h⟩ := Step.bind_eq_ok.mp h
  have hcleared : db₁.registry = db.registry := by
    rw [← onCache_registry (Cache.Provider.clearFor s.key) db, hclear]
  have hdropped : db₂.registry = db₁.registry := (congrArg (·.2.registry) hdrop).symm
  cases h
  rw [← hcleared, ← hdropped]

theorem dropSet_eq_ok {u : Unit} (h : dropSet k db = (.ok u, db')) : ∃ s registry,
    db.registry.getOrBuild k.key k.schema = .ok (s, registry) ∧ db'.registry = registry.remove s.key := by
  obtain ⟨s, db₁, hschema, h⟩ := Step.bind_eq_ok.mp h
  obtain ⟨registry, hget, rfl⟩ := schemaOf_eq_ok hschema
  obtain ⟨ss, db₂, hquery, h⟩ := Step.bind_eq_ok.mp h
  obtain ⟨hss, rfl⟩ := Prod.mk.inj hquery
  have hone : schemasOf registry [k.key] = .ok [s] := by
    rw [schemasOf, (Registry.get?_getOrBuild hget).1]
    rfl
  cases hone.symm.trans hss
  obtain ⟨u₁, db₃, hdrop, h⟩ := Step.bind_eq_ok.mp h
  cases h
  exact ⟨s, registry, hget, dropSchema_eq_ok hdrop⟩

/-- Where nothing is held under the key of a type, its schema is built anew. -/
theorem schemaOf_of_none (h : db.registry.get? k.key = none) :
    (schemaOf k db).1 = k.schema.mapError Error.validation := by
  have hbuilt := Registry.getOrBuild_fst_of_none h k.schema
  rw [schemaOf, Step.transaction]
  cases hget : db.registry.getOrBuild k.key k.schema with
  | error e =>
    rw [hget] at hbuilt
    rw [← hbuilt]
    rfl
  | ok x =>
    rw [hget] at hbuilt
    rw [← hbuilt]
    rfl

end Database

namespace Registry

/-- Every schema that is held under a key has that key, unless it was built for a type that describes itself under
    another one. Hence dropping the set of a type leaves no schema under the key of the type, and the next one is built
    anew, unless the schema was that of such a type, which is still held then. -/
theorem registered_under_own_keys (calls : List Call) :
    (∀ key s, (after calls).get? key = some s → s.key = key ∨
      ∃ k, .getSchema k ∈ calls ∧ k.key = key ∧ k.schema = .ok s ∧ k.describedKey ≠ k.key) ∧
    ∀ (k : Kind) (db db' : Database), db.registry = after calls → Database.dropSet k db = (.ok (), db') →
      (db'.registry.get? k.key = none ∧
        ∀ k' : Kind, k'.key = k.key → (Database.schemaOf k' db').1 = k'.schema.mapError Error.validation) ∨
      ∃ k' s, (k' = k ∨ .getSchema k' ∈ calls) ∧ k'.key = k.key ∧ k'.schema = .ok s ∧ k'.describedKey ≠ k'.key ∧
        db'.registry.get? k.key = some s := by
  have hheld : ∀ key s, (after calls).get? key = some s → s.key = key ∨
      ∃ k, .getSchema k ∈ calls ∧ k.key = key ∧ k.schema = .ok s ∧ k.describedKey ≠ k.key := by
    intro key s h
    obtain ⟨c, hc, hbrings⟩ := get?_after h
    refine hbrings.key_eq.imp_right ?_
    rintro ⟨k, rfl, hk⟩
    exact ⟨k, hc, hk⟩
  refine ⟨hheld, fun k db db' hdb hdrop => ?_⟩
  obtain ⟨s, registry, hget, hregistry⟩ := Database.dropSet_eq_ok hdrop
  have hs : registry.get? k.key = some s := (get?_getOrBuild hget).1
  by_cases hkey : s.key = k.key
  · have hgone : db'.registry.get? k.key = none := by rw [hregistry, get?_remove, if_pos hkey]
    refine Or.inl ⟨hgone, fun k' hk' => Database.schemaOf_of_none ?_⟩
    rw [hk']
    exact hgone
  · have hstays : db'.registry.get? k.key = some s := by rw [hregistry, get?_remove, if_neg hkey, hs]
    refine Or.inr ?_
    rcases getOrBuild_cases hget with hbefore | ⟨-, hbuilt⟩
    · rw [hdb] at hbefore
      obtain ⟨k', hk', hsame, hbuilt, hother⟩ := (hheld _ _ hbefore).resolve_left hkey
      exact ⟨k', s, Or.inr hk', hsame, hbuilt, hother, hstays⟩
    · exact ⟨k, s, Or.inl rfl, rfl, hbuilt, fun hown => hkey ((Kind.schema_key hbuilt).trans hown), hstays⟩

/-- Memos, which have a title and sometimes a due date. -/
def memoKind (due : Bool) : Kind where
  ns := "office"
  name := "Memo"
  idType := .identity
  describe :=
    (·.declareAll (.member "Title" .string false false :: if due then [.member "Due" .dateTime false false] else []))
  read? _ := none

/-- A type of files that moves itself to another namespace. -/
def fileKind : Kind where
  ns := ""
  name := "File"
  idType := .identity
  describe := (·.declareAll [.inNamespace "archive"])
  read? _ := none

/-- A type of drafts that describes itself as papers. -/
def draftKind : Kind where
  ns := ""
  name := "Draft"
  idType := .identity
  describe _ := .new "Paper" .identity
  read? _ := none

/-- Both types are registered; the memos are dropped, and have a due date the next time. -/
theorem registered_under_own_keys_memos :
    let calls := [Call.getSchema fileKind, .getSchema (memoKind false)]
    let db : Database := { config := {}, store := Store.created {}, registry := after calls }
    let db' := (Database.dropSet (memoKind false) db).2
    ((after calls).get? ⟨"office.Memo"⟩).map (·.members.length) = some 1 ∧
      (∀ s, (after calls).get? ⟨"office.Memo"⟩ = some s → s.key = ⟨"office.Memo"⟩) ∧
      (Database.dropSet (memoKind false) db).1 = .ok () ∧ db'.registry.get? ⟨"office.Memo"⟩ = none ∧
      (Database.schemaOf (memoKind true) db').1 = (memoKind true).schema.mapError Error.validation := by
  intro calls db db'
  have hkey : (memoKind false).key = ⟨"office.Memo"⟩ := by decide
  have hother : fileKind.key ≠ ⟨"office.Memo"⟩ := by decide
  have hrun : ((after calls).get? ⟨"office.Memo"⟩).map (·.members.length) = some 1 ∧
      (Database.dropSet (memoKind false) db).1 = .ok () := by decide +kernel
  have hown : ∀ k, (.getSchema k ∈ calls) → k.key = ⟨"office.Memo"⟩ → k.describedKey = k.key := by
    intro k hk hkey
    rcases List.mem_cons.mp hk with heq | hk
    · cases heq
      exact absurd hkey hother
    · cases List.mem_singleton.mp hk
      exact (Kind.describedKey_eq_key rfl).mpr rfl
  obtain ⟨hheld, hdrop⟩ := registered_under_own_keys calls
  refine ⟨hrun.1, fun s hs => ?_, hrun.2, ?_⟩
  · refine (hheld _ s hs).resolve_right ?_
    rintro ⟨k, hk, hkey, -, hother⟩
    exact hother (hown k hk hkey)
  · rcases hdrop (memoKind false) db db' rfl (Prod.ext hrun.2 rfl) with ⟨hgone, hanew⟩ | ⟨k, s, hk, hsame, -, hother, -⟩
    · exact ⟨hkey ▸ hgone, hanew (memoKind true) rfl⟩
    · rcases hk with rfl | hk
      · exact absurd (hown _ (List.mem_cons_of_mem _ (List.mem_singleton_self _)) hkey) hother
      · exact absurd (hown k hk (hsame.trans hkey)) hother

/-- The files and the drafts are registered under keys that are not those of their schemas, and stay so when their sets
    are dropped. -/
theorem registered_under_other_key :
    let registry (k : Kind) := after [Call.getSchema k]
    let db (k : Kind) : Database := { config := {}, store := Store.created {}, registry := registry k }
    (((registry fileKind).get? fileKind.key).map (·.key) = some ⟨"archive.File"⟩ ∧ fileKind.key ≠ ⟨"archive.File"⟩ ∧
      (Database.dropSet fileKind (db fileKind)).1 = .ok () ∧
      ((Database.dropSet fileKind (db fileKind)).2.registry.get? fileKind.key).map (·.key) = some ⟨"archive.File"⟩) ∧
    ((registry draftKind).get? draftKind.key).map (·.key) = some ⟨"Paper"⟩ ∧ draftKind.key ≠ ⟨"Paper"⟩ ∧
      (Database.dropSet draftKind (db draftKind)).1 = .ok () ∧
      ((Database.dropSet draftKind (db draftKind)).2.registry.get? draftKind.key).map (·.key) = some ⟨"Paper"⟩ := by
  decide +kernel

end Registry

end DocStore
