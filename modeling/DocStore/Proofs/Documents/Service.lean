import DocStore.Proofs.Documents.Session
import DocStore.Proofs.Service

/-! Whole histories. Whatever was asked of a database that began empty, and however much of it failed, the documents
    that it stores and their index rows are in step. -/

namespace DocStore

open Store (Apart Fixed)

variable {types : Schema → Prop} {excluded : List String}

/-! ### Calls of a session -/

namespace Session

/-- Whatever a session is asked to do, it leaves documents and index rows in step. -/
theorem perform_inStep (ha : Apart types) (ses : Session) {c : Call} (hk : ∀ {s}, c.kind.schema = .ok s → types s) :
    Step.Keeps (Database.InStep types excluded) (ses.perform c) :=
  perform_keeps (Database.invariant_inStep ha) (keeping_inStep ha) hk fun _ _ hid => idType_convert hid

end Session

/-! ### Calls of a service -/

namespace Service

/-- A service whose documents and index rows are in step. -/
abbrev InStep (types : Schema → Prop) (excluded : List String) (sv : Service) : Prop :=
  sv.database.InStep types excluded

/-- Whatever a service is asked to do, it leaves documents and index rows in step. -/
theorem invariant_inStep (ha : Apart types) : Invariant types (Database.InStep types excluded) where
  toInvariant := Database.invariant_inStep ha
  session ses _ hk := Session.perform_inStep ha ses hk

theorem after_inStep (ha : Apart types) {cs : List Call} {sv : Service} (hsv : InStep types excluded sv)
    (hcs : ∀ c ∈ cs, ∀ {s}, c.Brings s → types s) : InStep types excluded (after sv cs) :=
  (invariant_inStep ha).after hsv fun c hc _ => hcs c hc

/-! ### From an empty database on -/

/-- After any calls on a database that began empty, each of which may have failed, the set of a type whose members
    stay the same holds the payloads of documents under their ids, of each document the values that are extracted from
    it, and no other index rows; a value stands in the column of its member's code and in no other. -/
theorem documents_inStep (ha : Apart types) {db : Database} (hsets : db.store.sets = [])
    (hregistry : db.registry.schemas = []) {cs : List Call} (hcs : ∀ c ∈ cs, ∀ s, c.Brings s → types s) {s : Schema}
    (hs : types s) (hfixed : Fixed types s) {t : Store.TableSet}
    (hset : (after { database := db } cs).database.store.set? s = some t) :
    t.InStep db.config.excluded s ∧ ∀ x ∈ t.indexRows, ∃ m ∈ s.members, m.path = x.path ∧
      ∀ code, x.row (.value code) = if code = m.code then x.value else .null := by
  have hstart : InStep types db.config.excluded { database := db } :=
    ⟨rfl, by rw [hregistry]; exact nofun, Store.inStep_of_empty hsets⟩
  have hend := after_inStep ha hstart fun c hc {s} => hcs c hc s
  have ht := hend.store.indexed.of hs hfixed hset
  refine ⟨ht, fun x hx => ?_⟩
  obtain ⟨m, hm, hpath, hcode⟩ := ht.member hx
  exact ⟨m, hm, hpath, fun code => by rw [hcode]; rfl⟩

/-- A type of parcels, of which the weights are indexed. -/
def parcelKind : Kind where
  ns := ""
  name := "Parcel"
  idType := .identity
  describe := (·.declareAll [.member "Weight" .integer false false])
  read? _ := none

/-- A database that leaves remarks out. -/
def parcelDatabase : Database := { config := { excluded := ["Remark"] } }

def parcel (n weight : Int) : Item :=
  ⟨.ok (.object [("Remark", .string "fragile"), ("Weight", .integer weight)]), some (.identity n)⟩

/-- Two parcels are written; one is weighed again, an unknown one too, and the other one is deleted. -/
def parcelCalls : List Call :=
  [.manage .create, .openSession "desk", .session "desk" (.insertMany parcelKind [parcel 1 5, parcel 2 7]),
    .session "desk" (.update parcelKind (parcel 1 9)), .session "desk" (.update parcelKind (parcel 3 4)),
    .session "desk" (.delete parcelKind (.int 2))]

theorem documents_inStep_parcels : ∃ s t, parcelKind.schema = .ok s ∧
    (after { database := parcelDatabase } parcelCalls).database.store.set? s = some t ∧
    t.rows = [⟨.integer 1, (Json.object [(idMember, .integer 1), ("Weight", .integer 9)]).text⟩] ∧
    t.indexRows = [⟨.integer 1, "Weight", .integer, .integer 9⟩] ∧ t.InStep ["Remark"] s := by
  have hcalls : ∀ c ∈ parcelCalls, ∀ s, c.Brings s → parcelKind.schema = .ok s := by
    intro c hc s h
    simp only [parcelCalls, List.mem_cons, List.not_mem_nil, or_false] at hc
    rcases hc with rfl | rfl | rfl | rfl | rfl | rfl <;> first | exact h | exact h.elim
  have hrows : (parcelKind.schema.toOption.bind fun s =>
      ((after { database := parcelDatabase } parcelCalls).database.store.set? s).map fun t => (t.rows, t.indexRows)) =
      some ([⟨.integer 1, (Json.object [(idMember, .integer 1), ("Weight", .integer 9)]).text⟩],
        [⟨.integer 1, "Weight", .integer, .integer 9⟩]) := by decide +kernel
  obtain ⟨s, hs, ht⟩ := Option.bind_eq_some_iff.mp hrows
  obtain ⟨t, hset, hrows⟩ := Option.map_eq_some_iff.mp ht
  obtain ⟨hrows, hindex⟩ := Prod.mk.inj hrows
  have hs : parcelKind.schema = .ok s := by
    cases hschema : parcelKind.schema with
    | error e =>
      rw [hschema] at hs
      cases hs
    | ok s' =>
      rw [hschema] at hs
      rw [Option.some.inj hs]
  have hfixed : Fixed (fun s => parcelKind.schema = .ok s) s := fun s' hs' _ =>
    congrArg Schema.members (Except.ok.inj (hs'.symm.trans hs))
  exact ⟨s, t, hs, hset, hrows, hindex, (documents_inStep (apart_of_kind parcelKind) rfl rfl hcalls hs hfixed hset).1⟩

end Service

end DocStore
