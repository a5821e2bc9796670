import DocStore.Proofs.Recorded.Database
import DocStore.Proofs.Service

/-! Whole histories. Whatever was asked of a database, and however much of it failed, it knows no shape but those that
    its store has, so what a session does with a type it does with tables in the shape of the type. -/

namespace DocStore

open Database (Recorded)
open Store (Separate Carries)

variable {types : Schema → Prop} {s : Schema}

/-! ### Calls of a session -/

namespace Session

variable {ses : Session} {α : Type}

theorem Confined.recorded (hd : Separate types) {m : Database.Do α} (hm : ses.Confined s m) :
    Step.Keeps (Recorded types) m := by
  refine .of_state fun db hdb => ?_
  obtain ⟨run, cache, guids, hrun, hend⟩ := hm db
  have hrows : ∀ x ∈ run, x.2.shapes = false := fun x hx => Store.Client.Call.rows_of_writesTo (hrun x hx).2
  rw [hend]
  refine ⟨hdb.registry, hdb.store.after hrows, fun {k fp} h => ?_⟩
  show (db.store.after run).fingerprint? k = some fp
  rw [((hdb.store.named hd).refilled_after hrows).fingerprint?]
  exact hdb.shapes h

theorem perform_recorded (hd : Separate types) (ses : Session) {c : Call}
    (hk : ∀ {s}, c.kind.schema = .ok s → types s) : Step.Keeps (Recorded types) (ses.perform c) := by
  obtain ⟨e, h⟩ | ⟨rest, h, hrest⟩ := ses.perform_prepared c
  · rw [h]
    exact .fail e
  · rw [h]
    exact (Database.invariant_recorded.prepare ses hk).bind fun s _ => (hrest s).recorded hd

end Session

/-! ### Calls of a service -/

namespace Service

theorem invariant_recorded (hd : Separate types) : Invariant types (Recorded types) where
  toInvariant := Database.invariant_recorded
  session ses _ hk := Session.perform_recorded hd ses hk

/-- After any calls on a database that was opened on a store, each of which may have failed, the shapes that the
    database knows its store to have are those that the store has. So once a session has prepared a type, all that it
    writes it writes to tables in the shape of the schema that it goes by. -/
theorem shapes_recorded (hd : Separate types) {db : Database} (hstore : db.store.Reached types)
    (hregistry : db.registry.schemas = []) (hshapes : db.shapes.fingerprints = []) {cs : List Call}
    (hcs : ∀ c ∈ cs, ∀ s, c.Brings s → types s) :
    (∀ s, types s → (after { database := db } cs).database.shapes.isCurrent s = true →
      Carries types s (after { database := db } cs).database.store) ∧
    ∀ (ses : Session) (c : Session.Call) s db₁, (∀ s, c.kind.schema = .ok s → types s) →
      ses.prepare c.kind (after { database := db } cs).database = (.ok s, db₁) →
      types s ∧ Carries types s db₁.store ∧
        ((∃ e, ses.perform c = Step.fail e) ∨ ∃ run, (∀ x ∈ run, x.1 = ses.client ∧ x.2.WritesTo s) ∧
          (ses.perform c (after { database := db } cs).database).2.store = db₁.store.after run ∧
          ∀ before later, run = before ++ later → Carries types s (db₁.store.after before)) := by
  have hstart : Recorded types db := ⟨by rw [hregistry]; exact nofun, hstore, by rw [hshapes]; exact nofun⟩
  have hend := (invariant_recorded hd).after (show Recorded types (Service.mk db []).database from hstart) hcs
  refine ⟨fun s hs hcurrent => hend.store.carries hd hs (hend.fingerprint? hcurrent), ?_⟩
  intro ses c s db₁ hk hprepare
  obtain ⟨hdb₁, hs⟩ := Database.invariant_recorded.prepare ses (fun {s} => hk s) _ hend
  rw [hprepare] at hdb₁ hs
  have hs := hs s rfl
  have hfp := hdb₁.fingerprint? (Session.prepare_current hprepare)
  refine ⟨hs, hdb₁.store.carries hd hs hfp, ?_⟩
  -- from here on only rows are written, and rows leave the tables in their shapes
  obtain hfail | ⟨rest, h, hrest⟩ := ses.perform_prepared c
  · exact Or.inl hfail
  · obtain ⟨run, cache, guids, hrun, hdone⟩ := hrest s db₁
    refine Or.inr ⟨run, hrun, ?_, fun before later hsplit => ?_⟩
    · rw [h, Step.bind_ok hprepare, hdone]
    · refine hdb₁.store.carries_after hd hs hfp fun x hx => ?_
      exact Store.Client.Call.rows_of_writesTo (hrun x (hsplit ▸ List.mem_append_left _ hx)).2

/-- A type of letters. -/
def letterKind : Kind where
  ns := ""
  name := "Letter"
  idType := .identity
  describe := id
  read? _ := none

/-- Letters of which the senders are indexed. -/
def signedSchema : Schema :=
  { key := ⟨"Letter"⟩, ns := "", name := "Letter", idType := .identity, fingerprint := "signed"
    members := [⟨"Sender", "String", .string, false, false⟩] }

def IsLetter (s : Schema) : Prop := letterKind.schema = .ok s ∨ s = signedSchema

def letter : Item := ⟨.ok (.object [("Sender", .string "Ada")]), some (.identity 1)⟩

/-- A letter is written before and after the senders are indexed, which fails the second time. -/
def letterCalls : List Call :=
  [.manage .create, .openSession "desk", .session "desk" (.insert letterKind letter), .register signedSchema,
    .session "desk" (.insert letterKind letter)]

theorem isLetter_names {s : Schema} (hs : IsLetter s) : s.key = ⟨"Letter"⟩ ∧ s.stem = "Letter" := by
  rcases hs with hs | rfl
  · have hnames : letterKind.schema.map (fun s => (s.key, s.stem)) = .ok (⟨"Letter"⟩, "Letter") := by decide +kernel
    rw [hs] at hnames
    exact Prod.mk.inj (Except.ok.inj hnames)
  · exact ⟨rfl, by decide⟩

theorem shapes_recorded_letters :
    let db := (after { database := { config := {} } } letterCalls).database
    db.shapes.isCurrent signedSchema = true ∧ Carries IsLetter signedSchema db.store ∧
      ((db.store.set? signedSchema).map (·.rows.length)) = some 1 ∧
      ∃ db₁, Session.prepare { mode := .ignore } letterKind db = (.ok signedSchema, db₁) ∧
        Carries IsLetter signedSchema db₁.store := by
  intro db
  have hd : Separate IsLetter := by
    intro s s' hs hs'
    obtain ⟨hkey, hstem⟩ := isLetter_names hs
    obtain ⟨hkey', hstem'⟩ := isLetter_names hs'
    rw [hkey, hkey', hstem, hstem']
    exact iff_of_true rfl rfl
  have hcalls : ∀ c ∈ letterCalls, ∀ s, c.Brings s → IsLetter s := by
    intro c hc s h
    simp only [letterCalls, List.mem_cons, List.not_mem_nil, or_false] at hc
    rcases hc with rfl | rfl | rfl | rfl | rfl
    · exact h.elim
    · exact h.elim
    · exact Or.inl h
    · exact Or.inr h.symm
    · exact Or.inl h
  have hopened : ({ config := {} } : Database).store.Reached IsLetter := .opened ":memory:" false
  obtain ⟨hcurrent, hsession⟩ := shapes_recorded hd hopened rfl rfl hcalls
  have hknown : db.shapes.isCurrent signedSchema = true := by decide +kernel
  have hprepared : (Session.prepare { mode := .ignore } letterKind db).1 = .ok signedSchema := by decide +kernel
  have hrun : Session.prepare { mode := .ignore } letterKind db = (.ok signedSchema, _) := Prod.ext hprepared rfl
  obtain ⟨-, hcarries, -⟩ := hsession { mode := .ignore } (.countAll letterKind) signedSchema _ (fun _ => Or.inl) hrun
  exact ⟨hknown, hcurrent signedSchema (Or.inr rfl) hknown, by decide +kernel, _, hrun, hcarries⟩

end Service

end DocStore
