import DocStore.Proofs.Coherence.Service
import DocStore.Proofs.Legible.Session
import DocStore.Proofs.Session.Inserted
import DocStore.Proofs.Spared.Service

/-! Whole histories. As long as no invalid id is given as an id, every structure that is stored is found, and one whose
    insertion was accepted is stored. -/

namespace DocStore.Service

open Database (Legible Tidy)
open Session (Found)
open Store (Apart TableSet)

variable {types : Schema → Prop}

/-! ### Stored ids -/

/-- An id that a call gives for a structure to be inserted. -/
def Call.Gives (id : DocId) : Call → Prop
  | .session _ c => c.Gives id
  | _ => False

theorem perform_legible (ha : Apart types) {c : Call} (hc : ∀ {s}, c.Brings s → types s)
    (hgiven : ∀ i, c.Gives i → i.IsValid) : Step.Keeps (fun sv : Service => sv.database.Legible types) (perform c) := by
  refine perform_keeps (Database.invariant_legible ha) hc fun {name call} heq ses => ?_
  subst heq
  exact Session.perform_legible ha ses hc hgiven

theorem after_legible (ha : Apart types) {cs : List Call} (hcs : ∀ c ∈ cs, ∀ {s}, c.Brings s → types s)
    (hgiven : ∀ c ∈ cs, ∀ i, c.Gives i → i.IsValid) {sv : Service} (hsv : sv.database.Legible types) :
    (after sv cs).database.Legible types :=
  after_keeps hsv fun c hc => perform_legible ha (hcs c hc) (hgiven c hc)

/-! ### Accepted structures -/

/-- What a session does with a type leaves it prepared for all sessions. -/
theorem prepare_others_of_perform {ses : Session} {c : Session.Call} {r : Session.Reply} {s : Schema}
    {db db₁ db' : Database} (h : ses.perform c db = (.ok r, db')) (hprepared : ses.prepare c.kind db = (.ok s, db₁))
    {ses' : Session} (hopen : ses'.disposed = false) : ses'.prepare c.kind db' = (.ok s, db') := by
  obtain ⟨e, hfail⟩ | ⟨rest, heq, hrest⟩ := ses.perform_prepared c
  · rw [hfail] at h
    cases h
  · rw [heq, Step.bind_ok hprepared] at h
    obtain ⟨run, cache, guids, -, hleft⟩ := hrest s db₁
    rw [h] at hleft
    change db' = _ at hleft
    exact Session.prepare_others hprepared hopen db' (by rw [hleft]) (by rw [hleft])

section
variable (ha : Apart types) {db : Database} (hdb : db.Opened types) (hst : db.store.Reached fun _ => True)
  (hlegible : db.store.Everywhere (TableSet.Legible types)) {cs : List Call} (hcs : ∀ c ∈ cs, c.Allowed types)
  (hgiven : ∀ c ∈ cs, ∀ i, c.Gives i → i.IsValid)
include ha hdb hst hlegible hcs hgiven

/-- After any calls whatever a prepared type has stored is found. -/
theorem found_after {name : String} {k : Kind} (hk : ∀ {s}, k.schema = .ok s → types s) {s : Schema} {db₁ : Database}
    (hprepared : ((after { database := db } cs).session name).prepare k (after { database := db } cs).database = (.ok s, db₁))
    {id : DocId} (hid : id.idType = s.idType) {payload : String} (hstored : db₁.store.payload? s id = some payload) :
    ∃ t, db₁.store.set? s = some t ∧ Found ((after { database := db } cs).session name) k s t id payload
      (after { database := db } cs).database db₁ := by
  have hstart : Coherent types { database := db } := ⟨hdb.coherent, fun _ => nofun⟩
  have htidy : db.Tidy := ⟨hst, fun hp => (hdb.coherent.memory hp).sound⟩
  have hlegible₀ : db.Legible types := ⟨hdb.coherent.registry, hlegible⟩
  obtain ⟨-, hsv⟩ := after_followed ha hstart hcs
  have hlegible₁ : (after { database := db } cs).database.Legible types :=
    after_legible ha (fun c hc => (hcs c hc).brings) hgiven hlegible₀
  exact Session.found_of_stored ha hk (hsv.sessions name) hsv.database hlegible₁ (after_tidy cs _ htidy).store hprepared
    hid hstored

/-- What a call has told the id of is stored, and found by every open session. -/
theorem found_of_tells {before : List Call} {name : String} {c : Session.Call} {r : Session.Reply} {id : DocId}
    (hrun : cs = before ++ [.session name c]) (hanswer : (((after { database := db } before).session name).perform c
      (after { database := db } before).database).1 = .ok r) (hr : r.Tells id) :
    ∃ s t payload, (after { database := db } cs).database.store.set? s = some t ∧
      ∀ name', ((after { database := db } cs).session name').disposed = false →
        ((after { database := db } cs).session name').prepare c.kind (after { database := db } cs).database =
            (.ok s, (after { database := db } cs).database) ∧
          Found ((after { database := db } cs).session name') c.kind s t id payload
            (after { database := db } cs).database (after { database := db } cs).database := by
  have hcall := hcs (.session name c) (by simp [hrun])
  have hstart : Coherent types { database := db } := ⟨hdb.coherent, fun _ => nofun⟩
  obtain ⟨-, hbefore⟩ := after_followed ha hstart fun c hc => hcs c (hrun ▸ List.mem_append_left _ hc)
  obtain ⟨db', hperform⟩ : ∃ db', ((after { database := db } before).session name).perform c
      (after { database := db } before).database = (.ok r, db') := ⟨_, Prod.ext hanswer rfl⟩
  have hend : after { database := db } cs = { after { database := db } before with database := db' } := by
    have hleft : (after { database := db } before).after [.session name c] =
        ((onDatabase (((after { database := db } before).session name).perform c)).map Reply.session
          (after { database := db } before)).2 := rfl
    rw [hrun, after_append, hleft, Step.map_state, onDatabase, Step.within, hperform]
  obtain ⟨s, ids, db₁, hin, haccepted⟩ := Session.accepted_of_tells hperform hr
  obtain ⟨hcoherent, hs⟩ := Session.prepare_coherent ha hcall.brings hbefore.database haccepted.prepared
  obtain ⟨htype, payload, hstored⟩ := haccepted.stored ha hs hcoherent.filed id hin
  obtain ⟨t, hset, -⟩ := Option.bind_eq_some_iff.mp hstored
  have hprepared : ∀ name', ((after { database := db } cs).session name').disposed = false →
      ((after { database := db } cs).session name').prepare c.kind (after { database := db } cs).database =
        (.ok s, (after { database := db } cs).database) := by
    intro name' hopen
    rw [show (after { database := db } cs).database = db' from congrArg database hend]
    exact prepare_others_of_perform hperform haccepted.prepared hopen
  have hdone : (after { database := db } cs).database.store = db'.store := congrArg (·.database.store) hend
  refine ⟨s, t, payload, hdone ▸ hset, fun name' hopen => ⟨hprepared name' hopen, ?_⟩⟩
  obtain ⟨t', hset', hfound⟩ := found_after ha hdb hst hlegible hcs hgiven hcall.brings (hprepared name' hopen) htype
    (hdone ▸ hstored)
  obtain rfl := Option.some.inj (hset'.symm.trans (hdone ▸ hset))
  exact hfound

end

/-- Accepted ids are readable. Whatever is converted has the type that it is converted to, is valid unless it was given as
    an id that is not, and can be read back if and only if it is. So after any calls that gave no invalid ids, whatever a
    type has stored is found by its id, alone or among others, and by each predicate that holds for it; and that is where
    every structure is whose id an insertion has just told. -/
theorem accepted_found (ha : Apart types) {db : Database} (hdb : db.Opened types)
    (hst : db.store.Reached fun _ => True) (hlegible : db.store.Everywhere (TableSet.Legible types)) {cs : List Call}
    (hcs : ∀ c ∈ cs, c.Allowed types) (hgiven : ∀ c ∈ cs, ∀ i, c.Gives i → i.IsValid) :
    (∀ raw ty id, raw.Fits → DocId.convert raw ty = .ok id → id.idType = ty ∧
      (id.IsValid ↔ ∀ i, raw = .id i → i.IsValid) ∧ (Store.idOf ty id.datum = .ok id ↔ id.IsValid)) ∧
    let sv := after { database := db } cs
    (∀ name k s db₁ id payload, (∀ s, k.schema = .ok s → types s) →
      (sv.session name).prepare k sv.database = (.ok s, db₁) → id.idType = s.idType →
      db₁.store.payload? s id = some payload →
      ∃ t, db₁.store.set? s = some t ∧ Found (sv.session name) k s t id payload sv.database db₁) ∧
    ∀ before name c r id, cs = before ++ [.session name c] →
      (((after { database := db } before).session name).perform c (after { database := db } before).database).1 = .ok r →
      r.Tells id →
      ∃ s t payload, sv.database.store.set? s = some t ∧ ∀ name', (sv.session name').disposed = false →
        (sv.session name').prepare c.kind sv.database = (.ok s, sv.database) ∧
          Found (sv.session name') c.kind s t id payload sv.database sv.database := by
  refine ⟨fun raw ty id hfits hconvert => ?_, fun name k s db₁ id payload hk hprepared hid hstored => ?_,
    fun before name c r id hrun hanswer hr => ?_⟩
  · have htype := DocId.idType_convert hconvert
    refine ⟨htype, DocId.isValid_convert_iff hfits hconvert, ?_⟩
    rw [← htype]
    exact (DocId.isValid_iff_readable (DocId.fits_convert hfits hconvert)).symm
  · exact found_after ha hdb hst hlegible hcs hgiven (hk _) hprepared hid hstored
  · exact found_of_tells ha hdb hst hlegible hcs hgiven hrun hanswer hr

/-- Two notes, one of which tells its id in a text. -/
def noteTexts : Session.Call :=
  .insertManyJson noteKind ["\x7b\"StructureId\":\" 7 \",\"Text\":\"lucky\"\x7d", "\x7b\"Text\":\"plain\"\x7d"]

def noteStart : List Call := [.manage .create, .openSession "desk"]

/-- Both are found, the one by the number that its text stands for, the other by the one that it was given. -/
theorem accepted_found_notes :
    let sv := after { database := noteDatabase } (noteStart ++ [.session "desk" noteTexts])
    (∃ payload, ((sv.session "desk").get noteKind (.text "7") sv.database).1 = .ok (some payload)) ∧
      ((sv.session "desk").holds noteKind (.int 1) sv.database).1 = .ok true ∧
      ∃ payloads, ((sv.session "desk").getMany noteKind [.int 8, .int 7] sv.database).1 = .ok payloads ∧
        payloads ≠ [] := by
  intro sv
  have hopened : noteDatabase.Opened fun s => noteKind.schema = .ok s :=
    ⟨noteDatabase.config, noteDatabase, {}, Store.filed_new, rfl, Or.inl rfl⟩
  have hcalls : ∀ c ∈ noteStart ++ [.session "desk" noteTexts], c.Allowed fun s => noteKind.schema = .ok s := by
    intro c hc
    simp only [noteStart, List.cons_append, List.nil_append, List.mem_cons, List.not_mem_nil, or_false] at hc
    rcases hc with rfl | rfl | rfl <;> refine ⟨fun h => ?_, rfl⟩ <;> first | exact h | exact h.elim
  have hgiven : ∀ c ∈ noteStart ++ [.session "desk" noteTexts], ∀ i, c.Gives i → i.IsValid := by
    intro c hc i hi
    simp only [noteStart, List.cons_append, List.nil_append, List.mem_cons, List.not_mem_nil, or_false] at hc
    rcases hc with rfl | rfl | rfl <;> exact hi.elim
  have hanswer : (((after { database := noteDatabase } noteStart).session "desk").perform noteTexts
      (after { database := noteDatabase } noteStart).database).1 = .ok (.ids [.identity 7, .identity 1]) := by
    decide +kernel
  have hopen : (sv.session "desk").disposed = false := by decide +kernel
  obtain ⟨-, -, htold⟩ := accepted_found (apart_of_kind noteKind) hopened (.opened ":memory:" false)
    ⟨List.forall_mem_nil _, .nil, List.forall_mem_nil _⟩ hcalls hgiven
  have htold := fun id hid => htold noteStart "desk" noteTexts _ id rfl hanswer hid
  obtain ⟨s, t, payload, -, hfound⟩ := htold (.identity 7) (List.mem_cons_self ..)
  obtain ⟨s', t', payload', -, hfound'⟩ := htold (.identity 1) (List.mem_cons_of_mem _ (List.mem_singleton_self _))
  obtain ⟨-, hseven⟩ := hfound "desk" hopen
  obtain ⟨-, hone⟩ := hfound' "desk" hopen
  have hconvert {s : Schema} (hs : .identity = s.idType) {raw : RawId} {id : DocId}
      (h : DocId.convert raw .identity = .ok id) : Session.convert s raw = .ok id := by
    rw [Session.convert, ← hs, h]
    rfl
  have htype := DocId.idType_idOf hseven.back
  have htype' := DocId.idType_idOf hone.back
  refine ⟨⟨payload, hseven.get (.text "7") (hconvert htype (by decide +kernel))⟩,
    hone.holds (.int 1) (hconvert htype' (by decide +kernel)), ?_⟩
  have hseven' : Session.convert s (.int 7) = .ok (.identity 7) := hconvert htype (by decide +kernel)
  have height : Session.convert s (.int 8) = .ok (.identity 8) := hconvert htype (by decide +kernel)
  have hids : Session.convertSome s [.int 8, .int 7] = .ok [.identity 8, .identity 7] := by
    rw [Session.convertSome, Session.convertAll, height, Session.convertAll, hseven', Session.convertAll]
    rfl
  obtain ⟨payloads, hpayloads, hmem⟩ := hseven.getMany _ _ hids (by decide)
  exact ⟨payloads, hpayloads, List.ne_nil_of_mem hmem⟩

/-- What is given as an id passes unchecked: a note is accepted under an id that is not valid, and a read of
    several ids that finds it fails. -/
theorem accepted_unreadable :
    let note : Session.Call := .insert noteKind ⟨.ok (.object []), some (.identity 0)⟩
    let sv := after { database := noteDatabase } noteStart
    let sv' := after { database := noteDatabase } (noteStart ++ [.session "desk" note])
    DocId.convert (.id (.identity 0)) .identity = .ok (.identity 0) ∧ ¬(DocId.identity 0).IsValid ∧
      Store.idOf .identity (DocId.identity 0).datum ≠ .ok (.identity 0) ∧
      ((sv.session "desk").perform note sv.database).1 = .ok (.id (.identity 0)) ∧
      ((sv'.session "desk").getMany noteKind [.id (.identity 0)] sv'.database).1 =
        .error (.validation (.invalidId "Identity" "0 is not positive")) := by
  refine ⟨by decide, fun h => absurd h.1 (by decide), by decide, ?_⟩
  decide +kernel

end DocStore.Service
