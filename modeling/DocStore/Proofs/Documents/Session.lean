import DocStore.Proofs.Documents.Database
import DocStore.Proofs.Session.Kept

/-! What a session does leaves the documents and their index rows in step: whatever it writes is a document under an id
    of its type, with the id written into it before its values are extracted. -/

namespace DocStore.Session

open Database (InStep)
open Store (Apart)

variable {types : Schema → Prop} {excluded : List String} {ses : Session}

theorem onStore_keeps {α : Type} {m : Store.Do α} (hm : Step.Keeps (Store.InStep types excluded) m) :
    Step.Keeps (InStep types excluded) (ses.onStore m) :=
  Database.onStore_ensures (Store.Client.guarded_ensures hm ses.client)

/-- What is made of a document without excluded members describes the document. -/
theorem describes_of_withId {s : Schema} {document : Json} (hdoc : Payload.strip excluded document = document)
    {id : DocId} {payload : String} {es : List IndexEntry} (h : Payload.withId s document id = .ok (payload, es)) :
    ∃ ms, Payload.Describes excluded s id ms payload es := by
  rw [← hdoc] at h
  exact Payload.withId_eq_ok h

/-- The writes of a session leave documents and index rows in step, as long as the ids have the type of the set and the
    documents no excluded members. -/
theorem keeping_inStep (ha : Apart types) {s : Schema} (hs : types s) :
    ses.Keeping s (fun id => id.idType = s.idType) (fun document => Payload.strip excluded document = document)
      (InStep types excluded) where
  guids _ hdb := ⟨hdb.config, hdb.registry, hdb.store⟩
  converted h _ := idType_convert h
  handedOut hguid _ := hguid.symm
  stripped document hdb := by rw [hdb.config, Payload.strip_strip]
  reserve count := Database.onStore_ensures (Store.Client.reserve_keeps ses.client s count)
  insert hdoc hid h := by
    obtain ⟨ms, hms⟩ := describes_of_withId hdoc h
    exact onStore_keeps (Store.insert_keeps ha hs hid hms)
  replace hdoc hid h := by
    obtain ⟨ms, hms⟩ := describes_of_withId hdoc h
    exact onStore_keeps (Store.replace_keeps ha hs hid hms)
  deleteMany hids := onStore_keeps (Store.deleteMany_keeps ha hs hids)
  deleteInterval low high := onStore_keeps (Store.deleteInterval_keeps ha hs low high)

end DocStore.Session
