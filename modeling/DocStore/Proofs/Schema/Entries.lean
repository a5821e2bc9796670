import DocStore.Proofs.Payload
import DocStore.Proofs.Schema.Built

/-! What documents are indexed by. No member of a schema is the one that holds the id of a document, so a document has the
    same entries whatever id it is stored under. -/

namespace DocStore

/-! ### Paths of members -/

namespace SchemaBuilder

theorem segmentsOf_ne_nil (cs : List Char) : segmentsOf cs ≠ [] := by
  cases cs with
  | nil => exact nofun
  | cons c cs =>
    rw [segmentsOf]
    split
    · exact nofun
    · split <;> exact nofun

/-- A path of one name is that name. -/
theorem eq_of_segmentsOf : ∀ {cs ds : List Char}, segmentsOf cs = [ds] → cs = ds
  | [], ds, h => (List.cons.inj h).1
  | c :: cs, ds, h => by
    rw [segmentsOf] at h
    split at h
    · exact absurd (List.cons.inj h).2 (segmentsOf_ne_nil cs)
    · split at h
      · rename_i s ss hrest
        obtain ⟨rfl, rfl⟩ := List.cons.inj h
        rw [eq_of_segmentsOf hrest]
      · rename_i hnil
        exact absurd hnil (segmentsOf_ne_nil cs)

theorem eq_of_segments {path name : String} (h : segments path = [name]) : path = name := by
  obtain ⟨ds, hds, hname⟩ := List.map_eq_singleton_iff.mp h
  rw [← hname, ← eq_of_segmentsOf hds, String.ofList_toList]

end SchemaBuilder

theorem Schema.Builds.ne_idMember {s : Schema} (h : s.Builds) : ∀ m ∈ s.members, m.path ≠ idMember :=
  fun m hm => (h.sound m hm).free

/-! ### Values under other members -/

namespace Extraction

variable {k : String} {v v' : Json} {ss : List String}

theorem scalarsOfMember_cons_congr (h : ∀ rest, ss = k :: rest → scalars v rest = scalars v' rest)
    (ms : List (String × Json)) : scalarsOfMember ((k, v) :: ms) ss = scalarsOfMember ((k, v') :: ms) ss := by
  cases ss with
  | nil => rw [scalarsOfMember, scalarsOfMember]
  | cons s rest =>
    rw [scalarsOfMember, scalarsOfMember]
    split
    · rename_i hk
      exact h rest (by rw [eq_of_beq hk])
    · rfl

theorem scalarsOfMember_cons_of_rest {ms ms' : List (String × Json)} (h : scalarsOfMember ms ss = scalarsOfMember ms' ss)
    (m : String × Json) : scalarsOfMember (m :: ms) ss = scalarsOfMember (m :: ms') ss := by
  cases ss with
  | nil => rw [scalarsOfMember, scalarsOfMember]
  | cons s rest => rw [scalarsOfMember, scalarsOfMember, h]

/-- Only a path that leads into a member sees what is written into it. -/
theorem scalarsOfMember_insertMember (h : ∀ rest, ss = k :: rest → scalars v rest = scalars v' rest) :
    ∀ ms : List (String × Json),
      scalarsOfMember (Json.insertMember k v ms) ss = scalarsOfMember (Json.insertMember k v' ms) ss
  | [] => scalarsOfMember_cons_congr h []
  | (k₀, v₀) :: ms => by
    rw [Json.insertMember, Json.insertMember]
    split
    · exact scalarsOfMember_cons_congr h _
    · split
      · exact scalarsOfMember_cons_congr h _
      · exact scalarsOfMember_cons_of_rest (scalarsOfMember_insertMember h ms) _

theorem entries_congr {doc doc' : Json} : ∀ {ms : List Member},
    (∀ m ∈ ms, scalars doc (SchemaBuilder.segments m.path) = scalars doc' (SchemaBuilder.segments m.path)) →
    entries doc ms = entries doc' ms
  | [], _ => rfl
  | m :: ms, h => by
    obtain ⟨hm, hms⟩ := List.forall_mem_cons.mp h
    rw [entries, entries, hm, entries_congr hms]

/-- No path leads on from an id. -/
theorem scalars_id (id : DocId) (s : String) (rest : List String) : scalars id.toJson (s :: rest) = [] := by
  cases id <;> rfl

end Extraction

/-! ### Entries of documents -/

namespace Payload

/-- A document is indexed by some entries. -/
def Indexes (s : Schema) (v : Json) (es : List IndexEntry) : Prop := ∃ id payload, withId s v id = .ok (payload, es)

variable {s : Schema} {v : Json} {es : List IndexEntry}

/-- A document is indexed by its entries whatever id it is stored under. -/
theorem Indexes.withId (hs : s.Builds) (h : Indexes s v es) (id : DocId) : ∃ payload, withId s v id = .ok (payload, es) := by
  obtain ⟨id', payload, h⟩ := h
  cases v with
  | object ms =>
    obtain ⟨es', hentries, heq⟩ := map_eq_ok.mp h
    obtain rfl := (Prod.mk.inj heq).2
    have hsame : s.extract (.object (Json.insertMember idMember id.toJson ms)) =
        s.extract (.object (Json.insertMember idMember id'.toJson ms)) := by
      refine Extraction.entries_congr fun m hm => ?_
      rw [Extraction.scalars, Extraction.scalars]
      refine Extraction.scalarsOfMember_insertMember (fun rest hpath => ?_) ms
      cases rest with
      | nil => exact absurd (SchemaBuilder.eq_of_segments hpath) (hs.ne_idMember m hm)
      | cons s rest => rw [Extraction.scalars_id, Extraction.scalars_id]
    exact ⟨_, by rw [Payload.withId, hsame, hentries]; rfl⟩
  | _ => cases h

theorem Indexes.member (h : Indexes s v es) {e : IndexEntry} (he : e ∈ es) :
    ∃ m ∈ s.members, m.path = e.path ∧ m.code = e.code := by
  obtain ⟨id, payload, h⟩ := h
  cases v with
  | object ms =>
    obtain ⟨es', hentries, heq⟩ := map_eq_ok.mp h
    obtain rfl := (Prod.mk.inj heq).2
    exact Extraction.mem_entries hentries e he
  | _ => cases h

end Payload

end DocStore
