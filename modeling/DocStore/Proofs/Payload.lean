import DocStore.Payload
import DocStore.Proofs.Except

/-! Documents as they are stored. What is written for a document is the text of an object that holds its id and no
    excluded member beside it; what is indexed for it are the values that the object has for the members of its type. -/

namespace DocStore

/-! ### Members of an object -/

namespace Json

variable {k : String} {v : Json}

theorem member?_insertMember (ms : List (String × Json)) : (object (insertMember k v ms)).member? k = some v := by
  induction ms with
  | nil => simp [insertMember, member?]
  | cons m ms ih =>
    obtain ⟨k', v'⟩ := m
    rw [insertMember]
    split
    · simp [member?]
    · split
      · simp [member?]
      · rename_i hne
        rw [member?, List.find?_cons_of_neg (by simpa using Ne.symm hne)]
        exact ih

theorem mem_insertMember {m : String × Json} : ∀ {ms : List (String × Json)}, m ∈ insertMember k v ms →
    m = (k, v) ∨ m ∈ ms
  | [], h => Or.inl (List.mem_singleton.mp h)
  | (k', v') :: ms, h => by
    rw [insertMember] at h
    split at h
    · exact List.mem_cons.mp h
    · split at h
      · exact (List.mem_cons.mp h).imp_right (List.mem_cons_of_mem _)
      · rcases List.mem_cons.mp h with rfl | h
        · exact Or.inr (List.mem_cons_self ..)
        · exact (mem_insertMember h).imp_right (List.mem_cons_of_mem _)

end Json

/-! ### Values of a document -/

namespace Extraction

theorem mem_entriesOf {m : Member} : ∀ {vs : List Json} {es : List IndexEntry}, entriesOf m vs = .ok es →
    ∀ e ∈ es, m.path = e.path ∧ m.code = e.code
  | [], _, h => by
    cases h
    exact nofun
  | v :: vs, es, h => by
    rw [entriesOf] at h
    split at h
    · cases h
    · obtain ⟨rest, hrest, rfl⟩ := map_eq_ok.mp h
      intro e he
      rcases List.mem_cons.mp he with rfl | he
      · exact ⟨rfl, rfl⟩
      · exact mem_entriesOf hrest e he

/-- Every value is one of a member, and of the member's code. -/
theorem mem_entries {doc : Json} : ∀ {ms : List Member} {es : List IndexEntry}, entries doc ms = .ok es →
    ∀ e ∈ es, ∃ m ∈ ms, m.path = e.path ∧ m.code = e.code
  | [], _, h => by
    cases h
    exact nofun
  | m :: ms, es, h => by
    rw [entries] at h
    split at h
    · cases h
    · rename_i es₁ hone
      obtain ⟨rest, hrest, rfl⟩ := map_eq_ok.mp h
      intro e he
      rcases List.mem_append.mp he with he | he
      · exact ⟨m, List.mem_cons_self .., mem_entriesOf hone e he⟩
      · obtain ⟨m', hm', he⟩ := mem_entries hrest e he
        exact ⟨m', List.mem_cons_of_mem _ hm', he⟩

end Extraction

/-! ### Payloads -/

namespace Payload

/-- A payload and the entries indexed with it, as those of an object that is stored under an id. -/
structure Describes (excluded : List String) (s : Schema) (id : DocId) (ms : List (String × Json)) (payload : String)
    (es : List IndexEntry) : Prop where
  text : payload = (Json.object ms).text
  id : (Json.object ms).member? idMember = some id.toJson
  excluded : ∀ m ∈ ms, m.1 ∈ excluded → m.1 = idMember
  entries : s.extract (.object ms) = .ok es

variable {excluded : List String} {s s' : Schema} {id : DocId} {payload : String} {es : List IndexEntry}

theorem withId_eq_ok {v : Json} (h : withId s (strip excluded v) id = .ok (payload, es)) :
    ∃ ms, Describes excluded s id ms payload es := by
  cases v with
  | object ms =>
    obtain ⟨es', hentries, heq⟩ := map_eq_ok.mp h
    cases heq
    refine ⟨_, rfl, Json.member?_insertMember _, fun m hm hin => ?_, hentries⟩
    rcases Json.mem_insertMember hm with rfl | hm
    · rfl
    · -- the excluded members were left out before the id was written
      have hnot := (List.mem_filter.mp hm).2
      simp only [List.contains_eq_mem, hin, decide_true, Bool.not_true] at hnot
      cases hnot
  | _ => cases h

/-- Of a schema only the members matter to what is indexed. -/
theorem Describes.of_members {ms : List (String × Json)} (h : Describes excluded s id ms payload es)
    (hmembers : s'.members = s.members) : Describes excluded s' id ms payload es := by
  refine ⟨h.text, h.id, h.excluded, ?_⟩
  rw [Schema.extract, hmembers]
  exact h.entries

theorem Describes.member {ms : List (String × Json)} (h : Describes excluded s id ms payload es) {e : IndexEntry}
    (he : e ∈ es) : ∃ m ∈ s.members, m.path = e.path ∧ m.code = e.code :=
  Extraction.mem_entries h.entries e he

end Payload

end DocStore
