import DocStore.Proofs.DocId
import DocStore.Proofs.Session.Prepared
import DocStore.Proofs.Store.Identities

/-! Identities in use. Sessions come to the identities of a set by the reservations of their clients, and nothing that a
    session does takes the counter back, so what is handed out stays new from the creation of a set to its drop. -/

namespace DocStore.Session

open Sql (Datum)

/-! ### Ids of a block -/

theorem datum_ofInt {n : Int} {t : IdType} {id : DocId} (h : DocId.ofInt n t = .ok id) : id.datum = .integer n := by
  cases t with
  | identity =>
    rw [DocId.ofInt] at h
    split at h
    · cases h
    · split at h <;> cases h
      rfl
  | bigIdentity =>
    rw [DocId.ofInt] at h
    split at h <;> cases h
    rfl
  | guid | string => cases h

theorem datum_convertAll {s : Schema} : ∀ {ns : List Int} {ids : List DocId},
    convertAll s (ns.map RawId.int) = .ok ids → ids.map DocId.datum = ns.map Datum.integer
  | [], _, h => by
    cases h
    rfl
  | n :: ns, ids, h => by
    rw [List.map_cons, convertAll] at h
    split at h
    · cases h
    · rename_i id hone
      obtain ⟨rest, hrest, rfl⟩ := map_eq_ok.mp h
      have hid : DocId.convert (.int n) s.idType = .ok id := mapError_eq_ok.mp hone
      rw [List.map_cons, List.map_cons, datum_convertAll hrest, datum_ofInt (DocId.convert_eq_ok.mp hid)]

variable {ses : Session} {s : Schema}

/-- Identities are taken in one block. -/
theorem assignIds_eq (hs : s.idType.isIdentity = true) {count : Nat} (hcount : 0 < count) :
    ses.assignIds s count = ses.assignBlock s count := by
  rw [assignIds, if_neg (Nat.ne_of_gt hcount)]
  split
  · rename_i hguid
    rw [hguid] at hs
    cases hs
  · rfl
  · rfl
  · rename_i hstring
    rw [hstring] at hs
    cases hs

/-- The ids that items are given are those of a block that was reserved for them. -/
theorem assignIds_eq_ok (hs : s.idType.isIdentity = true) {count : Nat} (hcount : 0 < count) {db : Database}
    {ids : List DocId} (h : (ses.assignIds s count db).1 = .ok ids) : ∃ first,
      ses.client.Reserves s count first db.store ∧
        ids.map DocId.datum = (List.range count).map fun i : Nat => .integer (first + i) := by
  have hrun : ses.assignIds s count db = (.ok ids, (ses.assignIds s count db).2) := Prod.ext h rfl
  rw [assignIds_eq hs hcount, assignBlock] at hrun
  split at hrun
  · cases hrun
  obtain ⟨first, db₁, hreserve, hconvert⟩ := Step.bind_eq_ok.mp hrun
  refine ⟨first, ?_, ?_⟩
  · have hanswer : (ses.client.reserve s count db.store).1 = .ok first := congrArg Prod.fst hreserve
    rw [Store.Client.Reserves, Store.Client.perform, Step.map_answer, hanswer]
    rfl
  · have hall : convertAll s (((List.range count).map fun i : Nat => first + (i : Int)).map RawId.int) = .ok ids := by
      rw [List.map_map]
      exact congrArg Prod.fst hconvert
    rw [datum_convertAll hall, List.map_map]
    rfl

/-! ### Whole calls -/

theorem not_drops_of_writesTo {call : Store.Client.Call} {s' : Schema} (h : call.WritesTo s') : ¬call.Drops s := by
  cases call with
  | drop => cases h
  | _ => exact id

/-- Whatever a session is asked to do, it comes to the store by calls of its client that drop nothing. -/
theorem perform_drops_nothing (ses : Session) (c : Call) (db : Database) : ∃ run,
    (∀ x ∈ run, x.1 = ses.client ∧ ∀ s, ¬x.2.Drops s) ∧ (ses.perform c db).2.store = db.store.after run := by
  obtain ⟨e, h⟩ | ⟨rest, h, hrest⟩ := ses.perform_prepared c
  · exact ⟨[], fun _ hx => absurd hx List.not_mem_nil, by rw [h]; rfl⟩
  · have hprepare : ∃ run, (∀ x ∈ run, x.1 = ses.client ∧ ∀ s, ¬x.2.Drops s) ∧
        (ses.prepare c.kind db).2.store = db.store.after run := by
      obtain hsame | ⟨s, hupsert⟩ := ses.prepare_store c.kind db
      · exact ⟨[], fun _ hx => absurd hx List.not_mem_nil, hsame⟩
      · refine ⟨[(ses.client, .upsert s)], fun x hx => ?_, hupsert⟩
        rw [List.mem_singleton.mp hx]
        exact ⟨rfl, fun _ => id⟩
    obtain ⟨run, hrun, hstore⟩ := hprepare
    rw [h, Step.bind_apply]
    cases hr : ses.prepare c.kind db with
    | mk r db₁ =>
      rw [hr] at hstore
      cases r with
      | error e => exact ⟨run, hrun, hstore⟩
      | ok s =>
        obtain ⟨more, cache, guids, hmore, hend⟩ := hrest s db₁
        refine ⟨run ++ more, fun x hx => ?_, ?_⟩
        · exact (List.mem_append.mp hx).elim (hrun x) fun hx =>
            ⟨(hmore x hx).1, fun _ => not_drops_of_writesTo (hmore x hx).2⟩
        · rw [Store.after_append, ← hstore]
          exact congrArg Database.store hend

/-! ### From the creation to the drop -/

/-- From the creation of a set of identities to its drop, whatever is written and deleted in between, a client that is
    open gets the identities it asks for; they are positive, greater than all ids that are stored and greater than all
    that were reserved since the creation. Items without ids are given such identities, and nothing that a session
    does drops the set. -/
theorem identities_fresh (hs : s.idType.isIdentity = true) {st₀ st : Store} (hnamed : st₀.Named)
    (hnew : st₀.set? s = none) (hcreated : Store.upsert s st₀ = (.ok (), st)) (hset : (st.set? s).isSome)
    {run : List (Store.Client × Store.Client.Call)} (hrun : ∀ x ∈ run, ¬x.2.Drops s) :
    (∀ c : Store.Client, c.closed = false → ∀ count, ∃ first, c.Reserves s count first (st.after run)) ∧
    (∀ (c : Store.Client) count first, c.Reserves s count first (st.after run) → 0 < first ∧
      (∃ t, (st.after run).set? s = some t ∧ ∀ r ∈ t.rows, ∃ n, r.id = .integer n ∧ n < first) ∧
      ∀ before later c' s' (count' : Nat) first', run = before ++ (c', .reserve s' count') :: later → s'.key = s.key →
        c'.Reserves s' count' first' (st.after before) → first' + count' ≤ first) ∧
    (∀ (ses : Session) count db ids, db.store = st.after run → 0 < count → (ses.assignIds s count db).1 = .ok ids →
      ∃ first, ses.client.Reserves s count first (st.after run) ∧
        ids.map DocId.datum = (List.range count).map fun i : Nat => .integer (first + i)) ∧
    ∀ (ses : Session) call db, db.store = st.after run → ∃ more, (∀ x ∈ more, ¬x.2.Drops s) ∧
      (ses.perform call db).2.store = st.after (run ++ more) := by
  -- the set keeps integers for ids, which is why there is always a greatest one to start behind
  have hidentified : (st.after run).Identified s := Store.after_keeps
    (fun x hx => Store.identified_keeps x.1 (hrun x hx)) (Store.upsert_identified hnamed hs hnew hcreated hset)
  refine ⟨fun c hc count => Store.reserve_answers hidentified hs hc count, fun c count first h => ?_,
    fun ses count db ids hstore hcount h => ?_, fun ses call db hstore => ?_⟩
  · exact Store.reserve_fresh hrun h
  · exact hstore ▸ assignIds_eq_ok hs hcount h
  · obtain ⟨more, hmore, hend⟩ := perform_drops_nothing ses call db
    exact ⟨more, fun x hx => (hmore x hx).2 s, by rw [hend, hstore, Store.after_append]⟩

/-- Tickets that are numbered. -/
def ticketSchema : Schema :=
  { key := ⟨"Ticket"⟩, ns := "", name := "Ticket", idType := .identity, members := [], fingerprint := "1" }

/-- Two numbers are reserved, the seventh ticket is written by hand, another number is reserved, and the seventh
    ticket is deleted. -/
def ticketRun : List (Store.Client × Store.Client.Call) :=
  [.reserve ticketSchema 2, .insert ticketSchema (.identity 7) "seat" [], .reserve ticketSchema 1,
    .deleteMany ticketSchema [.identity 7]].map (({} : Store.Client), ·)

/-- The next number lies behind those that were reserved, although no ticket is left. -/
theorem identities_fresh_tickets : ∃ st first,
    Store.upsert ticketSchema (Store.created {}) = (.ok (), st) ∧
      ((st.after ticketRun).set? ticketSchema).map (·.rows) = some [] ∧
      Store.Client.Reserves {} ticketSchema 1 first (st.after ticketRun) ∧ 8 + 1 ≤ first := by
  let st := (Store.upsert ticketSchema (Store.created {})).2
  have hcreated : Store.upsert ticketSchema (Store.created {}) = (.ok (), st) := by decide +kernel
  have hrun : ∀ x ∈ ticketRun, ¬x.2.Drops ticketSchema := by
    intro x hx
    simp only [ticketRun, List.map_cons, List.map_nil, List.mem_cons, List.not_mem_nil, or_false] at hx
    rcases hx with rfl | rfl | rfl | rfl <;> exact id
  have hnamed : (Store.created {}).Named := List.forall_mem_nil _
  obtain ⟨hanswers, hfresh, -⟩ := identities_fresh rfl hnamed rfl hcreated (by decide +kernel) hrun
  obtain ⟨first, hfirst⟩ := hanswers {} rfl 1
  refine ⟨st, first, hcreated, by decide +kernel, hfirst, ?_⟩
  obtain ⟨-, -, hbehind⟩ := hfresh {} 1 first hfirst
  have hearlier : Store.Client.Reserves {} ticketSchema 1 8 (st.after (ticketRun.take 2)) := by
    unfold Store.Client.Reserves
    decide +kernel
  exact hbehind (ticketRun.take 2) (ticketRun.drop 3) {} ticketSchema 1 8 rfl rfl hearlier

end DocStore.Session
