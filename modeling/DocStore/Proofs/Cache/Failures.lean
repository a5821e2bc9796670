import DocStore.Proofs.Cache.Batch
import DocStore.Proofs.Cache.OneEntry

/-! Reads that fail. Every read looks its ids up in an entry, reads the generation, asks the fetcher for what was not
    found and stores what it got; the first of these steps that fails is the last one, its failure is the answer, and
    nothing has been stored then. -/

namespace DocStore.Cache

/-! ### Steps on an entry -/

namespace Entry

/-- A change behind a guard is made as a whole or not at all. -/
theorem guarded_whole {α : Type} (operation : String) (fails : Bool → Bool → Bool → Bool) (f : Entry → α × Entry) :
    Step.Whole (guarded operation fails >>= fun _ => Step.change f) :=
  .andThen (guarded_reads operation fails) fun _ _ _ _ h => nomatch h

theorem get_whole (id : DocId) : Step.Whole (get id) := guarded_whole _ _ _

theorem putManyIfGeneration_whole (g : UInt64) (items : List (DocId × String)) :
    Step.Whole (putManyIfGeneration g items) := guarded_whole _ _ _

theorem getMany_whole (ids : List DocId) : Step.Whole (getMany ids) := by
  intro e e' err h
  cases hs : e.behaviour.fails with
  | false =>
    rw [getMany_steady hs] at h
    cases h
  | true =>
    have hstate : (Step.state : Do Entry) e = (.ok e, e) := rfl
    rw [getMany, Step.bind_ok hstate] at h
    cases hb : e.behaviour with
    | memory | plain =>
      rw [hb] at hs
      cases hs
    | failing clear get put =>
      rw [hb] at h
      exact guarded_whole _ _ _ h

/-- Steps that leave the payloads of an entry. -/
abbrev Holding (payloads : Assoc DocId String) (e : Entry) : Prop := e.payloads = payloads

variable {payloads : Assoc DocId String}

theorem get_holding (id : DocId) : Step.Keeps (Holding payloads) (get id) :=
  .andThen (.of_reads (guarded_reads _ _)) fun _ => .change fun _ he => ⟨(recorded_payloads ..).trans he, trivial⟩

theorem getMany_holding (ids : List DocId) : Step.Keeps (Holding payloads) (getMany ids) := by
  refine .state fun e _ => ?_
  split
  · exact .each fun id _ => get_holding id
  · refine .andThen (.of_reads (guarded_reads _ _)) fun _ => .change fun e he => ⟨?_, trivial⟩
    exact (lookedAll_keeps e ids).1.trans he

end Entry

namespace Provider

/-! ### What reads leave -/

/-- From one provider to the next no payload comes or goes. -/
structure Untouched (p q : Provider) : Prop where
  payloads : ∀ h, (q.entry h).payloads = (p.entry h).payloads
  held : ∀ k id, q.held? k id = p.held? k id

theorem held?_eq_bind (p : Provider) (k : Key) (id : DocId) :
    p.held? k id = (p.registered.get? k).bind fun h => (p.entry h).payloads.get? id := by
  rw [held?, entryOf?, Option.bind_map]
  rfl

theorem setEntry_entry (p : Provider) (h : Handle) : p.setEntry h (p.entry h) = p := by
  by_cases hin : h < p.entries.length
  · exact setEntry_self hin
  · exact setEntry_of_le (Nat.le_of_not_lt hin) _

namespace Untouched

variable {p q r : Provider}

theorem refl (p : Provider) : Untouched p p := ⟨fun _ => rfl, fun _ _ => rfl⟩

theorem trans (hpq : Untouched p q) (hqr : Untouched q r) : Untouched p r :=
  ⟨fun h => (hqr.payloads h).trans (hpq.payloads h), fun k id => (hqr.held k id).trans (hpq.held k id)⟩

theorem setEntry (p : Provider) (h : Handle) {e : Entry} (he : e.payloads = (p.entry h).payloads) :
    Untouched p (p.setEntry h e) := by
  have hpayloads : ∀ h', ((p.setEntry h e).entry h').payloads = (p.entry h').payloads := by
    intro h'
    by_cases hne : h = h'
    · subst hne
      by_cases hin : h < p.entries.length
      · rw [entry_setEntry hin, he]
      · rw [setEntry_of_le (Nat.le_of_not_lt hin)]
    · rw [entry_setEntry_ne hne]
  refine ⟨hpayloads, fun k id => ?_⟩
  simp only [held?_eq_bind, hpayloads]
  rfl

/-- A new entry has no payloads. -/
theorem enableFor (k : Key) (p : Provider) : Untouched p (p.enableFor k).2 := by
  cases hk : p.registered.get? k with
  | some h =>
    rw [enableFor_some hk]
    exact refl p
  | none =>
    have hblank : (p.entry p.entries.length).payloads = [] := by
      rw [entry_of_le (Nat.le_refl _)]
      rfl
    have hpayloads : ∀ h, ((p.enableFor k).2.entry h).payloads = (p.entry h).payloads := by
      intro h
      rcases entry_enableFor_none hk h with heq | ⟨heq, rfl⟩
      · rw [heq]
      · rw [heq, hblank]
        rfl
    refine ⟨hpayloads, fun k' id => ?_⟩
    simp only [held?_eq_bind, hpayloads]
    rw [enableFor_none hk, ← Assoc.insert_of_get?_none hk, Assoc.get?_insert]
    split
    · rename_i heq
      rw [Option.bind_some, hblank, ← heq, hk]
      rfl
    · rfl

theorem entryFor (k : Key) (p : Provider) : Untouched p (p.entryFor k).2 := by
  cases hk : p.registered.get? k with
  | some h =>
    rw [entryFor_some hk]
    exact refl p
  | none =>
    rw [entryFor_none hk]
    split
    · exact enableFor k p
    · exact refl p

theorem entryForMode (k : Key) (mode : ConsumeMode) (p : Provider) : Untouched p (entryForMode k mode p).2 := by
  cases mode with
  | ignore => exact refl p
  | readOnly | update => exact entryFor k p

end Untouched

/-! ### Reads in their steps -/

section
variable (σ τ ρ α : Type)

/-- What a read does after it has looked its ids up: it answers, or it asks the fetcher and makes an answer of what that
    gives. -/
inductive Next where
  | answer (a : α)
  | ask (m : Step Error (Provider × σ) ρ) (answer : ρ → α)

/-- A read in its steps: what it looks up in an entry, what it does then, or if there is no entry, and which rows it
    would store of what the fetcher gives. -/
structure Plan where
  look : Entry.Do τ
  next : Option τ → Next σ ρ α
  rows : ρ → List (DocId × String)

end

section
variable {σ : Type}

def payloadPlan (f : Fetcher σ) (id : DocId) : Plan σ (Option String) (Option String) (Option String) where
  look := Entry.get id
  next
    | some (some payload) => .answer (some payload)
    | _ => .ask (f.fetch id) fun fetched => fetched
  rows fetched := fetched.toList.map (id, ·)

def batchPlan (f : Fetcher σ) (ids : List DocId) :
    Plan σ (List (Option String)) (List (DocId × String)) (List String) where
  look := Entry.getMany ids
  next
    | none => .ask (f.fetchMany (distinct ids)) fun fetched => inOrder ids (Assoc.insertAll [] fetched)
    | some cached =>
      let hits := Assoc.insertAll [] (hitsOf ids cached)
      let misses := missesOf ids cached
      if misses.isEmpty then .answer (inOrder ids hits)
      else .ask (f.fetchMany misses) fun fetched => inOrder ids (hits.insertAll fetched)
  rows fetched := fetched

def existencePlan (f : Fetcher σ) (id : DocId) : Plan σ (Option String) Bool Bool where
  look := Entry.get id
  next
    | some (some _) => .answer true
    | _ => .ask (f.stored id) fun stored => stored
  rows _ := []

end

namespace Plan

variable {σ τ ρ α : Type} (R : Plan σ τ ρ α) (k : Key) (mode : ConsumeMode)

/-- What a read does if something was not found in an entry. -/
def fetchFor (h : Handle) (m : Step Error (Provider × σ) ρ) (answer : ρ → α) : Step Error (Provider × σ) α := do
  let generation ← beside (onEntry h Entry.currentGeneration)
  let fetched ← m
  if mode.writesBack && !(R.rows fetched).isEmpty then
    let _ ← beside (onEntry h (Entry.putManyIfGeneration generation (R.rows fetched)))
    pure (answer fetched)
  else pure (answer fetched)

/-- The read that goes by a plan. -/
def run : Step Error (Provider × σ) α := do
  match ← beside (Step.change (entryForMode k mode)) with
  | none =>
    match R.next none with
    | .answer a => pure a
    | .ask m answer =>
      let fetched ← m
      pure (answer fetched)
  | some h =>
    let found ← beside (onEntry h R.look)
    match R.next (some found) with
    | .answer a => pure a
    | .ask m answer => R.fetchFor mode h m answer

/-- What the first of the steps that fails, fails with. Reading the generation never fails. -/
inductive Fails (p : Provider) (s : σ) : Error → Prop
  /-- the entry cannot be asked -/
  | lookup {h : Handle} {q : Provider} {err : CacheError} (hentry : entryForMode k mode p = (some h, q))
      (hlook : (R.look (q.entry h)).1 = .error err) : Fails p s (.cache err)
  /-- there is no entry, and the fetcher fails -/
  | ask {q : Provider} {m : Step Error (Provider × σ) ρ} {answer : ρ → α} {e : Error}
      (hentry : entryForMode k mode p = (none, q)) (hnext : R.next none = .ask m answer)
      (hfetch : (m (q, s)).1 = .error e) : Fails p s e
  /-- something was not found, and the fetcher fails -/
  | fetch {h : Handle} {q : Provider} {found : τ} {looked : Entry} {m : Step Error (Provider × σ) ρ} {answer : ρ → α}
      {e : Error} (hentry : entryForMode k mode p = (some h, q)) (hlook : R.look (q.entry h) = (.ok found, looked))
      (hnext : R.next (some found) = .ask m answer) (hfetch : (m (q.setEntry h looked, s)).1 = .error e) : Fails p s e
  /-- what was fetched cannot be stored -/
  | store {h : Handle} {q r : Provider} {found : τ} {looked : Entry} {m : Step Error (Provider × σ) ρ} {answer : ρ → α}
      {fetched : ρ} {s' : σ} {err : CacheError} (hentry : entryForMode k mode p = (some h, q))
      (hlook : R.look (q.entry h) = (.ok found, looked)) (hnext : R.next (some found) = .ask m answer)
      (hfetch : m (q.setEntry h looked, s) = (.ok fetched, (r, s'))) (hmode : mode.writesBack = true)
      (hrows : R.rows fetched ≠ [])
      (hstore : (Entry.putManyIfGeneration ((q.setEntry h looked).entry h).generation (R.rows fetched) (r.entry h)).1 =
        .error err) : Fails p s (.cache err)

end Plan

/-! ### The first step that fails -/

section
variable {σ α : Type} {m : Entry.Do α} {h : Handle} {p : Provider} {err : CacheError} {e : Entry}

theorem beside_onEntry_error (hm : m (p.entry h) = (.error err, e)) (s : σ) :
    (beside (onEntry h m) : Step Error (Provider × σ) α) (p, s) = (.error (.cache err), (p.setEntry h e, s)) := by
  rw [beside, Step.mapError, Step.within, onEntry_apply, hm]

theorem beside_generation (h : Handle) (p : Provider) (s : σ) :
    (beside (onEntry h Entry.currentGeneration) : Step Error (Provider × σ) UInt64) (p, s) =
      (.ok (p.entry h).generation, (p, s)) := by
  have hread : Entry.currentGeneration (p.entry h) = (.ok (p.entry h).generation, p.entry h) := rfl
  rw [beside_onEntry hread, setEntry_entry]

end

namespace Plan

variable {σ τ ρ α : Type} {R : Plan σ τ ρ α} {k : Key} {mode : ConsumeMode} {p : Provider} {s : σ}

/-- If a step fails, so does the read, with the same failure. -/
theorem Fails.run {e : Error} (hfails : R.Fails k mode p s e) : (R.run k mode (p, s)).1 = .error e := by
  cases hfails with
  | @lookup h q err hentry hlook =>
    have hlook : R.look (q.entry h) = (.error err, (R.look (q.entry h)).2) := Prod.ext hlook rfl
    rw [Plan.run, Step.bind_ok (change_entryForMode hentry s)]
    dsimp only
    rw [Step.bind_error (beside_onEntry_error hlook s)]
  | @ask q m answer _ hentry hnext hfetch =>
    have hfetch : m (q, s) = (.error e, (m (q, s)).2) := Prod.ext hfetch rfl
    rw [Plan.run, Step.bind_ok (change_entryForMode hentry s)]
    simp only [hnext]
    rw [Step.bind_error hfetch]
  | @fetch h q found looked m answer _ hentry hlook hnext hfetch =>
    have hfetch : m (q.setEntry h looked, s) = (.error e, (m (q.setEntry h looked, s)).2) := Prod.ext hfetch rfl
    rw [Plan.run, Step.bind_ok (change_entryForMode hentry s)]
    dsimp only
    rw [Step.bind_ok (beside_onEntry hlook s)]
    simp only [hnext]
    rw [fetchFor, Step.bind_ok (beside_generation h _ s), Step.bind_error hfetch]
  | @store h q r found looked m answer fetched s' err hentry hlook hnext hfetch hmode hrows hstore =>
    obtain ⟨left, hstore⟩ : ∃ left, Entry.putManyIfGeneration ((q.setEntry h looked).entry h).generation
        (R.rows fetched) (r.entry h) = (.error err, left) := ⟨_, Prod.ext hstore rfl⟩
    rw [Plan.run, Step.bind_ok (change_entryForMode hentry s)]
    dsimp only
    rw [Step.bind_ok (beside_onEntry hlook s)]
    simp only [hnext]
    rw [fetchFor, Step.bind_ok (beside_generation h _ s), Step.bind_ok hfetch, hmode,
      List.isEmpty_eq_false_iff.mpr hrows]
    exact congrArg Prod.fst (Step.bind_error (beside_onEntry_error hstore s') _)

/-- Where something was not found, either the fetcher fails or the entry does, storing what was fetched. -/
theorem fetchFor_eq_error {h : Handle} {m : Step Error (Provider × σ) ρ} {answer : ρ → α} {e : Error} {y : Provider × σ}
    (hrun : R.fetchFor mode h m answer (p, s) = (.error e, y)) :
    m (p, s) = (.error e, y) ∨ ∃ fetched r s' err, m (p, s) = (.ok fetched, (r, s')) ∧ mode.writesBack = true ∧
      R.rows fetched ≠ [] ∧
      (Entry.putManyIfGeneration (p.entry h).generation (R.rows fetched) (r.entry h)).1 = .error err ∧
      e = .cache err ∧ y = (r, s') := by
  rw [fetchFor, Step.bind_ok (beside_generation h p s)] at hrun
  rcases Step.bind_eq_error.mp hrun with hfetch | ⟨fetched, ⟨r, s'⟩, hfetch, hrun⟩
  · exact .inl hfetch
  · split at hrun
    · rename_i hstores
      obtain ⟨hmode, hrows⟩ := Bool.and_eq_true_iff.mp hstores
      cases hput : Entry.putManyIfGeneration (p.entry h).generation (R.rows fetched) (r.entry h) with
      | mk stored left =>
        cases stored with
        | error err =>
          rw [Step.bind_error (beside_onEntry_error hput s')] at hrun
          cases hrun
          rw [Entry.putManyIfGeneration_whole _ _ hput, setEntry_entry]
          exact .inr ⟨fetched, r, s', err, hfetch, hmode, by simpa using hrows, congrArg Prod.fst hput, rfl, rfl⟩
        | ok stored =>
          rw [Step.bind_ok (beside_onEntry hput s')] at hrun
          cases hrun
    · cases hrun

/-- A read that fails does so as the first of its steps that fails, and no payload has come or gone then if the fetcher
    leaves the cache alone. -/
theorem fails_of_run (hkeeps : ∀ e, (R.look e).2.payloads = e.payloads)
    (houtside : ∀ {found m answer}, R.next found = .ask m answer → ∀ x, (m x).2.1 = x.1) {e : Error} {y : Provider × σ}
    (hrun : R.run k mode (p, s) = (.error e, y)) : R.Fails k mode p s e ∧ Untouched p y.1 := by
  have hfound := Untouched.entryForMode k mode p
  cases hentry : entryForMode k mode p with
  | mk found q =>
    rw [hentry] at hfound
    rw [Plan.run, Step.bind_ok (change_entryForMode hentry s)] at hrun
    cases found with
    | none =>
      cases hnext : R.next none with
      | answer a =>
        simp only [hnext] at hrun
        cases hrun
      | ask m answer =>
        simp only [hnext] at hrun
        rcases Step.bind_eq_error.mp hrun with hfetch | ⟨_, _, _, hrun⟩
        · have hstate := houtside hnext (q, s)
          rw [hfetch] at hstate
          exact ⟨.ask hentry hnext (congrArg Prod.fst hfetch), hstate.symm ▸ hfound⟩
        · cases hrun
    | some h =>
      dsimp only at hrun
      cases hlook : R.look (q.entry h) with
      | mk found looked =>
        have hlooked : Untouched p (q.setEntry h looked) := by
          have hkept := hkeeps (q.entry h)
          rw [hlook] at hkept
          exact hfound.trans (.setEntry q h hkept)
        cases found with
        | error err =>
          rw [Step.bind_error (beside_onEntry_error hlook s)] at hrun
          cases hrun
          exact ⟨.lookup hentry (congrArg Prod.fst hlook), hlooked⟩
        | ok found =>
          rw [Step.bind_ok (beside_onEntry hlook s)] at hrun
          cases hnext : R.next (some found) with
          | answer a =>
            simp only [hnext] at hrun
            cases hrun
          | ask m answer =>
            simp only [hnext] at hrun
            have hstate := houtside hnext (q.setEntry h looked, s)
            rcases fetchFor_eq_error hrun with hfetch | ⟨fetched, r, s', err, hfetch, hmode, hrows, hstore, rfl, rfl⟩
            · rw [hfetch] at hstate
              exact ⟨.fetch hentry hlook hnext (congrArg Prod.fst hfetch), hstate.symm ▸ hlooked⟩
            · rw [hfetch] at hstate
              exact ⟨.store hentry hlook hnext hfetch hmode hrows hstore, hstate.symm ▸ hlooked⟩

end Plan

/-! ### The reads -/

section
variable {σ : Type} (f : Fetcher σ) (k : Key) (mode : ConsumeMode)

theorem consume_eq_run (id : DocId) : consume k id f mode = (payloadPlan f id).run k mode := by
  refine congrArg (beside (Step.change (entryForMode k mode)) >>= ·) (funext fun found => ?_)
  cases found with
  | none => exact (Step.bind_pure (f.fetch id)).symm
  | some h =>
    refine congrArg (beside (onEntry h (Entry.get id)) >>= ·) (funext fun held => ?_)
    cases held with
    | some payload => rfl
    | none =>
      refine congrArg (beside (onEntry h Entry.currentGeneration) >>= ·) (funext fun generation => ?_)
      refine congrArg (f.fetch id >>= ·) (funext fun fetched => ?_)
      cases fetched <;> cases mode <;> rfl

theorem consumeMany_eq_run (ids : List DocId) : consumeMany k ids f mode = (batchPlan f ids).run k mode := by
  refine congrArg (beside (Step.change (entryForMode k mode)) >>= ·) (funext fun found => ?_)
  cases found with
  | none => rfl
  | some h =>
    refine congrArg (beside (onEntry h (Entry.getMany ids)) >>= ·) (funext fun cached => ?_)
    simp only [batchPlan]
    split <;> rfl

theorem exists?_eq_run (id : DocId) : exists? k id f mode = (existencePlan f id).run k mode := by
  refine congrArg (beside (Step.change (entryForMode k mode)) >>= ·) (funext fun found => ?_)
  cases found with
  | none => exact (Step.bind_pure (f.stored id)).symm
  | some h =>
    refine congrArg (beside (onEntry h (Entry.get id)) >>= ·) (funext fun held => ?_)
    cases held with
    | some payload => rfl
    | none =>
      funext ⟨p, s⟩
      have hrest : (existencePlan f id).fetchFor mode h (f.stored id) (fun stored => stored) (p, s) =
          (f.stored id >>= pure) (p, s) := by
        rw [Plan.fetchFor, Step.bind_ok (beside_generation h p s)]
        -- existence is never stored
        cases mode <;> rfl
      exact (congrFun (Step.bind_pure (f.stored id)) (p, s)).symm.trans hrest.symm

end

/-- What is said of a read in its steps when it fails: its failure is that of the first step that fails, no payload has
    come or gone in any entry, and if it was the lookup that failed, the fetcher has not been asked. And the read does
    fail whenever one of its steps does, so that a failure of the entry is answered neither as a miss nor otherwise. -/
structure FailsCleanly {σ τ ρ α : Type} (R : Plan σ τ ρ α) (k : Key) (mode : ConsumeMode) (p : Provider) (s : σ)
    (result : Except Error α × (Provider × σ)) : Prop where
  first : ∀ e, result.1 = .error e ↔ R.Fails k mode p s e
  untouched : ∀ e, result.1 = .error e → Untouched p result.2.1
  unasked : ∀ {h q err}, entryForMode k mode p = (some h, q) → (R.look (q.entry h)).1 = .error err →
    result = (.error (.cache err), (q, s))

section
variable {σ τ ρ α : Type} {R : Plan σ τ ρ α} {k : Key} {mode : ConsumeMode} {p : Provider} {s : σ}

theorem Plan.run_unasked (hwhole : Step.Whole R.look) {h : Handle} {q : Provider} {err : CacheError}
    (hentry : entryForMode k mode p = (some h, q)) (hlook : (R.look (q.entry h)).1 = .error err) :
    R.run k mode (p, s) = (.error (.cache err), (q, s)) := by
  obtain ⟨left, hlook⟩ : ∃ left, R.look (q.entry h) = (.error err, left) := ⟨_, Prod.ext hlook rfl⟩
  rw [Plan.run, Step.bind_ok (change_entryForMode hentry s)]
  dsimp only
  rw [Step.bind_error (beside_onEntry_error hlook s), hwhole hlook, setEntry_entry]

theorem Plan.run_failsCleanly (hwhole : Step.Whole R.look) (hkeeps : ∀ e, (R.look e).2.payloads = e.payloads)
    (houtside : ∀ {found m answer}, R.next found = .ask m answer → ∀ x, (m x).2.1 = x.1) :
    FailsCleanly R k mode p s (R.run k mode (p, s)) where
  first _ := ⟨fun herror => (fails_of_run hkeeps houtside (Prod.ext herror rfl)).1, Fails.run⟩
  untouched _ herror := (fails_of_run hkeeps houtside (Prod.ext herror rfl)).2
  unasked := run_unasked hwhole

end

/-- Reads that fail change nothing. Whatever the state of the entries is, whichever of their operations fail, and
    whatever the fetcher answers or fails with, as long as it leaves the cache alone: a read of one payload, of several
    or of whether a structure exists fails exactly if one of its steps does, as the first of them that fails; no payload
    has come or gone then, and if the entry could not be asked, the fetcher was not either. -/
theorem failed_reads_change_nothing {σ : Type} {f : Fetcher σ} (hf : f.Outside) (k : Key) (mode : ConsumeMode)
    (p : Provider) (s : σ) :
    (∀ id, FailsCleanly (payloadPlan f id) k mode p s (consume k id f mode (p, s))) ∧
    (∀ ids, FailsCleanly (batchPlan f ids) k mode p s (consumeMany k ids f mode (p, s))) ∧
    (∀ id, FailsCleanly (existencePlan f id) k mode p s (exists? k id f mode (p, s))) := by
  refine ⟨fun id => ?_, fun ids => ?_, fun id => ?_⟩
  · rw [consume_eq_run]
    refine Plan.run_failsCleanly (Entry.get_whole id) (fun e => (Entry.get_holding id e rfl).1) ?_
    intro found m answer hnext
    simp only [payloadPlan] at hnext
    split at hnext
    · cases hnext
    · cases hnext
      exact hf.fetch id
  · rw [consumeMany_eq_run]
    refine Plan.run_failsCleanly (Entry.getMany_whole ids) (fun e => (Entry.getMany_holding ids e rfl).1) ?_
    intro found m answer hnext
    simp only [batchPlan] at hnext
    split at hnext
    · cases hnext
      exact hf.fetchMany _
    · split at hnext
      · cases hnext
      · cases hnext
        exact hf.fetchMany _
  · rw [exists?_eq_run]
    refine Plan.run_failsCleanly (Entry.get_whole id) (fun e => (Entry.get_holding id e rfl).1) ?_
    intro found m answer hnext
    simp only [existencePlan] at hnext
    split at hnext
    · cases hnext
    · cases hnext
      exact hf.stored id

theorem outside_ofTable (rows : DocId → Option String) : (ofTable rows).Outside :=
  ⟨fun _ _ => rfl, fun _ _ => rfl, fun _ _ => rfl⟩

/-- A cache of notes that cannot be asked and of tasks, one of which is cached, that cannot be stored. -/
def failingCache : Provider where
  entries := [Entry.new ⟨"Note"⟩ (.failing false true false),
    { Entry.new ⟨"Task"⟩ (.failing false false true) with payloads := [(.identity 2, "cached")] }]
  registered := [(⟨"Note"⟩, 0), (⟨"Task"⟩, 1)]

theorem failed_reads_change_nothing_tasks :
    let f := ofTable (Assoc.get? [(.identity 1, "one"), (.identity 2, "two")])
    consume ⟨"Note"⟩ (.identity 1) f .update (failingCache, []) =
        (.error (.cache (.backend "Note" "injected get failure")), (failingCache, [])) ∧
      ∃ q log, consumeMany ⟨"Task"⟩ [.identity 2, .identity 1] f .update (failingCache, []) =
          (.error (.cache (.backend "Task" "injected put failure")), (q, log)) ∧
        q.held? ⟨"Task"⟩ (.identity 2) = some "cached" ∧ q.held? ⟨"Task"⟩ (.identity 1) = none := by
  intro f
  have hf : f.Outside := outside_ofTable _
  constructor
  · exact ((failed_reads_change_nothing hf ⟨"Note"⟩ .update failingCache []).1 (.identity 1)).unasked rfl rfl
  · have hread := (failed_reads_change_nothing hf ⟨"Task"⟩ .update failingCache []).2.1 [.identity 2, .identity 1]
    have hrows : [(DocId.identity 1, "one")] ≠ [] := by decide
    have hfails : (batchPlan f [.identity 2, .identity 1]).Fails ⟨"Task"⟩ .update failingCache []
        (.cache (.backend "Task" "injected put failure")) :=
      .store rfl rfl rfl rfl rfl hrows rfl
    have herror := (hread.first _).mpr hfails
    have huntouched := hread.untouched _ herror
    exact ⟨_, _, Prod.ext herror rfl, (huntouched.held ..).trans rfl, (huntouched.held ..).trans rfl⟩

end Provider

end DocStore.Cache
