import DocStore.Cache.Recorder
import DocStore.Proofs.Cache.Fetching

/-! Batches and single reads. With a fetcher that reads a fixed table, a batch answers and stores what reads of its
    ids one after the other answer and store, and it asks the fetcher once at most. -/

namespace DocStore.Cache

open Recorder (Request)

/-! ### First occurrences -/

theorem distinct_filter (p : DocId → Bool) (ids : List DocId) : distinct (ids.filter p) = (distinct ids).filter p := by
  induction ids with
  | nil => rfl
  | cons id ids ih =>
    by_cases hid : p id = true
    · rw [List.filter_cons_of_pos hid, distinct, distinct, List.filter_cons_of_pos hid, ih, List.filter_comm]
    · rw [List.filter_cons_of_neg hid, distinct, List.filter_cons_of_neg hid, ih, List.filter_filter]
      refine (List.filter_congr fun id' _ => ?_).symm
      have hne : p id' = true → id' ≠ id := fun h heq => hid (heq ▸ h)
      cases hp : p id' <;> simp_all

/-- Of repeated ids the first one stays, as in the library's function. -/
theorem distinct_eq_eraseDups : ∀ ids : List DocId, distinct ids = ids.eraseDups
  | [] => rfl
  | id :: ids => by
    rw [distinct, ← distinct_filter, distinct_eq_eraseDups (ids.filter _), List.eraseDups_cons]
    refine congrArg (fun ids => id :: List.eraseDups ids) (List.filter_congr fun id' _ => ?_)
    rw [Bool.eq_iff_iff]
    simp
termination_by ids => ids.length
decreasing_by exact Nat.lt_succ_of_le (List.length_filter_le ..)

/-! ### Fetchers of a table -/

/-- A fetcher that reads a fixed table and leaves the cache alone, each request being noted behind those before it.
    The rows of a request are those of its ids that exist, in an order that may be another one each time. -/
structure Fetcher.Reads (rows : DocId → Option String) (f : Fetcher (List Request)) : Prop where
  fetch : ∀ id p log, f.fetch id (p, log) = (.ok (rows id), (p, log ++ [.fetch id]))
  fetchMany : ∀ ids p log, ids.Nodup → ∃ fetched,
    f.fetchMany ids (p, log) = (.ok fetched, (p, log ++ [.fetchMany ids])) ∧
      fetched.Perm (ids.filterMap fun id => (rows id).map (id, ·))

theorem get?_of_perm {rows : DocId → Option String} {ids : List DocId} {fetched : List (DocId × String)}
    (hperm : fetched.Perm (ids.filterMap fun id => (rows id).map (id, ·))) (id : DocId) :
    (Assoc.insertAll [] fetched).get? id = if id ∈ ids then rows id else none := by
  have hmem {x : DocId × String} : x ∈ fetched ↔ x.1 ∈ ids ∧ rows x.1 = some x.2 := by
    rw [hperm.mem_iff, List.mem_filterMap]
    constructor
    · rintro ⟨id, hid, hrow⟩
      obtain ⟨payload, hpayload, rfl⟩ := Option.map_eq_some_iff.mp hrow
      exact ⟨hid, hpayload⟩
    · rintro ⟨hid, hrow⟩
      exact ⟨x.1, hid, by rw [hrow]; rfl⟩
  rw [Assoc.get?_insertAll_of fun x hx => (hmem.mp hx).2]
  by_cases hin : id ∈ fetched.map (·.1)
  · obtain ⟨x, hx, rfl⟩ := List.mem_map.mp hin
    rw [if_pos hin, if_pos (hmem.mp hx).1]
  · rw [if_neg hin]
    cases hrow : rows id with
    | none => exact (ite_self none).symm
    | some payload =>
      refine (if_neg fun hid => hin ?_).symm
      exact List.mem_map_of_mem (f := (·.1)) (hmem (x := (id, payload)).mpr ⟨hid, hrow⟩)

namespace Provider

/-! ### Whether a read goes through an entry -/

/-- Whether reads of a type in a mode go through an entry. -/
def consults (p : Provider) (k : Key) (mode : ConsumeMode) : Bool := mode != .ignore && p.isEnabledFor k

/-- The payload that a read in a mode finds cached. -/
def cached? (p : Provider) (k : Key) (mode : ConsumeMode) (id : DocId) : Option String :=
  if p.consults k mode then p.held? k id else none

section
variable {p : Provider} {k : Key} {h : Handle}

theorem held?_enableFor (hs : p.Sound) (k k' : Key) (id : DocId) : (p.enableFor k).2.held? k' id = p.held? k' id := by
  cases hk : p.registered.get? k with
  | some h => rw [enableFor_some hk]
  | none =>
    have hregistered : (p.enableFor k).2.registered.get? k' =
        if k = k' then some p.entries.length else p.registered.get? k' := by
      rw [enableFor_none hk, ← Assoc.insert_of_get?_none hk, Assoc.get?_insert]
    by_cases heq : k = k'
    · subst heq
      rw [if_pos rfl] at hregistered
      rw [held?_of hregistered, held?_none hk, enableFor_none hk]
      simp [entry, Entry.new]
    · rw [if_neg heq] at hregistered
      cases hk' : p.registered.get? k' with
      | none => rw [held?_none (hregistered.trans hk'), held?_none hk']
      | some h => rw [held?_of (hregistered.trans hk'), held?_of hk', (entry_enableFor (hs.lt_length hk')).1]

theorem isEnabledFor_of_registered (hk : p.registered.get? k = some h) : p.isEnabledFor k = true := by
  rw [isEnabledFor, handles, Assoc.contains, hk]
  exact Bool.or_true _

theorem entryFor_of_isEnabledFor (hm : p.InMemory) (hk : p.isEnabledFor k = true) :
    ∃ h q, p.entryFor k = (some h, q) ∧ q.InMemory ∧ ∀ k' id, q.held? k' id = p.held? k' id := by
  cases hget : p.registered.get? k with
  | some h => exact ⟨h, p, entryFor_some hget, hm, fun _ _ => rfl⟩
  | none =>
    rw [isEnabledFor, handles, Assoc.contains, hget] at hk
    have hauto : p.autoEnable = true := (Bool.or_false _).symm.trans hk
    refine ⟨(p.enableFor k).1, (p.enableFor k).2, ?_, (Shrunk.enableFor hm k).memory, held?_enableFor hm.sound k⟩
    rw [entryFor_none hget, hauto]
    rfl

theorem entryForMode_of_consults {mode : ConsumeMode} (hm : p.InMemory) (hc : p.consults k mode = true) :
    ∃ h q, entryForMode k mode p = (some h, q) ∧ q.InMemory ∧ ∀ k' id, q.held? k' id = p.held? k' id := by
  rw [consults, Bool.and_eq_true] at hc
  cases mode with
  | ignore => cases hc.1
  | readOnly | update => exact entryFor_of_isEnabledFor hm hc.2

theorem entryForMode_of_not_consults {mode : ConsumeMode} (hc : p.consults k mode = false) :
    entryForMode k mode p = (none, p) := by
  rw [consults, Bool.and_eq_false_iff] at hc
  cases mode with
  | ignore => rfl
  | readOnly | update =>
    obtain ⟨hauto, hget⟩ := Bool.or_eq_false_iff.mp (hc.resolve_left nofun)
    rw [handles, Assoc.contains, Option.isSome_eq_false_iff, Option.isNone_iff_eq_none] at hget
    show p.entryFor k = _
    rw [entryFor_none hget, hauto]
    rfl

theorem held?_asked (hm : p.InMemory) (hk : p.registered.get? k = some h) (ids : List DocId) (k' : Key) (id : DocId) :
    (p.asked h ids).held? k' id = p.held? k' id := by
  rw [asked, held?_setEntry hm.sound hk, (Entry.lookedAll_keeps _ ids).1]
  split
  · rename_i heq
    rw [heq, held?_of hk]
  · rfl

theorem held?_stored (hm : p.InMemory) (hk : p.registered.get? k = some h) (rows : List (DocId × String)) (k' : Key)
    (id : DocId) : (p.setEntry h ((p.entry h).stored rows)).held? k' id =
      if k' = k then ((Assoc.insertAll [] rows).get? id).or (p.held? k id) else p.held? k' id := by
  rw [held?_setEntry hm.sound hk, held?_of hk, Entry.stored]
  dsimp only
  rw [Assoc.get?_insertAll]

end

/-! ### What reads leave -/

/-- What reads of ids in a mode leave: what was held, and in the mode that writes back the rows of those ids for
    which the entry of the type held nothing. -/
structure ReadBack (k : Key) (mode : ConsumeMode) (rows : DocId → Option String) (ids : List DocId) (p q : Provider) :
    Prop where
  memory : q.InMemory
  enabled : q.isEnabledFor k = p.isEnabledFor k
  held : ∀ k' id, q.held? k' id =
    if k' = k ∧ mode = .update ∧ p.isEnabledFor k ∧ id ∈ ids then (p.held? k id).or (rows id) else p.held? k' id

namespace ReadBack

variable {k : Key} {mode : ConsumeMode} {rows : DocId → Option String} {ids : List DocId} {p q : Provider}

/-- Of a change that is none to what is held. -/
theorem of_held (hm : q.InMemory) (he : q.isEnabledFor k = p.isEnabledFor k)
    (hheld : ∀ k' id, q.held? k' id = p.held? k' id) : ReadBack k mode rows [] p q where
  memory := hm
  enabled := he
  held k' id := by
    rw [hheld, if_neg]
    rintro ⟨-, -, -, hid⟩
    cases hid

theorem refl (hm : p.InMemory) : ReadBack k mode rows [] p p := .of_held hm rfl fun _ _ => rfl

/-- Reads of ids for which there is nothing to store. -/
theorem idle (h : ReadBack k mode rows [] p q)
    (hnothing : mode = .update → p.isEnabledFor k → ∀ id ∈ ids, (p.held? k id).or (rows id) = p.held? k id) :
    ReadBack k mode rows ids p q where
  memory := h.memory
  enabled := h.enabled
  held k' id := by
    rw [h.held, if_neg fun hnil => List.not_mem_nil hnil.2.2.2]
    split
    · rename_i hall
      obtain ⟨rfl, hmode, henabled, hid⟩ := hall
      exact (hnothing hmode henabled id hid).symm
    · rfl

theorem cached? (h : ReadBack k mode rows ids p q) (id : DocId) :
    (q.cached? k mode id).or (rows id) = (p.cached? k mode id).or (rows id) := by
  rw [Provider.cached?, Provider.cached?, consults, consults, h.enabled, h.held]
  split
  · split
    · rw [Option.or_assoc, Option.or_self]
    · rfl
  · rfl

theorem trans {ids' : List DocId} {r : Provider} (h : ReadBack k mode rows ids p q)
    (h' : ReadBack k mode rows ids' q r) : ReadBack k mode rows (ids ++ ids') p r where
  memory := h'.memory
  enabled := h'.enabled.trans h.enabled
  held k' id := by
    rw [h'.held, h.held, h.held, h.enabled]
    by_cases hk : k' = k ∧ mode = .update ∧ p.isEnabledFor k
    · obtain ⟨rfl, hmode, henabled⟩ := hk
      by_cases hin : id ∈ ids <;> by_cases hin' : id ∈ ids' <;> simp [hmode, henabled, hin, hin', Option.or_assoc]
    · have hnot (b : Prop) : ¬(k' = k ∧ mode = .update ∧ p.isEnabledFor k ∧ b) :=
        fun ⟨h₁, h₂, h₃, _⟩ => hk ⟨h₁, h₂, h₃⟩
      rw [if_neg (hnot _), if_neg (hnot _), if_neg (hnot _)]

end ReadBack

/-! ### Reads from a table -/

section
variable {p : Provider} {k : Key} {rows : DocId → Option String} {f : Fetcher (List Request)} {h : Handle}

variable (rows) in
/-- A read that goes through an entry finds there what is held for the type, and looking stores nothing. -/
theorem asked_readBack {mode : ConsumeMode} (hm : p.InMemory) (hc : p.consults k mode = true) (ids : List DocId) :
    ∃ h q, entryForMode k mode p = (some h, q) ∧ Serving h q ∧ (q.asked h ids).registered.get? k = some h ∧
      (q.entry h).payloads.get? = p.held? k ∧ ReadBack k mode rows [] p (q.asked h ids) := by
  obtain ⟨h, q, hentry, hq, hheld⟩ := entryForMode_of_consults hm hc
  have hk := registered_entryForMode hentry
  refine ⟨h, q, hentry, hq.serving hk, hk, funext fun id => (held?_of hk id).symm.trans (hheld k id), ?_⟩
  refine .of_held (asked_shrunk hq hk ids).memory ?_ fun k' id => (held?_asked hq hk ids k' id).trans (hheld k' id)
  rw [consults, Bool.and_eq_true] at hc
  rw [hc.2]
  exact isEnabledFor_of_registered hk

/-- Storing the rows of the ids for which nothing was held. -/
theorem ReadBack.stored {q : Provider} (hq : ReadBack k .update rows [] p q) (hk : q.registered.get? k = some h)
    {ids misses : List DocId} (hmiss : ∀ id, id ∈ misses ↔ id ∈ ids ∧ p.held? k id = none)
    {fetched : List (DocId × String)}
    (hfetched : ∀ id, (Assoc.insertAll [] fetched).get? id = if id ∈ misses then rows id else none) :
    ReadBack k .update rows ids p (q.setEntry h ((q.entry h).stored fetched)) where
  memory := hq.memory.setEntry h (hq.memory.entries h)
  enabled := hq.enabled
  held k' id := by
    have hsame : ∀ k' id, q.held? k' id = p.held? k' id := fun k' id =>
      (hq.held k' id).trans (if_neg fun hnil => List.not_mem_nil hnil.2.2.2)
    rw [held?_stored hq.memory hk, hfetched, ← hq.enabled, isEnabledFor_of_registered hk, hsame, hsame]
    by_cases heq : k' = k
    · subst heq
      cases hheld : p.held? k' id <;> by_cases hin : id ∈ ids <;> simp [hmiss, hheld, hin]
    · simp [heq]

/-- A read of one payload answers what is cached or else the row. -/
theorem consume_readBack (hm : p.InMemory) (hf : f.Reads rows) (k : Key) (id : DocId) (mode : ConsumeMode)
    (log : List Request) : ∃ q log', consume k id f mode (p, log) =
      (.ok ((p.cached? k mode id).or (rows id)), (q, log')) ∧ ReadBack k mode rows [id] p q := by
  cases hc : p.consults k mode with
  | false =>
    refine ⟨p, log ++ [.fetch id], ?_, (ReadBack.refl hm).idle fun hmode henabled => ?_⟩
    · rw [consume, Step.bind_ok (change_entryForMode (entryForMode_of_not_consults hc) log), cached?, hc]
      exact hf.fetch id p log
    · rw [consults, hmode, henabled] at hc
      cases hc
  | true =>
    obtain ⟨h, q, hentry, hs, hk, hget, hasked⟩ := asked_readBack rows hm hc [id]
    rw [consume, Step.bind_ok (change_entryForMode hentry log), cached?, hc, if_pos rfl, ← hget]
    dsimp only
    rw [Step.bind_ok (beside_onEntry (Entry.get_memory hs.memory id) log)]
    have hone : ∀ id' ∈ [id], p.held? k id' = (q.entry h).payloads.get? id := fun id' hid' => by
      rw [List.mem_singleton.mp hid', hget]
    cases hheld : (q.entry h).payloads.get? id with
    | some x =>
      refine ⟨q.asked h [id], log, rfl, hasked.idle fun _ _ id' hid' => ?_⟩
      rw [hone id' hid', hheld]
      rfl
    | none =>
      show ∃ q' log',
        ((beside (onEntry h Entry.currentGeneration) >>= _) (q.asked h [id], log)) = (_, (q', log')) ∧ _
      rw [Step.bind_ok (generation_asked hs [id] log), Step.bind_ok (hf.fetch id (q.asked h [id]) log)]
      cases hrow : rows id with
      | none =>
        refine ⟨q.asked h [id], _, rfl, hasked.idle fun _ _ id' hid' => ?_⟩
        rw [List.mem_singleton.mp hid', hrow, Option.or_none]
      | some x =>
        cases mode with
        | ignore => cases hc
        | readOnly => exact ⟨q.asked h [id], _, rfl, hasked.idle fun hmode => by cases hmode⟩
        | update =>
          have hmiss : ∀ id', id' ∈ [id] ↔ id' ∈ [id] ∧ p.held? k id' = none := fun id' =>
            ⟨fun hid' => ⟨hid', (hone id' hid').trans hheld⟩, And.left⟩
          have hperm : [(id, x)].Perm ([id].filterMap fun id => (rows id).map (id, ·)) := by simp [hrow]
          refine ⟨_, _, Step.bind_ok (beside_store hasked.memory [(id, x)] _) _, hasked.stored hk hmiss ?_⟩
          exact get?_of_perm hperm

/-! ### Batches -/

/-- What a batch asks the fetcher: nothing if all is cached, else the ids that are not, the repetitions left out. -/
def requests (p : Provider) (k : Key) (mode : ConsumeMode) (ids : List DocId) : List Request :=
  if p.consults k mode then
    match (ids.filter fun id => (p.held? k id).isNone).eraseDups with
    | [] => []
    | misses => [.fetchMany misses]
  else [.fetchMany ids.eraseDups]

/-- A batch answers for each id what is cached or else the row. -/
theorem consumeMany_readBack (hm : p.InMemory) (hf : f.Reads rows) (k : Key) (ids : List DocId) (mode : ConsumeMode)
    (log : List Request) : ∃ q, consumeMany k ids f mode (p, log) =
      (.ok (ids.filterMap fun id => (p.cached? k mode id).or (rows id)), (q, log ++ p.requests k mode ids)) ∧
        ReadBack k mode rows ids p q := by
  cases hc : p.consults k mode with
  | false =>
    refine ⟨p, ?_, (ReadBack.refl hm).idle fun hmode henabled => ?_⟩
    · obtain ⟨fetched, hfetch, hperm⟩ := hf.fetchMany (distinct ids) p log (nodup_distinct ids)
      rw [consumeMany, Step.bind_ok (change_entryForMode (entryForMode_of_not_consults hc) log)]
      dsimp only
      rw [Step.bind_ok hfetch, requests, hc, distinct_eq_eraseDups]
      refine congrArg (fun answer => (Except.ok answer, _)) (List.filterMap_congr fun id hid => ?_)
      rw [get?_of_perm hperm, if_pos (mem_distinct.mpr hid), cached?, hc]
      rfl
    · rw [consults, hmode, henabled] at hc
      cases hc
  | true =>
    obtain ⟨h, q, hentry, hs, hk, hget, hasked⟩ := asked_readBack rows hm hc ids
    have hmiss : ∀ id, id ∈ distinct (ids.filter fun id => (p.held? k id).isNone) ↔ id ∈ ids ∧ p.held? k id = none := by
      intro id
      rw [mem_distinct, List.mem_filter, Option.isNone_iff_eq_none]
    have hcached : p.cached? k mode = p.held? k := funext fun id => by rw [cached?, hc, if_pos rfl]
    rw [consumeMany, Step.bind_ok (change_entryForMode hentry log), requests, hc, if_pos rfl, hcached,
      ← distinct_eq_eraseDups]
    dsimp only
    rw [Step.bind_ok (beside_onEntry (Entry.getMany_memory hs.memory ids) log), hget]
    simp only [missesOf_map]
    have hnodup := nodup_distinct (ids.filter fun id => (p.held? k id).isNone)
    generalize distinct (ids.filter fun id => (p.held? k id).isNone) = misses at hmiss hnodup ⊢
    have hanswer {fetched : List (DocId × String)}
        (hfetched : ∀ id, (Assoc.insertAll [] fetched).get? id = if id ∈ misses then rows id else none) :
        inOrder ids ((Assoc.insertAll [] (hitsOf ids (ids.map (p.held? k)))).insertAll fetched) =
          ids.filterMap fun id => (p.held? k id).or (rows id) := by
      rw [inOrder_hits_insertAll]
      refine List.filterMap_congr fun id hid => ?_
      rw [hfetched]
      cases hheld : p.held? k id <;> simp [hmiss, hid, hheld]
    cases misses with
    | nil =>
      refine ⟨q.asked h ids, ?_, hasked.idle fun _ _ id hid => ?_⟩
      · rw [List.append_nil]
        exact congrArg (fun answer => (Except.ok answer, _)) (@hanswer [] fun _ => rfl)
      · cases hheld : p.held? k id with
        | none => cases (hmiss id).mpr ⟨hid, hheld⟩
        | some x => rfl
    | cons id misses =>
      obtain ⟨fetched, hfetch, hperm⟩ := hf.fetchMany (id :: misses) (q.asked h ids) log hnodup
      have hfetched := get?_of_perm hperm
      show ∃ q', ((beside (onEntry h Entry.currentGeneration) >>= _) (q.asked h ids, log)) = (_, (q', _)) ∧ _
      rw [Step.bind_ok (generation_asked hs ids log), Step.bind_ok hfetch, ← hanswer hfetched]
      cases mode with
      | ignore => cases hc
      | readOnly => exact ⟨q.asked h ids, rfl, hasked.idle fun hmode => by cases hmode⟩
      | update =>
        cases fetched with
        | nil =>
          -- none of the ids that are not cached has a row
          refine ⟨q.asked h ids, rfl, hasked.idle fun _ _ id' hid' => ?_⟩
          cases hheld : p.held? k id' with
          | none =>
            have hrow := hfetched id'
            rw [if_pos ((hmiss id').mpr ⟨hid', hheld⟩)] at hrow
            rw [← hrow]
            rfl
          | some x => rfl
        | cons row fetched =>
          exact ⟨_, Step.bind_ok (beside_store hasked.memory (row :: fetched) _) _, hasked.stored hk hmiss hfetched⟩

/-- Reads of the ids of a batch one after the other. -/
theorem consumeEach_readBack (hf : f.Reads rows) (k : Key) (mode : ConsumeMode) :
    ∀ (ids : List DocId) {p : Provider}, p.InMemory → ∀ log, ∃ q log',
      Step.each (fun id => consume k id f mode) ids (p, log) =
        (.ok (ids.map fun id => (p.cached? k mode id).or (rows id)), (q, log')) ∧ ReadBack k mode rows ids p q
  | [], p, hm, log => ⟨p, log, rfl, .refl hm⟩
  | id :: ids, p, hm, log => by
    obtain ⟨q, log', hone, hback⟩ := consume_readBack hm hf k id mode log
    obtain ⟨r, log'', hrest, hback'⟩ := consumeEach_readBack hf k mode ids hback.memory log'
    refine ⟨r, log'', Step.each_cons_ok hone ?_, hback.trans hback'⟩
    rw [hrest]
    refine congrArg (fun answers => (Except.ok answers, _)) (List.map_congr_left fun id _ => hback.cached? id)

/-- A batch reads as its ids one after the other do. From any provider in memory and with any fetcher of a table, it
    answers in the order of its ids, repetitions included, what is cached for each or else its row, and leaves out
    those that have neither; it asks the fetcher once at most (`requests`), and stores, in the mode that writes back
    and only if an entry serves the type, the rows of the ids that were not cached. -/
theorem consumeMany_eq_each (hm : p.InMemory) (hf : f.Reads rows) (k : Key) (ids : List DocId) (mode : ConsumeMode)
    (log : List Request) :
    ∃ q, consumeMany k ids f mode (p, log) =
        (.ok (ids.filterMap fun id => (p.cached? k mode id).or (rows id)), (q, log ++ p.requests k mode ids)) ∧
      (∀ k' id, q.held? k' id =
        if k' = k ∧ mode = .update ∧ p.isEnabledFor k ∧ id ∈ ids then (p.held? k id).or (rows id)
        else p.held? k' id) ∧
      ∃ answers q' log', Step.each (fun id => consume k id f mode) ids (p, log) = (.ok answers, (q', log')) ∧
        answers.reduceOption = (ids.filterMap fun id => (p.cached? k mode id).or (rows id)) ∧
        ∀ k' id, q'.held? k' id = q.held? k' id := by
  obtain ⟨q, hmany, hback⟩ := consumeMany_readBack hm hf k ids mode log
  obtain ⟨q', log', heach, hback'⟩ := consumeEach_readBack hf k mode ids hm log
  refine ⟨q, hmany, hback.held, _, q', log', heach, ?_, fun k' id => (hback'.held k' id).trans (hback.held k' id).symm⟩
  show ((ids.map _).filterMap id) = _
  rw [List.filterMap_map]
  rfl

end

/-- A fetcher of a table. Several rows come in the reverse order of the request. -/
def ofTable (rows : DocId → Option String) : Fetcher (List Request) where
  fetch id := fun (p, log) => (.ok (rows id), (p, log ++ [.fetch id]))
  fetchMany ids := fun (p, log) =>
    (.ok (ids.reverse.filterMap fun id => (rows id).map (id, ·)), (p, log ++ [.fetchMany ids]))
  stored id := fun (p, log) => (.ok (rows id).isSome, (p, log ++ [.stored id]))

theorem reads_ofTable (rows : DocId → Option String) : (ofTable rows).Reads rows where
  fetch _ _ _ := rfl
  fetchMany ids _ _ _ := ⟨_, rfl, (List.reverse_perm ids).filterMap _⟩

/-- A cache that one type uses, with a payload in it. -/
def taskCache : Provider :=
  let (h, p) := ({} : Provider).enableFor ⟨"Task"⟩
  p.setEntry h ((p.entry h).stored [(.identity 2, "cached")])

/-- Of four ids asked for in a batch one is cached and one exists nowhere. -/
theorem consumeMany_eq_each_tasks :
    let rows := Assoc.get? [(.identity 1, "one"), (.identity 2, "two"), (.identity 3, "three")]
    let ids : List DocId := [.identity 2, .identity 3, .identity 2, .identity 1, .identity 4, .identity 3]
    ∃ q, consumeMany ⟨"Task"⟩ ids (ofTable rows) .update (taskCache, []) =
        (.ok ["cached", "three", "cached", "one", "three"],
          (q, [.fetchMany [.identity 3, .identity 1, .identity 4]])) ∧
      q.held? ⟨"Task"⟩ (.identity 3) = some "three" ∧ q.held? ⟨"Task"⟩ (.identity 2) = some "cached" ∧
      ∃ answers q' log', Step.each (fun id => consume ⟨"Task"⟩ id (ofTable rows) .update) ids (taskCache, []) =
          (.ok answers, (q', log')) ∧
        answers.reduceOption = ["cached", "three", "cached", "one", "three"] ∧
        ∀ k id, q'.held? k id = q.held? k id := by
  intro rows ids
  have hmemory : taskCache.InMemory := by
    have hnew := (blank_new false).enableFor ⟨"Task"⟩
    exact hnew.memory.setEntry 0 (hnew.memory.entries 0)
  obtain ⟨q, hmany, hheld, answers, q', log', heach, hanswers, hsame⟩ :=
    consumeMany_eq_each hmemory (reads_ofTable rows) ⟨"Task"⟩ ids .update []
  exact ⟨q, hmany, (hheld ..).trans rfl, (hheld ..).trans rfl, answers, q', log', heach, hanswers, hsame⟩

end Provider

end DocStore.Cache
