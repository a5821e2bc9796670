import DocStore.Proofs.Store.Shapes

/-! Identities. Whatever comes between two reservations, the later block lies behind the earlier one and behind all
    ids that are stored: the counter never goes back, and a block starts no earlier than either of the two allows. -/

namespace DocStore.Store

open Sql (Datum Affinity)

/-! ### Stored identities -/

theorem greatestId?_eq_some : ∀ {rows : List StructureRow} {n : Int}, greatestId? rows = some n →
    0 ≤ n ∧ ∀ r ∈ rows, ∃ m, r.id = .integer m ∧ m ≤ n
  | [], n, h => by
    cases h
    exact ⟨le_refl 0, nofun⟩
  | r :: rows, n, h => by
    rw [greatestId?, List.foldr_cons] at h
    split at h
    · rename_i m n' hid hrest
      cases h
      obtain ⟨hpositive, hall⟩ := greatestId?_eq_some hrest
      refine ⟨le_trans hpositive (le_max_right ..), fun r' hr' => ?_⟩
      rcases List.mem_cons.mp hr' with rfl | hr'
      · exact ⟨m, hid, le_max_left ..⟩
      · obtain ⟨m', hid', hle⟩ := hall r' hr'
        exact ⟨m', hid', le_trans hle (le_max_right ..)⟩
    · cases h

/-- Rows of integer ids have a greatest one. -/
theorem greatestId?_of_integers : ∀ {rows : List StructureRow}, (∀ r ∈ rows, ∃ m, r.id = .integer m) →
    ∃ n, greatestId? rows = some n
  | [], _ => ⟨0, rfl⟩
  | r :: rows, h => by
    obtain ⟨m, hid⟩ := h r (List.mem_cons_self ..)
    obtain ⟨n, hrest⟩ := greatestId?_of_integers fun r hr => h r (List.mem_cons_of_mem _ hr)
    refine ⟨max m n, ?_⟩
    rw [greatestId?] at hrest ⊢
    rw [List.foldr_cons, hrest, hid]

/-! ### The counter -/

/-- The identity that the bookkeeping has next for a type. -/
def counter (st : Store) (k : Key) : Int := (st.bookkeeping.bind (·.nextIds.get? k)).getD 1

/-- Whether a call drops the tables or the counter of a schema's set. -/
def Client.Call.Drops (s : Schema) : Client.Call → Prop
  | .drop s' => s'.key = s.key ∨ folded s'.stem = folded s.stem
  | _ => False

section
variable {s : Schema} {st st' : Store}

theorem counter_of_bookkeeping (h : st'.bookkeeping = st.bookkeeping) (k : Key) : st'.counter k = st.counter k := by
  rw [counter, counter, h]

theorem deleteChunks_bookkeeping : ∀ {parts : List (List DocId)} {st st' : Store} {n : Nat},
    deleteChunks s st parts = .ok (n, st') → st'.bookkeeping = st.bookkeeping
  | [], _, _, _, h => by
    cases h
    rfl
  | ids :: parts, st, st', n, h => by
    obtain ⟨n₁, n₂, st₁, hone, hrest⟩ := deleteChunks_cons_eq_ok h
    obtain ⟨t, keys, -, -, rfl⟩ := deleteChunk_eq_ok hone
    rw [deleteChunks_bookkeeping hrest]
    rfl

/-- A block starts behind the counter and behind all stored ids, and the counter is moved behind the block. -/
theorem reserve_block {count : Nat} {first : Int} (h : reserve s count st = (.ok first, st')) :
    0 < first ∧ st.counter s.key ≤ first ∧ st'.counter s.key = first + count ∧
      ∃ t, st.set? s = some t ∧ ∀ r ∈ t.rows, ∃ n, r.id = .integer n ∧ n < first := by
  obtain ⟨b, t, n, hb, hset, hgreatest, hfirst, rfl⟩ := reserve_eq_ok h
  obtain ⟨hpositive, hall⟩ := greatestId?_eq_some hgreatest
  have hbehind : n + 1 ≤ first := hfirst ▸ le_max_right ..
  refine ⟨by omega, ?_, ?_, t, hset, fun r hr => ?_⟩
  · rw [counter, hb, hfirst]
    exact le_max_left ..
  · simp only [counter, Option.bind_some, Assoc.get?_insert, if_true, Option.getD_some]
  · obtain ⟨m, hid, hle⟩ := hall r hr
    exact ⟨m, hid, by omega⟩

/-- Numbers from zero on are added in 64 bits as they are without bounds, as long as the sum fits. -/
theorem int64_add {a b : Int} (ha : 0 ≤ a) (hb : 0 ≤ b) (hsum : a + b ≤ Text.maxInt64) :
    (Int64.ofInt a + Int64.ofInt b).toInt = a + b := by
  have hmax : Text.maxInt64 = 2 ^ 63 - 1 := rfl
  rw [← Int64.ofInt_add, Int64.toInt_ofInt_of_le (by omega) (by omega)]

/-- Counting in 64 bits comes to the same block as long as the end of the block fits: neither the step behind the
    greatest id nor the one behind the block leaves the range. -/
theorem reserve_int64 {count : Nat} {first : Int} (h : reserve s count st = (.ok first, st'))
    (hroom : first + count ≤ Text.maxInt64) : ∃ t n, st.set? s = some t ∧ greatestId? t.rows = some n ∧
      (Int64.ofInt n + Int64.ofInt 1).toInt = n + 1 ∧
      (Int64.ofInt first + Int64.ofInt count).toInt = first + count := by
  obtain ⟨b, t, n, -, hset, hgreatest, hfirst, -⟩ := reserve_eq_ok h
  obtain ⟨hpositive, -⟩ := greatestId?_eq_some hgreatest
  have hbehind : n + 1 ≤ first := hfirst ▸ le_max_right ..
  exact ⟨t, n, hset, hgreatest, int64_add hpositive (by decide) (by omega), int64_add (by omega) (by omega) hroom⟩
theorem counter_of_some {b : Bookkeeping} (hb : st.bookkeeping = some b) (k : Key) :
    st.counter k = (b.nextIds.get? k).getD 1 := by
  rw [counter, hb]
  rfl

theorem upsert_counter {s' : Schema} {u : Unit} (h : upsert s' st = (.ok u, st')) (k : Key) :
    st'.counter k = st.counter k := by
  obtain ⟨b, hb, ⟨-, rfl⟩ | ⟨st₁, -, rfl⟩⟩ := upsert_eq_ok h
  · rfl
  · rw [counter_of_some hb, counter_of_some rfl]

theorem drop_counter {s' : Schema} {u : Unit} (h : drop s' st = (.ok u, st')) {k : Key} (hk : s'.key ≠ k) :
    st'.counter k = st.counter k := by
  obtain ⟨b, hb, rfl⟩ := drop_eq_ok h
  rw [counter_of_some hb, counter_of_some rfl]
  dsimp only
  rw [Assoc.get?_erase, if_neg hk]

theorem reserve_counter {s' : Schema} {count : Nat} {first : Int} (h : reserve s' count st = (.ok first, st'))
    (k : Key) : st.counter k ≤ st'.counter k := by
  by_cases hk : s'.key = k
  · subst hk
    obtain ⟨-, hle, hnext, -⟩ := reserve_block h
    omega
  · obtain ⟨b, t, n, hb, -, -, -, rfl⟩ := reserve_eq_ok h
    rw [counter_of_some hb, counter_of_some rfl]
    dsimp only
    rw [Assoc.get?_insert, if_neg hk]

/-- No call lets the counter of a type go back but one that drops its set. -/
theorem counter_keeps (c : Client) {call : Client.Call} (hcall : ¬call.Drops s) (n : Int) :
    Step.Keeps (fun st => n ≤ st.counter s.key) (c.perform call) := by
  cases call with
  | upsert s' => exact .map (c.guarded_keeps (.transaction _) fun hle h => hle.trans (upsert_counter h _).ge)
  | drop s' => exact .map (c.guarded_keeps (.transaction _) fun hle h =>
      hle.trans (drop_counter h fun hk => hcall (Or.inl hk)).ge)
  | reserve s' count => exact .map (.andThen (.checked _) fun _ => c.guarded_keeps (.transaction _) fun hle h =>
      hle.trans (reserve_counter h _))
  | insert => exact .map (c.guarded_keeps (.transaction _) fun hle h => by
      obtain ⟨t, t₁, t₂, -, -, -, rfl⟩ := insert_eq_ok h
      exact hle)
  | replace => exact .map (c.guarded_keeps (.transaction _) fun hle h => by
      obtain ⟨t, t', -, -, -, rfl⟩ := replace_eq_ok h
      exact hle)
  | deleteMany => exact .map (c.guarded_keeps (.transaction _) fun hle h =>
      hle.trans (counter_of_bookkeeping (deleteChunks_bookkeeping (writing_eq_ok h)) _).ge)
  | deleteInterval => exact .map (c.guarded_keeps (.transaction _) fun hle h => by
      obtain ⟨t, p, -, -, rfl⟩ := deleteInterval_eq_ok h
      exact hle)
  | _ => exact .map (Client.guarded_ensures (.of_reads fun _ => rfl) c)

end

/-! ### Blocks -/

/-- A client that, asked for a number of identities, gets those from a first one on. -/
def Client.Reserves (c : Client) (s : Schema) (count : Nat) (first : Int) (st : Store) : Prop :=
  (c.perform (.reserve s count) st).1 = .ok (.identity first)

section
variable {s : Schema} {st : Store} {c : Client} {count : Nat} {first : Int}

theorem Client.Reserves.eq_ok (h : c.Reserves s count first st) :
    Store.reserve s count st = (.ok first, (c.perform (.reserve s count) st).2) := by
  have hrun : c.perform (.reserve s count) st = (.ok (.identity first), (c.perform (.reserve s count) st).2) :=
    Prod.ext h rfl
  obtain ⟨n, hdone, heq⟩ := Step.map_eq_ok.mp hrun
  cases heq
  exact (Client.reserve_eq_ok hdone).2

/-- A block is positive and behind all stored ids, and behind all blocks that were reserved since the set was last
    dropped, whatever was stored and deleted in between. -/
theorem reserve_fresh {run : List (Client × Client.Call)} (hrun : ∀ x ∈ run, ¬x.2.Drops s)
    (h : c.Reserves s count first (st.after run)) :
    0 < first ∧ (∃ t, (st.after run).set? s = some t ∧ ∀ r ∈ t.rows, ∃ n, r.id = .integer n ∧ n < first) ∧
      ∀ before later c' s' (count' : Nat) (first' : Int), run = before ++ (c', .reserve s' count') :: later →
        s'.key = s.key → c'.Reserves s' count' first' (st.after before) → first' + count' ≤ first := by
  obtain ⟨hpositive, hcounter, -, hids⟩ := reserve_block h.eq_ok
  refine ⟨hpositive, hids, ?_⟩
  rintro before later c' s' count' first' rfl hkey h'
  obtain ⟨-, -, hmoved, -⟩ := reserve_block h'.eq_ok
  -- from the earlier block on the counter stays behind it
  have hlater : first' + count' ≤ ((c'.perform (.reserve s' count') (st.after before)).2.after later).counter s.key :=
    after_keeps (I := fun st => first' + count' ≤ st.counter s.key) (fun x hx => counter_keeps x.1
      (hrun x (List.mem_append_right _ (List.mem_cons_of_mem _ hx))) _) (by rw [← hkey, hmoved])
  rw [after_append] at hcounter
  exact le_trans hlater hcounter

end

/-! ### Sets of identities -/

/-- A set whose ids are integers, and can be nothing else. -/
structure TableSet.Integral (t : TableSet) : Prop where
  affinity : t.affinity = .integer
  ids : ∀ r ∈ t.rows, ∃ n, r.id = .integer n

/-- A store with the set of a schema, whose ids are integers. -/
structure Identified (s : Schema) (st : Store) : Prop where
  named : st.Named
  bookkeeping : st.bookkeeping.isSome
  set : ∃ t, st.set? s = some t ∧ t.Integral

section
variable {s : Schema} {st st' : Store} {t t' : TableSet}

theorem TableSet.SameRows.integral (h : TableSet.SameRows t t') (ht : t.Integral) : t'.Integral :=
  ⟨h.affinity.trans ht.affinity, h.rows ▸ ht.ids⟩

theorem TableSet.Integral.insertRow (ht : t.Integral) {d : Datum} {p : String} (h : t.insertRow d p = .ok t') :
    t'.Integral := by
  obtain ⟨rfl, -⟩ := insertRow_eq_ok h
  refine ⟨ht.affinity, fun r hr => ?_⟩
  rcases List.mem_append.mp hr with hr | hr
  · exact ht.ids r hr
  · obtain rfl := List.mem_singleton.mp hr
    -- the column takes no other ids
    unfold TableSet.insertRow at h
    rw [ht.affinity] at h
    cases d with
    | integer n => exact ⟨n, rfl⟩
    | null | real x | text x => cases h

theorem TableSet.Integral.withPayload (ht : t.Integral) (d : Datum) (p : String) : (t.withPayload d p).Integral := by
  refine ⟨ht.affinity, fun r hr => ?_⟩
  obtain ⟨r', hr', rfl⟩ := List.mem_map.mp hr
  obtain ⟨n, hid⟩ := ht.ids r' hr'
  refine ⟨n, ?_⟩
  split <;> exact hid

theorem TableSet.Integral.withoutRows (ht : t.Integral) (p : Datum → Bool) : (t.withoutRows p).Integral :=
  ⟨ht.affinity, fun r hr => ht.ids r (List.mem_filter.mp hr).1⟩

theorem Identified.of_sets (h : st.Identified s) (hsets : st'.sets = st.sets) (hb : st'.bookkeeping.isSome) :
    st'.Identified s := by
  obtain ⟨t, hset, ht⟩ := h.set
  exact ⟨h.named.of_sets hsets, hb, t, (set?_of_sets hsets s).trans hset, ht⟩

theorem Identified.putSet (h : st.Identified s) {s' : Schema} (hset : st.set? s' = some t) (hstem : t'.stem = t.stem)
    (ht : t.Integral → t'.Integral) : (st.putSet t').Identified s := by
  refine ⟨h.named.putSet t', h.bookkeeping, ?_⟩
  obtain ⟨t₀, hset₀, ht₀⟩ := h.set
  rw [set?_putSet, hstem, h.named.stem hset]
  split
  · rename_i hname
    rw [set?_congr hname, hset₀] at hset
    cases hset
    exact ⟨t', rfl, ht ht₀⟩
  · exact ⟨t₀, hset₀, ht₀⟩

theorem Identified.reshaped {s' : Schema} (h : st.Identified s) (hr : Reshaped s' st st') : st'.Identified s := by
  obtain ⟨t, hset, ht⟩ := h.set
  obtain ⟨t', hset', hsame⟩ := hr.rows hset
  exact ⟨hr.named, hr.bookkeeping ▸ h.bookkeeping, t', hset', hsame.integral ht⟩

theorem deleteChunks_identified {s' : Schema} : ∀ {parts : List (List DocId)} {st st' : Store} {n : Nat},
    st.Identified s → deleteChunks s' st parts = .ok (n, st') → st'.Identified s
  | [], _, _, _, h, hdone => by
    cases hdone
    exact h
  | ids :: parts, st, st', n, h, hdone => by
    obtain ⟨n₁, n₂, st₁, hone, hrest⟩ := deleteChunks_cons_eq_ok hdone
    obtain ⟨t, keys, hset, -, rfl⟩ := deleteChunk_eq_ok hone
    have hnext : (st.putSet ((t.withoutIndexRows fun d => keys.any (same d)).withoutRows
        (t.findsAny keys))).Identified s :=
      h.putSet hset rfl fun ht => ((TableSet.sameRows_withoutIndexRows t _).integral ht).withoutRows _
    exact deleteChunks_identified hnext hrest

/-- A set of identities stays one until it is dropped. -/
theorem identified_keeps (c : Client) {call : Client.Call} (hcall : ¬call.Drops s) :
    Step.Keeps (Identified s) (c.perform call) := by
  cases call with
  | upsert s' => exact .map (c.guarded_keeps (.transaction _) fun hst h => by
      obtain ⟨b, hb, ⟨-, rfl⟩ | ⟨st₁, hshaped, rfl⟩⟩ := upsert_eq_ok h
      · exact hst
      · exact (hst.reshaped (shaped_reshaped hst.named hshaped).1).of_sets rfl rfl)
  | drop s' => exact .map (c.guarded_keeps (.transaction _) fun hst h => by
      obtain ⟨b, hb, rfl⟩ := drop_eq_ok h
      obtain ⟨t, hset, ht⟩ := hst.set
      refine ⟨hst.named.of_mem fun _ he => (List.mem_filter.mp he).1, rfl, t, ?_, ht⟩
      rw [set?, Assoc.get?_erase, if_neg fun hname => hcall (Or.inr hname)]
      exact hset)
  | reserve s' count => exact .map (.andThen (.checked _) fun _ => c.guarded_keeps (.transaction _) fun hst h => by
      obtain ⟨b, t, n, hb, -, -, -, rfl⟩ := reserve_eq_ok h
      exact hst.of_sets rfl rfl)
  | insert => exact .map (c.guarded_keeps (.transaction _) fun hst h => by
      obtain ⟨t, t₁, t₂, hset, hrow, hentries, rfl⟩ := insert_eq_ok h
      have hsame := TableSet.insertEntries_sameRows hentries
      refine hst.putSet hset ?_ fun ht => hsame.integral (ht.insertRow hrow)
      rw [hsame.stem, (TableSet.insertRow_eq_ok hrow).1])
  | replace => exact .map (c.guarded_keeps (.transaction _) fun hst h => by
      obtain ⟨t, t', hset, -, hentries, rfl⟩ := replace_eq_ok h
      have hsame := TableSet.insertEntries_sameRows hentries
      exact hst.putSet hset hsame.stem fun ht =>
        hsame.integral ((TableSet.sameRows_withoutIndexRows _ _).integral (ht.withPayload _ _)))
  | deleteMany => exact .map (c.guarded_keeps (.transaction _) fun hst h =>
      deleteChunks_identified hst (writing_eq_ok h))
  | deleteInterval => exact .map (c.guarded_keeps (.transaction _) fun hst h => by
      obtain ⟨t, p, hset, -, rfl⟩ := deleteInterval_eq_ok h
      exact hst.putSet hset rfl fun ht => ((TableSet.sameRows_withoutIndexRows t _).integral ht).withoutRows _)
  | _ => exact .map (Client.guarded_ensures (.of_reads fun _ => rfl) c)

/-- A set that a schema of identities created has integers for ids. -/
theorem upsert_identified (hn : st.Named) (hs : s.idType.isIdentity = true) (hnew : st.set? s = none) {u : Unit}
    (h : upsert s st = (.ok u, st')) (hset : (st'.set? s).isSome) : st'.Identified s := by
  obtain ⟨b, hb, ⟨-, rfl⟩ | ⟨st₁, hshaped, rfl⟩⟩ := upsert_eq_ok h
  · rw [hnew] at hset
    cases hset
  · obtain ⟨st₂, st₃, htables, hindexes, hlast⟩ := shaped_eq_ok hshaped
    rcases withTables_eq_ok htables with ⟨-, hset⟩ | ⟨-, rfl⟩
    · rw [hnew] at hset
      cases hset
    · let t : TableSet := { stem := s.stem, affinity := .ofIdType s.idType }
      have haffinity : t.affinity = .integer := if_pos hs
      have hcreated : (st.putSet t).Identified s :=
        ⟨hn.putSet t, by rw [putSet, hb]; rfl, t, set?_putSet_self rfl, haffinity, nofun⟩
      have hindexed := hcreated.reshaped (ensureIndexes_reshaped hcreated.named hindexes)
      rcases hlast with ⟨-, rfl⟩ | ⟨t', hset', rfl⟩
      · exact hindexed.of_sets rfl rfl
      · have hsame : TableSet.SameRows t' (t'.withoutStale s) := ⟨rfl, rfl, rfl⟩
        exact (hindexed.putSet hset' hsame.stem hsame.integral).of_sets rfl rfl

theorem reserve_ok {b : Bookkeeping} {n : Int} (hb : st.bookkeeping = some b) (hset : st.set? s = some t)
    (hgreatest : greatestId? t.rows = some n) (count : Nat) :
    (reserve s count st).1 = .ok (max ((b.nextIds.get? s.key).getD 1) (n + 1)) := by
  rw [reserve, writing, Step.transaction, hb]
  dsimp only
  rw [structureSet_some hset]
  simp only [bind, Except.bind, hgreatest]
  rfl

theorem Client.reserves_of_ok (hs : s.idType.isIdentity = true) {c : Client} (hc : c.closed = false) {count : Nat}
    {first : Int} (h : (Store.reserve s count st).1 = .ok first) : c.Reserves s count first st := by
  have hclient : c.reserve s count st = Store.reserve s count st := by
    rw [Client.reserve, checkIdentities, if_pos hs]
    show c.guarded (Store.reserve s count) st = _
    rw [Client.guarded, hc]
    rfl
  rw [Client.Reserves, Client.perform, Step.map_answer, hclient, h]
  rfl

/-- A client that is open gets the identities that it asks for. -/
theorem reserve_answers (h : st.Identified s) (hs : s.idType.isIdentity = true) {c : Client} (hc : c.closed = false)
    (count : Nat) : ∃ first, c.Reserves s count first st := by
  obtain ⟨b, hb⟩ := Option.isSome_iff_exists.mp h.bookkeeping
  obtain ⟨t, hset, ht⟩ := h.set
  obtain ⟨n, hgreatest⟩ := greatestId?_of_integers ht.ids
  exact ⟨_, Client.reserves_of_ok hs hc (reserve_ok hb hset hgreatest count)⟩

end

end DocStore.Store
