import DocStore.Database
import DocStore.Proofs.Cache.OneEntry
import DocStore.Proofs.Cache.WriteBack
import DocStore.Proofs.Text.Order

/-! Clearing all entries. Every entry is attempted, in the order of the keys, whatever comes of the others; what fails is
    told of all of them at once, and what a database was about to do with its store is not begun then. -/

namespace DocStore

namespace Cache

/-! ### One entry -/

namespace Entry

/-- What clearing an entry fails with, if it fails. -/
def clearFailure? (e : Entry) : Option CacheError :=
  match (clear e).1 with
  | .ok () => none
  | .error err => some err

/-- Clearing an entry empties it or changes nothing. -/
theorem clear_cases (e : Entry) :
    (e.clearFailure? = none ∧ clear e = (.ok (), e.emptied)) ∨
      ∃ err, e.clearFailure? = some err ∧ clear e = (.error err, e) := by
  have hguard : (guardClear e = (.ok (), e)) ∨ ∃ err, guardClear e = (.error err, e) := by
    have hreads : (guardClear e).2 = e := guarded_reads ..
    cases hanswer : (guardClear e).1 with
    | ok => exact .inl (Prod.ext hanswer hreads)
    | error err => exact .inr ⟨err, Prod.ext hanswer hreads⟩
  rcases hguard with hok | ⟨err, herr⟩
  · have hclear : clear e = (.ok (), e.emptied) := Step.bind_ok hok _
    exact .inl ⟨by rw [clearFailure?, hclear], hclear⟩
  · have hclear : clear e = (.error err, e) := Step.bind_error herr _
    exact .inr ⟨err, by rw [clearFailure?, hclear], hclear⟩

/-- The entry after an attempt to clear it. -/
def attempted (e : Entry) : Entry := if e.clearFailure? = none then e.emptied else e

theorem clear_state (e : Entry) : (clear e).2 = e.attempted := by
  obtain ⟨hnone, hclear⟩ | ⟨err, hsome, hclear⟩ := clear_cases e
  · rw [hclear, attempted, if_pos hnone]
  · rw [hclear, attempted, hsome, if_neg nofun]

end Entry

/-! ### All entries -/

namespace Provider

/-- The failure that clearing the entry of a type meets, if any. -/
def clearFailure? (p : Provider) (k : Key) : Option CacheFailure :=
  ((p.entryOf? k).bind (·.clearFailure?)).map fun err => ⟨k.text, err.message⟩

/-- The failures that clearing all entries meets, in the order of the keys. -/
def clearFailures (p : Provider) : List CacheFailure := p.structures.filterMap p.clearFailure?

variable {p q r : Provider} {k : Key} {ks : List Key}

/-- From one provider to the next the entries of some types have been attempted to be cleared, and nothing else was
    done. -/
structure Attempted (ks : List Key) (p q : Provider) : Prop where
  registered : q.registered = p.registered
  autoEnable : q.autoEnable = p.autoEnable
  factory : q.factory = p.factory
  sound : q.Sound
  within : ∀ {k h}, k ∈ ks → p.registered.get? k = some h → q.entry h = (p.entry h).attempted
  without : ∀ {h}, (∀ k ∈ ks, p.registered.get? k ≠ some h) → q.entry h = p.entry h

theorem Attempted.entryOf?_of_not_mem (hpq : Attempted ks p q) (hs : p.Sound) (hk : k ∉ ks) :
    q.entryOf? k = p.entryOf? k := by
  rw [entryOf?, entryOf?, hpq.registered]
  refine Option.map_congr fun h hget => hpq.without fun k' hk' hget' => ?_
  exact hk (hs.key_unique hget hget' ▸ hk')

theorem Attempted.trans (hs : p.Sound) {ks' : List Key} (hpq : Attempted ks p q) (hqr : Attempted ks' q r)
    (hdisjoint : ∀ k ∈ ks, k ∉ ks') : Attempted (ks ++ ks') p r where
  registered := hqr.registered.trans hpq.registered
  autoEnable := hqr.autoEnable.trans hpq.autoEnable
  factory := hqr.factory.trans hpq.factory
  sound := hqr.sound
  within {k h} hk hget := by
    rcases List.mem_append.mp hk with hk | hk
    · rw [hqr.without fun k' hk' hget' => ?_, hpq.within hk hget]
      rw [hpq.registered] at hget'
      exact hdisjoint k hk (hs.key_unique hget hget' ▸ hk')
    · rw [hqr.within hk (hpq.registered ▸ hget), hpq.without fun k' hk' hget' => ?_]
      exact hdisjoint k' hk' (hs.key_unique hget hget' ▸ hk)
  without {h} hother := by
    have hleft : q.entry h = p.entry h := hpq.without fun k hk => hother k (List.mem_append_left _ hk)
    rw [hqr.without fun k hk => ?_, hleft]
    rw [hpq.registered]
    exact hother k (List.mem_append_right _ hk)

/-- One attempt: what it answers, and that it does nothing to other types. -/
theorem clearFor_attempted (hs : p.Sound) (k : Key) :
    Attempted [k] p (onRegistered k () Entry.clear p).2 ∧
      p.clearFailure? k = match (onRegistered k () Entry.clear p).1 with
        | .ok () => none
        | .error err => some ⟨k.text, err.message⟩ := by
  cases hk : p.registered.get? k with
  | none =>
    rw [onRegistered_none hk]
    refine ⟨⟨rfl, rfl, rfl, hs, ?_, fun _ => rfl⟩, ?_⟩
    · rintro k' h hk' hget
      rw [List.mem_singleton.mp hk', hk] at hget
      cases hget
    · rw [clearFailure?, entryOf?, hk]
      rfl
  | some h =>
    rw [onRegistered_some hk, onEntry_apply, Entry.clear_state]
    refine ⟨⟨rfl, rfl, rfl, hs.setEntry h _, ?_, ?_⟩, ?_⟩
    · rintro k' h' hk' hget
      rw [List.mem_singleton.mp hk', hk] at hget
      cases hget
      exact entry_setEntry (hs.lt_length hk) _
    · intro h' hother
      refine entry_setEntry_ne (fun heq => ?_) _
      exact hother k (List.mem_singleton_self k) (heq ▸ hk)
    · rw [clearFailure?, entryOf?, hk]
      obtain ⟨hnone, hclear⟩ | ⟨err, hsome, hclear⟩ := Entry.clear_cases (p.entry h)
      · rw [hclear, Option.map_some, Option.bind_some, hnone]
        rfl
      · rw [hclear, Option.map_some, Option.bind_some, hsome]
        rfl

/-- Clearing types one after the other attempts all of them and gives the failures in their order. -/
theorem clearEach_attempted : ∀ {ks : List Key} {p : Provider}, p.Sound → ks.Nodup →
    ∃ q, clearEach ks p = (.ok (ks.filterMap p.clearFailure?), q) ∧ Attempted ks p q
  | [], p, hs, _ => ⟨p, rfl, rfl, rfl, rfl, hs, nofun, fun _ => rfl⟩
  | k :: ks, p, hs, hnd => by
    rw [List.nodup_cons] at hnd
    obtain ⟨hone, hfailure⟩ := clearFor_attempted hs k
    obtain ⟨q, hrest, hattempted⟩ := clearEach_attempted hone.sound hnd.2
    -- the attempt of one type does not change what comes of the others
    have hsame : ks.filterMap (onRegistered k () Entry.clear p).2.clearFailure? = ks.filterMap p.clearFailure? := by
      refine List.filterMap_congr fun k' hk' => ?_
      have hne : k' ∉ [k] := fun hin => hnd.1 (List.mem_singleton.mp hin ▸ hk')
      rw [clearFailure?, clearFailure?, hone.entryOf?_of_not_mem hs hne]
    have hattempt : (Step.attempt (onRegistered k () Entry.clear) : Do (Except CacheError Unit)) p =
        (.ok (onRegistered k () Entry.clear p).1, (onRegistered k () Entry.clear p).2) := rfl
    refine ⟨q, ?_, hone.trans hs hattempted fun k' hk' => List.mem_singleton.mp hk' ▸ hnd.1⟩
    rw [clearEach, Step.bind_ok hattempt, Step.bind_ok hrest, hsame, List.filterMap_cons, hfailure]
    cases (onRegistered k () Entry.clear p).1 <;> rfl

/-! ### The order of the keys -/

theorem key_le {k k' : Key} : (compare k k' != .gt) = true ↔ k.text ≤ k'.text := by
  have hflip : compare k k' = .gt ↔ compare k'.text k.text = .lt :=
    @Std.OrientedCmp.gt_iff_lt String compare _ k.text k'.text
  rw [bne_iff_ne, Ne, hflip]
  exact not_congr compareOfLessAndEq_eq_lt

theorem structures_sorted (hs : p.Sound) : p.structures.Pairwise fun k k' => k.text < k'.text := by
  have hle : p.structures.Pairwise fun k k' => k.text ≤ k'.text := by
    refine (List.pairwise_mergeSort (fun a b c hab hbc => ?_) (fun a b => ?_) _).imp key_le.mp
    · exact key_le.mpr (String.le_trans (key_le.mp hab) (key_le.mp hbc))
    · rw [Bool.or_eq_true, key_le, key_le]
      exact String.le_total _ _
  refine (hle.and (nodup_structures hs)).imp fun {k k'} h => Std.lt_of_le_of_ne h.1 fun htext => h.2 ?_
  cases k
  cases k'
  exact congrArg Key.mk htext

/-! ### The answer -/

theorem clear_attempted (hs : p.Sound) :
    clear p = (if p.clearFailures = [] then .ok () else
      .error (.clearFailed (p.structures.map (·.text)) p.clearFailures), (clear p).2) ∧
    Attempted p.structures p (clear p).2 := by
  obtain ⟨q, hrun, hattempted⟩ := clearEach_attempted hs (nodup_structures hs)
  have hstate : (Step.state : Do Provider) p = (.ok p, p) := rfl
  have hclear : (clear p).2 = q := by rw [clear_state, hrun]
  refine ⟨?_, hclear ▸ hattempted⟩
  rw [hclear, clear, Step.bind_ok hstate, Step.bind_ok hrun, ← clearFailures]
  cases hf : p.clearFailures <;> rfl

theorem clearFailures_eq_nil (p : Provider) :
    p.clearFailures = [] ↔ ∀ k e, p.entryOf? k = some e → e.clearFailure? = none := by
  rw [clearFailures, List.filterMap_eq_nil_iff]
  constructor
  · intro hnone k e he
    obtain ⟨h, hget, -⟩ := Option.map_eq_some_iff.mp he
    have hk := hnone k (mem_structures.mpr (List.mem_map_of_mem (f := (·.1)) (Assoc.mem_of_get? hget)))
    rwa [clearFailure?, Option.map_eq_none_iff, he, Option.bind_some] at hk
  · intro hall k _
    rw [clearFailure?, Option.map_eq_none_iff]
    cases he : p.entryOf? k with
    | none => rfl
    | some e => exact hall k e he

/-- Clearing all entries attempts all of them. It answers that all is well exactly if no entry fails; else it tells the
    types of all entries in the order of their keys and the failures of those that fail in the same order. The entries
    that do not fail are empty then, those that fail are as they were, and so is everything else. And if it fails while
    a database is managed, that failure is the answer, and nothing but the cache has changed. -/
theorem clear_attempts_everything {p : Provider} (hs : p.Sound) :
    (p.structures.Pairwise (fun k k' => k.text < k'.text) ∧ ∀ k, k ∈ p.structures ↔ p.handles k = true) ∧
    ((clear p).1 = .ok () ↔ ∀ k e, p.entryOf? k = some e → e.clearFailure? = none) ∧
    (∀ err, (clear p).1 = .error err →
      err = .clearFailed (p.structures.map (·.text)) (p.structures.filterMap p.clearFailure?)) ∧
    ((∀ k e, p.entryOf? k = some e → (clear p).2.entryOf? k =
        some (if e.clearFailure? = none then { e with payloads := [], generation := e.generation + 1 } else e)) ∧
      (clear p).2.registered = p.registered ∧ (clear p).2.autoEnable = p.autoEnable ∧
      ∀ h, (∀ k, p.registered.get? k ≠ some h) → (clear p).2.entry h = p.entry h) ∧
    (∀ (db : Database) call err, db.cache = some p → (clear p).1 = .error err →
      Database.manage call db = (.error (.cache err), { db with cache := some (clear p).2 })) := by
  obtain ⟨hclear, hattempted⟩ := clear_attempted hs
  have hanswer := congrArg Prod.fst hclear
  refine ⟨⟨structures_sorted hs, fun k => ?_⟩, ?_, ?_, ⟨?_, hattempted.registered, hattempted.autoEnable, ?_⟩, ?_⟩
  · rw [mem_structures, handles, Assoc.contains, Option.isSome_iff_ne_none, Ne, Assoc.get?_eq_none, not_not]
  · rw [← clearFailures_eq_nil, hanswer]
    split
    · rename_i hnone
      exact ⟨fun _ => hnone, fun _ => rfl⟩
    · rename_i hsome
      exact ⟨nofun, fun hnone => absurd hnone hsome⟩
  · intro err herr
    rw [hanswer] at herr
    split at herr
    · cases herr
    · exact (Except.error.inj herr).symm
  · intro k e he
    obtain ⟨h, hget, rfl⟩ := Option.map_eq_some_iff.mp he
    have hin : k ∈ p.structures := mem_structures.mpr (List.mem_map_of_mem (f := (·.1)) (Assoc.mem_of_get? hget))
    rw [entryOf?, hattempted.registered, hget, Option.map_some, hattempted.within hin hget]
    rfl
  · intro h hother
    exact hattempted.without fun k _ => hother k
  · intro db call err hcache herr
    have hreset : Database.resetCaches db = (.error (.cache err), { db with cache := some (clear p).2 }) := by
      refine Step.bind_error ?_ _
      rw [Database.onCache, hcache]
      show ((clear p).1.mapError Error.cache, _) = _
      rw [herr]
      rfl
    exact Step.bind_error hreset _

/-- A cache of two types, the entry of one of which cannot be cleared. -/
def brokenCache : Provider :=
  ({ factory := fun k => if k.text = "Broken" then .failing true false false else .memory } : Provider).afterAll
    [.call (.enable ⟨"Note"⟩), .call (.entry ⟨"Note"⟩ (.put (.identity 1) "A")), .call (.enable ⟨"Broken"⟩),
      .call (.entry ⟨"Broken"⟩ (.put (.identity 2) "B"))]

theorem clear_attempts_everything_broken :
    let err : CacheError := .clearFailed ["Broken", "Note"]
      [⟨"Broken", "Cache backend failure for Broken: injected clear failure"⟩]
    (clear brokenCache).1 = .error err ∧
      ((clear brokenCache).2.entryOf? ⟨"Note"⟩).map (·.payloads) = some [] ∧
      ((clear brokenCache).2.entryOf? ⟨"Broken"⟩).map (·.payloads) = some [(.identity 2, "B")] ∧
      Database.manage .dropDatabase { config := {}, cache := some brokenCache } =
        (.error (.cache err), { config := {}, cache := some (clear brokenCache).2 }) := by
  intro err
  have hsound : brokenCache.Sound := Sound.afterAll _ ⟨List.nodup_nil, List.nodup_nil, nofun⟩
  obtain ⟨-, hok, herror, ⟨hentries, -, -⟩, hmanage⟩ := clear_attempts_everything hsound
  have hstructures : brokenCache.structures = [⟨"Broken"⟩, ⟨"Note"⟩] := by
    have hkeys : brokenCache.registered.map (·.1) = [⟨"Note"⟩, ⟨"Broken"⟩] := rfl
    have hgt : compare (⟨"Note"⟩ : Key) ⟨"Broken"⟩ = .gt := by decide
    rw [structures, hkeys]
    simp [List.mergeSort, hgt]
  have hfails : (clear brokenCache).1 = .error err := by
    cases hanswer : (clear brokenCache).1 with
    | ok u => exact absurd (hok.mp hanswer ⟨"Broken"⟩ _ rfl) nofun
    | error e =>
      rw [herror e hanswer, hstructures]
      decide
  refine ⟨hfails, ?_, ?_, hmanage _ .dropDatabase err rfl hfails⟩
  · rw [hentries ⟨"Note"⟩ _ rfl]
    rfl
  · rw [hentries ⟨"Broken"⟩ _ rfl]
    rfl

end Provider

end Cache

end DocStore
