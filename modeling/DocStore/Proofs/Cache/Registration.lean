import DocStore.Proofs.Cache.OneEntry
import DocStore.Proofs.Cache.WriteBack

/-! Which types have entries. An entry is created where its type is enabled, or where it is looked up while `autoEnable`
    is on, and it is taken out of the registry where its type is disabled; nothing else that is done with a registry
    does either, so that a type keeps its entry and no other one is created for it meanwhile. -/

namespace DocStore.Cache

/-! ### Whose payloads an entry keeps -/

namespace Entry

section
variable {k : Key}

/-- Steps that leave an entry that of its type. -/
abbrev OfType (k : Key) (e : Entry) : Prop := e.key = k

@[simp] theorem recorded_key (e : Entry) (b : Bool) : (e.recorded b).key = e.key := by
  cases b <;> rfl

theorem lookedAll_key (e : Entry) (ids : List DocId) : (e.lookedAll ids).2.key = e.key := by
  have hfold : ∀ (found : List (Option String)) (e : Entry),
      (found.foldl (fun e x => e.recorded x.isSome) e).key = e.key := by
    intro found
    induction found with
    | nil => exact fun _ => rfl
    | cons x found ih => exact fun e => (ih _).trans (recorded_key ..)
  exact hfold _ e

theorem storedIf_key (e : Entry) (g : UInt64) (items : List (DocId × String)) : (e.storedIf g items).2.key = e.key := by
  unfold storedIf
  split <;> rfl

theorem guarded_ofType (operation : String) (fails : Bool → Bool → Bool → Bool) :
    Step.Keeps (OfType k) (guarded operation fails) := .of_reads (guarded_reads operation fails)

theorem get_ofType (id : DocId) : Step.Keeps (OfType k) (get id) :=
  .andThen (guarded_ofType _ _) fun _ => .change fun _ he => ⟨(recorded_key ..).trans he, trivial⟩

theorem put_ofType (id : DocId) (payload : String) : Step.Keeps (OfType k) (put id payload) :=
  .andThen (guarded_ofType _ _) fun _ => .update fun _ he => he

theorem putManyIfGeneration_ofType (g : UInt64) (items : List (DocId × String)) :
    Step.Keeps (OfType k) (putManyIfGeneration g items) :=
  .andThen (guarded_ofType _ _) fun _ => .change fun _ he => ⟨(storedIf_key ..).trans he, trivial⟩

theorem remove_ofType (id : DocId) : Step.Keeps (OfType k) (remove id) := .update fun _ he => he

theorem removeMany_ofType (ids : List DocId) : Step.Keeps (OfType k) (removeMany ids) := by
  refine .state fun e _ => ?_
  split
  · exact .update fun _ he => he
  · exact .forEach fun id _ => remove_ofType id

theorem clear_ofType : Step.Keeps (OfType k) clear := .andThen (guarded_ofType _ _) fun _ => .update fun _ he => he

theorem perform_ofType (c : Call) : Step.Keeps (OfType k) (perform c) := by
  cases c with
  | key | generation | stats => exact .of_reads fun _ => rfl
  | get id => exact .andThen (get_ofType id) fun _ => .pure trivial
  | getMany ids =>
    refine .andThen (.state fun e _ => ?_) fun _ => .pure trivial
    split
    · exact .each fun id _ => get_ofType id
    · exact .andThen (guarded_ofType _ _) fun _ => .change fun _ he => ⟨(lookedAll_key ..).trans he, trivial⟩
  | put id payload => exact .andThen (put_ofType id payload) fun _ => .pure trivial
  | putMany items =>
    refine .andThen (.state fun e _ => ?_) fun _ => .pure trivial
    split
    · exact .forEach fun item _ => put_ofType item.1 item.2
    · exact .andThen (guarded_ofType _ _) fun _ => .update fun _ he => he
  | putIfGeneration g id payload => exact .andThen (putManyIfGeneration_ofType g _) fun _ => .pure trivial
  | putManyIfGeneration g items => exact .andThen (putManyIfGeneration_ofType g items) fun _ => .pure trivial
  | remove id => exact .andThen (remove_ofType id) fun _ => .pure trivial
  | removeMany ids => exact .andThen (removeMany_ofType ids) fun _ => .pure trivial
  | clear => exact .andThen clear_ofType fun _ => .pure trivial

/-- Whatever is done with an entry, it stays that of its type. -/
theorem perform_key (c : Call) (e : Entry) : (perform c e).2.key = e.key := (perform_ofType c e rfl).1

end

end Entry

namespace Provider

/-- How often an entry has been created for a type. -/
def created (p : Provider) (k : Key) : Nat := p.entries.countP (·.key = k)

variable {k k' : Key} {p q r : Provider}

theorem created_setEntry (h : Handle) {e : Entry} (he : e.key = (p.entry h).key) (k : Key) :
    (p.setEntry h e).created k = p.created k := by
  have hmap : (p.setEntry h e).entries.map (·.key) = p.entries.map (·.key) := by
    by_cases hin : h < p.entries.length
    · have hin' : h < (p.entries.map (·.key)).length := by rwa [List.length_map]
      have hsame : e.key = (p.entries.map (·.key))[h] := by
        rw [he, List.getElem_map, entry, List.getD_eq_getElem?_getD, List.getElem?_eq_getElem hin, Option.getD_some]
      rw [setEntry, List.map_set, hsame, List.set_getElem_self]
    · rw [setEntry_of_le (Nat.le_of_not_lt hin)]
  have hcount : ∀ p : Provider, p.created k = (p.entries.map (·.key)).countP (· = k) := fun p => by
    rw [List.countP_map]
    rfl
  rw [hcount, hcount, hmap]

/-! ### What is done without a change of the registry -/

/-- From one provider to the next no type gets or loses its entry, and none is created. -/
structure Still (p q : Provider) : Prop where
  registered : q.registered = p.registered
  created : ∀ k, q.created k = p.created k

namespace Still

theorem refl (p : Provider) : Still p p := ⟨rfl, fun _ => rfl⟩

theorem trans (hpq : Still p q) (hqr : Still q r) : Still p r :=
  ⟨hqr.registered.trans hpq.registered, fun k => (hqr.created k).trans (hpq.created k)⟩

theorem onEntry {α : Type} {m : Entry.Do α} (hm : ∀ e, (m e).2.key = e.key) (h : Handle) (p : Provider) :
    Still p (onEntry h m p).2 :=
  ⟨rfl, fun k => created_setEntry h (hm _) k⟩

theorem onRegistered {α : Type} {m : Entry.Do α} (hm : ∀ e, (m e).2.key = e.key) (k : Key) (a : α) (p : Provider) :
    Still p (onRegistered k a m p).2 := by
  cases hk : p.registered.get? k with
  | none =>
    rw [onRegistered_none hk]
    exact refl p
  | some h =>
    rw [onRegistered_some hk]
    exact onEntry hm h p

theorem clearEach : ∀ (ks : List Key) (p : Provider), Still p (clearEach ks p).2
  | [], p => refl p
  | k :: ks, p => by
    rw [clearEach_cons]
    exact (onRegistered (fun e => (Entry.clear_ofType e rfl).1) k () p).trans (clearEach ks _)

end Still

/-! ### What is done to the registry -/

/-- From one provider to the next a type gets an entry and loses it only as said, what entry it has it keeps, and an
    entry is created for it exactly if it gets one. -/
structure Registration (k : Key) (p q : Provider) (enabled disabled : Prop) : Prop where
  registers : p.handles k = false → q.handles k = true → enabled
  unregisters : p.handles k = true → q.handles k = false → disabled
  entry : p.handles k = true → q.handles k = true → q.registered.get? k = p.registered.get? k
  created : q.created k = p.created k + if !p.handles k && q.handles k then 1 else 0

theorem handles_of_get? {h : Handle} (hk : p.registered.get? k = some h) : p.handles k = true := by
  rw [handles, Assoc.contains, hk, Option.isSome_some]

theorem handles_eq_false : p.handles k = false ↔ p.registered.get? k = none := by
  rw [handles, Assoc.contains, Option.isSome_eq_false_iff, Option.isNone_iff_eq_none]

namespace Registration

variable {enabled disabled enabled' : Prop}

/-- Nothing has happened to a type that has the entry it had, if no other one was created. -/
theorem of_same (hget : q.registered.get? k = p.registered.get? k) (hcreated : q.created k = p.created k) :
    Registration k p q enabled disabled := by
  have hsame : q.handles k = p.handles k := by rw [handles, handles, Assoc.contains, Assoc.contains, hget]
  refine ⟨fun hp hq => ?_, fun hp hq => ?_, fun _ _ => hget, ?_⟩
  · exact nomatch hp.symm.trans (hsame.symm.trans hq)
  · exact nomatch hp.symm.trans (hsame.symm.trans hq)
  · rw [hsame, hcreated, Bool.not_and_self]
    rfl

theorem of_still (h : Still p q) : Registration k p q enabled disabled :=
  of_same (by rw [h.registered]) (h.created k)

theorem refl (p : Provider) : Registration k p p enabled disabled := of_still (.refl p)

theorem mono {disabled' : Prop} (h : Registration k p q enabled disabled) (he : enabled → enabled')
    (hd : disabled → disabled') : Registration k p q enabled' disabled' :=
  ⟨fun hp hq => he (h.registers hp hq), fun hp hq => hd (h.unregisters hp hq), h.entry, h.created⟩

/-- A type that nothing disables keeps what it has got. -/
theorem trans (hpq : Registration k p q enabled False) (hqr : Registration k q r enabled False) :
    Registration k p r enabled False := by
  have hlost : ∀ {p q : Provider}, Registration k p q enabled False → p.handles k = true → q.handles k = true :=
    fun h hp => Bool.of_not_eq_false fun hq => h.unregisters hp hq
  refine ⟨fun hp hr => ?_, fun hp hr => ?_, fun hp hr => ?_, ?_⟩
  · cases hq : q.handles k with
    | false => exact hqr.registers hq hr
    | true => exact hpq.registers hp hq
  · rw [hlost hqr (hlost hpq hp)] at hr
    cases hr
  · have hq := hlost hpq hp
    rw [hqr.entry hq hr, hpq.entry hp hq]
  · rw [hqr.created, hpq.created, Nat.add_assoc]
    congr 1
    have hpq := hlost hpq
    have hqr := hlost hqr
    cases hp : p.handles k <;> cases hq : q.handles k <;> cases hr : r.handles k <;> simp_all

/-- Enabling a type gives it an entry if it has none, and does nothing to other types. -/
theorem enableFor (k k' : Key) (p : Provider) : Registration k p (p.enableFor k').2 (k' = k) disabled := by
  cases hk' : p.registered.get? k' with
  | some h =>
    rw [enableFor_some hk']
    exact refl p
  | none =>
    have hget : ∀ k, (p.enableFor k').2.registered.get? k =
        if k' = k then some p.entries.length else p.registered.get? k := by
      intro k
      rw [enableFor_none hk', ← Assoc.insert_of_get?_none hk', Assoc.get?_insert]
    have hcreated : (p.enableFor k').2.created k = p.created k + if k' = k then 1 else 0 := by
      rw [enableFor_none hk', Provider.created, List.countP_append, List.countP_singleton]
      by_cases heq : k' = k <;> simp [Entry.new, Provider.created, heq]
    by_cases heq : k' = k
    · subst heq
      have hnone := handles_eq_false.mpr hk'
      have hsome : (p.enableFor k').2.handles k' = true := handles_of_get? ((hget k').trans (if_pos rfl))
      refine ⟨fun _ _ => rfl, fun hp => (nomatch hnone.symm.trans hp), fun hp => (nomatch hnone.symm.trans hp), ?_⟩
      rw [hcreated, hnone, hsome, if_pos rfl]
      rfl
    · exact of_same ((hget k).trans (if_neg heq)) (by rw [hcreated, if_neg heq, Nat.add_zero])

/-- Looking a type up gives it an entry at most while `autoEnable` is on. -/
theorem entryFor (k k' : Key) (p : Provider) :
    Registration k p (p.entryFor k').2 (k' = k ∧ p.autoEnable = true) disabled := by
  cases hk' : p.registered.get? k' with
  | some h =>
    rw [entryFor_some hk']
    exact refl p
  | none =>
    rw [entryFor_none hk']
    split
    · rename_i hauto
      exact (enableFor k k' p).mono (fun heq => ⟨heq, hauto⟩) id
    · exact refl p

theorem disableFor (k k' : Key) (p : Provider) : Registration k p (p.disableFor k').2 enabled (k' = k) := by
  have hget : (p.disableFor k').2.registered.get? k = if k' = k then none else p.registered.get? k :=
    Assoc.get?_erase ..
  have hcreated : (p.disableFor k').2.created k = p.created k := rfl
  by_cases heq : k' = k
  · have hnone : (p.disableFor k').2.handles k = false := handles_eq_false.mpr (hget.trans (if_pos heq))
    refine ⟨fun _ hq => (nomatch hnone.symm.trans hq), fun _ _ => heq, fun _ hq => (nomatch hnone.symm.trans hq), ?_⟩
    rw [hcreated, hnone, Bool.and_false]
    rfl
  · exact of_same (hget.trans (if_neg heq)) hcreated

end Registration

theorem autoEnable_entryFor (k : Key) (p : Provider) : (p.entryFor k).2.autoEnable = p.autoEnable := by
  cases hk : p.registered.get? k with
  | some h => rw [entryFor_some hk]
  | none =>
    rw [entryFor_none hk]
    split
    · rw [enableFor_none hk]
    · rfl

end Provider

/-! ### Operations -/

/-- What is done with a registry: an event, a look for the entry of a type, or a read through the cache. -/
inductive Operation (σ : Type) where
  | event (e : Event)
  | find (k : Key)
  | consume (k : Key) (id : DocId) (f : Fetcher σ) (mode : ConsumeMode)
  | consumeMany (k : Key) (ids : List DocId) (f : Fetcher σ) (mode : ConsumeMode)
  | exists? (k : Key) (id : DocId) (f : Fetcher σ) (mode : ConsumeMode)

namespace Operation

variable {σ : Type}

/-- The provider and the fetchers' state after an operation. -/
def after (x : Provider × σ) : Operation σ → Provider × σ
  | event e => (e.after x.1, x.2)
  | find k => ((x.1.entryFor k).2, x.2)
  | consume k id f mode => (Provider.consume k id f mode x).2
  | consumeMany k ids f mode => (Provider.consumeMany k ids f mode x).2
  | exists? k id f mode => (Provider.exists? k id f mode x).2

/-- The provider and the fetchers' state after several operations. -/
def afterAll (x : Provider × σ) (ops : List (Operation σ)) : Provider × σ := ops.foldl after x

/-- Whether an operation enables a type: it is told to, or it looks for the entry of the type while `autoEnable` is
    on, which reads do in the modes that use the cache. -/
def Enables (k : Key) (p : Provider) : Operation σ → Prop
  | event (.call (.enable k')) => k' = k
  | event (.call (.entry k' _)) | find k' => k' = k ∧ p.autoEnable = true
  | event _ => False
  | consume k' _ _ mode | consumeMany k' _ _ mode | exists? k' _ _ mode =>
    k' = k ∧ p.autoEnable = true ∧ mode ≠ .ignore

/-- Whether an operation disables a type. -/
def Disables (k : Key) : Operation σ → Prop
  | event (.call (.disable k')) => k' = k
  | _ => False

/-- An operation whose fetcher, if it has one, does not come to the cache itself. -/
def Outside : Operation σ → Prop
  | event _ | find _ => True
  | consume _ _ f _ | consumeMany _ _ f _ | exists? _ _ f _ => f.Outside

end Operation

/-- A fetcher that comes to the cache only by operations of some kind, one after the other. -/
structure Fetcher.Visits {σ : Type} (f : Fetcher σ) (V : Operation Unit → Prop) : Prop where
  fetch : ∀ id y, ∃ ops, (∀ op ∈ ops, V op) ∧ (f.fetch id y).2.1 = (Operation.afterAll (y.1, ()) ops).1
  fetchMany : ∀ ids y, ∃ ops, (∀ op ∈ ops, V op) ∧ (f.fetchMany ids y).2.1 = (Operation.afterAll (y.1, ()) ops).1
  stored : ∀ id y, ∃ ops, (∀ op ∈ ops, V op) ∧ (f.stored id y).2.1 = (Operation.afterAll (y.1, ()) ops).1

namespace Provider

variable {σ : Type} {k k' : Key}

/-- What a read of a type comes to on its way: in the modes that use the cache it looks for the entry of the type; it
    calls entries, and it asks the fetcher. -/
inductive Reading (k : Key) (mode : ConsumeMode) (f : Fetcher σ) (x : Provider × σ) : Provider × σ → Prop
  | start : Reading k mode f x x
  | find {y : Provider × σ} (h : Reading k mode f x y) (hmode : mode ≠ .ignore) :
    Reading k mode f x ((Operation.find k).after y)
  | call {y : Provider × σ} (h : Reading k mode f x y) (handle : Handle) (c : Entry.Call) :
    Reading k mode f x ((Operation.event (.held handle c)).after y)
  | fetch {y : Provider × σ} (h : Reading k mode f x y) (id : DocId) : Reading k mode f x (f.fetch id y).2
  | fetchMany {y : Provider × σ} (h : Reading k mode f x y) (ids : List DocId) : Reading k mode f x (f.fetchMany ids y).2
  | stored {y : Provider × σ} (h : Reading k mode f x y) (id : DocId) : Reading k mode f x (f.stored id y).2

theorem beside_state {α : Type} (m : Do α) (y : Provider × σ) : (beside m y).2 = ((m y.1).2, y.2) := by
  rw [beside, Step.mapError, Step.within]
  cases m y.1 with
  | mk r q => cases r <;> rfl

theorem readKeeps_reading (k : Key) (mode : ConsumeMode) (f : Fetcher σ) (x : Provider × σ) :
    ReadKeeps k mode f (Reading k mode f x) fun _ => True where
  found := by
    refine Step.Ensures.mono (.of_state fun y hy => ?_) fun _ _ _ _ => trivial
    cases mode with
    | ignore => exact hy
    | readOnly | update => exact hy.find nofun
  entry {h} _ _ m hm := by
    obtain ⟨c, hc⟩ := hm
    refine .of_state fun y hy => ?_
    rw [beside_state, onEntry_apply, hc]
    exact hy.call h c
  fetch id := .of_state fun _ hy => hy.fetch id
  fetchMany ids := .of_state fun _ hy => hy.fetchMany ids
  stored id := .of_state fun _ hy => hy.stored id

section
variable (k : Key) (mode : ConsumeMode) (f : Fetcher σ) (x : Provider × σ)

theorem reading_consume (id : DocId) : Reading k mode f x (consume k id f mode x).2 :=
  ((readKeeps_reading k mode f x).consume id x .start).1

theorem reading_consumeMany (ids : List DocId) : Reading k mode f x (consumeMany k ids f mode x).2 :=
  ((readKeeps_reading k mode f x).consumeMany ids x .start).1

theorem reading_exists? (id : DocId) : Reading k mode f x (exists? k id f mode x).2 :=
  ((readKeeps_reading k mode f x).exists? id x .start).1

end

/-- An operation that a read makes itself: the look for the entry of its type, in a mode that uses the cache, or the
    call of an entry. -/
def MadeBy (k : Key) (mode : ConsumeMode) (op : Operation Unit) : Prop :=
  (op = .find k ∧ mode ≠ .ignore) ∨ ∃ h c, op = .event (.held h c)

theorem afterAll_append (p : Provider) (ops ops' : List (Operation Unit)) :
    (Operation.afterAll (p, ()) (ops ++ ops')).1 =
      (Operation.afterAll ((Operation.afterAll (p, ()) ops).1, ()) ops').1 := by
  rw [Operation.afterAll, List.foldl_append]
  rfl

/-- A read leaves the registry as operations do that it makes itself or that its fetcher comes to the cache by. -/
theorem Reading.visited {mode : ConsumeMode} {f : Fetcher σ} {V : Operation Unit → Prop} (hf : f.Visits V)
    {x y : Provider × σ} (h : Reading k mode f x y) :
    ∃ ops, (∀ op ∈ ops, V op ∨ MadeBy k mode op) ∧ y.1 = (Operation.afterAll (x.1, ()) ops).1 := by
  have hnext : ∀ {p q : Provider} {ops ops' : List (Operation Unit)}, (∀ op ∈ ops, V op ∨ MadeBy k mode op) →
      p = (Operation.afterAll (x.1, ()) ops).1 → (∀ op ∈ ops', V op ∨ MadeBy k mode op) →
      q = (Operation.afterAll (p, ()) ops').1 →
      ∃ ops, (∀ op ∈ ops, V op ∨ MadeBy k mode op) ∧ q = (Operation.afterAll (x.1, ()) ops).1 := by
    rintro p q ops ops' hops rfl hops' rfl
    exact ⟨ops ++ ops', fun op hop => (List.mem_append.mp hop).elim (hops op) (hops' op), (afterAll_append ..).symm⟩
  have hown : ∀ {op : Operation Unit}, MadeBy k mode op → ∀ op' ∈ [op], V op' ∨ MadeBy k mode op' := fun h op' hop' =>
    .inr (List.mem_singleton.mp hop' ▸ h)
  induction h with
  | start => exact ⟨[], nofun, rfl⟩
  | find _ hmode ih =>
    obtain ⟨ops, hops, hy⟩ := ih
    exact hnext hops hy (hown (.inl ⟨rfl, hmode⟩)) rfl
  | call _ handle c ih =>
    obtain ⟨ops, hops, hy⟩ := ih
    exact hnext hops hy (hown (.inr ⟨handle, c, rfl⟩)) rfl
  | @fetch y _ id ih =>
    obtain ⟨ops, hops, hy⟩ := ih
    obtain ⟨visit, hvisit, heq⟩ := hf.fetch id y
    exact hnext hops hy (fun op hop => .inl (hvisit op hop)) heq
  | @fetchMany y _ ids ih =>
    obtain ⟨ops, hops, hy⟩ := ih
    obtain ⟨visit, hvisit, heq⟩ := hf.fetchMany ids y
    exact hnext hops hy (fun op hop => .inl (hvisit op hop)) heq
  | @stored y _ id ih =>
    obtain ⟨ops, hops, hy⟩ := ih
    obtain ⟨visit, hvisit, heq⟩ := hf.stored id y
    exact hnext hops hy (fun op hop => .inl (hvisit op hop)) heq

/-! ### What operations do to the registration of a type -/

theorem registration_event (x : Provider × σ) (e : Event) (k : Key) :
    Registration k x.1 (e.after x.1) ((Operation.event e : Operation σ).Enables k x.1)
      ((Operation.event e : Operation σ).Disables k) := by
  cases e with
  | held h c => exact .of_still (.onEntry (Entry.perform_key c) h x.1)
  | call c =>
    cases c with
    | enable k' => exact .enableFor k k' x.1
    | disable k' => exact .disableFor k k' x.1
    | setAuto on => exact .of_still ⟨rfl, fun _ => rfl⟩
    | auto | isEnabled k' | handles k' | structures => exact .refl x.1
    | clearAll =>
      rw [Event.after, perform, Step.bind_pure_state, clear_state]
      exact .of_still (.clearEach _ x.1)
    | clearFor k' =>
      rw [Event.after, perform, Step.bind_pure_state]
      exact .of_still (.onRegistered (fun e => (Entry.clear_ofType e rfl).1) k' () x.1)
    | remove k' id =>
      rw [Event.after, perform, Step.bind_pure_state]
      exact .of_still (.onRegistered (fun e => (Entry.remove_ofType id e rfl).1) k' () x.1)
    | removeMany k' ids =>
      rw [Event.after, perform, Step.bind_pure_state]
      exact .of_still (.onRegistered (fun e => (Entry.removeMany_ofType ids e rfl).1) k' () x.1)
    | stats k' =>
      rw [Event.after, perform, Step.bind_pure_state]
      exact .of_still (.onRegistered (fun _ => rfl) k' none x.1)
    | entry k' c =>
      have hfound : (Step.change (Provider.entryFor k') : Do (Option Handle)) x.1 =
          (.ok (x.1.entryFor k').1, (x.1.entryFor k').2) := rfl
      have hlooked : Registration k x.1 (x.1.entryFor k').2 (k' = k ∧ x.1.autoEnable = true) False := .entryFor k k' x.1
      rw [Event.after, perform, Step.bind_ok hfound]
      cases (x.1.entryFor k').1 with
      | none => exact hlooked
      | some h =>
        show Registration k x.1 (_ : Except CacheError Reply × Provider).2 _ False
        rw [Step.bind_pure_state]
        exact hlooked.trans (.of_still (.onEntry (Entry.perform_key c) h _))

/-- A read enables its type at most, in a mode that uses the cache and while `autoEnable` is on; its fetcher not coming
    to the cache, it disables none. -/
theorem Reading.registration {mode : ConsumeMode} {f : Fetcher σ} (hf : f.Outside) {x y : Provider × σ}
    (h : Reading k' mode f x y) :
    Registration k x.1 y.1 (k' = k ∧ x.1.autoEnable = true ∧ mode ≠ .ignore) False ∧
      y.1.autoEnable = x.1.autoEnable := by
  induction h with
  | start => exact ⟨.refl _, rfl⟩
  | @find y _ hmode ih =>
    obtain ⟨hy, hauto⟩ := ih
    have hfind : Registration k y.1 (y.1.entryFor k').2 (k' = k ∧ y.1.autoEnable = true) False := .entryFor k k' y.1
    refine ⟨hy.trans (hfind.mono (fun ⟨heq, hon⟩ => ⟨heq, hauto ▸ hon, hmode⟩) id), ?_⟩
    rw [← hauto]
    exact autoEnable_entryFor k' y.1
  | @call y _ h c ih => exact ⟨ih.1.trans (.of_still (.onEntry (Entry.perform_key c) h y.1)), ih.2⟩
  | @fetch y _ id ih =>
    rw [hf.fetch id y]
    exact ih
  | @fetchMany y _ ids ih =>
    rw [hf.fetchMany ids y]
    exact ih
  | @stored y _ id ih =>
    rw [hf.stored id y]
    exact ih

theorem registration_after {op : Operation σ} (hop : op.Outside) (x : Provider × σ) (k : Key) :
    Registration k x.1 (op.after x).1 (op.Enables k x.1) (op.Disables k) := by
  cases op with
  | event e => exact registration_event x e k
  | find k' => exact Registration.entryFor k k' x.1
  | consume k' id f mode => exact ((reading_consume k' mode f x id).registration hop).1
  | consumeMany k' ids f mode => exact ((reading_consumeMany k' mode f x ids).registration hop).1
  | exists? k' id f mode => exact ((reading_exists? k' mode f x id).registration hop).1

/-- A type that is registered all along keeps its entry, and none is created for it. -/
theorem kept_of_registered {h : Handle} : ∀ {ops : List (Operation σ)} {x : Provider × σ},
    (∀ op ∈ ops, op.Outside) → x.1.registered.get? k = some h →
    (∀ before, before <+: ops → (Operation.afterAll x before).1.handles k = true) →
    (Operation.afterAll x ops).1.registered.get? k = some h ∧ (Operation.afterAll x ops).1.created k = x.1.created k
  | [], _, _, hk, _ => ⟨hk, rfl⟩
  | op :: ops, x, hops, hk, hall => by
    have hone := registration_after (hops op (List.mem_cons_self ..)) x k
    have hbefore : x.1.handles k = true := hall [] (List.nil_prefix ..)
    have hnext : (op.after x).1.handles k = true := hall [op] (by simp)
    have hcreated : (op.after x).1.created k = x.1.created k := by
      rw [hone.created, hbefore]
      rfl
    have hrest := kept_of_registered (x := op.after x) (fun op' hop' => hops op' (List.mem_cons_of_mem _ hop'))
      ((hone.entry hbefore hnext).trans hk) fun before hpre => hall (op :: before) (List.cons_prefix_cons.mpr ⟨rfl, hpre⟩)
    rw [hcreated] at hrest
    exact hrest

/-! ### Reads of types without an entry -/

section
variable {p : Provider} (hk : p.handles k = false) (hauto : p.autoEnable = false)
include hk hauto

theorem entryForMode_none (mode : ConsumeMode) : p.entryForMode k mode = (none, p) := by
  have hlooked : p.entryFor k = (none, p) := by
    rw [entryFor_none (handles_eq_false.mp hk), hauto]
    rfl
  cases mode with
  | ignore => rfl
  | readOnly | update => exact hlooked

theorem found_none (mode : ConsumeMode) (s : σ) :
    (beside (Step.change (entryForMode k mode)) : Step Error (Provider × σ) (Option Handle)) (p, s) =
      (.ok none, (p, s)) :=
  beside_ok (congrArg (fun r : Option Handle × Provider => (Except.ok r.1, r.2)) (entryForMode_none hk hauto mode)) s

variable (f : Fetcher σ) (mode : ConsumeMode) (s : σ)

theorem consume_unregistered (id : DocId) : consume k id f mode (p, s) = f.fetch id (p, s) := by
  rw [consume, Step.bind_ok (found_none hk hauto mode s)]

theorem consumeMany_unregistered (ids : List DocId) : consumeMany k ids f mode (p, s) =
    (f.fetchMany (distinct ids)).map (fun fetched => inOrder ids (Assoc.insertAll [] fetched)) (p, s) := by
  rw [consumeMany, Step.bind_ok (found_none hk hauto mode s)]
  rfl

theorem exists?_unregistered (id : DocId) : exists? k id f mode (p, s) = f.stored id (p, s) := by
  rw [exists?, Step.bind_ok (found_none hk hauto mode s)]

end

/-- Only enabling registers a type and only disabling unregisters it. Over any operations, whose fetchers do not come
    to the cache themselves, a type gets an entry where it is enabled, or looked up while `autoEnable` is on and not by
    a read that ignores the cache; it loses it where it is disabled; and as long as it is registered the same entry
    serves it and no other one is created for it. A read with any fetcher comes to the registry by looking for the
    entry of its type, by calls of entries and by what the fetcher does, so that it is a run of operations like these
    if the fetcher comes to the cache by such. And a read of a type that has no entry, while `autoEnable` is off, is
    what the fetcher answers and does. -/
theorem only_enabling_registers (k : Key) (x : Provider × σ) (ops : List (Operation σ))
    (hops : ∀ op ∈ ops, op.Outside) :
    (∀ before op after, ops = before ++ op :: after →
      Registration k (Operation.afterAll x before).1 (Operation.afterAll x (before ++ [op])).1
        (op.Enables k (Operation.afterAll x before).1) (op.Disables k)) ∧
    (∀ h, x.1.registered.get? k = some h →
      (∀ before, before <+: ops → (Operation.afterAll x before).1.handles k = true) →
      (Operation.afterAll x ops).1.registered.get? k = some h ∧
        (Operation.afterAll x ops).1.created k = x.1.created k) ∧
    (∀ (f : Fetcher σ) mode y,
      (∀ id, Reading k mode f y (consume k id f mode y).2) ∧
      (∀ ids, Reading k mode f y (consumeMany k ids f mode y).2) ∧
      (∀ id, Reading k mode f y (exists? k id f mode y).2)) ∧
    (∀ (f : Fetcher σ) (V : Operation Unit → Prop), f.Visits V → ∀ mode y z, Reading k mode f y z →
      ∃ visits, (∀ op ∈ visits, V op ∨ MadeBy k mode op) ∧ z.1 = (Operation.afterAll (y.1, ()) visits).1) ∧
    (∀ (f : Fetcher σ) mode p s, p.handles k = false → p.autoEnable = false →
      (∀ id, consume k id f mode (p, s) = f.fetch id (p, s)) ∧
      (∀ ids, consumeMany k ids f mode (p, s) =
        (f.fetchMany (distinct ids)).map (fun fetched => inOrder ids (Assoc.insertAll [] fetched)) (p, s)) ∧
      (∀ id, exists? k id f mode (p, s) = f.stored id (p, s))) := by
  refine ⟨?_, fun h hk hall => kept_of_registered hops hk hall, ?_, fun f V hf mode y z h => h.visited hf, ?_⟩
  · rintro before op after rfl
    have hone : op.Outside := hops op (List.mem_append_right _ (List.mem_cons_self ..))
    rw [Operation.afterAll, Operation.afterAll, List.foldl_append]
    exact registration_after hone _ k
  · intro f mode y
    exact ⟨reading_consume k mode f y, reading_consumeMany k mode f y, reading_exists? k mode f y⟩
  · intro f mode p s hk hauto
    exact ⟨consume_unregistered hk hauto f mode s, consumeMany_unregistered hk hauto f mode s,
      exists?_unregistered hk hauto f mode s⟩

/-- The fetcher of the trials is outside of the cache if nothing happens meanwhile. -/
theorem eventful_outside : (eventful []).Outside := ⟨fun _ _ => rfl, fun _ _ => rfl, fun _ _ => rfl⟩

theorem only_enabling_registers_notes :
    let note : Key := ⟨"Note"⟩
    let read : Operation Unit := .consume note (.identity 1) (eventful []) .update
    let enabled : Provider × Unit := Operation.afterAll ({}, ()) [.event (.call (.enable note))]
    let disabled := Operation.afterAll enabled [read, .event (.call (.disable note))]
    ((Operation.afterAll enabled [read, .event (.call (.clearFor note)), read]).1.registered.get? note = some 0 ∧
        (Operation.afterAll enabled [read, .event (.call (.clearFor note)), read]).1.created note = 1) ∧
      consume note (.identity 1) (eventful []) .update disabled = (.ok (some "old"), disabled) ∧
      (Operation.afterAll disabled [read, .event (.call (.setAuto true)), read]).1.created note = 2 := by
  intro note read enabled disabled
  have hread : read.Outside := eventful_outside
  have houtside : ∀ e : Event, ∀ op ∈ [read, .event e, read], op.Outside := fun e =>
    List.forall_mem_cons.mpr ⟨hread, List.forall_mem_cons.mpr ⟨trivial, List.forall_mem_singleton.mpr hread⟩⟩
  refine ⟨?_, ?_, ?_⟩
  · have hkept := only_enabling_registers note enabled _ (houtside (.call (.clearFor note)))
    refine hkept.2.1 0 rfl fun before hpre => ?_
    have hall : ∀ n ≤ 3, (Operation.afterAll enabled ([read, .event (.call (.clearFor note)), read].take n)).1.handles
        note = true := by decide
    rw [List.prefix_iff_eq_take.mp hpre]
    exact hall _ hpre.length_le
  · have hnone := only_enabling_registers note disabled ([] : List (Operation Unit)) nofun
    exact (hnone.2.2.2.2 (eventful []) .update disabled.1 () rfl rfl).1 (.identity 1)
  · have hagain := only_enabling_registers note disabled _ (houtside (.call (.setAuto true)))
    exact (hagain.1 [read, .event (.call (.setAuto true))] read [] rfl).created.trans (by decide)

end Provider

end DocStore.Cache
