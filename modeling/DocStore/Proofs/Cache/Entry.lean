import DocStore.Cache.Entry
import DocStore.Proofs.Step

/-! Entries that do not fail, in memory above all. What their operations answer and leave does not depend on how they do
    batches, but for the generation: an entry in memory counts the removals with it, each of them advances it by one and
    nothing else does. -/

namespace DocStore.Cache

/-- Whether an entry that behaves so always fails in some of its operations. -/
def Behaviour.fails : Behaviour → Bool
  | .failing clear get put => clear || get || put
  | _ => false

namespace Entry

/-! ### Lookups -/

@[simp] theorem recorded_payloads (e : Entry) (b : Bool) : (e.recorded b).payloads = e.payloads := by
  cases b <;> rfl

@[simp] theorem recorded_generation (e : Entry) (b : Bool) : (e.recorded b).generation = e.generation := by
  cases b <;> rfl

@[simp] theorem recorded_behaviour (e : Entry) (b : Bool) : (e.recorded b).behaviour = e.behaviour := by
  cases b <;> rfl

/-- Lookups change the counts of lookups only. -/
theorem lookedAll_keeps (e : Entry) (ids : List DocId) :
    (e.lookedAll ids).2.payloads = e.payloads ∧ (e.lookedAll ids).2.generation = e.generation ∧
      (e.lookedAll ids).2.behaviour = e.behaviour := by
  have hfold : ∀ (found : List (Option String)) (e : Entry),
      let e' := found.foldl (fun e x => e.recorded x.isSome) e
      e'.payloads = e.payloads ∧ e'.generation = e.generation ∧ e'.behaviour = e.behaviour := by
    intro found
    induction found with
    | nil => exact fun e => ⟨rfl, rfl, rfl⟩
    | cons x found ih =>
      intro e
      obtain ⟨hp, hg, hb⟩ := ih (e.recorded x.isSome)
      exact ⟨hp.trans (recorded_payloads ..), hg.trans (recorded_generation ..), hb.trans (recorded_behaviour ..)⟩
  exact hfold _ e

theorem lookedAll_cons (e : Entry) (id : DocId) (ids : List DocId) :
    (e.lookedAll (id :: ids)).2 = ((e.looked id).2.lookedAll ids).2 := by
  simp only [lookedAll, looked, List.map_cons, List.foldl_cons, recorded_payloads]

/-! ### What the operations do -/

theorem guarded_reads (operation : String) (fails : Bool → Bool → Bool → Bool) (e : Entry) :
    (guarded operation fails e).2 = e := by
  unfold guarded
  split
  · split <;> rfl
  · rfl

section
variable {e : Entry} (hs : e.behaviour.fails = false)
include hs

theorem guarded_steady (operation : String) {fails : Bool → Bool → Bool → Bool}
    (hnot : fails false false false = false) : guarded operation fails e = (.ok (), e) := by
  unfold guarded
  cases hb : e.behaviour with
  | memory | plain => rfl
  | failing clear get put =>
    rw [hb] at hs
    simp only [Behaviour.fails, Bool.or_eq_false_iff] at hs
    obtain ⟨⟨rfl, rfl⟩, rfl⟩ := hs
    simp only [hnot, Bool.false_eq_true, if_false]

theorem get_steady (id : DocId) : get id e = (.ok (e.payloads.get? id), (e.looked id).2) :=
  Step.bind_ok (guarded_steady hs "get" rfl) _

theorem put_steady (id : DocId) (payload : String) : put id payload e = (.ok (), e.stored [(id, payload)]) :=
  Step.bind_ok (guarded_steady hs "put" rfl) _

theorem putManyIfGeneration_steady (g : UInt64) (items : List (DocId × String)) :
    putManyIfGeneration g items e = (.ok (e.storedIf g items).1, (e.storedIf g items).2) :=
  Step.bind_ok (guarded_steady hs "put" rfl) _

theorem clear_steady : clear e = (.ok (), e.emptied) := Step.bind_ok (guarded_steady hs "clear" rfl) _

end

/-- Lookups of one id after the other come to what one of all of them does. -/
theorem each_get : ∀ (ids : List DocId) {e : Entry}, e.behaviour.fails = false →
    Step.each get ids e = (.ok (ids.map e.payloads.get?), (e.lookedAll ids).2)
  | [], _, _ => rfl
  | id :: ids, e, hs => by
    have hnext : (e.looked id).2.behaviour.fails = false := (recorded_behaviour ..).symm ▸ hs
    rw [List.map_cons, lookedAll_cons]
    refine Step.each_cons_ok (get_steady hs id) ?_
    rw [each_get ids hnext]
    exact congrArg (fun payloads : Assoc DocId String => (Except.ok (ids.map payloads.get?), _)) (recorded_payloads ..)

/-- Payloads stored one after the other are stored as all at once. -/
theorem forEach_put : ∀ (items : List (DocId × String)) {e : Entry}, e.behaviour.fails = false →
    Step.forEach (fun item => put item.1 item.2) items e = (.ok (), e.stored items)
  | [], _, _ => rfl
  | item :: items, _, hs => Step.forEach_cons_ok (put_steady hs item.1 item.2) (forEach_put items hs)

section
variable {e : Entry} (hs : e.behaviour.fails = false)
include hs

theorem getMany_steady (ids : List DocId) :
    getMany ids e = (.ok (ids.map e.payloads.get?), (e.lookedAll ids).2) := by
  have hstate : (Step.state : Do Entry) e = (.ok e, e) := rfl
  rw [getMany, Step.bind_ok hstate]
  cases e.behaviour with
  | plain => exact each_get ids hs
  | memory | failing => exact Step.bind_ok (guarded_steady hs "get" rfl) _

theorem putMany_steady (items : List (DocId × String)) : putMany items e = (.ok (), e.stored items) := by
  have hstate : (Step.state : Do Entry) e = (.ok e, e) := rfl
  rw [putMany, Step.bind_ok hstate]
  cases e.behaviour with
  | plain => exact forEach_put items hs
  | memory | failing => exact Step.bind_ok (guarded_steady hs "put" rfl) _

end

/-! ### Entries in memory -/

section
variable {e : Entry} (hm : e.behaviour = .memory)
include hm

theorem steady_memory : e.behaviour.fails = false := by rw [hm]; rfl

theorem get_memory (id : DocId) : get id e = (.ok (e.payloads.get? id), (e.looked id).2) :=
  get_steady (steady_memory hm) id

theorem getMany_memory (ids : List DocId) :
    getMany ids e = (.ok (ids.map e.payloads.get?), (e.lookedAll ids).2) := getMany_steady (steady_memory hm) ids

theorem put_memory (id : DocId) (payload : String) : put id payload e = (.ok (), e.stored [(id, payload)]) :=
  put_steady (steady_memory hm) id payload

theorem putMany_memory (items : List (DocId × String)) : putMany items e = (.ok (), e.stored items) :=
  putMany_steady (steady_memory hm) items

theorem putManyIfGeneration_memory (g : UInt64) (items : List (DocId × String)) :
    putManyIfGeneration g items e = (.ok (e.storedIf g items).1, (e.storedIf g items).2) :=
  putManyIfGeneration_steady (steady_memory hm) g items

theorem removeMany_memory (ids : List DocId) : removeMany ids e = (.ok (), e.removed ids) := by
  have hstate : (Step.state : Do Entry) e = (.ok e, e) := rfl
  rw [removeMany, Step.bind_ok hstate, hm]
  rfl

theorem clear_memory : clear e = (.ok (), e.emptied) := clear_steady (steady_memory hm)

end

/-! ### The generation counts the removals -/

/-- Whether a call takes payloads out of the entry. -/
def Call.removes : Call → Bool
  | .remove _ | .removeMany _ | .clear => true
  | _ => false

/-- An entry in memory stays one, and its generation advances by one exactly if payloads are taken out. -/
theorem perform_memory {e : Entry} (hm : e.behaviour = .memory) (c : Call) :
    (perform c e).2.behaviour = .memory ∧
      (perform c e).2.generation = e.generation + if c.removes then 1 else 0 := by
  cases c with
  | key | generation | stats => exact ⟨hm, (UInt64.add_zero _).symm⟩
  | get id =>
    rw [perform, Step.bind_ok (get_memory hm id)]
    simp [looked, hm, Call.removes]
  | getMany ids =>
    obtain ⟨-, hg, hb⟩ := lookedAll_keeps e ids
    rw [perform, Step.bind_ok (getMany_memory hm ids)]
    simp [hg, hb, hm, Call.removes]
  | put id payload =>
    rw [perform, Step.bind_ok (put_memory hm id payload)]
    simp [stored, hm, Call.removes]
  | putMany items =>
    rw [perform, Step.bind_ok (putMany_memory hm items)]
    simp [stored, hm, Call.removes]
  | putIfGeneration g id payload =>
    rw [perform, putIfGeneration, Step.bind_ok (putManyIfGeneration_memory hm g _)]
    unfold storedIf
    split <;> simp [stored, hm, Call.removes]
  | putManyIfGeneration g items =>
    rw [perform, Step.bind_ok (putManyIfGeneration_memory hm g items)]
    unfold storedIf
    split <;> simp [stored, hm, Call.removes]
  | remove id => exact ⟨hm, rfl⟩
  | removeMany ids =>
    rw [perform, Step.bind_ok (removeMany_memory hm ids)]
    exact ⟨hm, rfl⟩
  | clear =>
    rw [perform, Step.bind_ok (clear_memory hm)]
    exact ⟨hm, rfl⟩

end Entry

end DocStore.Cache
