import DocStore.Proofs.Cache.Entry
import Mathlib.Data.List.Forall2

/-! Batches at once and item by item. Two entries that do not fail and hold the same go on to answer and hold the same,
    however each of them does its batches. Their generations may move apart, as one counts a batch of removals as one
    and the other counts its ids; but a generation that was read before is the current one in both or in neither. -/

namespace DocStore.Cache.Entry

/-! ### Entries that hold the same -/

/-- Entries that hold the same payloads and have counted the same lookups. -/
structure Alike (e e' : Entry) : Prop where
  key : e'.key = e.key
  payloads : e'.payloads = e.payloads
  hits : e'.hits = e.hits
  misses : e'.misses = e.misses

namespace Alike

variable {e e' : Entry}

theorem recorded (h : Alike e e') (found : Bool) : Alike (e.recorded found) (e'.recorded found) := by
  cases found with
  | false => exact ⟨h.key, h.payloads, h.hits, congrArg (· + 1) h.misses⟩
  | true => exact ⟨h.key, h.payloads, congrArg (· + 1) h.hits, h.misses⟩

theorem lookedAll (h : Alike e e') (ids : List DocId) : Alike (e.lookedAll ids).2 (e'.lookedAll ids).2 := by
  have hfold : ∀ (found : List (Option String)) {e e' : Entry}, Alike e e' →
      Alike (found.foldl (fun e x => e.recorded x.isSome) e) (found.foldl (fun e x => e.recorded x.isSome) e') := by
    intro found
    induction found with
    | nil => exact id
    | cons x found ih => exact fun h => ih (h.recorded x.isSome)
  rw [Entry.lookedAll, Entry.lookedAll, h.payloads]
  exact hfold _ h

theorem stored (h : Alike e e') (items : List (DocId × String)) : Alike (e.stored items) (e'.stored items) :=
  ⟨h.key, congrArg (·.insertAll items) h.payloads, h.hits, h.misses⟩

/-- Removing the same ids leaves the same, whatever becomes of the generations. -/
theorem removed (h : Alike e e') (ids : List DocId) (g g' : UInt64) :
    Alike { e with payloads := e.payloads.eraseAll ids, generation := g }
      { e' with payloads := e'.payloads.eraseAll ids, generation := g' } :=
  ⟨h.key, congrArg (·.eraseAll ids) h.payloads, h.hits, h.misses⟩

theorem emptied (h : Alike e e') : Alike e.emptied e'.emptied := ⟨h.key, rfl, h.hits, h.misses⟩

end Alike

/-! ### Removals -/

/-- How far an entry advances its generation when it removes several ids. -/
def advances (e : Entry) (ids : List DocId) : Nat := if e.behaviour = .memory then 1 else ids.length

theorem forEach_remove : ∀ (ids : List DocId) (e : Entry), Step.forEach remove ids e =
    (.ok (), { e with payloads := e.payloads.eraseAll ids, generation := e.generation + UInt64.ofNat ids.length })
  | [], e => by
    have hgeneration : e.generation + UInt64.ofNat ([] : List DocId).length = e.generation := UInt64.add_zero _
    rw [hgeneration]
    rfl
  | id :: ids, e => by
    have hone : remove id e = (.ok (), e.removed [id]) := rfl
    refine Step.forEach_cons_ok hone ((forEach_remove ids _).trans ?_)
    have hgeneration : (e.removed [id]).generation + UInt64.ofNat ids.length =
        e.generation + UInt64.ofNat (id :: ids).length := by
      show e.generation + 1 + _ = _
      rw [List.length_cons, UInt64.ofNat_add, UInt64.add_assoc, UInt64.add_comm (UInt64.ofNat ids.length)]
      rfl
    rw [hgeneration]
    rfl

theorem removeMany_apply (ids : List DocId) (e : Entry) : removeMany ids e =
    (.ok (), { e with payloads := e.payloads.eraseAll ids,
                      generation := e.generation + UInt64.ofNat (e.advances ids) }) := by
  by_cases hm : e.behaviour = .memory
  · rw [removeMany_memory hm, advances, if_pos hm]
    rfl
  · have hstate : (Step.state : Do Entry) e = (.ok e, e) := rfl
    have heach : removeMany ids e = Step.forEach remove ids e := by
      rw [removeMany, Step.bind_ok hstate]
      cases hb : e.behaviour with
      | memory => exact absurd hb hm
      | plain | failing => rfl
    rw [heach, forEach_remove, advances, if_neg hm]

theorem advances_pos (e : Entry) {ids : List DocId} (h : ids ≠ []) :
    0 < e.advances ids ∧ e.advances ids ≤ ids.length := by
  have hpos : 0 < ids.length := List.length_pos_iff.mpr h
  unfold advances
  split
  · exact ⟨Nat.one_pos, hpos⟩
  · exact ⟨hpos, Nat.le_refl _⟩

/-! ### One call -/

/-- Whether a call stores only if a generation that it is given is the current one. -/
def Call.conditional : Call → Bool
  | .putIfGeneration .. | .putManyIfGeneration .. => true
  | _ => false

/-- How many removals a call comes to, the ids of a batch being counted one by one. -/
def Call.removals : Call → Nat
  | .remove _ | .clear => 1
  | .removeMany ids => ids.length
  | _ => 0

/-- Whether a call reads the generation. -/
def Call.reads : Call → Bool
  | .generation => true
  | _ => false

/-- The generation that an answer tells. -/
def Reply.generation? : Except CacheError Reply → Option UInt64
  | .ok (.generation g) => some g
  | _ => none

theorem generation?_reply {α : Type} {reply : α → Reply} (hreply : ∀ a, Reply.generation? (.ok (reply a)) = none)
    (m : Do α) (e : Entry) : Reply.generation? ((m >>= fun a => pure (reply a)) e).1 = none := by
  rw [Step.bind_apply]
  cases m e with
  | mk r e' =>
    cases r with
    | error err => rfl
    | ok a => exact hreply a

theorem generation?_perform (c : Call) (e : Entry) :
    Reply.generation? (perform c e).1 = if c.reads then some e.generation else none := by
  cases c with
  | key | generation | stats => rfl
  | get id => exact generation?_reply (fun _ => rfl) (get id) e
  | getMany ids => exact generation?_reply (fun _ => rfl) (getMany ids) e
  | put id payload => exact generation?_reply (fun _ => rfl) (put id payload) e
  | putMany items => exact generation?_reply (fun _ => rfl) (putMany items) e
  | putIfGeneration g id payload => exact generation?_reply (fun _ => rfl) (putIfGeneration g id payload) e
  | putManyIfGeneration g items => exact generation?_reply (fun _ => rfl) (putManyIfGeneration g items) e
  | remove id => exact generation?_reply (fun _ => rfl) (remove id) e
  | removeMany ids => exact generation?_reply (fun _ => rfl) (removeMany ids) e
  | clear => exact generation?_reply (fun _ => rfl) clear e

/-- Answers that tell the same, unless what is told is the generation. -/
inductive Agree : Except CacheError Reply → Except CacheError Reply → Prop
  | same (r : Reply) : Agree (.ok r) (.ok r)
  | generation (g g' : UInt64) : Agree (.ok (.generation g)) (.ok (.generation g'))

/-- Generations that are ahead of earlier ones of two entries: both of them or neither, and by so many removals at
    most. -/
def Ahead (n : Nat) (g g' now now' : UInt64) : Prop :=
  ∃ a a', a ≤ n ∧ a' ≤ n ∧ (a = 0 ↔ a' = 0) ∧ now = g + UInt64.ofNat a ∧ now' = g' + UInt64.ofNat a'

namespace Ahead

variable {n m : Nat} {g g' now now' later later' : UInt64}

theorem refl (n : Nat) (g g' : UInt64) : Ahead n g g' g g' :=
  ⟨0, 0, Nat.zero_le n, Nat.zero_le n, Iff.rfl, (UInt64.add_zero g).symm, (UInt64.add_zero g').symm⟩

theorem trans (h : Ahead n g g' now now') (h' : Ahead m now now' later later') :
    Ahead (n + m) g g' later later' := by
  obtain ⟨a, a', ha, ha', haa, rfl, rfl⟩ := h
  obtain ⟨b, b', hb, hb', hbb, rfl, rfl⟩ := h'
  refine ⟨a + b, a' + b', Nat.add_le_add ha hb, Nat.add_le_add ha' hb', ?_, ?_, ?_⟩
  · rw [Nat.add_eq_zero_iff, Nat.add_eq_zero_iff, haa, hbb]
  · rw [UInt64.ofNat_add, UInt64.add_assoc]
  · rw [UInt64.ofNat_add, UInt64.add_assoc]

theorem mono (h : Ahead n g g' now now') (hle : n ≤ m) : Ahead m g g' now now' := by
  obtain ⟨a, a', ha, ha', hrest⟩ := h
  exact ⟨a, a', Nat.le_trans ha hle, Nat.le_trans ha' hle, hrest⟩

/-- Fewer removals than a generation can count do not lead back to it. -/
theorem current (h : Ahead n g g' now now') (hfew : n < UInt64.size) : now = g ↔ now' = g' := by
  obtain ⟨a, a', ha, ha', haa, rfl, rfl⟩ := h
  have hround : ∀ {g : UInt64} {a : Nat}, a ≤ n → (g + UInt64.ofNat a = g ↔ a = 0) := by
    intro g a ha
    rw [UInt64.add_eq_left, ← UInt64.toNat_inj, UInt64.toNat_ofNat_of_lt' (Nat.lt_of_le_of_lt ha hfew)]
    rfl
  rw [hround ha, hround ha', haa]

end Ahead

/-- Two entries that do not fail and hold the same. -/
structure Twins (e e' : Entry) : Prop where
  steady : e.behaviour.fails = false
  steady' : e'.behaviour.fails = false
  alike : Alike e e'

/-- What a call does to two such entries: they answer the same, stay what they are, and advance by so many removals at
    most. -/
structure Together (n : Nat) (e e' : Entry) (x x' : Except CacheError Reply × Entry) : Prop where
  answers : Agree x.1 x'.1
  twins : Twins x.2 x'.2
  ahead : Ahead n e.generation e'.generation x.2.generation x'.2.generation

section
variable {e e' : Entry} (ht : Twins e e')
include ht

/-- A lookup. -/
theorem Together.looked (ids : List DocId) (r : Reply) :
    Together 0 e e' (.ok r, (e.lookedAll ids).2) (.ok r, (e'.lookedAll ids).2) := by
  obtain ⟨-, hg, hb⟩ := lookedAll_keeps e ids
  obtain ⟨-, hg', hb'⟩ := lookedAll_keeps e' ids
  refine ⟨.same r, ⟨hb.symm ▸ ht.steady, hb'.symm ▸ ht.steady', ht.alike.lookedAll ids⟩, ?_⟩
  show Ahead 0 _ _ (e.lookedAll ids).2.generation (e'.lookedAll ids).2.generation
  rw [hg, hg']
  exact .refl 0 _ _

theorem Together.stored (items : List (DocId × String)) (r : Reply) :
    Together 0 e e' (.ok r, e.stored items) (.ok r, e'.stored items) :=
  ⟨.same r, ⟨ht.steady, ht.steady', ht.alike.stored items⟩, .refl 0 _ _⟩

/-- Payloads are stored with a generation each that is the current one in both entries or in neither. -/
theorem Together.storedIf {g g' : UInt64} (hcurrent : e.generation = g ↔ e'.generation = g')
    (items : List (DocId × String)) :
    Together 0 e e' (.ok (.stored (e.storedIf g items).1), (e.storedIf g items).2)
      (.ok (.stored (e'.storedIf g' items).1), (e'.storedIf g' items).2) := by
  by_cases hg : e.generation = g
  · rw [Entry.storedIf, Entry.storedIf, if_pos hg, if_pos (hcurrent.mp hg)]
    exact .stored ht items _
  · rw [Entry.storedIf, Entry.storedIf, if_neg hg, if_neg (mt hcurrent.mpr hg)]
    exact ⟨.same _, ht, .refl 0 _ _⟩

theorem Together.removed {ids : List DocId} {a a' n : Nat} (ha : 0 < a ∧ a ≤ n) (ha' : 0 < a' ∧ a' ≤ n) :
    Together n e e'
      (.ok .done, { e with payloads := e.payloads.eraseAll ids, generation := e.generation + UInt64.ofNat a })
      (.ok .done, { e' with payloads := e'.payloads.eraseAll ids, generation := e'.generation + UInt64.ofNat a' }) :=
  ⟨.same _, ⟨ht.steady, ht.steady', ht.alike.removed ids _ _⟩,
    a, a', ha.2, ha'.2, ⟨fun h => absurd h (Nat.ne_of_gt ha.1), fun h => absurd h (Nat.ne_of_gt ha'.1)⟩, rfl, rfl⟩

/-- A call that takes no generation. Only removals advance the generations, and they advance both. -/
theorem perform_together {c : Call} (hc : c.conditional = false) (hids : c ≠ .removeMany []) :
    Together c.removals e e' (perform c e) (perform c e') := by
  obtain ⟨hs, hs', halike⟩ := ht
  have ht : Twins e e' := ⟨hs, hs', halike⟩
  cases c with
  | key =>
    refine ⟨?_, ht, .refl 0 _ _⟩
    show Agree (.ok (.key e.key)) (.ok (.key e'.key))
    rw [halike.key]
    exact .same _
  | get id =>
    rw [perform, Step.bind_ok (get_steady hs id), Step.bind_ok (get_steady hs' id), halike.payloads]
    exact .looked ht [id] _
  | getMany ids =>
    rw [perform, Step.bind_ok (getMany_steady hs ids), Step.bind_ok (getMany_steady hs' ids), halike.payloads]
    exact .looked ht ids _
  | put id payload =>
    rw [perform, Step.bind_ok (put_steady hs id payload), Step.bind_ok (put_steady hs' id payload)]
    exact .stored ht _ _
  | putMany items =>
    rw [perform, Step.bind_ok (putMany_steady hs items), Step.bind_ok (putMany_steady hs' items)]
    exact .stored ht items _
  | generation => exact ⟨.generation _ _, ht, .refl 0 _ _⟩
  | putIfGeneration | putManyIfGeneration => cases hc
  | remove id =>
    have hone : 0 < 1 ∧ 1 ≤ [id].length := ⟨Nat.one_pos, Nat.le_refl 1⟩
    exact .removed ht hone hone
  | removeMany ids =>
    have hne : ids ≠ [] := fun h => hids (h ▸ rfl)
    rw [perform, Step.bind_ok (removeMany_apply ids e), Step.bind_ok (removeMany_apply ids e')]
    exact .removed ht (advances_pos e hne) (advances_pos e' hne)
  | clear =>
    rw [perform, Step.bind_ok (clear_steady hs), Step.bind_ok (clear_steady hs')]
    exact ⟨.same _, ⟨hs, hs', halike.emptied⟩, 1, 1, Nat.le_refl 1, Nat.le_refl 1, Iff.rfl, rfl, rfl⟩
  | stats =>
    refine ⟨?_, ht, .refl 0 _ _⟩
    show Agree (.ok (.stats ⟨e.hits, e.misses, e.payloads.length⟩))
      (.ok (.stats ⟨e'.hits, e'.misses, e'.payloads.length⟩))
    rw [halike.payloads, halike.hits, halike.misses]
    exact .same _

end

/-! ### Runs -/

/-- A call as part of a run. A generation that it takes is one that was read earlier in the run, and is told by how many
    were read before that one. -/
inductive Request where
  | call (c : Call) (unconditional : c.conditional = false)
  | putIfGeneration (read : Nat) (id : DocId) (payload : String)
  | putManyIfGeneration (read : Nat) (items : List (DocId × String))

namespace Request

/-- Whether a request can be made after so many generations were read, as callers make it: a batch of removals is not
    empty, and a generation that is used has been read. -/
def allowed (read : Nat) : Request → Bool
  | call (.removeMany ids) _ => !ids.isEmpty
  | call _ _ => true
  | putIfGeneration n _ _ | putManyIfGeneration n _ => n < read

/-- Whether a request reads the generation. -/
def reads : Request → Bool
  | call c _ => c.reads
  | _ => false

def removals : Request → Nat
  | call c _ => c.removals
  | _ => 0

/-- The call of an entry from which these generations were read before. -/
def toCall (read : List UInt64) : Request → Call
  | call c _ => c
  | putIfGeneration n id payload => .putIfGeneration (read.getD n 0) id payload
  | putManyIfGeneration n items => .putManyIfGeneration (read.getD n 0) items

end Request

/-- Whether requests can be made one after the other, so many generations having been read before. -/
def allowedAll : Nat → List Request → Bool
  | _, [] => true
  | read, r :: rs => r.allowed read && allowedAll (read + r.reads.toNat) rs

/-- How many removals the requests of a run are. -/
def removalsOf : List Request → Nat
  | [] => 0
  | r :: rs => r.removals + removalsOf rs

/-- What the requests of a run are answered and what they leave, the generations being given that were read before. -/
def run : List Request → List UInt64 → Entry → List (Except CacheError Reply) × Entry
  | [], _, e => ([], e)
  | r :: rs, read, e =>
    let (answer, e) := perform (r.toCall read) e
    let (answers, e) := run rs (read ++ (Reply.generation? answer).toList) e
    (answer :: answers, e)

/-- A request of a run of two entries, the generations that were read before being ahead by so many removals at most. -/
theorem request_together {e e' : Entry} (ht : Twins e e') {n : Nat} (hfew : n < UInt64.size) {read read' : List UInt64}
    (hread : List.Forall₂ (fun g g' => Ahead n g g' e.generation e'.generation) read read') {r : Request}
    (hr : r.allowed read.length = true) :
    Together r.removals e e' (perform (r.toCall read) e) (perform (r.toCall read') e') := by
  have hput : ∀ {m : Nat} (items : List (DocId × String)), m < read.length →
      Together 0 e e' (perform (.putManyIfGeneration (read.getD m 0) items) e)
        (perform (.putManyIfGeneration (read'.getD m 0) items) e') := by
    intro m items hm
    have hm' : m < read'.length := hread.length_eq ▸ hm
    have hcurrent : e.generation = read.getD m 0 ↔ e'.generation = read'.getD m 0 := by
      rw [List.getD_eq_getElem?_getD, List.getD_eq_getElem?_getD, List.getElem?_eq_getElem hm,
        List.getElem?_eq_getElem hm']
      exact (hread.get hm hm').current hfew
    rw [perform, perform, Step.bind_ok (putManyIfGeneration_steady ht.steady _ items),
      Step.bind_ok (putManyIfGeneration_steady ht.steady' _ items)]
    exact .storedIf ht hcurrent items
  cases r with
  | call c hc =>
    refine perform_together ht hc fun heq => ?_
    subst heq
    cases hr
  | putIfGeneration m id payload => exact hput [(id, payload)] (of_decide_eq_true hr)
  | putManyIfGeneration m items => exact hput items (of_decide_eq_true hr)

theorem Request.reads_toCall (r : Request) (read : List UInt64) : (r.toCall read).reads = r.reads := by
  cases r <;> rfl

/-- What a request reads of both entries, if it reads the generation. -/
theorem read_together (r : Request) {e e' : Entry} {n m : Nat} (hle : m ≤ n) {x x' : Except CacheError Reply × Entry}
    (h : Together m e e' x x') (read read' : List UInt64) :
    List.Forall₂ (fun g g' => Ahead n g g' x.2.generation x'.2.generation)
      (Reply.generation? (perform (r.toCall read) e).1).toList
      (Reply.generation? (perform (r.toCall read') e').1).toList := by
  rw [generation?_perform, generation?_perform, r.reads_toCall, r.reads_toCall]
  cases r.reads with
  | false => exact .nil
  | true => exact .cons (h.ahead.mono hle) .nil

theorem run_together : ∀ {rs : List Request} {n : Nat} {read read' : List UInt64} {e e' : Entry}, Twins e e' →
    List.Forall₂ (fun g g' => Ahead n g g' e.generation e'.generation) read read' →
    allowedAll read.length rs = true → n + removalsOf rs < UInt64.size →
    List.Forall₂ Agree (run rs read e).1 (run rs read' e').1 ∧ Twins (run rs read e).2 (run rs read' e').2
  | [], _, _, _, _, _, ht, _, _, _ => ⟨.nil, ht⟩
  | r :: rs, n, read, read', e, e', ht, hread, hallowed, hfew => by
    rw [allowedAll, Bool.and_eq_true] at hallowed
    rw [removalsOf, ← Nat.add_assoc] at hfew
    have hbound : n < UInt64.size :=
      Nat.lt_of_le_of_lt (Nat.le_trans (Nat.le_add_right n _) (Nat.le_add_right _ _)) hfew
    have hone := request_together ht hbound hread hallowed.1
    -- what was read before falls behind by the removals of this request, and what is read now by no more than these
    have hnext := List.rel_append (hread.imp fun _ _ h => h.trans hone.ahead)
      (read_together r (Nat.le_add_left ..) hone read read')
    have hlength : (read ++ (Reply.generation? (perform (r.toCall read) e).1).toList).length =
        read.length + r.reads.toNat := by
      rw [List.length_append, generation?_perform, Request.reads_toCall]
      cases r.reads <;> rfl
    have hrest := run_together hone.twins hnext (hlength ▸ hallowed.2) hfew
    exact ⟨.cons hone.answers hrest.1, hrest.2⟩

/-- Whether batches are done at once or item by item is not seen. Two entries that do not fail and hold the same, such
    as new ones of one type, answer any run the same and hold the same after it, the counts of lookups included; only
    their generations may be others. The requests are those that callers make: no batch of removals is empty, a
    generation with which something is stored was read earlier in the run, and there are fewer removals than a
    generation can count, the ids of a batch being removals each. -/
theorem runs_agree {e e' : Entry} (ht : Twins e e') {rs : List Request} (hallowed : allowedAll 0 rs = true)
    (hfew : removalsOf rs < UInt64.size) :
    List.Forall₂ Agree (run rs [] e).1 (run rs [] e').1 ∧ Alike (run rs [] e).2 (run rs [] e').2 := by
  have hfew : 0 + removalsOf rs < UInt64.size := by rwa [Nat.zero_add]
  obtain ⟨hanswers, htwins⟩ := run_together ht .nil hallowed hfew
  exact ⟨hanswers, htwins.alike⟩

/-- Two payloads are stored, removed in a batch that names an id twice, and stored with the generation of before and
    with that of after. -/
def storedTwice : List Request :=
  [.call (.putMany [(.identity 1, "one"), (.identity 2, "two")]) rfl, .call .generation rfl,
    .call (.removeMany [.identity 1, .identity 1, .identity 3]) rfl, .call .generation rfl,
    .putIfGeneration 0 (.identity 1) "old", .putManyIfGeneration 1 [(.identity 3, "three")],
    .call (.getMany [.identity 1, .identity 2, .identity 2, .identity 3]) rfl, .call .stats rfl]

theorem runs_agree_notes :
    let atOnce := run storedTwice [] (new ⟨"Note"⟩)
    let itemByItem := run storedTwice [] (new ⟨"Note"⟩ .plain)
    (atOnce.2.generation = 1 ∧ itemByItem.2.generation = 3) ∧
      List.Forall₂ Agree atOnce.1 itemByItem.1 ∧
      itemByItem.2.payloads = [(.identity 2, "two"), (.identity 3, "three")] ∧
      itemByItem.2.hits = 3 ∧ itemByItem.2.misses = 1 := by
  intro atOnce itemByItem
  have ht : Twins (new ⟨"Note"⟩) (new ⟨"Note"⟩ .plain) := ⟨rfl, rfl, rfl, rfl, rfl, rfl⟩
  have hallowed : allowedAll 0 storedTwice = true := by decide
  obtain ⟨hanswers, halike⟩ := runs_agree ht hallowed (by decide)
  refine ⟨⟨by decide, by decide⟩, hanswers, ?_, ?_, ?_⟩
  · exact halike.payloads.trans (by decide)
  · exact halike.hits.trans (by decide)
  · exact halike.misses.trans (by decide)

end DocStore.Cache.Entry
