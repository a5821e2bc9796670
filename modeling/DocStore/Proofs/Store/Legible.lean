import DocStore.Proofs.Store.Selected

/-! Ids that are stored. As long as structures are inserted under ids of their type that can be read back, all ids in the
    sets of types can be: nothing else that is done with a store adds an id. -/

namespace DocStore.Store

open Sql (Datum Affinity)

/-- A set that, if it is the set of a type, holds ids of the type that can be read back. -/
def TableSet.Legible (types : Schema → Prop) (t : TableSet) : Prop :=
  ∀ s, types s → folded t.stem = folded s.stem → t.affinity = .ofIdType s.idType ∧
    ∀ r ∈ t.rows, ∃ id : DocId, id.idType = s.idType ∧ id.Readable ∧ r.id = id.datum

/-- Whether a call adds nothing to a set but an id of its type that can be read back. -/
def Client.Call.AddsLegible (types : Schema → Prop) (call : Client.Call) : Prop :=
  ∀ s es id, call.written? = some (s, es) → call.added? = some id →
    types s ∧ id.idType = s.idType ∧ id.Readable

variable {types : Schema → Prop}

namespace TableSet

variable {t t' : TableSet} {s : Schema} {id : DocId}

theorem idDatum_of_affinity (h : t.affinity = .ofIdType id.idType) : t.idDatum id = id.datum := by
  rw [idDatum, h]
  exact id.apply_datum

namespace Legible

theorem of_sameRows (ht : t.Legible types) (h : SameRows t t') : t'.Legible types := by
  intro s hs hname
  rw [h.affinity, h.rows]
  exact ht s hs (h.stem ▸ hname)

/-- The rows of a legible set may change, if no id is added but a legible one. -/
theorem changed (ha : Apart types) (ht : t.Legible types) {es : List IndexEntry} {added : Option DocId}
    (hchange : t.RowChange es added t')
    (hadded : ∀ id, added = some id → ∃ s, types s ∧ folded t.stem = folded s.stem ∧ id.idType = s.idType ∧ id.Readable) :
    t'.Legible types := by
  intro s hs hname
  rw [hchange.stem] at hname
  obtain ⟨haffinity, hids⟩ := ht s hs hname
  refine ⟨hchange.affinity.trans haffinity, fun r hr => ?_⟩
  obtain ⟨r₀, hr₀, heq⟩ | ⟨id, hid, heq⟩ := hchange.ids hr
  · rw [heq]
    exact hids r₀ hr₀
  · -- the schema that was written by is another one of the type at most
    obtain ⟨s', hs', hname', htype, hback⟩ := hadded id hid
    have hkey : s'.key = s.key := (ha.stem hs' hs).mpr (hname'.symm.trans hname)
    have htype' : id.idType = s.idType := htype.trans (ha.idType hs' hs hkey)
    exact ⟨id, htype', hback, heq.trans (idDatum_of_affinity (htype' ▸ haffinity))⟩

/-- The ids in the set of a type are read back as what they are. -/
theorem validIds (ht : t.Legible types) (hs : types s) (hname : folded t.stem = folded s.stem) : t.ValidIds s := by
  intro r hr
  obtain ⟨haffinity, hids⟩ := ht s hs hname
  obtain ⟨id, htype, hback, hid⟩ := hids r hr
  rw [hid, ← htype]
  exact map_eq_ok.mpr ⟨id, hback, idDatum_of_affinity (htype ▸ haffinity)⟩

/-- Every id of the type can be asked for. -/
theorem returns (ht : t.Legible types) (hs : types s) (hof : t.Of s) (hid : id.idType = s.idType) : t.Returns id := by
  intro payload hpayload
  obtain ⟨r, hr, hrow, -⟩ := hof.payload?_eq_some.mp hpayload
  obtain ⟨id', htype, hback, heq⟩ := (ht s hs hof.stem).2 r hr
  rwa [DocId.datum_inj (hid.trans htype.symm) (hrow.symm.trans heq)]

end Legible

end TableSet

theorem keptShaped_legible (ha : Apart types) : KeptShaped types (TableSet.Legible types) where
  new {s} hs s' hs' hname := by
    have hkey : s.key = s'.key := (ha.stem hs hs').mpr hname
    exact ⟨congrArg Affinity.ofIdType (ha.idType hs hs' hkey), nofun⟩
  index _ _ ht := ht.of_sameRows ⟨rfl, rfl, rfl⟩
  stale _ ht := ht.of_sameRows ⟨rfl, rfl, rfl⟩

/-- A call about the types leaves the sets legible, if what it adds is. -/
theorem legible_keeps (ha : Apart types) (c : Client) (call : Client.Call) (habout : call.About types)
    (hadds : call.AddsLegible types) : Step.Keeps (Everywhere (TableSet.Legible types)) (c.perform call) :=
  everywhere_keeps_of (keptShaped_legible ha) c habout fun {s es _ _} hw hname hchange ht =>
    ht.changed ha hchange fun id hid =>
      let ⟨hs, htype, hback⟩ := hadds s es id hw hid
      ⟨s, hs, hname, htype, hback⟩

end DocStore.Store
