import DocStore.Proofs.DocId
import DocStore.Proofs.Sql.Datum
import DocStore.Proofs.Text.Order

/-! The order of ids. GUIDs compare as their texts, and ids of one type as what a column for the type holds for them. -/

open Std

namespace DocStore

namespace Guid

theorem compare_hyphenated (ns : List Nat) {cs ds : List Char} (h : cs.length = ds.length) :
    compare (hyphenated ns cs) (hyphenated ns ds) =
      compare (cs.take (ns.foldr (· + ·) 0)) (ds.take (ns.foldr (· + ·) 0)) := by
  induction ns generalizing cs ds with
  | nil => simp [hyphenated]
  | cons n ns ih =>
    have htake : (cs.take n).length = (ds.take n).length := by rw [List.length_take, List.length_take, h]
    have hdrop : (cs.drop n).length = (ds.drop n).length := by rw [List.length_drop, List.length_drop, h]
    cases ns with
    | nil => simp [hyphenated]
    | cons m ns =>
      have hfirst (cs : List Char) :
          hyphenated (n :: m :: ns) cs = cs.take n ++ '-' :: hyphenated (m :: ns) (cs.drop n) := by
        rw [hyphenated]
        rintro ⟨⟩
      rw [hfirst, hfirst, Text.compare_append htake, List.compare_cons_cons, compare_self, Ordering.eq_then, ih hdrop,
        ← Text.compare_append htake, ← List.take_add, ← List.take_add]
      rfl

/-- The order of the texts is the order of the numbers. -/
theorem compare_text (g g' : Guid) : compare g.text g'.text = compare g g' := by
  have hlength : (Text.hexDigits 32 g.value.toNat).length = (Text.hexDigits 32 g'.value.toNat).length := by
    rw [Text.length_hexDigits, Text.length_hexDigits]
  have hall (n : Nat) : (Text.hexDigits 32 n).take (groups.foldr (· + ·) 0) = Text.hexDigits 32 n :=
    List.take_of_length_le (Nat.le_of_eq (Text.length_hexDigits ..))
  have hvalue (g : Guid) : g.value.toNat % 16 ^ 32 = g.value.toNat := Nat.mod_eq_of_lt g.value.isLt
  rw [← Text.compare_toList, toList_text, toList_text, compare_hyphenated groups hlength, hall, hall,
    Text.compare_hexDigits, hvalue, hvalue]
  rfl

end Guid

namespace DocId

open Sql (Datum)

theorem compare_guid (g g' : Guid) : compare (guid g) (guid g') = compare g g' := rfl

/-- Ids of one type compare as what their columns hold. -/
theorem compare_datum {a b : DocId} (h : a.idType = b.idType) : compare a.datum b.datum = compare a b := by
  cases a <;> cases b <;> cases h
  case guid.guid g g' =>
    have hcolumn (g : Guid) : (guid g).datum = .text g.text := rfl
    rw [hcolumn, hcolumn, Datum.compare_text, Guid.compare_text, compare_guid]
  all_goals rfl

end DocId

end DocStore
