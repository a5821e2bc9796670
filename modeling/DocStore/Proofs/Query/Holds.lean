import DocStore.Proofs.Sql.Datum
import DocStore.Proofs.Sql.Like
import DocStore.Query.Filter
import Mathlib.Data.List.Infix
import Mathlib.Data.List.TakeWhile

/-! What a predicate says of a structure, read off the index rows directly. A comparison holds if some value of
    the member stands in the relation to the literal; a text match if some value contains, starts with or ends
    with the text, as far as the two are seen; `and`, `or` and `not` are those of Booleans. Values and literals
    compare as they are stored. -/

namespace DocStore

open Sql (Datum Row)
open Sql.Like (Alike after? after?_eq_some mem_suffixes sameLetter seen suffixes visible)

/-! ### Values -/

/-- The index rows that the structure of an id has for the member of a path. -/
def rowsOf (rows : List Row) (id : Datum) (path : String) : List Row :=
  rows.filter fun r => Store.same (r .id) id && r .path == .text path

/-- The values that the structure of an id has for a member. -/
def valuesOf (rows : List Row) (id : Datum) (path : String) (code : TypeCode) : List Datum :=
  (rowsOf rows id path).map (· (.value code))

/-- A literal as values of the member are compared with it: an integer as a fractal where the member is one. -/
def MemberRef.datumOf (m : MemberRef) (v : Value) : Datum :=
  match m.code, v with
  | .fractal, .integer n => .ofValue (.fractal (.ofInt n))
  | _, v => .ofValue v

/-! ### Texts -/

namespace TextMatch

/-- Whether the text looked for has to stand at the end: in a match that says so, and if it holds a null character, as
    nothing is seen of a pattern beyond one. -/
def atEnd (op : TextMatch) (sought : String) : Bool := op == .endsWith || sought.toList.contains '\x00'

/-- Whether a text contains, starts with or ends with the one looked for, the case of ASCII letters apart. Of both only
    what stands before the first null character counts; without one it is the plain relation of the two texts, see
    `holds_iff_stands`. -/
def holds (op : TextMatch) (sought text : String) : Bool :=
  (if op == .startsWith then [visible text] else suffixes (visible text)).any fun t =>
    (after? sameLetter (visible sought) t).any fun rest => !op.atEnd sought || rest.isEmpty

/-- The same of a datum that may be no text, of which it does not hold. -/
def holdsOf (op : TextMatch) (sought : String) : Datum → Bool
  | .text t => op.holds sought t
  | .null | .integer _ | .real _ => false

/-- A text match holds where the text looked for stands, the case of ASCII letters apart. -/
theorem holds_iff (op : TextMatch) (sought text : String) : op.holds sought text = true ↔
    ∃ before found rest, visible text = before ++ (found ++ rest) ∧
      Alike sameLetter (visible sought) found ∧
      (op = .startsWith → before = []) ∧ (op.atEnd sought = true → rest = []) := by
  have hplace : ∀ t, ((after? sameLetter (visible sought) t).any fun rest => !op.atEnd sought || rest.isEmpty) = true ↔
      ∃ found rest, t = found ++ rest ∧ Alike sameLetter (visible sought) found ∧
        (op.atEnd sought = true → rest = []) := by
    intro t
    simp only [Option.any_eq_true, after?_eq_some, Bool.or_eq_true, Bool.not_eq_true', List.isEmpty_iff]
    constructor
    · rintro ⟨rest, ⟨found, rfl, hf⟩, hend⟩
      exact ⟨found, rest, rfl, hf, fun h => hend.resolve_left (by simp [h])⟩
    · rintro ⟨found, rest, rfl, hf, hend⟩
      refine ⟨rest, ⟨found, rfl, hf⟩, ?_⟩
      cases h : op.atEnd sought
      · exact Or.inl rfl
      · exact Or.inr (hend h)
  simp only [holds, List.any_eq_true, hplace]
  constructor
  · rintro ⟨t, ht, found, rest, rfl, hf, hend⟩
    by_cases hop : op = .startsWith
    · simp only [hop, beq_self_eq_true, if_true, List.mem_singleton] at ht
      exact ⟨[], found, rest, ht.symm, hf, fun _ => rfl, hend⟩
    · simp only [beq_iff_eq, hop, if_false] at ht
      obtain ⟨before, hb⟩ := mem_suffixes.mp ht
      exact ⟨before, found, rest, hb.symm, hf, fun h => absurd h hop, hend⟩
  · rintro ⟨before, found, rest, htext, hf, hstart, hend⟩
    refine ⟨found ++ rest, ?_, found, rest, rfl, hf, hend⟩
    by_cases hop : op = .startsWith
    · simp [hop, htext, hstart hop]
    · simp only [beq_iff_eq, hop, if_false]
      exact mem_suffixes.mpr ⟨before, htext.symm⟩

/-- Where a match wants a part of a text to stand. -/
def Stands : TextMatch → List Char → List Char → Prop
  | .contains, found, t => found <:+: t
  | .startsWith, found, t => found <+: t
  | .endsWith, found, t => found <:+ t

theorem stands_iff {op : TextMatch} {found t : List Char} : op.Stands found t ↔
    ∃ before rest, t = before ++ (found ++ rest) ∧ (op = .startsWith → before = []) ∧ (op = .endsWith → rest = []) := by
  cases op with
  | contains =>
    simp only [Stands, List.IsInfix, reduceCtorEq, false_implies, and_true, List.append_assoc, eq_comm]
  | startsWith => simp [Stands, List.IsPrefix, eq_comm]
  | endsWith => simp [Stands, List.IsSuffix, eq_comm]

theorem stands_map {op : TextMatch} {f : Char → Char} {found t : List Char} :
    op.Stands found (t.map f) ↔ ∃ part, op.Stands part t ∧ found = part.map f := by
  cases op with
  | contains => exact List.infix_map_iff
  | startsWith => exact List.prefix_map_iff
  | endsWith => exact List.suffix_map_iff

/-- What the engine takes for the same character: the two that are none count as the replacement character, and the case
    of ASCII letters does not count. -/
def sameSeen (a b : Char) : Bool := sameLetter (seen a) (seen b)

theorem alike_map_seen {u t : List Char} : Alike sameLetter (u.map seen) (t.map seen) ↔ Alike sameSeen u t := by
  rw [Alike, List.forall₂_map_left_iff, List.forall₂_map_right_iff]
  rfl

theorem visible_of_no_null {s : String} (h : '\x00' ∉ s.toList) : visible s = s.toList.map seen := by
  have hall : ∀ c ∈ s.toList, (c != '\x00') = true := fun c hc => bne_iff_ne.mpr fun heq => h (heq ▸ hc)
  rw [visible, List.takeWhile_eq_self_iff.mpr hall]

/-- Between texts without a null character a match is plain containment: it holds if the text looked for stands in the
    other one, at the beginning of it or at its end, up to what counts as the same character. -/
theorem holds_iff_stands {op : TextMatch} {sought text : String} (hsought : '\x00' ∉ sought.toList)
    (htext : '\x00' ∉ text.toList) :
    op.holds sought text = true ↔ ∃ found, Alike sameSeen sought.toList found ∧ op.Stands found text.toList := by
  have hend : op.atEnd sought = true ↔ op = .endsWith := by
    simp [atEnd, hsought]
  rw [holds_iff, visible_of_no_null hsought, visible_of_no_null htext]
  constructor
  · rintro ⟨before, found, rest, htext, halike, hstart, hrest⟩
    have hstands := stands_iff.mpr ⟨before, rest, htext, hstart, fun h => hrest (hend.mpr h)⟩
    obtain ⟨part, hpart, rfl⟩ := stands_map.mp hstands
    exact ⟨part, alike_map_seen.mp halike, hpart⟩
  · rintro ⟨part, halike, hpart⟩
    obtain ⟨before, rest, htext, hstart, hrest⟩ := stands_iff.mp (stands_map.mpr ⟨part, hpart, rfl⟩)
    exact ⟨before, part.map seen, rest, htext, alike_map_seen.mpr halike, hstart, fun h => hrest (hend.mp h)⟩

end TextMatch

/-! ### Predicates -/

namespace Predicate

/-- A comparison with null: the structure has no index row for the member, or has one. -/
def holdsNull (op : Comparison) (found : List Row) : Bool :=
  match op with
  | .eq => found.isEmpty
  | .ne => !found.isEmpty
  | _ => false

/-- Some value of the member stands in the relation to the literal. -/
def holdsCompare (rows : List Row) (id : Datum) (m : MemberRef) (op : Comparison) (v : Value) : Bool :=
  (valuesOf rows id m.path m.code).any fun x => x.stands op (m.datumOf v)

mutual

/-- Whether a predicate holds for the structure of an id, given all index rows of the set. The right member of a
    comparison of members counts with its first value. -/
def holds (rows : List Row) (id : Datum) : Predicate → Bool
  | compare m op v => if v.isNull then holdsNull op (rowsOf rows id m.path) else holdsCompare rows id m op v
  | compareMembers l op r =>
    (valuesOf rows id l.path l.code).any fun x =>
      (valuesOf rows id r.path r.code).head?.any fun y => x.stands op y
  | textMatch m op t => (valuesOf rows id m.path m.code).any (op.holdsOf t)
  | oneOf m vs => (valuesOf rows id m.path m.code).any fun x => vs.any fun v => x.stands .eq (m.datumOf v)
  | between m lo hi =>
    (valuesOf rows id m.path m.code).any fun x => x.stands .ge (m.datumOf lo) && x.stands .le (m.datumOf hi)
  | anyElement m op v => holdsCompare rows id m op v
  | all ps => holdsAll rows id ps
  | any ps => holdsAny rows id ps
  | not p => !holds rows id p

def holdsAll (rows : List Row) (id : Datum) : List Predicate → Bool
  | [] => true
  | p :: ps => holds rows id p && holdsAll rows id ps

def holdsAny (rows : List Row) (id : Datum) : List Predicate → Bool
  | [] => false
  | p :: ps => holds rows id p || holdsAny rows id ps

end

end Predicate

end DocStore
