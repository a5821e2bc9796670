import DocStore.Proofs.Schema.Entries
import DocStore.Proofs.Schema.Values
import DocStore.Proofs.Text.Order

/-! What a path leads to. A path is followed through the members of objects and into every element of the arrays on its
    way, and reaches the scalars at which it is used up. A document is indexed by the scalars that the paths of the
    members reach, member by member and in document order, so what lies on no path is not seen. -/

namespace DocStore

/-! ### Following a path -/

namespace Json

/-- A value that is neither null nor has values in it. -/
def isScalar : Json → Bool
  | .bool _ | .number _ | .string _ => true
  | .null | .array _ | .object _ => false

/-- A path leads from a value to a scalar. The place of the scalar are the positions in the arrays that were entered on
    the way; the path tells all the rest, so places in their order are document order. -/
inductive Reaches : Json → List String → List Nat → Json → Prop
  | scalar {v : Json} (hv : v.isScalar = true) : Reaches v [] [] v
  | item {items : List Json} {i : Nat} {v x : Json} {path : List String} {place : List Nat} (hi : items[i]? = some v)
      (h : Reaches v path place x) : Reaches (.array items) path (i :: place) x
  | member {k : String} {v v' x : Json} {path : List String} {place : List Nat} (hk : v.member? k = some v')
      (h : Reaches v' path place x) : Reaches v (k :: path) place x

/-- Scalars with their places: all that there are, and in document order. -/
structure Listed (reached : List Nat → Json → Prop) (ps : List (List Nat × Json)) : Prop where
  ordered : ps.Pairwise fun p q => p.1 < q.1
  complete : ∀ p : List Nat × Json, p ∈ ps ↔ reached p.1 p.2

variable {reached reached' : List Nat → Json → Prop} {ps qs : List (List Nat × Json)}

theorem Listed.none (h : ∀ place x, ¬reached place x) : Listed reached [] :=
  ⟨.nil, fun p => iff_of_false List.not_mem_nil (h p.1 p.2)⟩

theorem Listed.congr (h : Listed reached ps) (heq : ∀ place x, reached place x ↔ reached' place x) :
    Listed reached' ps :=
  ⟨h.ordered, fun p => (h.complete p).trans (heq p.1 p.2)⟩

/-- What is reached from an array whose first element has a position. -/
def ReachesItem (items : List Json) (first : Nat) (path : List String) (place : List Nat) (x : Json) : Prop :=
  ∃ i v rest, items[i]? = some v ∧ place = (first + i) :: rest ∧ Reaches v path rest x

/-- What is reached from the first element comes before what is reached from the others. -/
theorem Listed.cons {v : Json} {items : List Json} {first : Nat} {path : List String}
    (hv : Listed (v.Reaches path) ps) (hitems : Listed (ReachesItem items (first + 1) path) qs) :
    Listed (ReachesItem (v :: items) first path) (ps.map (fun p => (first :: p.1, p.2)) ++ qs) := by
  refine ⟨List.pairwise_append.mpr ⟨?_, hitems.ordered, ?_⟩, fun p => ?_⟩
  · exact List.pairwise_map.mpr (hv.ordered.imp fun h => List.Lex.cons h)
  · -- the first element comes before the others, whatever the places inside of them
    rintro p hp q hq
    obtain ⟨p', -, rfl⟩ := List.mem_map.mp hp
    obtain ⟨i, w, rest, -, hplace, -⟩ := (hitems.complete q).mp hq
    rw [hplace]
    exact List.Lex.rel (by omega)
  · rw [List.mem_append, List.mem_map, hitems.complete]
    constructor
    · rintro (⟨p', hp', rfl⟩ | ⟨i, w, rest, hi, hplace, h⟩)
      · exact ⟨0, v, p'.1, rfl, rfl, (hv.complete p').mp hp'⟩
      · exact ⟨i + 1, w, rest, hi, by rw [hplace]; congr 1; omega, h⟩
    · rintro ⟨i, w, rest, hi, hplace, h⟩
      cases i with
      | zero =>
        obtain rfl := Option.some.inj hi
        exact .inl ⟨(rest, p.2), (hv.complete _).mpr h, Prod.ext hplace.symm rfl⟩
      | succ i => exact .inr ⟨i, w, rest, hi, by rw [hplace]; congr 1; omega, h⟩

/-- No path leads on from null, and none ends there. -/
theorem not_reaches_null {path : List String} {place : List Nat} {x : Json} : ¬null.Reaches path place x := by
  rintro (hv | _ | hk)
  · cases hv
  · cases hk

theorem reaches_scalar {v : Json} (hv : v.isScalar = true) {path : List String} {place : List Nat} {x : Json} :
    v.Reaches path place x ↔ path = [] ∧ place = [] ∧ x = v := by
  constructor
  · rintro (_ | _ | hk)
    · exact ⟨rfl, rfl, rfl⟩
    · cases hv
    · cases v with
      | object ms => cases hv
      | _ => cases hk
  · rintro ⟨rfl, rfl, rfl⟩
    exact .scalar hv

theorem reaches_array {items : List Json} {path : List String} {place : List Nat} {x : Json} :
    (array items).Reaches path place x ↔ ReachesItem items 0 path place x := by
  constructor
  · rintro (hv | ⟨hi, h⟩ | hk)
    · cases hv
    · exact ⟨_, _, _, hi, by rw [Nat.zero_add], h⟩
    · cases hk
  · rintro ⟨i, v, rest, hi, rfl, h⟩
    rw [Nat.zero_add]
    exact .item hi h

section
variable {k k' : String} {v x : Json} {ms : List (String × Json)} {path : List String} {place : List Nat}

theorem not_reaches_object : ¬(object ms).Reaches [] place x := by
  rintro (hv | _ | _)
  cases hv

theorem reaches_member : (object ms).Reaches (k :: path) place x ↔
    ∃ v, (object ms).member? k = some v ∧ v.Reaches path place x := by
  constructor
  · rintro (_ | _ | ⟨hk, h⟩)
    exact ⟨_, hk, h⟩
  · rintro ⟨v, hk, h⟩
    exact .member hk h

/-- A path enters the first member that has the name. -/
theorem reaches_member_cons : (object ((k', v) :: ms)).Reaches (k :: path) place x ↔
    if k' == k then v.Reaches path place x else (object ms).Reaches (k :: path) place x := by
  have hmember : (object ((k', v) :: ms)).member? k = if k' == k then some v else (object ms).member? k := by
    rw [member?, List.find?_cons]
    cases k' == k <;> rfl
  rw [reaches_member, hmember]
  split
  · simp only [Option.some.injEq, exists_eq_left']
  · exact reaches_member.symm

end

end Json

namespace Extraction

open Json

theorem scalarsOfMember_nil (ms : List (String × Json)) : scalarsOfMember ms [] = [] := by
  cases ms <;> rfl

theorem exists_listed_scalar {v : Json} (hv : v.isScalar = true) (path : List String) :
    ∃ ps, Listed (v.Reaches path) ps ∧ (if path.isEmpty then [v] else []) = ps.map Prod.snd := by
  cases path with
  | nil => exact ⟨[([], v)], ⟨List.pairwise_singleton .., fun p => by simp [reaches_scalar hv, Prod.ext_iff]⟩, rfl⟩
  | cons k path => exact ⟨[], .none fun place x h => absurd ((reaches_scalar hv).mp h).1 nofun, rfl⟩

-- the recursion is that of the scalars: into a value only an array or the member that a path names is entered
mutual

/-- The scalars at the end of a path are those that the path reaches. -/
theorem exists_listed : ∀ (v : Json) (path : List String),
    ∃ ps, Listed (v.Reaches path) ps ∧ scalars v path = ps.map Prod.snd
  | .null, path => ⟨[], .none fun _ _ => not_reaches_null, by rw [scalars]; rfl⟩
  | .bool b, path => exists_listed_scalar (v := .bool b) rfl path
  | .number n, path => exists_listed_scalar (v := .number n) rfl path
  | .string s, path => exists_listed_scalar (v := .string s) rfl path
  | .array items, path => by
    obtain ⟨ps, hps, heq⟩ := exists_listed_items items 0 path
    exact ⟨ps, hps.congr fun _ _ => reaches_array.symm, by rw [scalars, heq]⟩
  | .object ms, path => by
    obtain ⟨ps, hps, heq⟩ := exists_listed_member ms path
    exact ⟨ps, hps, by rw [scalars, heq]⟩

theorem exists_listed_items : ∀ (items : List Json) (first : Nat) (path : List String),
    ∃ ps, Listed (ReachesItem items first path) ps ∧ scalarsOfItems items path = ps.map Prod.snd
  | [], first, path => ⟨[], .none (by rintro place x ⟨i, v, rest, hi, -⟩; cases hi), rfl⟩
  | v :: items, first, path => by
    obtain ⟨ps, hps, heq⟩ := exists_listed v path
    obtain ⟨qs, hqs, heq'⟩ := exists_listed_items items (first + 1) path
    exact ⟨_, hps.cons hqs, by rw [scalarsOfItems, heq, heq', List.map_append, List.map_map]; rfl⟩

theorem exists_listed_member : ∀ (ms : List (String × Json)) (path : List String),
    ∃ ps, Listed ((object ms).Reaches path) ps ∧ scalarsOfMember ms path = ps.map Prod.snd
  | ms, [] => ⟨[], .none fun _ _ => not_reaches_object, scalarsOfMember_nil ms⟩
  | [], k :: path => by
    refine ⟨[], .none fun place x h => ?_, rfl⟩
    obtain ⟨v, hk, -⟩ := reaches_member.mp h
    cases hk
  | (k', v) :: ms, k :: path => by
    rw [scalarsOfMember]
    cases hk : k' == k with
    | true =>
      obtain ⟨ps, hps, heq⟩ := exists_listed v path
      exact ⟨ps, hps.congr fun _ _ => by rw [reaches_member_cons, hk, if_pos rfl], heq⟩
    | false =>
      obtain ⟨ps, hps, heq⟩ := exists_listed_member ms (k :: path)
      exact ⟨ps, hps.congr fun _ _ => by rw [reaches_member_cons, hk, if_neg Bool.false_ne_true], heq⟩

end

end Extraction

/-! ### What lies on paths -/

namespace Json

/-- What is left behind a key of the paths that begin with it. -/
def behind (k : String) (paths : List (List String)) : List (List String) :=
  paths.filterMap fun
    | [] => none
    | k' :: rest => if k' = k then some rest else none

theorem mem_behind {k : String} {rest : List String} {paths : List (List String)} (h : k :: rest ∈ paths) :
    rest ∈ behind k paths := List.mem_filterMap.mpr ⟨_, h, if_pos rfl⟩

mutual

/-- The value without the members that lie on none of the paths. -/
def onPaths (paths : List (List String)) : Json → Json
  | .array items => .array (itemsOnPaths paths items)
  | .object ms => .object (membersOnPaths paths ms)
  | v => v

def itemsOnPaths (paths : List (List String)) : List Json → List Json
  | [] => []
  | v :: vs => onPaths paths v :: itemsOnPaths paths vs

def membersOnPaths (paths : List (List String)) : List (String × Json) → List (String × Json)
  | [] => []
  | (k, v) :: ms =>
    if (behind k paths).isEmpty then membersOnPaths paths ms
    else (k, onPaths (behind k paths) v) :: membersOnPaths paths ms

end

end Json

namespace Extraction

open Json

mutual

/-- Following a path sees only what lies on it. -/
theorem scalars_onPaths {paths : List (List String)} {path : List String} (hpath : path ∈ paths) :
    ∀ v : Json, scalars (v.onPaths paths) path = scalars v path
  | .null | .bool _ | .number _ | .string _ => rfl
  | .array items => by rw [onPaths, scalars, scalars, scalarsOfItems_onPaths hpath items]
  | .object ms => by rw [onPaths, scalars, scalars, scalarsOfMember_onPaths hpath ms]

theorem scalarsOfItems_onPaths {paths : List (List String)} {path : List String} (hpath : path ∈ paths) :
    ∀ vs : List Json, scalarsOfItems (itemsOnPaths paths vs) path = scalarsOfItems vs path
  | [] => rfl
  | v :: vs => by
    rw [itemsOnPaths, scalarsOfItems, scalarsOfItems, scalars_onPaths hpath v, scalarsOfItems_onPaths hpath vs]

theorem scalarsOfMember_onPaths {paths : List (List String)} {path : List String} (hpath : path ∈ paths) :
    ∀ ms : List (String × Json), scalarsOfMember (membersOnPaths paths ms) path = scalarsOfMember ms path
  | [] => rfl
  | (k', v) :: ms => by
    have hms := scalarsOfMember_onPaths hpath ms
    cases path with
    | nil => rw [scalarsOfMember_nil, scalarsOfMember_nil]
    | cons k rest =>
      rw [membersOnPaths, scalarsOfMember]
      split
      · rename_i hnone
        have hne : (k' == k) = false := beq_eq_false_iff_ne.mpr fun heq => by
          subst heq
          have hrest := mem_behind hpath
          rw [List.isEmpty_iff.mp hnone] at hrest
          cases hrest
        rw [hms, hne]
        rfl
      · rw [scalarsOfMember, hms]
        split
        · rename_i hk
          obtain rfl := eq_of_beq hk
          exact scalars_onPaths (mem_behind hpath) v
        · rfl

end

/-! ### Entries -/

/-- An entry of a member for a scalar. -/
structure Converts (m : Member) (v : Json) (e : IndexEntry) : Prop where
  path : e.path = m.path
  code : e.code = m.code
  value : convert? m.code v = some e.value

theorem entriesOf_converts {m : Member} : ∀ {vs : List Json} {es : List IndexEntry}, entriesOf m vs = .ok es →
    List.Forall₂ (Converts m) vs es
  | [], _, h => by
    cases h
    exact .nil
  | v :: vs, _, h => by
    rw [entriesOf] at h
    split at h
    · cases h
    · obtain ⟨es, hes, rfl⟩ := map_eq_ok.mp h
      exact .cons ⟨rfl, rfl, ‹_›⟩ (entriesOf_converts hes)

theorem exists_entriesOf {m : Member} : ∀ {vs : List Json},
    (∃ es, entriesOf m vs = .ok es) ↔ ∀ v ∈ vs, ∃ x, convert? m.code v = some x
  | [] => iff_of_true ⟨[], rfl⟩ nofun
  | v :: vs => by
    rw [List.forall_mem_cons, ← exists_entriesOf, entriesOf]
    cases convert? m.code v with
    | none => exact iff_of_false (by rintro ⟨es, h⟩; cases h) (by rintro ⟨⟨x, h⟩, -⟩; cases h)
    | some x => exact exists_map_ok.trans ⟨fun h => ⟨⟨x, rfl⟩, h⟩, fun h => h.2⟩

/-- The entries of a document are those of the members one after another. -/
theorem entries_flatten {doc : Json} : ∀ {ms : List Member} {es : List IndexEntry}, entries doc ms = .ok es →
    ∃ ess, List.Forall₂ (fun m es => entriesOf m (scalars doc (SchemaBuilder.segments m.path)) = .ok es) ms ess ∧
      es = ess.flatten
  | [], _, h => by
    cases h
    exact ⟨[], .nil, rfl⟩
  | m :: ms, _, h => by
    rw [entries] at h
    split at h
    · cases h
    · obtain ⟨es, hes, rfl⟩ := map_eq_ok.mp h
      obtain ⟨ess, hess, rfl⟩ := entries_flatten hes
      exact ⟨_ :: ess, .cons ‹_› hess, rfl⟩

theorem exists_entries {doc : Json} : ∀ {ms : List Member}, (∃ es, entries doc ms = .ok es) ↔
    ∀ m ∈ ms, ∃ es, entriesOf m (scalars doc (SchemaBuilder.segments m.path)) = .ok es
  | [] => iff_of_true ⟨[], rfl⟩ nofun
  | m :: ms => by
    rw [List.forall_mem_cons, ← exists_entries, entries]
    cases entriesOf m (scalars doc (SchemaBuilder.segments m.path)) with
    | error e => exact iff_of_false (by rintro ⟨es, h⟩; cases h) (by rintro ⟨⟨es, h⟩, -⟩; cases h)
    | ok es => exact exists_map_ok.trans ⟨fun h => ⟨⟨es, rfl⟩, h⟩, fun h => h.2⟩

/-- The entries of a member for a document: one for each scalar that the member's path reaches, in document order. -/
def Follows (doc : Json) (m : Member) (es : List IndexEntry) : Prop :=
  ∃ ps, Listed (doc.Reaches (SchemaBuilder.segments m.path)) ps ∧ List.Forall₂ (fun p e => Converts m p.2 e) ps es

theorem follows_entriesOf {doc : Json} {m : Member} {es : List IndexEntry}
    (h : entriesOf m (scalars doc (SchemaBuilder.segments m.path)) = .ok es) : Follows doc m es := by
  obtain ⟨ps, hps, heq⟩ := exists_listed doc (SchemaBuilder.segments m.path)
  rw [heq] at h
  exact ⟨ps, hps, List.forall₂_map_left_iff.mp (entriesOf_converts h)⟩

theorem exists_entriesOf_scalars {doc : Json} {m : Member} :
    (∃ es, entriesOf m (scalars doc (SchemaBuilder.segments m.path)) = .ok es) ↔
      ∀ place x, doc.Reaches (SchemaBuilder.segments m.path) place x → ∃ y, convert? m.code x = some y := by
  obtain ⟨ps, hps, heq⟩ := exists_listed doc (SchemaBuilder.segments m.path)
  rw [exists_entriesOf, heq, List.forall_mem_map]
  exact ⟨fun h place x hx => h (place, x) ((hps.complete (place, x)).mpr hx),
    fun h p hp => h p.1 p.2 ((hps.complete p).mp hp)⟩

end Extraction

/-! ### Extraction -/

open Extraction

/-- A document has entries exactly if each scalar that the path of a member reaches converts to the code of the member.
    The entries are those of the members in the order of the bytes of their paths, and for each member one for each
    scalar reached, in document order. What lies on none of the paths makes no difference. -/
theorem Schema.extract_follows_paths {s : Schema} (hs : s.Builds) :
    (s.members.Pairwise fun m m' => compare (Text.utf8 m.path) (Text.utf8 m'.path) = .lt) ∧
      ∀ doc : Json,
        ((∃ es, s.extract doc = .ok es) ↔ ∀ m ∈ s.members, ∀ place x,
          doc.Reaches (SchemaBuilder.segments m.path) place x → ∃ y, convert? m.code x = some y) ∧
        (∀ es, s.extract doc = .ok es → ∃ ess, List.Forall₂ (Follows doc) s.members ess ∧ es = ess.flatten) ∧
        ∀ doc' : Json, doc'.onPaths (s.members.map fun m => SchemaBuilder.segments m.path) =
          doc.onPaths (s.members.map fun m => SchemaBuilder.segments m.path) → s.extract doc' = s.extract doc := by
  refine ⟨hs.ascending.imp fun h => ?_, fun doc => ⟨?_, fun es h => ?_, fun doc' h => ?_⟩⟩
  · rw [Text.compare_utf8]
    exact compareOfLessAndEq_eq_lt.mpr h
  · refine exists_entries.trans ?_
    simp only [exists_entriesOf_scalars]
  · obtain ⟨ess, hess, rfl⟩ := entries_flatten h
    exact ⟨ess, hess.imp fun _ _ => follows_entriesOf, rfl⟩
  · refine entries_congr fun m hm => ?_
    have hpath := List.mem_map_of_mem (f := fun m : Member => SchemaBuilder.segments m.path) hm
    rw [← scalars_onPaths hpath doc', h, scalars_onPaths hpath doc]

/-- Parcels, with a remark and with the weights of what is in them. -/
def parcelWeights : Schema :=
  .ofShape "" "Parcel" .guid
    [⟨"Items.Weight", "integer", .integer, false, true⟩, ⟨"Note", "string", .string, false, false⟩]

/-- A parcel whose items are in boxes, with a member that is on no path. -/
def boxed (other : Json) : Json :=
  .object [("Items", .array [.array [.object [("Box", other), ("Weight", .integer 3)], .null],
    .object [("Weight", .array [.integer 1, .null, .integer 2])]]), ("Note", .object [("Weight", .bool true)])]

/-- What the parcel is indexed by. The note is not there, since it has no scalar at the end of its path. -/
def weights : List IndexEntry :=
  [.integer 3, .integer 1, .integer 2].map fun v => ⟨"Items.Weight", .integer, v⟩

theorem Schema.extract_follows_paths_parcels :
    parcelWeights.Builds ∧ parcelWeights.extract (boxed .null) = .ok weights ∧
      (∃ ess, List.Forall₂ (Follows (boxed .null)) parcelWeights.members ess ∧ weights = ess.flatten) ∧
      parcelWeights.extract (boxed (.string "?")) = parcelWeights.extract (boxed .null) := by
  have hs : parcelWeights.Builds := Schema.builds_ofShape (by decide) rfl
  have hweights : parcelWeights.extract (boxed .null) = .ok weights := by decide +kernel
  have hpaths : (parcelWeights.members.map fun m => SchemaBuilder.segments m.path) =
      [["Items", "Weight"], ["Note"]] := by decide +kernel
  obtain ⟨-, hentries, hsame⟩ := (Schema.extract_follows_paths hs).2 (boxed .null)
  rw [hpaths] at hsame
  refine ⟨hs, hweights, hentries weights hweights, hsame (boxed (.string "?")) ?_⟩
  simp [boxed, Json.onPaths, Json.itemsOnPaths, Json.membersOnPaths, Json.behind]

end DocStore
