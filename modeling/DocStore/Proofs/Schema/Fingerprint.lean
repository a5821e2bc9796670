import DocStore.Proofs.Schema.Built
import DocStore.Proofs.Store.Recorded
import DocStore.Proofs.Text.Order
import DocStore.Schema.Registry
import Mathlib.Data.List.Sort

/-! Fingerprints. A shape is written as bytes before it is hashed: texts, which have no bytes as small as the separators
    and the flags between them, so that the bytes tell the shape. What is left to the hash is that it does not give two
    shapes one fingerprint; then what compares fingerprints compares shapes. -/

namespace DocStore

/-! ### Shapes -/

/-- What the shape of a schema says of a member. -/
def Member.shape (m : Member) : String × TypeCode × Bool × Bool := (m.path, m.code, m.unique, m.enumerable)

/-- Schemas of one type with members of the same shapes. -/
structure Schema.SameShape (s s' : Schema) : Prop where
  ns : s.ns = s'.ns
  name : s.name = s'.name
  idType : s.idType = s'.idType
  members : ∀ x, x ∈ s.members.map Member.shape ↔ x ∈ s'.members.map Member.shape

/-- The bytes that the fingerprint of a schema is the hash of. -/
def Schema.image (s : Schema) : List UInt8 := Schema.shapeImage s.key s.idType s.members

variable {s s' : Schema}

/-- In the order of their paths members have the same shapes only if they do one by one. -/
theorem Schema.SameShape.shapes_eq (hs : s.Builds) (hs' : s'.Builds) (h : s.SameShape s') :
    s.members.map Member.shape = s'.members.map Member.shape := by
  let before (x y : String × TypeCode × Bool × Bool) : Prop := x.1 < y.1
  have hirrefl : Std.Irrefl before := ⟨fun x => lt_irrefl x.1⟩
  have hantisymm : Std.Antisymm before := ⟨fun x y hxy hyx => absurd (lt_trans hxy hyx) (lt_irrefl x.1)⟩
  have hsorted {s : Schema} (hs : s.Builds) : (s.members.map Member.shape).Pairwise before :=
    List.pairwise_map.mpr hs.ascending
  exact (hsorted hs).eq_of_mem_iff (hsorted hs') h.members

/-! ### Texts between marks -/

section
variable {α : Type} {p : α → Prop} {a b x y : List α}

/-- What comes before the first mark is told from what comes from it on. -/
theorem append_inj_of_marks (ha : ∀ c ∈ a, p c) (hb : ∀ c ∈ b, p c) (hx : ∀ c ∈ x.head?, ¬p c)
    (hy : ∀ c ∈ y.head?, ¬p c) (h : a ++ x = b ++ y) : a = b ∧ x = y := by
  induction a generalizing b with
  | nil =>
    cases b with
    | nil => exact ⟨rfl, h⟩
    | cons c b =>
      rw [List.nil_append] at h
      rw [h] at hx
      exact absurd (hb c List.mem_cons_self) (hx c rfl)
  | cons c a ih =>
    cases b with
    | nil =>
      rw [List.nil_append] at h
      rw [← h] at hy
      exact absurd (ha c List.mem_cons_self) (hy c rfl)
    | cons d b =>
      obtain ⟨rfl, htail⟩ := List.cons.inj h
      obtain ⟨rfl, hxy⟩ := ih (fun c hc => ha c (.tail _ hc)) (fun c hc => hb c (.tail _ hc)) htail
      exact ⟨rfl, hxy⟩

end

/-- A key tells the names that it was made of: no dot is in a name, so the name is what stands behind the last one. -/
theorem Key.ofNames_inj {ns ns' name name' : String} (hname : isIdentifier name = true)
    (hname' : isIdentifier name' = true) (h : Key.ofNames ns name = Key.ofNames ns' name') :
    ns = ns' ∧ name = name' := by
  let front (ns : String) : List Char := if ns.isEmpty then [] else '.' :: ns.toList.reverse
  have hreverse (ns name : String) : (Key.ofNames ns name).text.toList.reverse = name.toList.reverse ++ front ns := by
    simp only [Key.ofNames, front]
    split <;> simp
  have hfront (ns : String) : ∀ c ∈ (front ns).head?, ¬c ≠ '.' := by
    simp only [front]
    split <;> simp
  have hdots {name : String} (hname : isIdentifier name = true) : ∀ c ∈ name.toList.reverse, c ≠ '.' :=
    fun c hc => ne_dot_of_isIdentifier hname c (List.mem_reverse.mp hc)
  have heq : name.toList.reverse ++ front ns = name'.toList.reverse ++ front ns' := by rw [← hreverse, ← hreverse, h]
  obtain ⟨hnames, -⟩ := append_inj_of_marks (hdots hname) (hdots hname') (hfront ns) (hfront ns') heq
  obtain rfl := String.toList_inj.mp (List.reverse_inj.mp hnames)
  exact ⟨Key.ofNames_left_inj.mp h, rfl⟩

/-! ### Bytes of texts -/

/-- A byte of a text, which is no separator and no flag. -/
def IsText (b : UInt8) : Prop := 1 < b.toNat

instance (b : UInt8) : Decidable (IsText b) := inferInstanceAs (Decidable (_ < _))

theorem isText_utf8EncodeChar {c : Char} (h : 1 < c.toNat) : ∀ b ∈ String.utf8EncodeChar c, IsText b := by
  have hbound : c.val.toNat < 1114112 := by
    have hvalid : c.val.toNat < 55296 ∨ 57343 < c.val.toNat ∧ c.val.toNat < 1114112 := c.valid
    omega
  have hc : 1 < c.val.toNat := h
  simp only [String.utf8EncodeChar, IsText]
  generalize c.val.toNat = n at hc hbound
  split_ifs <;>
    simp only [List.mem_cons, List.not_mem_nil, or_false, forall_eq_or_imp, forall_eq, UInt8.toNat_ofNat'] <;>
    omega

theorem isText_utf8 {t : String} (h : ∀ c ∈ t.toList, 1 < c.toNat) : ∀ b ∈ Text.utf8 t, IsText b := by
  rw [Text.utf8_eq]
  intro b hb
  obtain ⟨c, hc, hb⟩ := List.mem_flatMap.mp hb
  exact isText_utf8EncodeChar (h c hc) b hb

theorem lt_toNat_of_isIdentifier {name : String} (h : isIdentifier name = true) :
    ∀ c ∈ name.toList, 1 < c.toNat := by
  intro c hc
  have hname := isNameChar_of_isIdentifier h c hc
  refine Nat.lt_of_not_le fun hle => ?_
  obtain hzero | hone : c.toNat = 0 ∨ c.toNat = 1 := by omega
  · rw [← Char.ofNat_toNat c, hzero] at hname
    cases hname
  · rw [← Char.ofNat_toNat c, hone] at hname
    cases hname

theorem isText_key (hs : s.Builds) : ∀ b ∈ Text.utf8 s.key.text, IsText b := by
  obtain ⟨b, hb⟩ := hs.gives
  have hname := lt_toNat_of_isIdentifier hb.name
  refine isText_utf8 ?_
  rw [hb.key, Key.ofNames]
  rcases hb.ns with hns | hns
  · rw [hns]
    exact hname
  · have hfront := lt_toNat_of_isIdentifier hns
    split
    · exact hname
    · simp only [String.toList_append, List.forall_mem_append]
      exact ⟨⟨hfront, by simp⟩, hname⟩

theorem isText_path {path : String} (h : SchemaBuilder.Sound path) : ∀ b ∈ Text.utf8 path, IsText b := by
  refine isText_utf8 fun c hc => ?_
  have hprintable := h.printable c hc
  simp only [Text.isControl, Bool.or_eq_false_iff, decide_eq_false_iff_not] at hprintable
  omega

theorem isText_code (c : TypeCode) : ∀ b ∈ Text.utf8 c.name, IsText b :=
  isText_utf8 (lt_toNat_of_isIdentifier (by cases c <;> decide))

theorem isText_idType (t : IdType) : ∀ b ∈ Text.utf8 t.name, IsText b :=
  isText_utf8 (lt_toNat_of_isIdentifier (by cases t <;> decide))

theorem code_of_name {c c' : TypeCode} (h : c.name = c'.name) : c = c' := by
  cases c <;> cases c' <;> first | rfl | exact absurd h (by decide)

theorem idType_of_name {t t' : IdType} (h : t.name = t'.name) : t = t' := by
  cases t <;> cases t' <;> first | rfl | exact absurd h (by decide)

/-! ### Images -/

/-- A truth value as the byte that stands for it. -/
def flagByte (b : Bool) : UInt8 := if b then 1 else 0

theorem not_isText_flagByte (b : Bool) : ¬IsText (flagByte b) := by
  cases b <;> decide

theorem flagByte_inj {a b : Bool} (h : flagByte a = flagByte b) : a = b := by
  cases a <;> cases b <;> first | rfl | exact absurd h (by decide)

theorem memberImage_append (m : Member) (x : List UInt8) : Schema.memberImage m ++ x =
    0 :: (Text.utf8 m.path ++ 0 :: (Text.utf8 m.code.name ++ flagByte m.unique :: flagByte m.enumerable :: x)) := by
  simp [Schema.memberImage, flagByte]

/-- What follows a text begins with a separator or a flag. -/
theorem not_isText_cons {b : UInt8} (h : ¬IsText b) (x : List UInt8) : ∀ c ∈ (b :: x).head?, ¬IsText c := by
  rintro c ⟨⟩
  exact h

theorem not_isText_zero : ¬IsText 0 := by decide

theorem not_isText_images (ms : List Member) : ∀ c ∈ (ms.flatMap Schema.memberImage).head?, ¬IsText c := by
  cases ms with
  | nil => exact nofun
  | cons m ms =>
    rw [List.flatMap_cons, memberImage_append]
    exact not_isText_cons not_isText_zero _

/-- The bytes of a member, and of all that follow, tell its shape. -/
theorem memberImage_inj {m m' : Member} {x x' : List UInt8} (hm : SchemaBuilder.Sound m.path)
    (hm' : SchemaBuilder.Sound m'.path) (h : Schema.memberImage m ++ x = Schema.memberImage m' ++ x') :
    m.shape = m'.shape ∧ x = x' := by
  rw [memberImage_append, memberImage_append] at h
  have hzero (x : List UInt8) := not_isText_cons not_isText_zero x
  obtain ⟨hpath, h⟩ := append_inj_of_marks (isText_path hm) (isText_path hm') (hzero _) (hzero _) (List.cons.inj h).2
  have hflag (b : Bool) (x : List UInt8) := not_isText_cons (not_isText_flagByte b) x
  obtain ⟨hcode, h⟩ :=
    append_inj_of_marks (isText_code m.code) (isText_code m'.code) (hflag _ _) (hflag _ _) (List.cons.inj h).2
  obtain ⟨hunique, h⟩ := List.cons.inj h
  obtain ⟨henumerable, hx⟩ := List.cons.inj h
  refine ⟨?_, hx⟩
  rw [Member.shape, Member.shape, Text.utf8_inj hpath, code_of_name (Text.utf8_inj hcode), flagByte_inj hunique,
    flagByte_inj henumerable]

theorem memberImages_inj : ∀ {ms ms' : List Member}, (∀ m ∈ ms, SchemaBuilder.Sound m.path) →
    (∀ m ∈ ms', SchemaBuilder.Sound m.path) → ms.flatMap Schema.memberImage = ms'.flatMap Schema.memberImage →
    ms.map Member.shape = ms'.map Member.shape
  | [], [], _, _, _ => rfl
  | [], m' :: ms', _, _, h => by
    rw [List.flatMap_cons, memberImage_append] at h
    cases h
  | m :: ms, [], _, _, h => by
    rw [List.flatMap_cons, memberImage_append] at h
    cases h
  | m :: ms, m' :: ms', hms, hms', h => by
    obtain ⟨hm, hms⟩ := List.forall_mem_cons.mp hms
    obtain ⟨hm', hms'⟩ := List.forall_mem_cons.mp hms'
    rw [List.flatMap_cons, List.flatMap_cons] at h
    obtain ⟨hshape, hrest⟩ := memberImage_inj hm hm' h
    rw [List.map_cons, List.map_cons, hshape, memberImages_inj hms hms' hrest]

/-- Members of the same shapes are written as the same bytes. -/
theorem memberImages_congr {ms ms' : List Member} (h : ms.map Member.shape = ms'.map Member.shape) :
    ms.flatMap Schema.memberImage = ms'.flatMap Schema.memberImage := by
  let image (x : String × TypeCode × Bool × Bool) : List UInt8 := Schema.memberImage ⟨x.1, "", x.2.1, x.2.2.1, x.2.2.2⟩
  have himage (ms : List Member) : ms.flatMap Schema.memberImage = (ms.map Member.shape).flatMap image := by
    rw [List.flatMap_map]
    rfl
  rw [himage, himage, h]

/-- Schemas are written as the same bytes exactly if they have the same shape. -/
theorem Schema.image_eq_iff (hs : s.Builds) (hs' : s'.Builds) : s.image = s'.image ↔ s.SameShape s' := by
  obtain ⟨b, hb⟩ := hs.gives
  obtain ⟨b', hb'⟩ := hs'.gives
  constructor
  · intro h
    simp only [image, shapeImage, List.append_assoc, List.cons_append] at h
    -- the key and the id type are read up to the marks behind them, and what is left are the members
    have hzero (x : List UInt8) := not_isText_cons not_isText_zero x
    obtain ⟨hkey, h⟩ := append_inj_of_marks (isText_key hs) (isText_key hs') (hzero _) (hzero _) h
    obtain ⟨hid, hmembers⟩ := append_inj_of_marks (isText_idType s.idType) (isText_idType s'.idType)
      (not_isText_images s.members) (not_isText_images s'.members) (List.cons.inj h).2
    have hkeys : Key.ofNames s.ns s.name = Key.ofNames s'.ns s'.name := by
      rw [← hb.key, ← hb'.key]
      exact congrArg Key.mk (Text.utf8_inj hkey)
    obtain ⟨hns, hname⟩ := Key.ofNames_inj hb.name hb'.name hkeys
    refine ⟨hns, hname, idType_of_name (Text.utf8_inj hid), fun x => ?_⟩
    rw [memberImages_inj hs.sound hs'.sound hmembers]
  · intro h
    rw [image, image, hb.key, hb'.key, h.ns, h.name, h.idType, shapeImage, shapeImage,
      memberImages_congr (h.shapes_eq hs hs')]

theorem Schema.SameShape.key (hs : s.Builds) (hs' : s'.Builds) (h : s.SameShape s') : s.key = s'.key := by
  obtain ⟨b, hb⟩ := hs.gives
  obtain ⟨b', hb'⟩ := hs'.gives
  rw [hb.key, hb'.key, h.ns, h.name]

theorem Schema.Builds.fingerprint_eq (hs : s.Builds) : s.fingerprint = Sha256.hex s.image := by
  obtain ⟨b, hb⟩ := hs.gives
  exact hb.fingerprint

/-- Neither the order of declarations nor the names that types were declared with are in a fingerprint. -/
theorem SchemaBuilder.fingerprint_eq {b b' : SchemaBuilder} (hb : b.build = .ok s) (hb' : b'.build = .ok s')
    (hns : b.ns = b'.ns) (hname : b.name = b'.name) (hid : b.idType = b'.idType)
    (hmembers : (b.members.map Member.shape).Perm (b'.members.map Member.shape)) : s.fingerprint = s'.fingerprint := by
  have hs : s.Builds := ⟨b, hb⟩
  have hs' : s'.Builds := ⟨b', hb'⟩
  have hperm : (s.members.map Member.shape).Perm (s'.members.map Member.shape) :=
    ((build_eq_ok hb).perm.map _).trans (hmembers.trans ((build_eq_ok hb').perm.map _).symm)
  obtain ⟨hsns, hsname, hsid⟩ := build_names hb
  obtain ⟨hsns', hsname', hsid'⟩ := build_names hb'
  have hsame : s.SameShape s' :=
    ⟨hsns.trans (hns.trans hsns'.symm), hsname.trans (hname.trans hsname'.symm), hsid.trans (hid.trans hsid'.symm),
      fun _ => hperm.mem_iff⟩
  rw [hs.fingerprint_eq, hs'.fingerprint_eq, (Schema.image_eq_iff hs hs').mpr hsame]

/-! ### Comparing fingerprints -/

theorem isCurrent_mark_iff (u : UpsertedShapes) : (u.mark s).isCurrent s' = true ↔
    if s.key = s'.key then s.fingerprint = s'.fingerprint else u.isCurrent s' = true := by
  rw [UpsertedShapes.isCurrent, UpsertedShapes.mark, Assoc.get?_insert]
  split
  · rw [beq_iff_eq, Option.some.injEq]
  · rfl

theorem register_of_get? {r : Registry} (h : r.get? s'.key = some s) : r.register s' =
    if s.fingerprint = s'.fingerprint then (s, r) else (s', ⟨r.schemas.insert s'.key s'⟩) := by
  rw [Registry.register, h]

/-- Bringing a set to a shape leaves the store as it was only if the fingerprint was noted already. -/
theorem upsert_unchanged_iff {st : Store} {fp : String} (h : st.fingerprint? s.key = some fp) :
    Store.upsert s st = (.ok (), st) ↔ fp = s.fingerprint := by
  constructor
  · intro hdone
    have hnoted := Store.upsert_fingerprint? hdone s.key
    rw [if_pos rfl, h] at hnoted
    exact Option.some.inj hnoted
  · rintro rfl
    exact Store.upsert_of_current h

/-- The bytes that fingerprints are hashes of are the same exactly if the shapes are, whatever types the members were
    declared with and in whatever order. So, if the hash does not give these bytes of two schemas one fingerprint, it is
    the shape of a schema that the record of shapes takes for current, that the registry keeps a schema for, and that
    the store does nothing for. -/
theorem fingerprints_tell_shapes (hs : s.Builds) (hs' : s'.Builds) :
    s.fingerprint = Sha256.hex s.image ∧ s'.fingerprint = Sha256.hex s'.image ∧
      (s.image = s'.image ↔ s.SameShape s') ∧
      ((Sha256.hex s.image = Sha256.hex s'.image → s.image = s'.image) →
        (∀ u : UpsertedShapes, (u.mark s).isCurrent s' = true ↔
          s.SameShape s' ∨ s.key ≠ s'.key ∧ u.isCurrent s' = true) ∧
        (∀ r : Registry, r.get? s'.key = some s →
          (s.SameShape s' → r.register s' = (s, r)) ∧
          (¬s.SameShape s' → r.register s' = (s', ⟨r.schemas.insert s'.key s'⟩))) ∧
        ∀ st : Store, st.fingerprint? s'.key = some s.fingerprint →
          (Store.upsert s' st = (.ok (), st) ↔ s.SameShape s')) := by
  refine ⟨hs.fingerprint_eq, hs'.fingerprint_eq, Schema.image_eq_iff hs hs', fun hhash => ?_⟩
  have htells : s.fingerprint = s'.fingerprint ↔ s.SameShape s' := by
    rw [hs.fingerprint_eq, hs'.fingerprint_eq, ← Schema.image_eq_iff hs hs']
    exact ⟨hhash, congrArg _⟩
  refine ⟨fun u => ?_, fun r hr => ?_, fun st hst => (upsert_unchanged_iff hst).trans htells⟩
  · rw [isCurrent_mark_iff, htells]
    split
    · rename_i hkey
      exact ⟨.inl, fun h => h.resolve_right fun h => h.1 hkey⟩
    · rename_i hkey
      exact ⟨fun h => .inr ⟨hkey, h⟩, fun h => (h.resolve_left fun h => hkey (h.key hs hs')).2⟩
  · rw [register_of_get? hr]
    exact ⟨fun h => if_pos (htells.mpr h), fun h => if_neg fun heq => h (htells.mp heq)⟩

/-- Shelves, whose codes may have to be unique, declared with a type of some name. -/
def shelves (unique : Bool) (declared : String) : Schema :=
  .ofShape "" "Shelf" .identity [⟨"Code", declared, .string, unique, false⟩, ⟨"Rows", "Integer", .integer, false, true⟩]

theorem fingerprints_tell_shapes_shelves :
    (shelves true "Code").Builds ∧ (shelves false "Code").Builds ∧ (shelves true "String").Builds ∧
      (UpsertedShapes.mark {} (shelves true "Code")).isCurrent (shelves false "Code") = false ∧
      (UpsertedShapes.mark {} (shelves true "Code")).isCurrent (shelves true "String") = true ∧
      (Registry.register ⟨[(⟨"Shelf"⟩, shelves true "Code")]⟩ (shelves false "Code")).1 = shelves false "Code" ∧
      (Registry.register ⟨[(⟨"Shelf"⟩, shelves true "Code")]⟩ (shelves true "String")).1 = shelves true "Code" := by
  have hunique : (shelves true "Code").Builds := Schema.builds_ofShape (by decide) rfl
  have hany : (shelves false "Code").Builds := Schema.builds_ofShape (by decide) rfl
  have hnamed : (shelves true "String").Builds := Schema.builds_ofShape (by decide) rfl
  have hdiffer : ¬(shelves true "Code").SameShape (shelves false "Code") := by
    intro h
    have hmem := (h.members ("Code", .string, true, false)).mp (.head _)
    revert hmem
    decide
  have hsame : (shelves true "Code").SameShape (shelves true "String") := ⟨rfl, rfl, rfl, fun _ => Iff.rfl⟩
  have hhash : Sha256.hex (shelves true "Code").image ≠ Sha256.hex (shelves false "Code").image := by decide +kernel
  obtain ⟨-, -, -, hother⟩ := fingerprints_tell_shapes hunique hany
  obtain ⟨hcurrent, hregister, -⟩ := hother fun h => absurd h hhash
  obtain ⟨-, -, hiff, halike⟩ := fingerprints_tell_shapes hunique hnamed
  obtain ⟨hcurrent', hregister', -⟩ := halike fun _ => hiff.mpr hsame
  refine ⟨hunique, hany, hnamed, ?_, (hcurrent' {}).mpr (.inl hsame), ?_, ?_⟩
  · rw [Bool.eq_false_iff, ne_eq, hcurrent]
    exact fun h => h.elim hdiffer fun h => h.1 rfl
  · rw [(hregister _ rfl).2 hdiffer]
  · rw [(hregister' _ rfl).1 hsame]

end DocStore
