import DocStore.Guid
import DocStore.Text.Blank

/-! The text of a GUID. It is read back as the GUID it was written for, so different GUIDs have different texts. -/

namespace DocStore

/-! ### Hexadecimal digits -/

namespace Text

theorem hexValue?_hexDigit : ∀ d, d < 16 → hexValue? (hexDigit d) = some d := by decide

theorem length_hexDigits (width n : Nat) : (hexDigits width n).length = width := by
  induction width generalizing n with
  | zero => rfl
  | succ width ih => rw [hexDigits, List.length_append, ih]; rfl

theorem mem_hexDigits {width n : Nat} {c : Char} (h : c ∈ hexDigits width n) : ∃ d, d < 16 ∧ c = hexDigit d := by
  induction width generalizing n with
  | zero => cases h
  | succ width ih =>
    rw [hexDigits, List.mem_append, List.mem_singleton] at h
    rcases h with h | rfl
    · exact ih h
    · exact ⟨n % 16, Nat.mod_lt _ (by decide), rfl⟩

theorem hexNumber?_hexDigits (width n : Nat) : hexNumber? (hexDigits width n) = some (n % Nat.pow 16 width) := by
  induction width generalizing n with
  | zero => exact congrArg some (Nat.mod_one n).symm
  | succ width ih =>
    have hlast := hexValue?_hexDigit (n % 16) (Nat.mod_lt _ (by decide))
    have hfront : (hexDigits width (n / 16)).foldlM (fun n c => (hexValue? c).map (16 * n + ·)) 0 =
        some (n / 16 % Nat.pow 16 width) := ih (n / 16)
    have hvalue : 16 * (n / 16 % Nat.pow 16 width) + n % 16 = n % Nat.pow 16 (width + 1) := by
      show _ = n % (Nat.pow 16 width * 16)
      rw [Nat.mul_comm (Nat.pow 16 width) 16, Nat.mod_mul, Nat.add_comm]
    have hstep : (hexValue? (hexDigit (n % 16))).map (16 * (n / 16 % Nat.pow 16 width) + ·) =
        some (n % Nat.pow 16 (width + 1)) := by rw [hlast, Option.map_some, hvalue]
    rw [hexNumber?, hexDigits, List.foldlM_append, hfront, Option.bind_eq_bind, Option.bind_some, List.foldlM_cons,
      hstep]
    rfl

theorem trim_eq_self {cs : List Char} (h : ∀ c ∈ cs, isBlank c = false) : trim cs = cs := by
  have hkeep : ∀ {cs : List Char}, (∀ c ∈ cs, isBlank c = false) → trimStart cs = cs := by
    intro cs h
    cases cs with
    | nil => rfl
    | cons c cs => rw [trimStart, List.dropWhile_cons_of_neg (by simp [h c (List.mem_cons_self ..)])]
  rw [trim, hkeep h, hkeep (fun c hc => h c (List.mem_reverse.mp hc)), List.reverse_reverse]

end Text

namespace Guid

open Text (hexDigit hexDigits)

/-! ### Groups -/

theorem filter_hyphenated {cs : List Char} (h : '-' ∉ cs) :
    ∀ ns : List Nat, (hyphenated ns cs).filter (· != '-') = cs.take (ns.foldr (· + ·) 0) := by
  intro ns
  have hplain : ∀ {cs : List Char}, '-' ∉ cs → cs.filter (· != '-') = cs := by
    intro cs h
    rw [List.filter_eq_self]
    rintro c hc
    exact bne_iff_ne.mpr fun heq => h (heq ▸ hc)
  induction ns generalizing cs with
  | nil => simp [hyphenated]
  | cons n ns ih =>
    have htake : '-' ∉ cs.take n := fun hmem => h (List.mem_of_mem_take hmem)
    have hdrop : '-' ∉ cs.drop n := fun hmem => h (List.mem_of_mem_drop hmem)
    cases ns with
    | nil => simp [hyphenated, hplain htake]
    | cons m ns =>
      rw [hyphenated, List.filter_append, hplain htake, List.filter_cons_of_neg (by decide), ih hdrop, ← List.take_add]
      · rfl
      · exact nofun

theorem mem_hyphenated {c : Char} : ∀ {ns : List Nat} {cs : List Char}, c ∈ hyphenated ns cs → c ∈ cs ∨ c = '-'
  | [], _, h => by cases h
  | [_], _, h => Or.inl (List.mem_of_mem_take h)
  | n :: m :: ns, cs, h => by
    rw [hyphenated, List.mem_append, List.mem_cons] at h
    rcases h with h | h | h
    · exact Or.inl (List.mem_of_mem_take h)
    · exact Or.inr h
    · exact (mem_hyphenated h).imp_left List.mem_of_mem_drop
    · exact nofun

/-! ### Reading back -/

theorem hyphen_notMem (g : Guid) : '-' ∉ hexDigits 32 g.value.toNat := by
  intro h
  obtain ⟨d, hd, heq⟩ := Text.mem_hexDigits h
  revert d
  decide

theorem ofDigits?_hexDigits (g : Guid) : ofDigits? (hexDigits 32 g.value.toNat) = some g := by
  have hlt : g.value.toNat < Nat.pow 16 32 := g.value.isLt
  rw [ofDigits?, if_pos (Text.length_hexDigits ..), Text.hexNumber?_hexDigits, Nat.mod_eq_of_lt hlt, Option.map_some,
    BitVec.ofNat_toNat, BitVec.setWidth_eq]

theorem ofHyphenated?_hyphenated (g : Guid) :
    ofHyphenated? (hyphenated groups (hexDigits 32 g.value.toNat)) = some g := by
  have hdigits : (hyphenated groups (hexDigits 32 g.value.toNat)).filter (· != '-') = hexDigits 32 g.value.toNat := by
    rw [filter_hyphenated (hyphen_notMem g)]
    exact List.take_of_length_le (Nat.le_of_eq (Text.length_hexDigits ..))
  rw [ofHyphenated?, hdigits]
  simp only [beq_self_eq_true, if_true, ofDigits?_hexDigits]

theorem toList_text (g : Guid) : g.text.toList = hyphenated groups (hexDigits 32 g.value.toNat) := String.toList_ofList

/-- The first character of a text is a digit. -/
theorem text_eq_cons (g : Guid) : ∃ d cs, d < 16 ∧ g.text.toList = hexDigit d :: cs := by
  have hlength := Text.length_hexDigits 32 g.value.toNat
  cases hdigits : hexDigits 32 g.value.toNat with
  | nil => rw [hdigits] at hlength; cases hlength
  | cons c cs =>
    obtain ⟨d, hd, rfl⟩ := Text.mem_hexDigits (hdigits ▸ List.mem_cons_self .. : c ∈ hexDigits 32 g.value.toNat)
    obtain ⟨rest, hrest⟩ : ∃ rest, hyphenated groups (hexDigit d :: cs) = hexDigit d :: rest := ⟨_, rfl⟩
    exact ⟨d, rest, hd, by rw [toList_text, hdigits, hrest]⟩

theorem length_text (g : Guid) : g.text.toList.length = 36 := by
  rw [toList_text]
  simp [groups, hyphenated, Text.length_hexDigits]

theorem ofText?_text (g : Guid) : ofText? g.text = some g := by
  obtain ⟨d, cs, hd, htext⟩ := text_eq_cons g
  have hbrace : ∀ d, d < 16 → (some (hexDigit d) == some '\x7b') = false := by decide
  have hscheme : ∀ d, d < 16 → ('u' == (hexDigit d).toLower) = false := by decide
  have hurn : ("urn:uuid:".toList == Text.foldCase (g.text.toList.take 9)) = false := by
    have hprefix : "urn:uuid:".toList = 'u' :: ['r', 'n', ':', 'u', 'u', 'i', 'd', ':'] := by decide
    rw [htext, hprefix, List.take_succ_cons, Text.foldCase, List.map_cons, List.cons_beq_cons, hscheme d hd,
      Bool.false_and]
  have hhead : (g.text.toList.head? == some '\x7b') = false := by
    rw [htext, List.head?_cons, hbrace d hd]
  rw [ofText?, if_neg (by rw [length_text]; decide), hhead, hurn, Bool.false_and, if_neg Bool.false_ne_true,
    if_neg Bool.false_ne_true, toList_text, ofHyphenated?_hyphenated]

theorem text_inj {g g' : Guid} (h : g.text = g'.text) : g = g' := by
  have hread := ofText?_text g
  rw [h, ofText?_text] at hread
  exact (Option.some.inj hread).symm

theorem trim_text (g : Guid) : Text.trim g.text.toList = g.text.toList := by
  have hdigit : ∀ d, d < 16 → Text.isBlank (hexDigit d) = false := by decide
  refine Text.trim_eq_self fun c hc => ?_
  rw [toList_text] at hc
  rcases mem_hyphenated hc with h | rfl
  · obtain ⟨d, hd, rfl⟩ := Text.mem_hexDigits h
    exact hdigit d hd
  · decide

end Guid

end DocStore
