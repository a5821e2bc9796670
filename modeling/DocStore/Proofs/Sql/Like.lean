import DocStore.Sql.Like
import Mathlib.Data.List.Forall2

/-! Patterns that look for a text. What was escaped is read back as the characters it came from, so a pattern
    accepts a text exactly where the text looked for stands in it. The engine reads patterns up to the first
    null character; a text looked for that holds one loses what follows it, the end of its pattern included. -/

namespace DocStore.Sql.Like

variable {d : Dialect} {same : Char → Char → Bool}

/-! ### Reading patterns -/

theorem item?_escaped (c : Char) (cs : List Char) :
    item? d Dialect.likeEscape (Dialect.likeEscape :: c :: cs) = some (.literal c, cs) := by
  simp [item?]

theorem item?_plain {c : Char} (h : d.isWildcard c = false) (cs : List Char) :
    item? d Dialect.likeEscape (c :: cs) = some (.literal c, cs) := by
  cases d <;> simp [Dialect.isWildcard] at h <;> simp [item?, h]

theorem escapedChars_cons (c : Char) (cs : List Char) :
    d.escapedChars (c :: cs) = (if d.isWildcard c then [Dialect.likeEscape, c] else [c]) ++ d.escapedChars cs := by
  simp [Dialect.escapedChars]

/-- An escaped text is read as its own characters, item by item. -/
theorem itemsWithin_escaped (n : Nat) (rest : List Char) : ∀ u : List Char,
    itemsWithin d Dialect.likeEscape (u.length + n) (d.escapedChars u ++ rest) =
      (itemsWithin d Dialect.likeEscape n rest).map (u.map Item.literal ++ ·)
  | [] => by simp [Dialect.escapedChars]
  | c :: u => by
    have ih := itemsWithin_escaped n rest u
    have hlen : (c :: u).length + n = (u.length + n) + 1 := by simp only [List.length_cons]; omega
    rw [hlen, escapedChars_cons]
    cases hc : d.isWildcard c
    · simp only [Bool.false_eq_true, if_false, List.cons_append, List.nil_append, itemsWithin, item?_plain hc, ih,
        Option.map_map, List.map_cons]
      rfl
    · simp only [if_true, List.cons_append, List.nil_append, itemsWithin, item?_escaped, ih, Option.map_map,
        List.map_cons]
      rfl

theorem itemsWithin_mono {e : Char} : ∀ {n k : Nat} {cs : List Char} {is : List Item}, n ≤ k →
    itemsWithin d e n cs = some is → itemsWithin d e k cs = some is
  | n, k, [], is, _, h => by
    cases n <;> cases k <;> simpa [itemsWithin] using h
  | 0, _, _ :: _, _, _, h => by simp [itemsWithin] at h
  | n + 1, 0, _ :: _, _, hk, _ => by omega
  | n + 1, k + 1, c :: cs, is, hk, h => by
    simp only [itemsWithin] at h ⊢
    split at h
    · cases h
    · rename_i i rest hi
      obtain ⟨is', his', rfl⟩ := Option.map_eq_some_iff.mp h
      rw [itemsWithin_mono (Nat.le_of_succ_le_succ hk) his']
      rfl

theorem length_escapedChars (u : List Char) : u.length ≤ (d.escapedChars u).length := by
  induction u with
  | nil => simp [Dialect.escapedChars]
  | cons c u ih =>
    rw [escapedChars_cons]
    cases d.isWildcard c <;> simp <;> omega

theorem items?_escaped {rest : List Char} {is : List Item} (u : List Char)
    (h : itemsWithin d Dialect.likeEscape rest.length rest = some is) :
    items? d Dialect.likeEscape (d.escapedChars u ++ rest) = some (u.map Item.literal ++ is) := by
  have hu := itemsWithin_escaped (d := d) rest.length rest u
  rw [h] at hu
  refine itemsWithin_mono ?_ hu
  have := length_escapedChars (d := d) u
  rw [List.length_append]
  omega

theorem items?_run (cs : List Char) :
    items? d Dialect.likeEscape ('%' :: cs) = (items? d Dialect.likeEscape cs).map (Item.run :: ·) := by
  have h : ¬('%' = Dialect.likeEscape) := by decide
  simp [items?, itemsWithin, item?, h]

/-! ### Accepting -/

theorem mem_suffixes {t rest : List Char} : rest ∈ suffixes t ↔ rest <:+ t := by
  induction t with
  | nil => simp [suffixes]
  | cons c t ih => simp [suffixes, List.suffix_cons_iff, ih]

/-- What follows a text at the beginning of another one. -/
def after? (same : Char → Char → Bool) : List Char → List Char → Option (List Char)
  | [], t => some t
  | _ :: _, [] => none
  | c :: u, x :: t => if same c x then after? same u t else none

/-- Texts of one length whose characters count as the same, one by one. -/
def Alike (same : Char → Char → Bool) : List Char → List Char → Prop := List.Forall₂ fun c x => same c x = true

theorem after?_eq_some {u t rest : List Char} : after? same u t = some rest ↔
    ∃ found, t = found ++ rest ∧ List.Forall₂ (fun c x => same c x = true) u found := by
  induction u generalizing t with
  | nil =>
    simp only [after?, Option.some.injEq]
    constructor
    · rintro rfl
      exact ⟨[], rfl, .nil⟩
    · rintro ⟨found, rfl, h⟩
      cases h
      rfl
  | cons c u ih =>
    cases t with
    | nil =>
      simp only [after?, reduceCtorEq, false_iff]
      rintro ⟨found, h, hf⟩
      cases hf
      cases h
    | cons x t =>
      simp only [after?]
      constructor
      · intro h
        split at h
        · rename_i hx
          obtain ⟨found, rfl, hf⟩ := ih.mp h
          exact ⟨x :: found, rfl, .cons hx hf⟩
        · cases h
      · rintro ⟨found, h, hf⟩
        cases hf with
        | cons hx hf =>
          injection h with h₁ h₂
          subst h₁
          rw [if_pos hx]
          exact ih.mpr ⟨_, h₂, hf⟩

theorem accepts_literals (is : List Item) : ∀ u t : List Char,
    accepts same (u.map Item.literal ++ is) t = (after? same u t).any (accepts same is)
  | [], t => by simp [after?]
  | c :: u, [] => by simp [after?, accepts]
  | c :: u, x :: t => by
    simp only [List.map_cons, List.cons_append, accepts, after?, accepts_literals is u t]
    cases same c x <;> simp

theorem accepts_run_end (t : List Char) : accepts same [.run] t = true := by
  simp only [accepts, List.any_eq_true]
  exact ⟨[], mem_suffixes.mpr (List.nil_suffix), rfl⟩

end DocStore.Sql.Like
