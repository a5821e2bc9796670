import DocStore.Proofs.Query.TextMatch

/-! Patterns match literally. Under either dialect, and whatever characters it takes for the same, the pattern of a
    text match accepts the texts in which the text looked for stands, at the place that the match wants it at: no
    character of it acts as a wildcard, an escape or the beginning of a class. -/

namespace DocStore

open Sql.Like

variable {d : Dialect} {same : Char → Char → Bool}

namespace Sql.Like

theorem accepts_run {is : List Item} {t : List Char} :
    accepts same (.run :: is) t = true ↔ ∃ rest, rest <:+ t ∧ accepts same is rest = true := by
  simp only [accepts, List.any_eq_true, mem_suffixes]

theorem accepts_to_end {u t : List Char} : accepts same (u.map Item.literal) t = true ↔ Alike same u t := by
  have h : accepts same (u.map Item.literal ++ []) t = (after? same u t).any (accepts same []) :=
    accepts_literals [] u t
  rw [List.append_nil] at h
  simp only [h, Option.any_eq_true, after?_eq_some, accepts, List.isEmpty_iff]
  constructor
  · rintro ⟨rest, ⟨found, rfl, hfound⟩, rfl⟩
    rwa [List.append_nil]
  · intro halike
    exact ⟨[], ⟨t, (List.append_nil t).symm, halike⟩, rfl⟩

theorem accepts_before_run {u t : List Char} :
    accepts same (u.map Item.literal ++ [.run]) t = true ↔ ∃ found, Alike same u found ∧ found <+: t := by
  simp only [accepts_literals, Option.any_eq_true, after?_eq_some, accepts_run_end, and_true]
  constructor
  · rintro ⟨rest, found, rfl, hfound⟩
    exact ⟨found, hfound, List.prefix_append found rest⟩
  · rintro ⟨found, hfound, rest, rfl⟩
    exact ⟨rest, found, rfl, hfound⟩

theorem matchesChars_run {cs t : List Char} {is : List Item} (h : items? d Dialect.likeEscape cs = some is) :
    matchesChars same d Dialect.likeEscape ('%' :: cs) t = accepts same (.run :: is) t := by
  rw [matchesChars, items?_run, h]
  rfl

end Sql.Like

namespace TextMatch

theorem matchesChars_sought (d : Dialect) (same : Char → Char → Bool) (op : TextMatch) (u t : List Char) :
    matchesChars same d Dialect.likeEscape (op.front ++ (d.escapedChars u ++ op.back)) t = true ↔
      ∃ found, Alike same u found ∧ op.Stands found t := by
  have hend : items? d Dialect.likeEscape (d.escapedChars u) = some (u.map Item.literal) := by
    have h : items? d Dialect.likeEscape (d.escapedChars u ++ []) = some (u.map Item.literal ++ []) :=
      items?_escaped u rfl
    rwa [List.append_nil, List.append_nil] at h
  have hrun : items? d Dialect.likeEscape (d.escapedChars u ++ ['%']) = some (u.map Item.literal ++ [.run]) :=
    items?_escaped u (by cases d <;> rfl)
  cases op with
  | contains =>
    change matchesChars same d _ ('%' :: (d.escapedChars u ++ ['%'])) t = true ↔ _
    rw [matchesChars_run hrun, accepts_run]
    simp only [accepts_before_run, Stands, List.infix_iff_prefix_suffix]
    constructor
    · rintro ⟨rest, hrest, found, halike, hfound⟩
      exact ⟨found, halike, rest, hfound, hrest⟩
    · rintro ⟨found, halike, rest, hfound, hrest⟩
      exact ⟨rest, hrest, found, halike, hfound⟩
  | startsWith =>
    change matchesChars same d _ (d.escapedChars u ++ ['%']) t = true ↔ _
    rw [matchesChars, hrun]
    exact accepts_before_run
  | endsWith =>
    change matchesChars same d _ ('%' :: (d.escapedChars u ++ [])) t = true ↔ _
    rw [List.append_nil, matchesChars_run hend, accepts_run]
    simp only [accepts_to_end, Stands]
    exact exists_congr fun _ => and_comm

/-- Under either dialect the three patterns of a text match the texts that contain it, start with it and end with it,
    up to what counts as the same character. -/
theorem pattern_literal (d : Dialect) (same : Char → Char → Bool) (sought text : String) :
    (matchesChars same d Dialect.likeEscape (d.pattern .contains sought).toList text.toList = true ↔
      ∃ found, Alike same sought.toList found ∧ found <:+: text.toList) ∧
    (matchesChars same d Dialect.likeEscape (d.pattern .startsWith sought).toList text.toList = true ↔
      ∃ found, Alike same sought.toList found ∧ found <+: text.toList) ∧
    (matchesChars same d Dialect.likeEscape (d.pattern .endsWith sought).toList text.toList = true ↔
      ∃ found, Alike same sought.toList found ∧ found <:+ text.toList) := by
  simp only [toList_pattern]
  exact ⟨matchesChars_sought d same .contains _ _, matchesChars_sought d same .startsWith _ _,
    matchesChars_sought d same .endsWith _ _⟩

/-! ### In the engine -/

/-- The engine's own patterns do so too, unless there is a null character, where it ends a text. -/
theorem isLike_iff_stands {op : TextMatch} {sought text : String} (hsought : '\x00' ∉ sought.toList)
    (htext : '\x00' ∉ text.toList) : isLike Dialect.likeEscape (Dialect.sqlite.pattern op sought) text = true ↔
      ∃ found, Alike sameSeen sought.toList found ∧ op.Stands found text.toList := by
  rw [isLike_pattern, holds_iff_stands hsought htext]

end TextMatch

end DocStore
