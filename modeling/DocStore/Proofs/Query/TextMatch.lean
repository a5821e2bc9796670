import DocStore.Proofs.Query.Holds

/-! The pattern of a text match accepts exactly the texts of which the match holds. The pattern is escaped
    before the engine cuts it at its first null character, so only what is escaped is cut, or nothing is. -/

namespace DocStore

open Sql.Like

/-! ### What the engine sees of a pattern -/

namespace Dialect

theorem isWildcard_seen (d : Dialect) (c : Char) : d.isWildcard (seen c) = d.isWildcard c := by
  by_cases h : c = '\ufffe' ∨ c = '\uffff'
  · rcases h with rfl | rfl <;> cases d <;> decide
  · rw [not_or] at h
    simp [seen, h]

theorem map_seen_escapedChars (d : Dialect) (u : List Char) :
    (d.escapedChars u).map seen = d.escapedChars (u.map seen) := by
  have hesc : seen likeEscape = likeEscape := by decide
  induction u with
  | nil => rfl
  | cons c u ih =>
    rw [List.map_cons, escapedChars_cons, escapedChars_cons, List.map_append, ih, isWildcard_seen]
    cases d.isWildcard c <;> simp [hesc]

theorem isWildcard_null (d : Dialect) : d.isWildcard '\x00' = false := by
  cases d <;> decide

theorem takeWhile_escapedChars (d : Dialect) (tail : List Char) : ∀ u : List Char,
    (d.escapedChars u ++ tail).takeWhile (· != '\x00') =
      d.escapedChars (u.takeWhile (· != '\x00')) ++
        (if '\x00' ∈ u then [] else tail.takeWhile (· != '\x00'))
  | [] => by simp [escapedChars]
  | c :: u => by
    have ih := takeWhile_escapedChars d tail u
    by_cases hc : c = '\x00'
    · subst hc
      rw [escapedChars_cons, isWildcard_null]
      simp [escapedChars]
    · have hesc : (likeEscape != '\x00') = true := by decide
      have hne : (c != '\x00') = true := by simpa using hc
      have hmem : '\x00' ∈ c :: u ↔ '\x00' ∈ u := by simp [Ne.symm hc]
      simp only [List.takeWhile_cons, hne, if_true, escapedChars_cons, hmem]
      cases d.isWildcard c <;> simp [hne, hesc, ih]

end Dialect

namespace TextMatch

/-- What stands before the escaped text in a pattern. -/
def front (op : TextMatch) : List Char := if op == .startsWith then [] else ['%']

/-- What stands after it. -/
def back (op : TextMatch) : List Char := if op == .endsWith then [] else ['%']

theorem toList_pattern (d : Dialect) (op : TextMatch) (t : String) :
    (d.pattern op t).toList = op.front ++ (d.escapedChars t.toList ++ op.back) := by
  cases op <;> simp [Dialect.pattern, Dialect.escapeLike, front, back]

theorem visible_pattern (op : TextMatch) (t : String) :
    visible (Dialect.sqlite.pattern op t) =
      op.front ++ (Dialect.sqlite.escapedChars (visible t) ++ if '\x00' ∈ t.toList then [] else op.back) := by
  have hrun : ('%' != '\x00') = true := by decide
  have hseen : seen '%' = '%' := by decide
  have hfront (cs : List Char) : (op.front ++ cs).takeWhile (· != '\x00') = op.front ++ cs.takeWhile (· != '\x00') := by
    cases op <;> simp [front, hrun]
  have hback : op.back.takeWhile (· != '\x00') = op.back := by
    cases op <;> simp [back, hrun]
  have hsame : op.front.map seen = op.front ∧ op.back.map seen = op.back := by
    cases op <;> simp [front, back, hseen]
  unfold visible
  rw [toList_pattern, hfront, Dialect.takeWhile_escapedChars, hback, List.map_append, List.map_append,
    Dialect.map_seen_escapedChars, hsame.1]
  split <;> simp [hsame.2]

/-- What follows the front of a pattern accepts the text looked for with anything, or with nothing, after it. -/
theorem matchesChars_back (op : TextMatch) (sought : String) :
    ∃ is, items? .sqlite Dialect.likeEscape
        (Dialect.sqlite.escapedChars (visible sought) ++ if '\x00' ∈ sought.toList then [] else op.back) = some is ∧
      ∀ t, accepts sameLetter is t =
        (after? sameLetter (visible sought) t).any fun rest => !op.atEnd sought || rest.isEmpty := by
  by_cases h : op.atEnd sought = true
  · have hend : (if '\x00' ∈ sought.toList then [] else op.back) = [] := by
      rw [atEnd, Bool.or_eq_true, List.contains_iff_mem] at h
      rcases h with h | h <;> simp [back, h]
    rw [hend, h]
    have hnil : itemsWithin .sqlite Dialect.likeEscape 0 [] = some [] := rfl
    refine ⟨_, items?_escaped (visible sought) hnil, fun t => ?_⟩
    rw [accepts_literals]
    simp [accepts]
  · have hrun : (if '\x00' ∈ sought.toList then [] else op.back) = ['%'] := by
      rw [atEnd, Bool.or_eq_true, List.contains_iff_mem, not_or] at h
      simp [back, h.1, h.2]
    have hone : itemsWithin .sqlite Dialect.likeEscape ['%'].length ['%'] = some [.run] := by decide
    rw [hrun, Bool.eq_false_iff.mpr h]
    refine ⟨_, items?_escaped (visible sought) hone, fun t => ?_⟩
    rw [accepts_literals]
    cases after? sameLetter (visible sought) t with
    | none => rfl
    | some rest => simp [accepts_run_end]

theorem isLike_pattern (op : TextMatch) (sought text : String) :
    isLike Dialect.likeEscape (Dialect.sqlite.pattern op sought) text = op.holds sought text := by
  obtain ⟨is, his, hacc⟩ := matchesChars_back op sought
  rw [holds, isLike, matchesChars, visible_pattern]
  cases op with
  | startsWith => simp [front, his, hacc]
  | contains => simp [front, items?_run, his, accepts, funext hacc]
  | endsWith => simp [front, items?_run, his, accepts, funext hacc]

end TextMatch

end DocStore
