import DocStore.Proofs.Text.Decimal
import DocStore.Time.Reading
import Mathlib.Algebra.Group.Nat.Defs
import Mathlib.Data.List.Induction
import Mathlib.Data.List.TakeWhile

/-! Timestamps that are read. Whatever the form of a timestamp, the instant that it stands for lies within its second, or
    in a leap second that ends a minute: offsets are whole minutes. -/

namespace DocStore

/-- An instant within its second, or in the leap second at the end of a minute. -/
def Instant.Proper (i : Instant) : Prop := i.nano < 1000000000 ∨ i.second % 60 = 59 ∧ i.nano < 2000000000

theorem Text.digitsValue_lt {ds : List Char} (h : ∀ c ∈ ds, Text.isDigit c = true) :
    Text.digitsValue ds < 10 ^ ds.length := by
  induction ds using List.reverseRecOn with
  | nil => decide
  | append_singleton ds c ih =>
    obtain ⟨hds, hc⟩ := List.forall_mem_append.mp h
    have hle : c ≤ '9' := by
      have hdigit := hc c (List.mem_singleton_self c)
      rw [Text.isDigit, Bool.and_eq_true, decide_eq_true_eq, decide_eq_true_eq] at hdigit
      exact hdigit.2
    have hvalue : Text.digitValue c < 10 := by
      have hcode : c.toNat ≤ 57 := hle
      rw [Text.digitValue]
      omega
    have hfront := ih hds
    rw [Text.digitsValue_concat, List.length_append, List.length_singleton, Nat.pow_succ]
    omega

namespace Timestamp

theorem fraction?_lt {cs rest : List Char} {nano : Nat} (h : fraction? cs = some (nano, rest)) : nano < 1000000000 := by
  unfold fraction? at h
  split at h
  · rename_i cs
    dsimp only at h
    split at h
    · cases h
    · cases h
      have hlength : ((cs.take 9).takeWhile Text.isDigit).length ≤ 9 :=
        Nat.le_trans (List.takeWhile_sublist _).length_le (List.length_take_le ..)
      have hvalue : Text.digitsValue ((cs.take 9).takeWhile Text.isDigit) < _ :=
        Text.digitsValue_lt fun c hc => List.mem_takeWhile_imp hc
      rw [tenTo, show (1000000000 : Nat) = _ from (Nat.pow_sub_mul_pow 10 hlength).symm, Nat.mul_comm]
      exact Nat.mul_lt_mul_of_pos_left hvalue (Nat.pow_pos (by decide))
  · cases h
    decide

/-- An offset is a whole number of minutes. -/
theorem clock?_mod {between : Scan Unit} {cs rest : List Char} {offset : Int} (h : clock? between cs = some (offset, rest)) :
    offset % 60 = 0 := by
  simp only [clock?, Option.bind_eq_bind, Option.bind_eq_some_iff] at h
  obtain ⟨hours, -, _, -, minutes, -, h⟩ := h
  split at h
  · cases h
  · cases h
    omega

theorem offset?_mod {between : Scan Unit} {cs rest : List Char} {offset : Int}
    (h : offset? between cs = some (offset, rest)) : offset % 60 = 0 := by
  unfold offset? at h
  split at h
  · split at h
    · cases h
      rfl
    · split at h
      · exact clock?_mod h
      · split at h
        · obtain ⟨⟨n, r⟩, hclock, heq⟩ := Option.map_eq_some_iff.mp h
          cases heq
          have hmod := clock?_mod hclock
          omega
        · cases h
  · cases h

/-- Fields within a second stand for an instant within its second or in a leap second. -/
theorem Fields.proper {f : Fields} {offset : Int} {i : Instant} (hnano : f.nano < 1000000000) (hoffset : offset % 60 = 0)
    (h : f.instant? offset = some i) : i.Proper := by
  rw [Fields.instant?] at h
  split at h
  · cases h
  · rename_i hfields
    split at h
    · cases h
    · dsimp only at h
      split at h
      · cases h
      · cases h
        by_cases hleap : f.second = 60
        · refine Or.inr ⟨?_, ?_⟩
          · dsimp only
            rw [hleap]
            omega
          · dsimp only
            rw [if_pos hleap]
            omega
        · refine Or.inl ?_
          dsimp only
          rw [if_neg hleap]
          exact hnano

theorem strictFields?_nano {cs rest : List Char} {f : Fields} (h : strictFields? cs = some (f, rest)) :
    f.nano < 1000000000 := by
  simp only [strictFields?, Option.bind_eq_bind, Option.bind_eq_some_iff] at h
  obtain ⟨_, -, _, -, _, -, _, -, _, -, _, -, _, -, _, -, _, -, _, -, _, -, nano, hnano, h⟩ := h
  cases h
  exact fraction?_lt hnano

theorem looseTime?_nano {date : Date} {cs rest : List Char} {f : Fields} (h : looseTime? date cs = some (f, rest)) :
    f.nano < 1000000000 := by
  simp only [looseTime?, Option.bind_eq_bind, Option.bind_eq_some_iff] at h
  obtain ⟨_, -, _, -, _, -, _, -, _, -, nano, hnano, h⟩ := h
  cases h
  exact fraction?_lt hnano

theorem rfc3339?_proper {cs : List Char} {i : Instant} (h : rfc3339? cs = some i) : i.Proper := by
  simp only [rfc3339?, Option.bind_eq_bind, Option.bind_eq_some_iff] at h
  obtain ⟨fields, hfields, offset, hoffset, h⟩ := h
  split at h
  · cases h
  · exact Fields.proper (strictFields?_nano hfields) (offset?_mod hoffset) h

theorem naive?_proper {cs : List Char} {i : Instant} (h : naive? cs = some i) : i.Proper := by
  simp only [naive?, Option.bind_eq_bind, Option.bind_eq_some_iff] at h
  obtain ⟨_, -, _, -, fields, hfields, h⟩ := h
  split at h
  · exact Fields.proper (looseTime?_nano hfields) rfl h
  · cases h

theorem loose?_proper {cs : List Char} {i : Instant} (h : loose? cs = some i) : i.Proper := by
  simp only [loose?, Option.bind_eq_bind, Option.bind_eq_some_iff] at h
  obtain ⟨_, -, _, -, fields, hfields, h⟩ := h
  have hinstant {offset : Int} {cs : List Char} (hmod : offset % 60 = 0)
      (h : (if (!(Text.trimStart cs).isEmpty || decide (86400 ≤ offset.natAbs)) = true then none
        else fields.1.instant? offset) = some i) : i.Proper := by
    split at h
    · cases h
    · exact Fields.proper (looseTime?_nano hfields) hmod h
  split at h
  · exact hinstant rfl h
  · obtain ⟨offset, hoffset, h⟩ := Option.bind_eq_some_iff.mp h
    exact hinstant (offset?_mod hoffset) h

end Timestamp

/-- An instant that a document holds, or that was sent, lies within its second or in a leap second. -/
theorem Instant.proper_of_read {s : String} {i : Instant}
    (h : Instant.ofDocument? s = some i ∨ Instant.ofMessage? s = some i) : i.Proper := by
  rcases h with h | h
  · rw [Instant.ofDocument?] at h
    split at h
    · rename_i hread
      cases h
      exact Timestamp.rfc3339?_proper hread
    · exact Timestamp.naive?_proper h
  · exact Timestamp.loose?_proper h

end DocStore
