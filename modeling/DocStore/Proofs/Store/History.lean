import DocStore.Proofs.Schema.Built
import DocStore.Proofs.Store.EverySet

/-! The history of a type: from a store in which the type is new its set is brought to one shape after the other, and
    written between. What holds of the set in the end is told by all of the shapes, not by the last one alone; it is
    shown by what each step of a history does to it. -/

namespace DocStore.Store

/-! ### Histories -/

/-- A store in which a type is new: nothing is noted of it, and its set is not there. -/
structure New (k : Key) (st : Store) : Prop where
  reached : Reached (fun _ => True) st
  fingerprint : st.fingerprint? k = none
  set : st.sets.get? (folded k.stem) = none

/-- Stores that a history of one type leads to, with the shapes that the set of the type was brought to, the last one
    first. What is done between may depend on the shape that the set has then. -/
inductive History (may : Schema → Client.Call → Prop) (k : Key) (st₀ : Store) : Store → List Schema → Prop
  | start : History may k st₀ st₀ []
  | upsert {st st' : Store} {shapes : List Schema} {s : Schema} (h : History may k st₀ st shapes) (hs : s.Builds)
      (hkey : s.key = k) (c : Client) (hdone : c.perform (.upsert s) st = (.ok .done, st')) :
      History may k st₀ st' (s :: shapes)
  | refused {st st' : Store} {shapes : List Schema} {s : Schema} {e : Error} (h : History may k st₀ st shapes)
      (c : Client) (hdone : c.perform (.upsert s) st = (.error e, st')) : History may k st₀ st' shapes
  | write {st : Store} {s : Schema} {shapes : List Schema} (h : History may k st₀ st (s :: shapes)) (c : Client)
      {call : Client.Call} (hcall : may s call) : History may k st₀ (c.perform call st).2 (s :: shapes)

/-- Whether fingerprints tell some shapes apart. -/
def Discerned (shapes : List Schema) : Prop :=
  ∀ s ∈ shapes, ∀ s' ∈ shapes, s.fingerprint = s'.fingerprint → Alike s s'

section
variable {s : Schema} {shapes : List Schema}

theorem discerned_of_pairwise (h : shapes.Pairwise fun s s' => s.fingerprint ≠ s'.fingerprint) : Discerned shapes := by
  intro s hs s' hs' heq
  have hsymm : Std.Symm fun s s' : Schema => s.fingerprint ≠ s'.fingerprint := ⟨fun _ _ => Ne.symm⟩
  by_cases hsame : s = s'
  · rw [hsame]
    exact ⟨rfl, rfl, rfl, rfl, rfl⟩
  · exact absurd heq (h.forall hs hs' hsame)

theorem Discerned.tail (h : Discerned (s :: shapes)) : Discerned shapes :=
  fun s hs s' hs' => h s (List.mem_cons_of_mem _ hs) s' (List.mem_cons_of_mem _ hs')

theorem Discerned.head {s' : Schema} (h : Discerned (s :: s' :: shapes)) (heq : s.fingerprint = s'.fingerprint) :
    Alike s s' :=
  h s (List.mem_cons_self ..) s' (List.mem_cons_of_mem _ (List.mem_cons_self ..)) heq

end

/-! ### What histories keep -/

/-- A relation of stores to the shapes of a type that every step of a history keeps. Of a store only the sets matter. -/
structure Tracks (may : Schema → Client.Call → Prop) (k : Key) (I : Store → List Schema → Prop) : Prop where
  sets : ∀ {st st' : Store} {shapes : List Schema}, st'.sets = st.sets → I st shapes → I st' shapes
  again : ∀ {st : Store} {s s' : Schema} {shapes : List Schema}, Alike s s' → I st (s' :: shapes) →
    I st (s :: s' :: shapes)
  shaped : ∀ {st st' : Store} {s : Schema} {shapes : List Schema}, st.Named → s.stem = k.stem →
    Store.shaped s st = .ok st' → I st shapes → I st' (s :: shapes)
  write : ∀ {st : Store} {s : Schema} {shapes : List Schema} (c : Client) {call : Client.Call}, st.Named → s.Builds →
    s.stem = k.stem → may s call → I st (s :: shapes) → I (c.perform call st).2 (s :: shapes)

namespace History

variable {may : Schema → Client.Call → Prop} {k : Key} {st₀ st : Store} {shapes : List Schema} (hnew : New k st₀)
  (h : History may k st₀ st shapes)
include h

theorem built : ∀ s ∈ shapes, s.Builds ∧ s.key = k := by
  induction h with
  | start => exact nofun
  | upsert _ hs hkey _ _ ih => exact List.forall_mem_cons.mpr ⟨⟨hs, hkey⟩, ih⟩
  | refused _ _ _ ih => exact ih
  | write _ _ _ ih => exact ih

omit h in
/-- A type that is brought to one shape, written once, and brought to another. -/
theorem reshaped {s s' : Schema} (hs : s.Builds) (hkey : s.key = k) (hs' : s'.Builds) (hkey' : s'.key = k) (c : Client)
    {call : Client.Call} (hcall : may s call) (hfirst : (c.perform (.upsert s) st₀).1 = .ok .done)
    (hlast : (c.perform (.upsert s') (st₀.after [(c, .upsert s), (c, call)])).1 = .ok .done) :
    History may k st₀ (st₀.after [(c, .upsert s), (c, call), (c, .upsert s')]) [s', s] := by
  have hbefore : History may k st₀ (st₀.after [(c, .upsert s)]) [s] := .upsert .start hs hkey c (Prod.ext hfirst rfl)
  have hbetween : History may k st₀ (st₀.after [(c, .upsert s), (c, call)]) [s] := hbefore.write c hcall
  exact hbetween.upsert hs' hkey' c (Prod.ext hlast rfl)

include hnew

theorem reached : Reached (fun _ => True) st := by
  induction h with
  | start => exact hnew.reached
  | @upsert st st' shapes s _ _ _ c hdone ih =>
    have hnext := ih.call c (Client.Call.about_all (.upsert s))
    rwa [hdone] at hnext
  | refused _ c hdone ih => exact c.perform_whole _ hdone ▸ ih
  | @write st s shapes _ c call _ ih => exact ih.call c call.about_all

variable (hmay : ∀ {s call}, may s call → call.shapes = false)
include hmay

/-- The fingerprint of the last shape is noted. -/
theorem fingerprint : st.fingerprint? k = shapes.head?.map (·.fingerprint) := by
  induction h with
  | start => exact hnew.fingerprint
  | upsert _ _ hkey c hdone =>
    obtain ⟨u, hguarded, -⟩ := Step.map_eq_ok.mp hdone
    rw [upsert_fingerprint? (Client.guarded_eq_ok hguarded), if_pos hkey]
    rfl
  | refused _ c hdone ih => exact c.perform_whole _ hdone ▸ ih
  | @write st s shapes h c call hcall ih =>
    have hn : st.Named := (h.reached hnew).filed
    exact ((c.perform_refilled (hmay hcall) st st (.refl hn)).1.fingerprint? k).trans ih

/-- What holds in the beginning and is kept by every step holds along a history whose shapes are told apart. -/
theorem tracks {I : Store → List Schema → Prop} (hI : Tracks may k I) (hstart : I st₀ []) (hd : Discerned shapes) :
    I st shapes := by
  induction h with
  | start => exact hstart
  | @upsert st st' shapes s h hs hkey c hdone ih =>
    obtain ⟨u, hguarded, -⟩ := Step.map_eq_ok.mp hdone
    obtain ⟨b, hb, ⟨hcurrent, rfl⟩ | ⟨st₁, hshaped, hst'⟩⟩ := upsert_eq_ok (Client.guarded_eq_ok hguarded)
    · -- nothing is done, so the last shape has the same fingerprint
      have hlast := h.fingerprint hnew hmay
      rw [fingerprint?_of_some hb, ← hkey, hcurrent] at hlast
      cases shapes with
      | nil => cases hlast
      | cons s' shapes => exact hI.again (hd.head (Option.some.inj hlast)) (ih hd.tail)
    · have hstem : s.stem = k.stem := hkey ▸ hs.stem_eq
      have hsets : st'.sets = st₁.sets := by rw [hst']
      exact hI.sets hsets (hI.shaped (h.reached hnew).filed hstem hshaped (ih hd.tail))
  | refused _ c hdone ih => exact c.perform_whole _ hdone ▸ ih hd
  | @write st s shapes h c call hcall ih =>
    obtain ⟨hs, hkey⟩ := h.built s (List.mem_cons_self ..)
    exact hI.write c (h.reached hnew).filed hs (hkey ▸ hs.stem_eq) hcall (ih hd)

end History

end DocStore.Store
