import DocStore.Proofs.Cache.Keeping
import DocStore.Proofs.Cache.Provider

/-! The entry of one type. Whatever is done with it, created with it or read through it, the entries that serve the other
    types are the same ones as before and have not changed. -/

namespace DocStore.Cache

/-- A fetcher that does not come to the cache itself. -/
structure Fetcher.Outside {σ : Type} (f : Fetcher σ) : Prop where
  fetch : ∀ id x, (f.fetch id x).2.1 = x.1
  fetchMany : ∀ ids x, (f.fetchMany ids x).2.1 = x.1
  stored : ∀ id x, (f.stored id x).2.1 = x.1

namespace Provider

/-- From one registry to the next the entries of all types but one are the same and have not changed. -/
structure Aside (k : Key) (p q : Provider) : Prop where
  sound : q.Sound
  registered : ∀ {k'}, k' ≠ k → q.registered.get? k' = p.registered.get? k'
  entry : ∀ {k' h}, k' ≠ k → p.registered.get? k' = some h → q.entry h = p.entry h

/-- A handle that serves no type but one. -/
def Reserved (k : Key) (p : Provider) (h : Handle) : Prop := ∀ k', k' ≠ k → p.registered.get? k' ≠ some h

variable {k k' : Key} {p q r : Provider} {h : Handle}

namespace Aside

theorem refl (hs : p.Sound) : Aside k p p := ⟨hs, fun _ => rfl, fun _ _ => rfl⟩

theorem trans (hpq : Aside k p q) (hqr : Aside k q r) : Aside k p r where
  sound := hqr.sound
  registered hne := (hqr.registered hne).trans (hpq.registered hne)
  entry hne hk := (hqr.entry hne ((hpq.registered hne).trans hk)).trans (hpq.entry hne hk)

theorem entryOf? (hpq : Aside k p q) (hne : k' ≠ k) : q.entryOf? k' = p.entryOf? k' := by
  rw [Provider.entryOf?, Provider.entryOf?, hpq.registered hne]
  cases hk : p.registered.get? k' with
  | none => rfl
  | some h => exact congrArg some (hpq.entry hne hk)

theorem setEntry (hpq : Aside k p q) (hh : Reserved k p h) (e : Entry) : Aside k p (q.setEntry h e) where
  sound := hpq.sound.setEntry h e
  registered := hpq.registered
  entry {k' h'} hne hk := by
    have hne' : h ≠ h' := fun heq => hh k' hne (heq ▸ hk)
    rw [entry_setEntry_ne hne', hpq.entry hne hk]

theorem enableFor (hs : p.Sound) : Aside k p (p.enableFor k).2 where
  sound := hs.enableFor k
  registered {k'} hne := by
    rw [Provider.enableFor]
    split
    · rfl
    · exact (Assoc.get?_insert ..).trans (if_neg hne.symm)
  entry hne hk := (entry_enableFor (hs.lt_length hk)).1

theorem entryFor (hs : p.Sound) : Aside k p (p.entryFor k).2 := by
  rw [Provider.entryFor]
  split
  · exact refl hs
  · split
    · exact enableFor hs
    · exact refl hs

/-- The entry of the type serves no other type, now or before. -/
theorem reserved (hpq : Aside k p q) (hk : q.registered.get? k = some h) : Reserved k p h := fun _ hne hk' =>
  hne (hpq.sound.key_unique ((hpq.registered hne).trans hk') hk)

theorem onRegistered {α : Type} (hs : p.Sound) (a : α) (m : Entry.Do α) : Aside k p (onRegistered k a m p).2 := by
  cases hk : p.registered.get? k with
  | none =>
    rw [onRegistered_none hk]
    exact refl hs
  | some h =>
    rw [onRegistered_some hk]
    exact (refl hs).setEntry ((refl hs).reserved hk) _

end Aside

/-! ### Reads -/

section
variable {σ : Type}

theorem found_aside (k : Key) (mode : ConsumeMode) (p : Provider) :
    Step.Ensures (fun x : Provider × σ => Aside k p x.1) (beside (Step.change (entryForMode k mode))) fun found =>
      ∀ h, found = some h → Reserved k p h := by
  have hchange : Step.Ensures (Aside k p) (Step.change (entryForMode k mode) : Do (Option Handle)) fun found =>
      ∀ h, found = some h → Reserved k p h := by
    refine .change fun q hpq => ?_
    cases mode with
    | ignore => exact ⟨hpq, nofun⟩
    | readOnly | update =>
      have hnext := hpq.trans (.entryFor hpq.sound)
      exact ⟨hnext, fun h hfound => hnext.reserved (registered_entryFor (Prod.ext hfound rfl))⟩
  exact .mapError (.within hchange (fun _ hx => hx) fun _ _ _ hq => hq)

theorem onEntry_aside {α : Type} (hh : Reserved k p h) (m : Entry.Do α) :
    Step.Keeps (fun x : Provider × σ => Aside k p x.1) (beside (onEntry h m)) :=
  .mapError (.within (I := Aside k p) (.of_state fun _ hpq => hpq.setEntry hh _) (fun _ hx => hx) fun _ _ _ hq => hq)

variable {f : Fetcher σ} (hf : f.Outside) (k : Key) (mode : ConsumeMode)
include hf

theorem readKeeps_aside : ReadKeeps k mode f (fun x => Aside k p x.1) (Reserved k p) where
  found := found_aside k mode p
  entry hh _ m _ := onEntry_aside hh m
  fetch id := .of_state fun x hx => (hf.fetch id x).symm ▸ hx
  fetchMany ids := .of_state fun x hx => (hf.fetchMany ids x).symm ▸ hx
  stored id := .of_state fun x hx => (hf.stored id x).symm ▸ hx

variable (hs : p.Sound)
include hs

theorem consume_aside (id : DocId) (s : σ) : Aside k p (consume k id f mode (p, s)).2.1 :=
  ((readKeeps_aside hf k mode).consume id (p, s) (.refl hs)).1

theorem consumeMany_aside (ids : List DocId) (s : σ) : Aside k p (consumeMany k ids f mode (p, s)).2.1 :=
  ((readKeeps_aside hf k mode).consumeMany ids (p, s) (.refl hs)).1

theorem exists?_aside (id : DocId) (s : σ) : Aside k p (exists? k id f mode (p, s)).2.1 :=
  ((readKeeps_aside hf k mode).exists? id (p, s) (.refl hs)).1

end

/-! ### The cache of a database -/

/-- From one cache to the next, if there is one at all, the entries of all types but one have not changed. -/
def AsideIn (k : Key) : Option Provider → Option Provider → Prop := Option.Rel fun p q => p.Sound → Aside k p q

namespace AsideIn

variable {c c' c'' : Option Provider}

theorem refl : ∀ c, AsideIn k c c
  | none => .none
  | some _ => .some fun hs => .refl hs

theorem trans (h : AsideIn k c c') (h' : AsideIn k c' c'') : AsideIn k c c'' := by
  cases h with
  | none => exact h'
  | some hpq =>
    cases h' with
    | some hqr => exact .some fun hs => (hpq hs).trans (hqr (hpq hs).sound)

theorem sound (h : AsideIn k c c') (hs : ∀ {p}, c = some p → p.Sound) (hq : c' = some q) : q.Sound := by
  subst hq
  cases h with
  | some hpq => exact (hpq (hs rfl)).sound

theorem entryOf? (h : AsideIn k c c') (hs : ∀ {p}, c = some p → p.Sound) (hne : k' ≠ k) :
    c'.bind (·.entryOf? k') = c.bind (·.entryOf? k') := by
  cases h with
  | none => rfl
  | some hpq => exact (hpq (hs rfl)).entryOf? hne

end AsideIn

end Provider

end DocStore.Cache
