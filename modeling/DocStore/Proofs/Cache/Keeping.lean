import DocStore.Cache.Reading
import DocStore.Proofs.Step

/-! Reads through the cache, seen from where they read: what the steps on the entry of the type and the reads of the
    fetcher keep, the whole read keeps. -/

namespace DocStore.Cache

variable {σ : Type}

/-- A fetcher whose reads leave a property of its own state alone. -/
structure Fetcher.Keeps (I : σ → Prop) (f : Fetcher σ) : Prop where
  fetch : ∀ id, Step.Keeps (fun x : Provider × σ => I x.2) (f.fetch id)
  fetchMany : ∀ ids, Step.Keeps (fun x : Provider × σ => I x.2) (f.fetchMany ids)
  stored : ∀ id, Step.Keeps (fun x : Provider × σ => I x.2) (f.stored id)

namespace Entry

/-- A step on an entry that does to it what one of its calls does. -/
def Called {α : Type} (m : Do α) : Prop := ∃ c, ∀ e, (m e).2 = (perform c e).2

theorem called_of {α : Type} {m : Do α} {reply : α → Reply} {c : Call} (h : perform c = m >>= fun a => pure (reply a)) :
    Called m :=
  ⟨c, fun e => by rw [h, Step.bind_pure_state]⟩

theorem called_get (id : DocId) : Called (get id) := called_of (c := .get id) rfl

theorem called_getMany (ids : List DocId) : Called (getMany ids) := called_of (c := .getMany ids) rfl

theorem called_generation : Called currentGeneration := called_of (c := .generation) rfl

theorem called_putIfGeneration (g : UInt64) (id : DocId) (payload : String) : Called (putIfGeneration g id payload) :=
  called_of (c := .putIfGeneration g id payload) rfl

theorem called_putManyIfGeneration (g : UInt64) (items : List (DocId × String)) :
    Called (putManyIfGeneration g items) :=
  called_of (c := .putManyIfGeneration g items) rfl

end Entry

namespace Provider

/-- What a read of a type is made of keeps a property of the registry and of the fetcher's state; of the entry that is
    looked for something is known. -/
structure ReadKeeps (k : Key) (mode : ConsumeMode) (f : Fetcher σ) (J : Provider × σ → Prop) (P : Handle → Prop) :
    Prop where
  found : Step.Ensures J (beside (Step.change (entryForMode k mode))) fun found => ∀ h, found = some h → P h
  entry : ∀ {h}, P h → ∀ {α : Type} {m : Entry.Do α}, Entry.Called m → Step.Keeps J (beside (onEntry h m))
  fetch : ∀ id, Step.Keeps J (f.fetch id)
  fetchMany : ∀ ids, Step.Keeps J (f.fetchMany ids)
  stored : ∀ id, Step.Keeps J (f.stored id)

section
variable {k : Key} {mode : ConsumeMode} {f : Fetcher σ} {J : Provider × σ → Prop} {P : Handle → Prop}
  (hr : ReadKeeps k mode f J P)
include hr

theorem ReadKeeps.consume (id : DocId) : Step.Keeps J (consume k id f mode) := by
  refine hr.found.bind fun found hfound => ?_
  split
  · exact hr.fetch id
  · have hh := hfound _ rfl
    refine .andThen (hr.entry hh (Entry.called_get id)) fun held => ?_
    split
    · exact .pure trivial
    · refine .andThen (hr.entry hh Entry.called_generation) fun generation => .andThen (hr.fetch id) fun fetched => ?_
      split
      · exact .pure trivial
      · split
        · exact .andThen (hr.entry hh (Entry.called_putIfGeneration ..)) fun _ => .pure trivial
        · exact .pure trivial

theorem ReadKeeps.consumeMany (ids : List DocId) : Step.Keeps J (consumeMany k ids f mode) := by
  refine hr.found.bind fun found hfound => ?_
  split
  · exact .andThen (hr.fetchMany _) fun _ => .pure trivial
  · have hh := hfound _ rfl
    refine .andThen (hr.entry hh (Entry.called_getMany ids)) fun cached => ?_
    dsimp only
    split
    · exact .pure trivial
    · refine .andThen (hr.entry hh Entry.called_generation) fun generation => .andThen (hr.fetchMany _) fun fetched => ?_
      split
      · exact .andThen (hr.entry hh (Entry.called_putManyIfGeneration ..)) fun _ => .pure trivial
      · exact .pure trivial

theorem ReadKeeps.exists? (id : DocId) : Step.Keeps J (exists? k id f mode) := by
  refine hr.found.bind fun found hfound => ?_
  split
  · exact hr.stored id
  · refine .andThen (hr.entry (hfound _ rfl) (Entry.called_get id)) fun held => ?_
    split
    · exact .pure trivial
    · exact hr.stored id

end

/-! ### The fetcher's own state -/

section
variable {I : σ → Prop}

theorem beside_keeps {α : Type} (m : Do α) : Step.Keeps (fun x : Provider × σ => I x.2) (beside m) :=
  .mapError (.within (.of_state (I := fun _ => True) fun _ _ => trivial) (fun _ _ => trivial) fun _ _ hx _ => hx)

variable {f : Fetcher σ} (hf : f.Keeps I) (k : Key) (mode : ConsumeMode)
include hf

theorem readKeeps_of_fetcher : ReadKeeps k mode f (fun x => I x.2) fun _ => True where
  found := (beside_keeps _).mono fun _ _ _ _ => trivial
  entry _ _ _ _ := beside_keeps _
  fetch := hf.fetch
  fetchMany := hf.fetchMany
  stored := hf.stored

theorem consume_keeps (id : DocId) : Step.Keeps (fun x : Provider × σ => I x.2) (consume k id f mode) :=
  (readKeeps_of_fetcher hf k mode).consume id

theorem consumeMany_keeps (ids : List DocId) :
    Step.Keeps (fun x : Provider × σ => I x.2) (consumeMany k ids f mode) :=
  (readKeeps_of_fetcher hf k mode).consumeMany ids

theorem exists?_keeps (id : DocId) : Step.Keeps (fun x : Provider × σ => I x.2) (exists? k id f mode) :=
  (readKeeps_of_fetcher hf k mode).exists? id

end

end Provider

end DocStore.Cache
