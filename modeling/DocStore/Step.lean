/-!
Steps: what an operation answers and the state it leaves. A step that fails leaves a state too, namely what was done
until then; a transaction that fails leaves the state it began with.
-/

namespace DocStore

/-- An operation on states `σ` that answers an `α` or fails with an `ε`. -/
def Step (ε σ α : Type) := σ → Except ε α × σ

namespace Step

variable {ε ε' σ τ α β : Type}

protected def pure (a : α) : Step ε σ α := fun s => (.ok a, s)

/-- One step after another; the second one is not begun if the first one fails. -/
protected def bind (m : Step ε σ α) (f : α → Step ε σ β) : Step ε σ β := fun s =>
  match m s with
  | (.ok a, s') => f a s'
  | (.error e, s') => (.error e, s')

instance : Monad (Step ε σ) where
  pure := Step.pure
  bind := Step.bind

instance : Inhabited (Step ε σ Unit) := ⟨Step.pure ()⟩

def fail (e : ε) : Step ε σ α := fun s => (.error e, s)

def state : Step ε σ σ := fun s => (.ok s, s)

def update (f : σ → σ) : Step ε σ Unit := fun s => (.ok (), f s)

/-- A change of the state that cannot fail. -/
def change (f : σ → α × σ) : Step ε σ α := fun s => let (a, s') := f s; (.ok a, s')

/-- An answer that does not need the state. -/
def ofExcept (r : Except ε α) : Step ε σ α := fun s => (r, s)

/-- An answer read off the state. -/
def query (f : σ → Except ε α) : Step ε σ α := fun s => (f s, s)

/-- A change that is made as a whole or not at all. -/
def transaction (f : σ → Except ε (α × σ)) : Step ε σ α := fun s =>
  match f s with
  | .ok (a, s') => (.ok a, s')
  | .error e => (.error e, s)

def map (f : α → β) (m : Step ε σ α) : Step ε σ β := fun s =>
  match m s with
  | (.ok a, s') => (.ok (f a), s')
  | (.error e, s') => (.error e, s')

def mapError (f : ε → ε') (m : Step ε σ α) : Step ε' σ α := fun s =>
  match m s with
  | (.ok a, s') => (.ok a, s')
  | (.error e, s') => (.error (f e), s')

def within (part : τ → σ) (put : σ → τ → τ) (m : Step ε σ α) : Step ε τ α := fun t =>
  let (r, s) := m (part t)
  (r, put s t)

/-- The answer or failure of a step, as an answer. -/
def attempt (m : Step ε σ α) : Step ε' σ (Except ε α) := fun s =>
  let (r, s') := m s
  (.ok r, s')

/-- One step per item, one after the other; the answers in their order. -/
def each (f : α → Step ε σ β) : List α → Step ε σ (List β)
  | [] => Step.pure []
  | a :: as => Step.bind (f a) fun b => Step.bind (each f as) fun bs => Step.pure (b :: bs)

/-- One step per item, one after the other. -/
def forEach (f : α → Step ε σ Unit) : List α → Step ε σ Unit
  | [] => Step.pure ()
  | a :: as => Step.bind (f a) fun _ => forEach f as

end Step

end DocStore
