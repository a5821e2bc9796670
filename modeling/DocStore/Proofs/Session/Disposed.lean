import DocStore.Proofs.Coherence.Service

/-! Sessions that were disposed of. A session that is disposed of stays so under its name until another one is opened in
    its place, refuses all that it is asked to do and changes nothing. Three arguments that never make sense are refused
    before it is looked at whether the session was disposed of: a blank statement and the two empty batches. -/

namespace DocStore

namespace Session

/-- What the argument of a call is refused with before anything else is looked at. -/
def Call.refusal? : Call → Option Error
  | .raw _ q _ => if Text.isBlankText q.sql then some (.validation (.requiredFieldMissing "sql")) else none
  | .insertMany _ items => if items.isEmpty then some (.validation (.emptyCollection "items")) else none
  | .insertManyJson _ texts => if texts.isEmpty then some (.validation (.emptyCollection "payloads")) else none
  | _ => none

section
variable {ses : Session}

theorem prepare_disposed (h : ses.disposed = true) (k : Kind) :
    ses.prepare k = Step.fail (.session .alreadyDisposed) := if_pos h

/-- A session that was disposed of fails at once, whatever it is asked to do. -/
theorem perform_disposed (h : ses.disposed = true) (c : Call) :
    ses.perform c = Step.fail (c.refusal?.getD (.session .alreadyDisposed)) := by
  have hprepare := prepare_disposed h
  cases c with
  | schema k => rw [perform, hprepare]; rfl
  | get k raw v => rw [perform, getAs, get, hprepare]; rfl
  | getMany k raws v => rw [perform, getManyAs, getMany, hprepare]; rfl
  | holds k raw => rw [perform, holds, hprepare]; rfl
  | getInterval k low high => rw [perform, getInterval, hprepare]; rfl
  | query k q v => rw [perform, queryAs, query, hprepare]; rfl
  | count k q => rw [perform, count, hprepare]; rfl
  | countAll k => rw [perform, countAll, count, hprepare]; rfl
  | raw k q v =>
    rw [perform, rawAs, raw, hprepare, Call.refusal?]
    split <;> rfl
  | insert k item => rw [perform, insert, insertMany, hprepare]; rfl
  | insertMany k items =>
    rw [perform, insertMany, hprepare, Call.refusal?]
    split <;> rfl
  | insertJson k text => rw [perform, insertJson, insertManyJson, hprepare]; rfl
  | insertManyJson k texts =>
    rw [perform, insertManyJson, hprepare, Call.refusal?]
    split <;> rfl
  | update k item => rw [perform, update, hprepare]; rfl
  | delete k raw => rw [perform, delete, deleteMany, hprepare]; rfl
  | deleteMany k raws => rw [perform, deleteMany, hprepare]; rfl
  | deleteInterval k low high => rw [perform, deleteInterval, hprepare]; rfl
  | deleteQuery k p => rw [perform, deleteQuery, hprepare]; rfl

end

theorem Connected.dispose {ses : Session} (h : ses.Connected) : ses.dispose =
    if ses.disposed then .error (.session .alreadyDisposed) else .ok { ses with client := ⟨true⟩, disposed := true } := by
  unfold Session.dispose
  split
  · rfl
  · rename_i hopen
    rw [Store.Client.close, h (Bool.eq_false_iff.mpr hopen)]
    rfl

end Session

namespace Service

variable {sv : Service} {name : String}

/-! ### The sessions of a service -/

/-- What one call does to the sessions of a service: one of them is opened, set to a mode or disposed of, if anything. -/
theorem perform_sessions (c : Call) (sv : Service) : (perform c sv).2.sessions = sv.sessions ∨
    ∃ name ses, (perform c sv).2.sessions = sv.sessions.insert name ses ∧
      (c = .openSession name ∧ ses = Session.ofDatabase sv.database ∨ (∃ mode, ses = { sv.session name with mode }) ∨
        (sv.session name).dispose = .ok ses) := by
  cases c with
  | manage | register | upsertSet | dropSet | dropKeys | session =>
    refine Or.inl ?_
    rw [perform, Step.map_state]
    rfl
  | isCreated | cache | isDisposed | mode => exact Or.inl rfl
  | openSession name => exact Or.inr ⟨name, _, rfl, Or.inl ⟨rfl, rfl⟩⟩
  | setMode name m => exact Or.inr ⟨name, _, rfl, Or.inr (Or.inl ⟨m, rfl⟩)⟩
  | dispose name =>
    rw [perform, Step.map_state, dispose, Step.transaction]
    cases h : (sv.session name).dispose with
    | error e => exact Or.inl rfl
    | ok ses => exact Or.inr ⟨name, ses, rfl, Or.inr (Or.inr h)⟩

/-- The clients of all sessions are open until the sessions are disposed of. -/
def Connected (sv : Service) : Prop := ∀ name, (sv.session name).Connected

theorem connected_of_no_sessions (h : sv.sessions = []) : sv.Connected := fun name => by
  rw [session, h]
  rintro ⟨⟩

theorem Connected.perform (h : sv.Connected) (c : Call) : (perform c sv).2.Connected := by
  intro name
  obtain hsame | ⟨name', ses, hinsert, hses⟩ := perform_sessions c sv
  · rw [session, hsame]
    exact h name
  · rw [session_of_insert hinsert]
    split
    · obtain ⟨-, rfl⟩ | ⟨mode, rfl⟩ | hdispose := hses
      · exact fun _ => rfl
      · exact h name'
      · exact Session.connected_dispose hdispose
    · exact h name

/-- A session stays disposed of until another one is opened under its name. -/
theorem disposed_perform (hdisposed : (sv.session name).disposed = true) {c : Call} (hc : c ≠ .openSession name) :
    ((perform c sv).2.session name).disposed = true := by
  obtain hsame | ⟨name', ses, hinsert, hses⟩ := perform_sessions c sv
  · rw [session, hsame]
    exact hdisposed
  · rw [session_of_insert hinsert]
    split
    · rename_i hname
      subst hname
      obtain ⟨rfl, -⟩ | ⟨mode, rfl⟩ | hdispose := hses
      · exact absurd rfl hc
      · exact hdisposed
      · rw [Session.dispose, if_pos hdisposed] at hdispose
        cases hdispose
    · exact hdisposed

/-- After it was asked for, a session is disposed of. -/
theorem perform_dispose (h : sv.Connected) (name : String) :
    ((perform (.dispose name) sv).2.session name).disposed = true := by
  rw [perform, Step.map_state, dispose, Step.transaction, (h name).dispose]
  by_cases hdisposed : (sv.session name).disposed = true
  · rw [if_pos hdisposed]
    exact hdisposed
  · rw [if_neg hdisposed, session_of_insert rfl, if_pos rfl]

/-! ### Runs -/

theorem Connected.after (h : sv.Connected) (cs : List Call) : (sv.after cs).Connected := by
  induction cs generalizing sv with
  | nil => exact h
  | cons c cs ih => exact ih (h.perform c)

theorem disposed_after {cs : List Call} (hcs : .openSession name ∉ cs)
    (hdisposed : (sv.session name).disposed = true) : ((sv.after cs).session name).disposed = true := by
  induction cs generalizing sv with
  | nil => exact hdisposed
  | cons c cs ih =>
    rw [List.mem_cons, not_or] at hcs
    exact ih hcs.2 (disposed_perform hdisposed (Ne.symm hcs.1))

/-- From the first time that it was asked to dispose of a session on, whatever else is done meanwhile, every call of the
    session fails and leaves the service as it is: because the session was disposed of, or because of an argument that is
    refused before. Disposing of it once more fails too. -/
theorem disposed_refuses (hnew : sv.sessions = []) (before later : List Call) (name : String)
    (hlater : .openSession name ∉ later) :
    let sv' := sv.after (before ++ .dispose name :: later)
    (∀ c, perform (.session name c) sv' = (.error (c.refusal?.getD (.session .alreadyDisposed)), sv')) ∧
      perform (.dispose name) sv' = (.error (.session .alreadyDisposed), sv') := by
  intro sv'
  have hconnected : (sv.after before).Connected := (connected_of_no_sessions hnew).after _
  have hdisposed : (sv'.session name).disposed = true := by
    have hrun : sv' = (perform (.dispose name) (sv.after before)).2.after later := after_append ..
    rw [hrun]
    exact disposed_after hlater (perform_dispose hconnected name)
  refine ⟨fun c => ?_, ?_⟩
  · show (onDatabase ((sv'.session name).perform c)).map Reply.session sv' = _
    rw [Session.perform_disposed hdisposed]
    rfl
  · have hfails : (sv'.session name).dispose = .error (.session .alreadyDisposed) := if_pos hdisposed
    rw [perform, dispose, Step.map, Step.transaction_error (by rw [hfails])]

/-- A type of loans. -/
def loanKind : Kind where
  ns := ""
  name := "Loan"
  idType := .identity
  describe := id
  read? _ := none

/-- A loan is written down before the session of the desk is disposed of, and counted from another one afterwards. -/
def deskBefore : List Call :=
  [.manage .create, .openSession "desk", .session "desk" (.insert loanKind ⟨.ok (.object []), none⟩)]

def deskLater : List Call :=
  [.setMode "desk" .ignore, .openSession "office", .session "office" (.countAll loanKind), .dispose "desk"]

theorem disposed_refuses_desk :
    let sv := after { database := { config := {} } } (deskBefore ++ .dispose "desk" :: deskLater)
    ((sv.database.store.sets.map fun x => x.2.rows.length) = [1]) ∧
      perform (.session "desk" (.deleteMany loanKind [])) sv = (.error (.session .alreadyDisposed), sv) ∧
      perform (.session "desk" (.insertJson loanKind "\x7b")) sv = (.error (.session .alreadyDisposed), sv) ∧
      perform (.dispose "desk") sv = (.error (.session .alreadyDisposed), sv) := by
  intro sv
  have hlater : Call.openSession "desk" ∉ deskLater := by simp [deskLater]
  have hnew : ({ database := { config := {} } } : Service).sessions = [] := rfl
  obtain ⟨hcalls, hagain⟩ := disposed_refuses hnew deskBefore deskLater "desk" hlater
  exact ⟨by decide +kernel, hcalls _, hcalls _, hagain⟩

/-- Not every call of a session that was disposed of says so: two empty batches and a blank statement do not. -/
theorem disposed_not_told :
    let sv := after { database := { config := {} } } [.manage .create, .openSession "desk", .dispose "desk"]
    (perform (.session "desk" (.insertMany loanKind [])) sv).1 = .error (.validation (.emptyCollection "items")) ∧
      (perform (.session "desk" (.insertManyJson loanKind [])) sv).1 =
        .error (.validation (.emptyCollection "payloads")) ∧
      (perform (.session "desk" (.raw loanKind ⟨" ", []⟩ .payload)) sv).1 =
        .error (.validation (.requiredFieldMissing "sql")) ∧
      Error.validation (.emptyCollection "items") ≠ .session .alreadyDisposed := by
  intro sv
  refine ⟨?_, ?_, ?_, by simp⟩
  · rfl
  · rfl
  · rfl

end Service

end DocStore
