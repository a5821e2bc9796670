import DocStore.Proofs.Database
import DocStore.Proofs.Session.Prepared

/-! What whole histories keep. A property of databases that operations and sessions keep is one of the database in use
    after any calls too, however many of them failed. -/

namespace DocStore.Service

theorem session_of_insert {sv sv' : Service} {name name' : String} {ses : Session}
    (h : sv'.sessions = sv.sessions.insert name' ses) :
    sv'.session name = if name' = name then ses else sv.session name := by
  rw [session, session, h, Assoc.get?_insert]
  split <;> rfl

theorem after_append (sv : Service) (cs cs' : List Call) : sv.after (cs ++ cs') = (sv.after cs).after cs' :=
  List.foldl_append

/-- The schemas that a call brings along. -/
def Call.Brings (s : Schema) : Call → Prop
  | .register s' => s' = s
  | .upsertSet k | .dropSet k => k.schema = .ok s
  | .session _ c => c.kind.schema = .ok s
  | _ => False

/-- The schema of one type of structures is apart from all others of the type, there being none. -/
theorem apart_of_kind (k : Kind) : Store.Apart fun s => k.schema = .ok s := by
  have hunique {s s' : Schema} (hs : k.schema = .ok s) (hs' : k.schema = .ok s') : s = s' :=
    Except.ok.inj (hs.symm.trans hs')
  exact ⟨fun hs hs' => hunique hs hs' ▸ iff_of_true rfl rfl, fun hs hs' _ => hunique hs hs' ▸ rfl⟩

/-- A property of databases that is kept by all that can be asked of one, as long as it is about some types. -/
structure Invariant (types : Schema → Prop) (I : Database → Prop) : Prop extends Database.Invariant types I where
  session : ∀ (ses : Session) {c : Session.Call}, (∀ {s}, c.kind.schema = .ok s → types s) →
    Step.Keeps I (ses.perform c)

section
variable {types : Schema → Prop} {I : Database → Prop}

theorem onDatabase_keeps {α : Type} {m : Database.Do α} (hm : Step.Keeps I m) :
    Step.Keeps (fun sv : Service => I sv.database) (onDatabase m) :=
  .within hm (fun _ h => h) fun _ _ _ h => h

theorem onCache_keeps (hI : ∀ {db} cache, I db → I { db with cache }) (c : Cache.Provider.Call) :
    Step.Keeps I (onCache c) := by
  refine .of_state fun db hdb => ?_
  rw [onCache]
  split
  · exact hdb
  · exact hI _ hdb

theorem dispose_keeps (name : String) : Step.Keeps (fun sv : Service => I sv.database) (dispose name) := by
  refine .transaction fun sv hsv _ sv' h => ⟨?_, trivial⟩
  split at h <;> cases h
  exact hsv

/-- Whatever a service is asked to do, it keeps what its database keeps, if its session keeps it too. -/
theorem perform_keeps (h : Database.Invariant types I) {c : Call} (hc : ∀ {s}, c.Brings s → types s)
    (hsession : ∀ {name call}, c = .session name call → ∀ ses : Session, Step.Keeps I (ses.perform call)) :
    Step.Keeps (fun sv : Service => I sv.database) (perform c) := by
  cases c with
  | manage c => exact .map (onDatabase_keeps (h.manage c))
  | isCreated | isDisposed name | mode name => exact .of_reads fun _ => rfl
  | register s => exact .map (onDatabase_keeps (h.register (hc rfl)))
  | upsertSet k => exact .map (onDatabase_keeps (h.upsertSet hc))
  | dropSet k => exact .map (onDatabase_keeps (h.dropSet hc))
  | dropKeys ks => exact .map (onDatabase_keeps (h.dropKeys ks))
  | cache c => exact onDatabase_keeps (onCache_keeps h.withCache c)
  | openSession name => exact .map (.update fun _ hsv => hsv)
  | dispose name => exact .map (dispose_keeps name)
  | setMode name m => exact .map (.update fun _ hsv => hsv)
  | session name c =>
    intro sv hsv
    have hperform : Step.Keeps (fun sv : Service => I sv.database)
        ((onDatabase ((sv.session name).perform c)).map Reply.session) :=
      .map (onDatabase_keeps (hsession rfl _))
    exact hperform sv hsv

theorem after_keeps : ∀ {cs : List Call} {sv : Service}, I sv.database →
    (∀ c ∈ cs, Step.Keeps (fun sv : Service => I sv.database) (perform c)) → I (after sv cs).database
  | [], _, hsv, _ => hsv
  | c :: cs, sv, hsv, hcs => by
    have hnext := (hcs c (List.mem_cons_self ..) sv hsv).1
    show I (Service.after (Service.perform c sv).2 cs).database
    exact after_keeps hnext fun c hc => hcs c (List.mem_cons_of_mem _ hc)

theorem Invariant.perform (h : Invariant types I) {c : Call} (hc : ∀ {s}, c.Brings s → types s) :
    Step.Keeps (fun sv : Service => I sv.database) (perform c) := by
  refine perform_keeps h.toInvariant hc fun {name call} heq ses => h.session ses ?_
  subst heq
  exact hc

theorem Invariant.after (h : Invariant types I) {cs : List Call} {sv : Service} (hsv : I sv.database)
    (hcs : ∀ c ∈ cs, ∀ s, c.Brings s → types s) : I (after sv cs).database :=
  after_keeps hsv fun c hc => h.perform fun {s} => hcs c hc s

end

end DocStore.Service
