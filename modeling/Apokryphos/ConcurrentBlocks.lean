import Apokryphos.BlockRegister
import Apokryphos.SerialOrders
import Apokryphos.SiteRoutes

/-!
Block requests that overlap over the local disk. A handler runs to its storage
operation and waits for it; the system calls of the operations of all handlers
stand between each other, and any of them may fail. A client may go away, which
ends the handler but not the operation, and the process may crash anywhere. What
the clients see is all the same what they would see one after the other.
-/
namespace ConcurrentBlocks
open BlockRegister BlockRoutes BlockStorage Digests GuardedRequests LocalFs LogEvents RequestGuards
open SealedFiles SiteRoutes StepRuns

structure Forwarded where
  request : BlockRequest
  subject : Option Subject

/-- What an operation of the storage answers; each has its own half. -/
structure Reply where
  done : Except StorageError Unit
  found : Except StorageError Bytes

def noReply : Reply := ⟨.error .notFound, .error .notFound⟩
def doneReply (result : Except StorageError Unit) : Reply := { noReply with done := result }
def foundReply (result : Except StorageError Bytes) : Reply := { noReply with found := result }

def replying : StorageProvider Reply where
  put reply _ _ := (reply.done, reply)
  get reply _ := (reply.found, reply)
  delete reply _ := (reply.done, reply)

/-- The operation that the handler waits for, if it comes to one. -/
def asks (c : BlockConfig) (r : Forwarded) : Option StorageCall :=
  (handleBlockLogged replying c ⟨noReply, []⟩ r.request r.subject).2.calls.head?

def answers (c : BlockConfig) (r : Forwarded) (reply : Reply) : Answer :=
  (handleBlockLogged replying c ⟨reply, []⟩ r.request r.subject).1

def opFor : StorageCall → Op
  | .put id payload => .put id payload
  | .get id => .get id
  | .delete id => .delete id

def replyOf : Call → Option Reply
  | .put _ _ (.returned result) => some (doneReply result)
  | .get _ (.returned result) => some (foundReply result)
  | .delete _ (some result) => some (doneReply result)
  | _ => none

inductive Stage where
  | running
  | storing (call : Nat)
  deriving DecidableEq

/-- The handlers that run, by the numbers of their requests, and the requests for
    which the calls on the disk were made. -/
structure Service where
  disk : LocalFs.State
  handlers : Nat → Option (Forwarded × Stage)
  callers : Nat → Option (Nat × Forwarded)
  answers : List (Nat × Answer)
  next : Nat

inductive Happening where
  | arrive (r : Forwarded)
  | handle (n : Nat)
  | advance (call : Nat) (choice : Choice)
  | fail (call : Nat) (kind : IoErrorKind)
  | resume (n : Nat)
  | lose (n : Nat)
  | crash

def Service.answer (s : Service) (n : Nat) (a : Answer) : Service :=
  { s with
    handlers := Function.update s.handlers n none
    answers := s.answers ++ [(n, a)] }

/-- The handler gives the call to a thread of its own. -/
def Service.spawn (s : Service) (n : Nat) (r : Forwarded) (op : Op) : Service :=
  { s with
    disk := { s.disk.setCall s.disk.next op.call with next := s.disk.next + 1 }
    handlers := Function.update s.handlers n (some (r, .storing s.disk.next))
    callers := Function.update s.callers s.disk.next (some (n, r)) }

def serviceStep (c : BlockConfig) (s : Service) : Happening → Option Service
  | .arrive r => some { s with
      handlers := Function.update s.handlers s.next (some (r, .running))
      next := s.next + 1 }
  | .handle n =>
    match s.handlers n with
    | some (r, .running) =>
      match asks c r with
      | none => some (s.answer n (answers c r noReply))
      | some call => some (s.spawn n r (opFor call))
    | _ => none
  | .advance k choice => (step s.disk (.advance k choice)).map fun disk => { s with disk := disk }
  | .fail k kind => (step s.disk (.fail k kind)).map fun disk => { s with disk := disk }
  | .resume n =>
    match s.handlers n with
    | some (r, .storing k) => ((s.disk.call k).bind replyOf).map fun reply => s.answer n (answers c r reply)
    | _ => none
  -- A blocking task runs on without the handler that waits for it.
  | .lose n => (s.handlers n).map fun _ => { s with handlers := Function.update s.handlers n none }
  | .crash => some { s with
      disk := { s.disk with calls := ∅ }
      handlers := fun _ => none }

def opened (disk : LocalFs.State) : Service := ⟨disk, fun _ => none, fun _ => none, [], 0⟩

/-- The system call with which an operation takes effect: a get when it opens the
    file, a put with its rename, a delete with its unlink. -/
def commits : Call → Bool
  | .put _ _ (.renaming _) | .get _ .opening | .delete _ none => true
  | _ => false

def commit (c : BlockConfig) (s : Service) : Happening → Option (Nat × Forwarded)
  | .handle n =>
    match s.handlers n with
    | some (r, .running) => if asks c r = none then some (n, r) else none
    | _ => none
  | .advance k _ => (s.disk.call k).bind fun call => if commits call then s.callers k else none
  | .arrive _ | .fail _ _ | .resume _ | .lose _ | .crash => none

def serve (c : BlockConfig) (m : Register) (r : Forwarded) : Answer × Register :=
  let served := handleBlockLogged atomicMap c ⟨m, []⟩ r.request r.subject
  (served.1, served.2.store)

section Handlers

def getAnswer (fields : BlockFields) : Except StorageError Bytes → Answer
  | .ok payload => (respondBlock200 payload, [.getHit fields])
  | .error .notFound => (respondBlock404, [.getMiss fields])
  | .error (.backend cause) => (respondBlock503, [.getBackendFailed fields (BackendFailureCause.asStr cause)])

def putAnswer (c : BlockConfig) (fields : BlockFields) : Except StorageError Unit → Answer
  | .ok _ => (respondBlock204, [.putOk fields c.blockSizeBytes])
  | .error .notFound => (respondBlock503, [])
  | .error (.backend cause) => (respondBlock503, [.putBackendFailed fields (BackendFailureCause.asStr cause)])

def deleteAnswer (fields : BlockFields) : Except StorageError Unit → Answer
  | .ok _ | .error .notFound => (respondBlock204, [.deleteOk fields])
  | .error (.backend cause) =>
    (respondBlock503, [.deleteBackendFailed fields (BackendFailureCause.asStr cause)])

/-- The handler answers at once, or it makes one operation and answers by its
    result, over every storage. -/
inductive Asks (c : BlockConfig) (r : Forwarded) : Prop where
  | nothing (answer : Answer) (plain : answer.1 ≠ respondBlock503)
      (runs : ∀ {S : Type} (provider : StorageProvider S) (s : Session S),
        handleBlockLogged provider c s r.request r.subject = (answer, s))
  | get (id : BlockId) (fields : BlockFields) (method : r.request.request.method = "GET")
      (runs : ∀ {S : Type} (provider : StorageProvider S) (s : Session S),
        handleBlockLogged provider c s r.request r.subject =
          (getAnswer fields (s.get provider id).1, (s.get provider id).2))
  | put (id : BlockId) (bytes : Bytes) (fields : BlockFields) (method : r.request.request.method = "PUT")
      (runs : ∀ {S : Type} (provider : StorageProvider S) (s : Session S),
        handleBlockLogged provider c s r.request r.subject =
          (putAnswer c fields (s.put provider id bytes).1, (s.put provider id bytes).2))
  | delete (id : BlockId) (fields : BlockFields) (method : r.request.request.method = "DELETE")
      (runs : ∀ {S : Type} (provider : StorageProvider S) (s : Session S),
        handleBlockLogged provider c s r.request r.subject =
          (deleteAnswer fields (s.delete provider id).1, (s.delete provider id).2))

theorem put_asks {c : BlockConfig} {r : Forwarded} (id : BlockId) (fields : BlockFields)
    (method : r.request.request.method = "PUT")
    (runs : ∀ {S : Type} (provider : StorageProvider S) (s : Session S),
      handleBlockLogged provider c s r.request r.subject =
        handlePutLogged provider c s id fields r.request) : Asks c r := by
  have refused (refuses : ∀ {S : Type} (provider : StorageProvider S) (s : Session S),
      handlePutLogged provider c s id fields r.request = ((respondBlock400, []), s)) : Asks c r :=
    .nothing _ (by decide) fun provider s => (runs provider s).trans (refuses provider s)
  by_cases declared : ∃ declared ∈ contentLength r.request.request, declared ≠ c.blockSizeBytes
  · exact refused fun provider s => if_pos declared
  cases sum : MachineWords.checkedAdd c.blockSizeBytes 1 with
  | none =>
    refine refused fun provider s => ?_
    simp only [handlePutLogged, if_neg declared, sum]
  | some n =>
    cases read : c.reader.toBytes r.request.body (n.toNat % 2 ^ c.usizeBits) with
    | none =>
      refine refused fun provider s => ?_
      simp only [handlePutLogged, if_neg declared, sum, read]
    | some bytes =>
      by_cases size : UInt64.ofNat bytes.length ≠ c.blockSizeBytes
      · refine refused fun provider s => ?_
        simp only [handlePutLogged, if_neg declared, sum, read, if_pos size]
      · refine .put id bytes fields method fun provider s => (runs provider s).trans ?_
        simp only [handlePutLogged, if_neg declared, sum, read, if_neg size]
        cases s.put provider id bytes with
        | mk result after =>
          cases result with
          | ok u => rfl
          | error e => cases e <;> rfl

def fieldsOf (r : Forwarded) (name : String) : BlockFields :=
  ⟨name, subjectFromRequest r.subject, ProxyTrust.addressFromRequest r.request.request⟩

theorem handler_asks (c : BlockConfig) (r : Forwarded) : Asks c r := by
  have missing : respondBlock404 ≠ respondBlock503 := by decide
  cases parsed : BlockId.parse ((Texts.stripPrefix blocksRoot (rawPath r.request.request)).getD "") with
  | none =>
    refine .nothing (respondBlock404, [.getMiss (fieldsOf r blockIdMalformed)]) missing fun provider s => ?_
    simp only [handleBlockLogged, parsed]
    rfl
  | some id =>
    by_cases get : r.request.request.method = "GET"
    · refine .get id (fieldsOf r id.text) get fun provider s => ?_
      simp only [handleBlockLogged, parsed, if_pos get, handleGetLogged]
      cases s.get provider id with
      | mk result after =>
        cases result with
        | ok payload => rfl
        | error e => cases e <;> rfl
    by_cases put : r.request.request.method = "PUT"
    · refine put_asks id (fieldsOf r id.text) put fun provider s => ?_
      simp only [handleBlockLogged, parsed, if_neg get, if_pos put]
      rfl
    by_cases delete : r.request.request.method = "DELETE"
    · refine .delete id (fieldsOf r id.text) delete fun provider s => ?_
      simp only [handleBlockLogged, parsed, if_neg get, if_neg put, if_pos delete, handleDeleteLogged]
      cases s.delete provider id with
      | mk result after =>
        cases result with
        | ok u => rfl
        | error e => cases e <;> rfl
    · refine .nothing (respondBlock404, [.getMiss (fieldsOf r id.text)]) missing fun provider s => ?_
      simp only [handleBlockLogged, parsed, if_neg get, if_neg put, if_neg delete]
      rfl

def ask {S : Type} (provider : StorageProvider S) (s : Session S) : StorageCall → Reply × Session S
  | .put id payload => (doneReply (s.put provider id payload).1, (s.put provider id payload).2)
  | .get id => (foundReply (s.get provider id).1, (s.get provider id).2)
  | .delete id => (doneReply (s.delete provider id).1, (s.delete provider id).2)

variable {c : BlockConfig} {r : Forwarded}

theorem asks_none (idle : asks c r = none) : (answers c r noReply).1 ≠ respondBlock503 ∧
    ∀ {S : Type} (provider : StorageProvider S) (s : Session S),
      handleBlockLogged provider c s r.request r.subject = (answers c r noReply, s) := by
  unfold asks at idle
  unfold answers
  cases handler_asks c r with
  | nothing answer plain runs =>
    rw [runs]
    exact ⟨plain,runs⟩
  | get id fields method runs => rw [runs] at idle; cases idle
  | put id bytes fields method runs => rw [runs] at idle; cases idle
  | delete id fields method runs => rw [runs] at idle; cases idle

theorem handler_resumes {call : StorageCall} (asked : asks c r = some call) {S : Type}
    (provider : StorageProvider S) (s : Session S) :
    handleBlockLogged provider c s r.request r.subject =
      (answers c r (ask provider s call).1, (ask provider s call).2) := by
  unfold asks at asked
  unfold answers
  cases handler_asks c r with
  | nothing answer plain runs => rw [runs] at asked; cases asked
  | get id fields method runs | put id bytes fields method runs | delete id fields method runs =>
    rw [runs] at asked
    cases asked
    rw [runs, runs]
    rfl

def served : StorageCall → Register → Reply × Register
  | .put id payload, m => (doneReply (.ok ()), Function.update m id (some payload))
  | .get id, m => (foundReply ((m id).elim (.error .notFound) .ok), m)
  | .delete id, m => (doneReply (.ok ()), Function.update m id none)

theorem serve_none (idle : asks c r = none) (m : Register) : serve c m r = (answers c r noReply, m) := by
  unfold serve
  rw [(asks_none idle).2]

theorem serve_asked {call : StorageCall} (asked : asks c r = some call) (m : Register) :
    serve c m r = (answers c r (served call m).1, (served call m).2) := by
  unfold serve
  rw [handler_resumes asked]
  cases call with
  | put id payload => rfl
  | get id =>
    simp only [ask, Session.get, atomicMap, served]
    cases m id <;> rfl
  | delete id => rfl

def errorOf : Call → Option StorageError
  | .put _ _ (.returned (.error e)) => some e
  | .put _ _ (.dropping _ kind) => some (backend kind)
  | .get _ (.returned (.error (.backend cause))) => some (.backend cause)
  | .delete _ (some (.error e)) => some e
  | _ => none

theorem getAnswer_unavailable {fields : BlockFields} {result : Except StorageError Bytes} :
    (getAnswer fields result).1 = respondBlock503 ↔ ∃ cause, result = .error (.backend cause) := by
  cases result with
  | ok payload => simp [getAnswer, respondBlock200, respondBlock503]
  | error e => cases e <;> simp [getAnswer, respondBlock404, respondBlock503]

theorem putAnswer_unavailable {fields : BlockFields} {result : Except StorageError Unit} :
    (putAnswer c fields result).1 = respondBlock503 ↔ ∃ e, result = .error e := by
  cases result with
  | ok u => simp [putAnswer, respondBlock204, respondBlock503]
  | error e => cases e <;> simp [putAnswer]

theorem deleteAnswer_unavailable {fields : BlockFields} {result : Except StorageError Unit} :
    (deleteAnswer fields result).1 = respondBlock503 ↔ ∃ cause, result = .error (.backend cause) := by
  cases result with
  | ok u => simp [deleteAnswer, respondBlock204, respondBlock503]
  | error e => cases e <;> simp [deleteAnswer, respondBlock204, respondBlock503]

theorem answers_unavailable {call : Call} {reply : Reply} (asked : (asks c r).map opFor = some (opOf call))
    (backed : ∀ e, errorOf call = some e → ∃ kind, e = backend kind)
    (replied : replyOf call = some reply) : (answers c r reply).1 = respondBlock503 ↔ errorOf call ≠ none := by
  unfold asks at asked
  unfold answers
  cases handler_asks c r with
  | nothing answer plain runs => rw [runs] at asked; cases asked
  | get id fields method runs =>
    rw [runs] at asked ⊢
    obtain ⟨phase,rfl⟩ : ∃ phase, call = .get id phase := by
      cases call <;> cases asked
      exact ⟨_,rfl⟩
    cases phase <;> cases replied
    rename_i result
    refine getAnswer_unavailable.trans ?_
    cases result with
    | ok payload => simp [Session.get, replying, foundReply, errorOf]
    | error e => cases e <;> simp [Session.get, replying, foundReply, errorOf]
  | put id bytes fields method runs =>
    rw [runs] at asked ⊢
    obtain ⟨phase,rfl⟩ : ∃ phase, call = .put id bytes phase := by
      cases call <;> cases asked
      exact ⟨_,rfl⟩
    cases phase <;> cases replied
    rename_i result
    refine putAnswer_unavailable.trans ?_
    cases result <;> simp [Session.put, replying, doneReply, errorOf]
  | delete id fields method runs =>
    rw [runs] at asked ⊢
    obtain ⟨result,rfl⟩ : ∃ result, call = .delete id result := by
      cases call <;> cases asked
      exact ⟨_,rfl⟩
    cases result with
    | none => cases replied
    | some result =>
      cases replied
      refine deleteAnswer_unavailable.trans ?_
      cases result with
      | ok u => simp [Session.delete, replying, doneReply, errorOf]
      | error e =>
        obtain ⟨kind,rfl⟩ := backed e rfl
        simp [Session.delete, replying, doneReply, errorOf, backend]

end Handlers

inductive Serves (c : BlockConfig) (s : Service) : Happening → Service → Prop where
  | arrived (r : Forwarded) : Serves c s (.arrive r) { s with
      handlers := Function.update s.handlers s.next (some (r, .running))
      next := s.next + 1 }
  | answered {n r} (found : s.handlers n = some (r, .running)) (idle : asks c r = none) :
      Serves c s (.handle n) (s.answer n (answers c r noReply))
  | spawned {n r call} (found : s.handlers n = some (r, .running)) (asked : asks c r = some call) :
      Serves c s (.handle n) (s.spawn n r (opFor call))
  | advanced {k choice before call op} (found : s.disk.call k = some before)
      (moves : Advances s.disk.root before call op) : Serves c s (.advance k choice)
        { s with disk := { s.disk.setCall k call with root := Root.performed s.disk.root op } }
  | failed {k kind before call} (found : s.disk.call k = some before) (fails : Fails kind before call) :
      Serves c s (.fail k kind) { s with disk := s.disk.setCall k call }
  | resumed {n r k call reply} (found : s.handlers n = some (r, .storing k))
      (made : s.disk.call k = some call) (replied : replyOf call = some reply) :
      Serves c s (.resume n) (s.answer n (answers c r reply))
  | lost {n h} (found : s.handlers n = some h) :
      Serves c s (.lose n) { s with handlers := Function.update s.handlers n none }
  | crashed : Serves c s .crash { s with
      disk := { s.disk with calls := ∅ }
      handlers := fun _ => none }

theorem serviceStep_cases {c : BlockConfig} {s t : Service} {e : Happening}
    (taken : serviceStep c s e = some t) :
    Serves c s e t ∧ (t.disk = s.disk ∨ ∃ e, step s.disk e = some t.disk) := by
  cases e with
  | arrive r =>
    cases taken
    exact ⟨.arrived r,.inl rfl⟩
  | handle n =>
    simp only [serviceStep] at taken
    split at taken
    · rename_i r found
      split at taken
      · rename_i idle
        cases taken
        exact ⟨.answered found idle,.inl rfl⟩
      · rename_i call asked
        cases taken
        exact ⟨.spawned found asked,.inr ⟨.start (opFor call),rfl⟩⟩
    · cases taken
  | advance k choice =>
    obtain ⟨disk,moved,rfl⟩ := Option.map_eq_some_iff.mp taken
    cases LocalFs.step_cases moved with
    | advanced found _ moves => exact ⟨.advanced found moves,.inr ⟨_,moved⟩⟩
  | fail k kind =>
    obtain ⟨disk,moved,rfl⟩ := Option.map_eq_some_iff.mp taken
    cases LocalFs.step_cases moved with
    | failed found fails => exact ⟨.failed found fails,.inr ⟨_,moved⟩⟩
  | resume n =>
    simp only [serviceStep] at taken
    split at taken
    · rename_i r k found
      obtain ⟨reply,replied,rfl⟩ := Option.map_eq_some_iff.mp taken
      obtain ⟨call,made,replied⟩ := Option.bind_eq_some_iff.mp replied
      exact ⟨.resumed found made replied,.inl rfl⟩
    · cases taken
  | lose n =>
    obtain ⟨h,found,rfl⟩ := Option.map_eq_some_iff.mp taken
    exact ⟨.lost found,.inl rfl⟩
  | crash =>
    cases taken
    exact ⟨.crashed,.inr ⟨.crash,rfl⟩⟩

def past : Call → Bool
  | .put _ _ .persisted | .put _ _ (.returned _) | .put _ _ (.dropping _ _) => true
  | .put _ _ _ | .get _ .opening | .delete _ none => false
  | .get _ _ | .delete _ (some _) | .exists_ _ _ => true

/-- The call has not taken effect, which is not told of a get that has failed. -/
def unspent : Call → Bool
  | .put _ _ .persisted | .put _ _ (.returned (.ok _)) | .delete _ (some (.ok _)) => false
  | .put _ _ _ | .get _ .opening | .delete _ _ => true
  | .get _ _ | .exists_ _ _ => false

section Calls
variable {root : Root} {call next : Call} {op : Option FileOp} {kind : IoErrorKind}

theorem commits_past (now : commits call = true) : past call = false := by
  cases call with
  | put id payload phase => cases phase <;> first | rfl | cases now
  | get id phase => cases phase <;> first | rfl | cases now
  | delete id result => cases result <;> first | rfl | cases now
  | exists_ id result => cases now

theorem advance_past (moves : Advances root call next op) :
    past next = (past call || commits call) := by
  cases moves with
  | put moves => cases moves <;> rfl
  | _ => rfl

theorem fail_past (fails : Fails kind call next) (before : past call = true) : past next = true := by
  cases fails with
  | early held => rcases held with rfl | rfl | rfl | rfl | rfl <;> rfl
  | _ => rfl

theorem advance_unspent (moves : Advances root call next op) (after : unspent next = true) :
    unspent call = true ∧ commits call = false := by
  cases moves with
  | put moves => cases moves <;> first | exact ⟨rfl,rfl⟩ | cases after
  | _ => cases after

theorem fail_unspent (fails : Fails kind call next) (after : unspent next = true) : unspent call = true := by
  cases fails with
  | early held => rcases held with rfl | rfl | rfl | rfl | rfl <;> rfl
  | late held => rcases held with rfl | rfl | ⟨rest,rfl⟩ <;> rfl
  | dropped => rfl
  | get => cases after
  | delete => rfl
  | exists_ => cases after

theorem advance_error (moves : Advances root call next op) {e : StorageError}
    (failed : errorOf next = some e) : errorOf call = some e := by
  cases moves with
  | put moves => cases moves <;> exact failed
  | _ => cases failed

theorem fail_error (fails : Fails kind call next) {e : StorageError} (failed : errorOf next = some e) :
    e = backend kind ∨ errorOf call = some e := by
  cases fails with
  | dropped => exact .inr failed
  | exists_ => cases failed
  | early | late | get | delete =>
    cases failed
    exact .inl rfl

theorem start_error (op : Op) : errorOf op.call = none := by
  cases op <;> rfl

theorem replied_past {reply : Reply} (replied : replyOf call = some reply) : past call = true := by
  unfold replyOf at replied
  split at replied
  · rfl
  · rfl
  · rfl
  · cases replied

end Calls

structure Ended (s : Service) (n : Nat) : Prop where
  arrived : n < s.next
  begun : ∀ r, s.handlers n ≠ some (r, .running)
  past : ∀ k r call, s.callers k = some (n, r) → s.disk.call k = some call → past call = true

structure Orderly (c : BlockConfig) (s : Service) : Prop where
  sound : Sound s.disk
  handled : ∀ n h, s.handlers n = some h → n < s.next ∧ n ∉ s.answers.map Prod.fst
  running : ∀ n r, s.handlers n = some (r, .running) → ∀ k r', s.callers k ≠ some (n, r')
  waits : ∀ n r k, s.handlers n = some (r, .storing k) → s.callers k = some (n, r)
  called : ∀ k n r, s.callers k = some (n, r) → k < s.disk.next ∧ n < s.next
  single : ∀ k k' n r r', s.callers k = some (n, r) → s.callers k' = some (n, r') → k = k'
  owned : ∀ k call, s.disk.call k = some call → ∃ n r, s.callers k = some (n, r) ∧
    (asks c r).map opFor = some (opOf call)
  backed : ∀ k call e, s.disk.call k = some call → errorOf call = some e → ∃ kind, e = backend kind
  settled : ∀ n ∈ s.answers.map Prod.fst, Ended s n
  once : (s.answers.map Prod.fst).Nodup

theorem update_some {α : Type} {f : Nat → Option α} {a b : Nat} {v : Option α} {x : α}
    (has : Function.update f a v b = some x) : (b = a ∧ v = some x) ∨ (b ≠ a ∧ f b = some x) := by
  by_cases same : b = a
  · subst same
    rw [Function.update_self] at has
    exact .inl ⟨rfl,has⟩
  · rw [Function.update_of_ne same] at has
    exact .inr ⟨same,has⟩

theorem erased_some {α : Type} {f : Nat → Option α} {a b : Nat} {x : α}
    (has : Function.update f a none b = some x) : b ≠ a ∧ f b = some x := by
  rcases update_some has with ⟨_,impossible⟩ | found
  · cases impossible
  · exact found

section Steps
variable {c : BlockConfig} {s t : Service} {e : Happening}

theorem spawn_calls {n k : Nat} {r : Forwarded} {op : Op} {call : Call}
    (found : (s.spawn n r op).disk.call k = some call) :
    (k = s.disk.next ∧ call = op.call) ∨ (k ≠ s.disk.next ∧ s.disk.call k = some call) :=
  setCall_cases found

theorem step_ended (serves : Serves c s e t) {n : Nat} (ended : Ended s n) :
    Ended t n := by
  cases serves with
  | arrived r =>
    refine ⟨Nat.lt_succ_of_lt ended.arrived,fun r' running => ?_,ended.past⟩
    rcases update_some running with ⟨same,_⟩ | ⟨_,found⟩
    · exact absurd ended.arrived (same ▸ Nat.lt_irrefl _)
    · exact ended.begun r' found
  | answered found idle =>
    exact ⟨ended.arrived,fun r' running => ended.begun r' (erased_some running).2,ended.past⟩
  | @spawned m r call found asked =>
    have other : n ≠ m := by
      rintro rfl
      exact ended.begun r found
    refine ⟨ended.arrived,fun r' running => ?_,fun k r' before named made => ?_⟩
    · rcases update_some running with ⟨same,_⟩ | ⟨_,found⟩
      · exact other same
      · exact ended.begun r' found
    · rcases update_some named with ⟨_,own⟩ | ⟨different,named⟩
      · cases own
        exact absurd rfl other
      · rcases spawn_calls made with ⟨same,_⟩ | ⟨_,made⟩
        · exact absurd same different
        · exact ended.past k r' before named made
  | @advanced k choice before call op found moves =>
    refine ⟨ended.arrived,ended.begun,fun k' r' after named made => ?_⟩
    rcases setCall_cases made with ⟨rfl,rfl⟩ | ⟨_,made⟩
    · rw [advance_past moves, ended.past _ r' before named found]
      rfl
    · exact ended.past k' r' after named made
  | @failed k kind before call found fails =>
    refine ⟨ended.arrived,ended.begun,fun k' r' after named made => ?_⟩
    rcases setCall_cases made with ⟨rfl,rfl⟩ | ⟨_,made⟩
    · exact fail_past fails (ended.past _ r' before named found)
    · exact ended.past k' r' after named made
  | resumed found made replied =>
    exact ⟨ended.arrived,fun r' running => ended.begun r' (erased_some running).2,ended.past⟩
  | lost found =>
    exact ⟨ended.arrived,fun r' running => ended.begun r' (erased_some running).2,ended.past⟩
  | crashed => exact ⟨ended.arrived,nofun,fun _ _ _ _ impossible => by cases impossible⟩

theorem next_le (serves : Serves c s e t) : s.next ≤ t.next ∧ s.disk.next ≤ t.disk.next := by
  cases serves with
  | arrived r => exact ⟨Nat.le_succ _,Nat.le_refl _⟩
  | spawned => exact ⟨Nat.le_refl _,Nat.le_succ _⟩
  | _ => exact ⟨Nat.le_refl _,Nat.le_refl _⟩

theorem step_handlers (serves : Serves c s e t) {n : Nat} {h : Forwarded × Stage}
    (found : t.handlers n = some h) :
    s.handlers n = some h ∨ (n = s.next ∧ h.2 = .running ∧ n < t.next ∧ t.answers = s.answers) ∨
    (∃ k, s.handlers n = some (h.1, .running) ∧ h.2 = .storing k ∧ t.callers k = some (n, h.1)) := by
  cases serves with
  | arrived r =>
    rcases update_some found with ⟨rfl,new⟩ | ⟨_,found⟩
    · cases new
      exact .inr (.inl ⟨rfl,rfl,Nat.lt_succ_self _,rfl⟩)
    · exact .inl found
  | answered | resumed | lost => exact .inl (erased_some found).2
  | spawned running asked =>
    rcases update_some found with ⟨rfl,new⟩ | ⟨_,found⟩
    · cases new
      exact .inr (.inr ⟨_,running,rfl,Function.update_self _ _ _⟩)
    · exact .inl found
  | crashed => cases found
  | _ => exact .inl found

theorem step_callers (serves : Serves c s e t) {k n : Nat} {r : Forwarded}
    (named : t.callers k = some (n, r)) :
    s.callers k = some (n, r) ∨ (k = s.disk.next ∧ s.handlers n = some (r, .running) ∧
      t.handlers n = some (r, .storing k) ∧ k < t.disk.next) := by
  cases serves with
  | @spawned m r' call found asked =>
    rcases update_some named with ⟨rfl,own⟩ | ⟨_,named⟩
    · cases own
      exact .inr ⟨rfl,found,Function.update_self _ _ _,Nat.lt_succ_self _⟩
    · exact .inl named
  | _ => exact .inl named

theorem callers_kept (orderly : Orderly c s) (serves : Serves c s e t) {k : Nat} {caller : Nat × Forwarded}
    (named : s.callers k = some caller) : t.callers k = some caller := by
  cases serves with
  | spawned =>
    have older : k ≠ s.disk.next := by
      rintro rfl
      exact Nat.lt_irrefl _ (orderly.called _ caller.1 caller.2 named).1
    exact (Function.update_of_ne older _ _).trans named
  | _ => exact named

inductive Answers (c : BlockConfig) (s : Service) (n : Nat) : Happening → Answer → Prop where
  | idle {r} (found : s.handlers n = some (r, .running)) (idle : asks c r = none) :
      Answers c s n (.handle n) (answers c r noReply)
  | replied {r k call reply} (found : s.handlers n = some (r, .storing k))
      (made : s.disk.call k = some call) (replied : replyOf call = some reply) :
      Answers c s n (.resume n) (answers c r reply)

theorem step_answers (serves : Serves c s e t) :
    t.answers = s.answers ∨ ∃ n a, Answers c s n e a ∧ t = s.answer n a := by
  cases serves with
  | answered found idle => exact .inr ⟨_,_,.idle found idle,rfl⟩
  | resumed found made replied => exact .inr ⟨_,_,.replied found made replied,rfl⟩
  | _ => exact .inl rfl

theorem answer_member {n m : Nat} {a b : Answer} :
    (m, b) ∈ (s.answer n a).answers ↔ (m, b) ∈ s.answers ∨ (m = n ∧ b = a) := by
  simp only [Service.answer, List.mem_append, List.mem_singleton, Prod.mk.injEq]

theorem answers_found {n : Nat} {a : Answer} (answers : Answers c s n e a) :
    ∃ h, s.handlers n = some h := by
  cases answers with
  | idle found => exact ⟨_,found⟩
  | replied found => exact ⟨_,found⟩

theorem answered_ended (orderly : Orderly c s) {n : Nat} {a : Answer} (answers : Answers c s n e a) :
    Ended (s.answer n a) n := by
  obtain ⟨h,found⟩ := answers_found answers
  refine ⟨(orderly.handled n h found).1,fun r running => (erased_some running).1 rfl,?_⟩
  intro k r call named made
  cases answers with
  | idle running => exact absurd named (orderly.running n _ running k r)
  | replied waiting finished replied =>
    cases orderly.single _ _ _ _ _ named (orderly.waits _ _ _ waiting)
    cases made.symm.trans finished
    exact replied_past replied

theorem step_calls (serves : Serves c s e t) {k : Nat} {call : Call} (made : t.disk.call k = some call) :
    s.disk.call k = some call ∨
    (k = s.disk.next ∧ ∃ n r asked, s.handlers n = some (r, .running) ∧ t.callers k = some (n, r) ∧
      asks c r = some asked ∧ call = (opFor asked).call) ∨
    (∃ choice before op, e = .advance k choice ∧ s.disk.call k = some before ∧
      Advances s.disk.root before call op ∧ t.disk.root = Root.performed s.disk.root op) ∨
    ∃ kind before, e = .fail k kind ∧ s.disk.call k = some before ∧ Fails kind before call := by
  cases serves with
  | @spawned n r asked found asks =>
    rcases spawn_calls made with ⟨rfl,rfl⟩ | ⟨_,made⟩
    · exact .inr (.inl ⟨rfl,n,r,asked,found,Function.update_self _ _ _,asks,rfl⟩)
    · exact .inl made
  | @advanced k' choice before after op found moves =>
    rcases setCall_cases made with ⟨rfl,rfl⟩ | ⟨_,made⟩
    · exact .inr (.inr (.inl ⟨choice,before,op,rfl,found,moves,rfl⟩))
    · exact .inl made
  | @failed k' kind before after found fails =>
    rcases setCall_cases made with ⟨rfl,rfl⟩ | ⟨_,made⟩
    · exact .inr (.inr (.inr ⟨kind,before,rfl,found,fails⟩))
    · exact .inl made
  | crashed => cases made
  | _ => exact .inl made

theorem answered_cases (serves : Serves c s e t) {n : Nat} (answered : n ∈ t.answers.map Prod.fst) :
    n ∈ s.answers.map Prod.fst ∨ ∃ a, Answers c s n e a ∧ t = s.answer n a := by
  rcases step_answers serves with same | ⟨m,a,now,rfl⟩
  · rw [same] at answered
    exact .inl answered
  · obtain ⟨⟨_,b⟩,member,rfl⟩ := List.mem_map.mp answered
    rcases answer_member.mp member with old | ⟨rfl,rfl⟩
    · exact .inl (List.mem_map_of_mem old)
    · exact .inr ⟨_,now,rfl⟩

theorem step_orderly (orderly : Orderly c s) (taken : serviceStep c s e = some t) : Orderly c t := by
  obtain ⟨serves,disk⟩ := serviceStep_cases taken
  have later := next_le serves
  exact {
    sound := by
      rcases disk with same | ⟨_,moved⟩
      · rw [same]
        exact orderly.sound
      · exact step_sound orderly.sound moved
    handled := by
      intro n h found
      rcases step_handlers serves found with old | ⟨rfl,_,fresh,same⟩ | ⟨k,old,_,_⟩
      · obtain ⟨known,silent⟩ := orderly.handled n h old
        refine ⟨Nat.lt_of_lt_of_le known later.1,fun answered => ?_⟩
        rcases answered_cases serves answered with before | ⟨a,_,rfl⟩
        · exact silent before
        · exact (erased_some found).1 rfl
      · rw [same]
        exact ⟨fresh,fun before => Nat.lt_irrefl _ (orderly.settled _ before).arrived⟩
      · obtain ⟨known,silent⟩ := orderly.handled n _ old
        refine ⟨Nat.lt_of_lt_of_le known later.1,fun answered => ?_⟩
        rcases answered_cases serves answered with before | ⟨a,_,rfl⟩
        · exact silent before
        · exact (erased_some found).1 rfl
    running := by
      intro n r found k r' named
      rcases step_callers serves named with before | ⟨_,_,waiting,_⟩
      · rcases step_handlers serves found with old | ⟨rfl,_⟩ | ⟨_,_,stage,_⟩
        · exact orderly.running n r old k r' before
        · exact Nat.lt_irrefl _ (orderly.called k _ r' before).2
        · cases stage
      · cases found.symm.trans waiting
    waits := by
      intro n r k found
      rcases step_handlers serves found with old | ⟨_,stage,_⟩ | ⟨k',_,stage,named⟩
      · exact callers_kept orderly serves (orderly.waits n r k old)
      · cases stage
      · cases stage
        exact named
    called := by
      intro k n r named
      rcases step_callers serves named with before | ⟨_,running,_,below⟩
      · obtain ⟨below,known⟩ := orderly.called k n r before
        exact ⟨Nat.lt_of_lt_of_le below later.2,Nat.lt_of_lt_of_le known later.1⟩
      · exact ⟨below,Nat.lt_of_lt_of_le (orderly.handled n _ running).1 later.1⟩
    single := by
      intro k k' n r r' named named'
      rcases step_callers serves named with before | ⟨rfl,running,_⟩
      · rcases step_callers serves named' with before' | ⟨rfl,running,_⟩
        · exact orderly.single k k' n r r' before before'
        · exact absurd before (orderly.running n _ running k r)
      · rcases step_callers serves named' with before' | ⟨rfl,_⟩
        · exact absurd before' (orderly.running n _ running k' r')
        · rfl
    owned := by
      intro k call made
      rcases step_calls serves made with old | ⟨rfl,n,r,asked,_,named,asks,rfl⟩ |
        ⟨_,before,op,_,old,moves,_⟩ | ⟨_,before,_,old,fails⟩
      · obtain ⟨n,r,named,asked⟩ := orderly.owned k call old
        exact ⟨n,r,callers_kept orderly serves named,asked⟩
      · exact ⟨n,r,named,by rw [asks, start_op, Option.map_some]⟩
      · obtain ⟨n,r,named,asked⟩ := orderly.owned k before old
        exact ⟨n,r,callers_kept orderly serves named,by rw [asked, advance_op moves]⟩
      · obtain ⟨n,r,named,asked⟩ := orderly.owned k before old
        exact ⟨n,r,callers_kept orderly serves named,by rw [asked, fail_op fails]⟩
    backed := by
      intro k call error made failed
      rcases step_calls serves made with old | ⟨_,_,_,asked,_,_,_,rfl⟩ |
        ⟨_,before,op,_,old,moves,_⟩ | ⟨kind,before,_,old,fails⟩
      · exact orderly.backed k call error old failed
      · rw [start_error] at failed
        cases failed
      · exact orderly.backed k before error old (advance_error moves failed)
      · rcases fail_error fails failed with now | earlier
        · exact ⟨kind,now⟩
        · exact orderly.backed k before error old earlier
    settled := by
      intro n answered
      rcases answered_cases serves answered with before | ⟨a,answers,rfl⟩
      · exact step_ended serves (orderly.settled n before)
      · exact answered_ended orderly answers
    once := by
      rcases step_answers serves with same | ⟨n,a,answers,rfl⟩
      · rw [same]
        exact orderly.once
      · obtain ⟨h,found⟩ := answers_found answers
        rw [Service.answer, List.map_append]
        refine List.nodup_append.mpr ⟨orderly.once,List.pairwise_singleton _ _,?_⟩
        rintro m before _ last rfl
        cases List.mem_singleton.mp last
        exact (orderly.handled _ h found).2 before }

end Steps

theorem opened_orderly {c : BlockConfig} {disk : LocalFs.State} (quiet : Quiet disk) :
    Orderly c (opened disk) := by
  have idle (k : Nat) (call : Call) (made : disk.call k = some call) : False := by
    unfold State.call at made
    rw [quiet.calls] at made
    cases made
  exact {
    sound := quiet_sound quiet
    handled := fun _ _ impossible => by cases impossible
    running := fun _ _ impossible => by cases impossible
    waits := fun _ _ _ impossible => by cases impossible
    called := fun _ _ _ impossible => by cases impossible
    single := fun _ _ _ _ _ impossible => by cases impossible
    owned := fun k call made => (idle k call made).elim
    backed := fun k call _ made => (idle k call made).elim
    settled := fun _ impossible => by cases impossible
    once := List.nodup_nil }

end ConcurrentBlocks
