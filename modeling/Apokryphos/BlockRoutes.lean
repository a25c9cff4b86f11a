import Mathlib.Logic.Function.Basic
import Apokryphos.BlockStorage
import Apokryphos.MachineWords
import Apokryphos.OverwritingIndex
import Apokryphos.RequestGuards

/-!
The block routes. The handler takes the identifier from the path as it came over
the wire, reads a body only to store it, and stores it only at the configured
size. Every storage operation is recorded with the session, so that what a
request did and what it left alone can be told apart. The responses are built by
five constructors.
-/
namespace BlockRoutes
open BlockStorage Digests MachineWords OverwritingIndex RequestGuards Texts

structure Response where
  status : Nat
  headers : List (String × String)
  body : Bytes
  deriving DecidableEq

def retryAfterSeconds : String := "5"

def respondBlock200 (payload : Bytes) : Response where
  status := 200
  headers := [("content-type", "application/octet-stream"),
    ("content-length", toString payload.length), ("cache-control", "no-store")]
  body := payload

def respondBlock204 : Response := ⟨204, [], []⟩
def respondBlock400 : Response := ⟨400, [("content-length", "0")], []⟩
def respondBlock404 : Response := ⟨404, [("content-length", "0")], []⟩
def respondBlock503 : Response :=
  ⟨503, [("content-length", "0"), ("retry-after", retryAfterSeconds)], []⟩

inductive Body where
  | complete (bytes : Bytes)
  | broken (received : Bytes)
  deriving DecidableEq

/-- The library function that collects a body: all of it, or an error, and an
    error in any case if it is longer than the limit. -/
structure BodyReader where
  toBytes : Body → Nat → Option Bytes
  whole : ∀ {body limit bytes}, toBytes body limit = some bytes → body = .complete bytes
  within : ∀ {bytes limit}, bytes.length ≤ limit → toBytes (.complete bytes) limit = some bytes
  limited : ∀ {bytes limit}, limit < bytes.length → toBytes (.complete bytes) limit = none

def plainReader : BodyReader where
  toBytes
    | .complete bytes, limit => if bytes.length ≤ limit then some bytes else none
    | .broken _, _ => none
  whole := by
    intro body limit bytes read
    cases body with
    | broken received => cases read
    | complete whole =>
      simp only [Option.ite_none_right_eq_some, Option.some.injEq] at read
      rw [read.2]
  within := fun below => if_pos below
  limited := fun beyond => if_neg (not_le.mpr beyond)

structure BlockConfig where
  blockSizeBytes : UInt64
  usizeBits : Nat
  reader : BodyReader

structure BlockRequest where
  request : Request
  body : Body

/-- The path of the target as it stands, up to the query. -/
def rawPath (request : Request) : String :=
  match request.pathAndQuery with
  | none => ""
  | some target =>
    let path := target.text.toList.takeWhile (· ≠ '?')
    if path.isEmpty then "/" else String.ofList path

def blocksRoot : String := "/api/blocks/"

def contentLength (request : Request) : Option UInt64 :=
  ((request.header "content-length").bind toStr).bind parseU64

inductive StorageCall where
  | put (id : BlockId) (payload : Bytes)
  | get (id : BlockId)
  | delete (id : BlockId)
  deriving DecidableEq

structure Session (S : Type) where
  store : S
  calls : List StorageCall

section Handlers
variable {S : Type} (provider : StorageProvider S)

def Session.put (s : Session S) (id : BlockId) (payload : Bytes) : Except StorageError Unit × Session S :=
  let done := provider.put s.store id payload
  (done.1, ⟨done.2, s.calls ++ [.put id payload]⟩)

def Session.get (s : Session S) (id : BlockId) : Except StorageError Bytes × Session S :=
  let done := provider.get s.store id
  (done.1, ⟨done.2, s.calls ++ [.get id]⟩)

def Session.delete (s : Session S) (id : BlockId) : Except StorageError Unit × Session S :=
  let done := provider.delete s.store id
  (done.1, ⟨done.2, s.calls ++ [.delete id]⟩)

def handleGet (s : Session S) (id : BlockId) : Response × Session S :=
  match s.get provider id with
  | (.ok payload, s) => (respondBlock200 payload, s)
  | (.error .notFound, s) => (respondBlock404, s)
  | (.error (.backend _), s) => (respondBlock503, s)

/-- The declared length is checked before the body is read, the real one
    afterwards. The cast to `usize` may truncate the limit. -/
def handlePut (config : BlockConfig) (s : Session S) (id : BlockId) (r : BlockRequest) :
    Response × Session S :=
  if ∃ declared ∈ contentLength r.request, declared ≠ config.blockSizeBytes then (respondBlock400, s)
  else
    match checkedAdd config.blockSizeBytes 1 with
    | none => (respondBlock400, s)
    | some n =>
      let limit := n.toNat % 2 ^ config.usizeBits
      match config.reader.toBytes r.body limit with
      | none => (respondBlock400, s)
      | some bytes =>
        if UInt64.ofNat bytes.length ≠ config.blockSizeBytes then (respondBlock400, s)
        else
          match s.put provider id bytes with
          | (.ok _, s) => (respondBlock204, s)
          | (.error (.backend _), s) => (respondBlock503, s)
          | (.error .notFound, s) => (respondBlock503, s)

def handleDelete (s : Session S) (id : BlockId) : Response × Session S :=
  match s.delete provider id with
  | (.ok _, s) => (respondBlock204, s)
  | (.error (.backend _), s) => (respondBlock503, s)
  -- A missing block counts as deleted.
  | (.error .notFound, s) => (respondBlock204, s)

def handleBlock (config : BlockConfig) (s : Session S) (r : BlockRequest) : Response × Session S :=
  let idStr := (stripPrefix blocksRoot (rawPath r.request)).getD ""
  match BlockId.parse idStr with
  | none => (respondBlock404, s)
  | some id =>
    if r.request.method = "GET" then handleGet provider s id
    else if r.request.method = "PUT" then handlePut provider config s id r
    else if r.request.method = "DELETE" then handleDelete provider s id
    else (respondBlock404, s)

def Names (r : BlockRequest) (id : BlockId) : Prop := rawPath r.request = blocksRoot ++ id.text

structure Fits (config : BlockConfig) (r : BlockRequest) (bytes : Bytes) : Prop where
  body : r.body = .complete bytes
  size : bytes.length = config.blockSizeBytes.toNat
  declared : ∀ n, contentLength r.request = some n → n = config.blockSizeBytes

def putResponse : Except StorageError Unit → Response
  | .ok _ => respondBlock204
  | .error _ => respondBlock503

inductive Handles (config : BlockConfig) (s : Session S) (r : BlockRequest) :
    Response × Session S → Prop where
  | noBlock (unnamed : ∀ id, ¬ Names r id) : Handles config s r (respondBlock404, s)
  | noMethod {id} (named : Names r id) (get : r.request.method ≠ "GET")
      (put : r.request.method ≠ "PUT") (delete : r.request.method ≠ "DELETE") :
      Handles config s r (respondBlock404, s)
  | get {id} (named : Names r id) (method : r.request.method = "GET") :
      Handles config s r (handleGet provider s id)
  | refusedPut {id} (named : Names r id) (method : r.request.method = "PUT") :
      Handles config s r (respondBlock400, s)
  | put {id bytes} (named : Names r id) (method : r.request.method = "PUT")
      (fits : Fits config r bytes) :
      Handles config s r (putResponse (s.put provider id bytes).1, (s.put provider id bytes).2)
  | delete {id} (named : Names r id) (method : r.request.method = "DELETE") :
      Handles config s r (handleDelete provider s id)

theorem names_unique {r : BlockRequest} {a b : BlockId} (first : Names r a) (second : Names r b) :
    a = b := by
  apply blockId_ext
  have same := congrArg String.toList (first.symm.trans second)
  rw [String.toList_append, String.toList_append] at same
  exact String.toList_injective (List.append_cancel_left same)

theorem parsed_names {r : BlockRequest} {id : BlockId} :
    BlockId.parse ((stripPrefix blocksRoot (rawPath r.request)).getD "") = some id ↔ Names r id := by
  rw [parse_some]
  unfold Names
  rw [← stripPrefix_some]
  cases stripped : stripPrefix blocksRoot (rawPath r.request) with
  | some rest => simp
  | none =>
    constructor
    · intro empty
      have size := id.size
      rw [← show "" = id.text from empty] at size
      exact absurd size (by decide)
    · intro impossible
      cases impossible

theorem read_size {config : BlockConfig} {r : BlockRequest} {n : UInt64} {bytes : Bytes}
    (read : config.reader.toBytes r.body (n.toNat % 2 ^ config.usizeBits) = some bytes)
    (same : UInt64.ofNat bytes.length = config.blockSizeBytes) :
    bytes.length = config.blockSizeBytes.toNat := by
  have whole := config.reader.whole read
  rw [whole] at read
  have below : bytes.length ≤ n.toNat % 2 ^ config.usizeBits := by
    by_contra beyond
    rw [config.reader.limited (not_le.mp beyond)] at read
    cases read
  have bound := word_lt n
  have cast := Nat.mod_le n.toNat (2 ^ config.usizeBits)
  rw [← same, UInt64.toNat_ofNat']
  exact (Nat.mod_eq_of_lt (by omega)).symm

theorem handlePut_handles {config : BlockConfig} {s : Session S} {r : BlockRequest} {id : BlockId}
    (named : Names r id) (method : r.request.method = "PUT") :
    Handles provider config s r (handlePut provider config s id r) := by
  unfold handlePut
  split
  · exact .refusedPut named method
  · rename_i declared
    split
    · exact .refusedPut named method
    · dsimp only
      split
      · exact .refusedPut named method
      · rename_i bytes read
        split
        · exact .refusedPut named method
        · rename_i same
          have fits : Fits config r bytes := {
            body := config.reader.whole read
            size := read_size read (not_not.mp same)
            declared := fun m found => by_contra fun other => declared ⟨m,found,other⟩ }
          have stored : Handles provider config s r _ := .put named method fits
          cases done : s.put provider id bytes with
          | mk outcome after =>
            rw [done] at stored
            cases outcome with
            | ok u => exact stored
            | error e => cases e <;> exact stored

theorem handleBlock_handles (config : BlockConfig) (s : Session S) (r : BlockRequest) :
    Handles provider config s r (handleBlock provider config s r) := by
  unfold handleBlock
  dsimp only
  split
  · rename_i unparsed
    apply Handles.noBlock
    intro id named
    rw [parsed_names.mpr named] at unparsed
    cases unparsed
  · rename_i id parsed
    have named := parsed_names.mp parsed
    split
    · rename_i method
      exact .get named method
    · rename_i get
      split
      · rename_i method
        exact handlePut_handles provider named method
      · rename_i put
        split
        · rename_i method
          exact .delete named method
        · rename_i delete
          exact .noMethod named get put delete

theorem handles_other {config : BlockConfig} {s : Session S} {r : BlockRequest}
    {outcome : Response × Session S} (handled : Handles provider config s r outcome)
    (other : (∀ id, ¬ Names r id) ∨ r.request.method ∉ ["GET", "PUT", "DELETE"]) :
    outcome.1 = respondBlock404 ∧ outcome.2 = s := by
  have served {id : BlockId} (named : Names r id) (listed : r.request.method ∈ ["GET", "PUT", "DELETE"]) :
      False := by
    rcases other with unnamed | unlisted
    · exact unnamed id named
    · exact unlisted listed
  cases handled with
  | noBlock | noMethod => exact ⟨rfl,rfl⟩
  | get named method => exact (served named (by rw [method]; decide)).elim
  | refusedPut named method => exact (served named (by rw [method]; decide)).elim
  | put named method => exact (served named (by rw [method]; decide)).elim
  | delete named method => exact (served named (by rw [method]; decide)).elim

end Handlers

theorem handleBlock_stores {S : Type} (provider : StorageProvider S) {config : BlockConfig} {s : Session S}
    {r : BlockRequest} {id : BlockId} {bytes : Bytes} (named : Names r id)
    (method : r.request.method = "PUT") (fits : Fits config r bytes)
    (word : config.blockSizeBytes.toNat + 1 < 2 ^ 64)
    (room : config.blockSizeBytes.toNat + 1 < 2 ^ config.usizeBits) :
    handleBlock provider config s r =
      (putResponse (s.put provider id bytes).1, (s.put provider id bytes).2) := by
  have sum : checkedAdd config.blockSizeBytes 1 = some (config.blockSizeBytes + 1) := if_pos word
  have limit : (config.blockSizeBytes + 1).toNat % 2 ^ config.usizeBits = bytes.length + 1 := by
    rw [checkedAdd_some sum, fits.size]
    exact Nat.mod_eq_of_lt room
  have declared : ¬ ∃ declared ∈ contentLength r.request, declared ≠ config.blockSizeBytes := by
    rintro ⟨n,found,other⟩
    exact other (fits.declared n found)
  have size : UInt64.ofNat bytes.length = config.blockSizeBytes := by
    rw [fits.size]
    exact UInt64.ofNat_toNat
  unfold handleBlock
  simp only [parsed_names.mpr named, method, String.reduceEq, if_false, if_true]
  unfold handlePut
  rw [if_neg declared, sum]
  simp only [limit, fits.body, config.reader.within (Nat.le_succ _), size, ne_eq, not_true, if_false]
  cases s.put provider id bytes with
  | mk done after =>
    cases done with
    | ok u => rfl
    | error e => cases e <;> rfl

/-- The provider the routes are written for: a map from identifiers to bytes that
    answers at once. -/
def atomicMap : StorageProvider (BlockId → Option Bytes) where
  put m id payload := (.ok (), Function.update m id (some payload))
  get m id :=
    match m id with
    | some payload => (.ok payload, m)
    | none => (.error .notFound, m)
  delete m id := (.ok (), Function.update m id none)

abbrev Blocks := Session (BlockId → Option Bytes)

def serveAll (config : BlockConfig) (requests : List BlockRequest) :
    List (BlockRequest × Response) × Blocks :=
  requests.foldl (fun past r =>
    let answered := handleBlock atomicMap config past.2 r
    (past.1 ++ [(r, answered.1)], answered.2)) ([], ⟨fun _ => none, []⟩)

def written (exchange : BlockRequest × Response) : Option String :=
  if exchange.2.status = 204 ∧
      (exchange.1.request.method = "PUT" ∨ exchange.1.request.method = "DELETE") then
    some (rawPath exchange.1.request)
  else none

/-- The latest successful write to the path put these bytes there. -/
def LatestPut (history : List (BlockRequest × Response)) (path : String) (bytes : Bytes) : Prop :=
  ∃ exchange, Last written history path exchange ∧ exchange.1.request.method = "PUT" ∧
    exchange.1.body = .complete bytes

structure Remembers (config : BlockConfig) (history : List (BlockRequest × Response)) (s : Blocks) :
    Prop where
  latest : ∀ id bytes, s.store id = some bytes ↔ LatestPut history (blocksRoot ++ id.text) bytes
  sized : ∀ id bytes, s.store id = some bytes → bytes.length = config.blockSizeBytes.toNat

theorem latestPut_snoc {history : List (BlockRequest × Response)} {exchange : BlockRequest × Response}
    {path : String} {bytes : Bytes} : LatestPut (history ++ [exchange]) path bytes ↔
      (written exchange = some path ∧ exchange.1.request.method = "PUT" ∧
        exchange.1.body = .complete bytes) ∨
      (written exchange ≠ some path ∧ LatestPut history path bytes) := by
  unfold LatestPut
  simp only [last_snoc]
  constructor
  · rintro ⟨e,⟨own,rfl⟩ | ⟨other,last⟩,method,body⟩
    · exact .inl ⟨own,method,body⟩
    · exact .inr ⟨other,e,last,method,body⟩
  · rintro (⟨own,method,body⟩ | ⟨other,e,last,method,body⟩)
    · exact ⟨exchange,.inl ⟨own,rfl⟩,method,body⟩
    · exact ⟨e,.inr ⟨other,last⟩,method,body⟩

theorem remembers_unwritten {config : BlockConfig} {history : List (BlockRequest × Response)}
    {s t : Blocks} {exchange : BlockRequest × Response} (remembers : Remembers config history s)
    (same : t.store = s.store) (nothing : written exchange = none) :
    Remembers config (history ++ [exchange]) t where
  latest id bytes := by
    rw [same, latestPut_snoc, remembers.latest, nothing]
    simp
  sized id bytes found := by
    rw [same] at found
    exact remembers.sized id bytes found

theorem path_names {r : BlockRequest} {id other : BlockId} (named : Names r id) :
    rawPath r.request = blocksRoot ++ other.text ↔ other = id := by
  constructor
  · intro same
    exact names_unique same named
  · rintro rfl
    exact named

theorem remembers_written {config : BlockConfig} {history : List (BlockRequest × Response)}
    {s t : Blocks} {exchange : BlockRequest × Response} {id : BlockId} {value : Option Bytes}
    (remembers : Remembers config history s) (named : Names exchange.1 id)
    (wrote : written exchange = some (rawPath exchange.1.request))
    (update : t.store = Function.update s.store id value)
    (stored : ∀ bytes, value = some bytes ↔
      exchange.1.request.method = "PUT" ∧ exchange.1.body = .complete bytes)
    (size : ∀ bytes, value = some bytes → bytes.length = config.blockSizeBytes.toNat) :
    Remembers config (history ++ [exchange]) t where
  latest other bytes := by
    have hit : written exchange = some (blocksRoot ++ other.text) ↔ other = id := by
      rw [wrote, Option.some.injEq, path_names named]
    rw [latestPut_snoc, ne_eq, hit, update]
    by_cases own : other = id
    · subst own
      rw [Function.update_self, stored]
      simp
    · rw [Function.update_of_ne own, remembers.latest]
      simp [own]
  sized other bytes found := by
    rw [update] at found
    by_cases own : other = id
    · subst own
      rw [Function.update_self] at found
      exact size bytes found
    · rw [Function.update_of_ne own] at found
      exact remembers.sized other bytes found

theorem written_other {r : BlockRequest} {answer : Response} (status : answer.status ≠ 204) :
    written (r, answer) = none := by
  unfold written
  rw [if_neg]
  intro both
  exact status both.1

theorem status_notFound : respondBlock404.status ≠ 204 := by decide

theorem status_badRequest : respondBlock400.status ≠ 204 := by decide

theorem get_answer (s : Blocks) (id : BlockId) :
    handleGet atomicMap s id = ((match s.store id with
      | some payload => respondBlock200 payload
      | none => respondBlock404), ⟨s.store, s.calls ++ [.get id]⟩) := by
  unfold handleGet Session.get atomicMap
  dsimp only
  cases s.store id <;> rfl

theorem handles_remembers {config : BlockConfig} {history : List (BlockRequest × Response)} {s : Blocks}
    {r : BlockRequest} {outcome : Response × Blocks} (remembers : Remembers config history s)
    (handled : Handles atomicMap config s r outcome) :
    Remembers config (history ++ [(r, outcome.1)]) outcome.2 := by
  cases handled with
  | noBlock => exact remembers_unwritten remembers rfl (written_other status_notFound)
  | noMethod => exact remembers_unwritten remembers rfl (written_other status_notFound)
  | refusedPut => exact remembers_unwritten remembers rfl (written_other status_badRequest)
  | @get id named method =>
    rw [get_answer]
    refine @remembers_unwritten config history s _ _ remembers rfl (written_other ?_)
    cases s.store id with
    | none => exact status_notFound
    | some payload => exact Nat.ne_of_lt (by decide : 200 < 204)
  | @put id bytes named method fits =>
    refine remembers_written remembers named ?_ rfl ?_ ?_
    · exact if_pos ⟨rfl,.inl method⟩
    · intro other
      simp [method, fits.body]
    · rintro other ⟨⟩
      exact fits.size
  | @delete id named method =>
    refine remembers_written remembers named ?_ rfl ?_ ?_
    · exact if_pos ⟨rfl,.inr method⟩
    · intro other
      simp [method]
    · intro other impossible
      cases impossible

theorem serveAll_snoc (config : BlockConfig) (before : List BlockRequest) (r : BlockRequest) :
    serveAll config (before ++ [r]) =
      ((serveAll config before).1 ++ [(r, (handleBlock atomicMap config (serveAll config before).2 r).1)],
        (handleBlock atomicMap config (serveAll config before).2 r).2) := by
  unfold serveAll
  rw [List.foldl_append, List.foldl_cons, List.foldl_nil]

theorem serveAll_remembers (config : BlockConfig) (requests : List BlockRequest) :
    Remembers config (serveAll config requests).1 (serveAll config requests).2 := by
  induction requests using List.reverseRecOn with
  | nil =>
    refine ⟨?_,nofun⟩
    intro id bytes
    constructor
    · intro impossible
      cases impossible
    · rintro ⟨_,⟨front,rest,split,_⟩,_⟩
      simp [serveAll] at split
  | append_singleton before r ih =>
    have handled := handleBlock_handles atomicMap config (serveAll config before).2 r
    rw [serveAll_snoc]
    generalize handleBlock atomicMap config (serveAll config before).2 r = outcome at handled ⊢
    exact handles_remembers ih handled

structure BlockSemantics (config : BlockConfig) (history : List (BlockRequest × Response)) (s : Blocks)
    (r : BlockRequest) (answer : Response) (t : Blocks) : Prop where
  /-- At most one storage operation, of the request's method on the block its raw
      path names. -/
  calls : t.calls = s.calls ∨ ∃ id call, Names r id ∧ t.calls = s.calls ++ [call] ∧
    (r.request.method = "GET" ∧ call = .get id ∨ r.request.method = "DELETE" ∧ call = .delete id ∨
      r.request.method = "PUT" ∧ ∃ bytes, Fits config r bytes ∧ call = .put id bytes)
  other : (∀ id, ¬ Names r id) ∨ r.request.method ∉ ["GET", "PUT", "DELETE"] →
    answer = respondBlock404 ∧ t = s
  put : ∀ id, Names r id → r.request.method = "PUT" →
    (answer = respondBlock400 ∧ t = s) ∨ ∃ bytes, Fits config r bytes ∧ answer = respondBlock204 ∧
      t.store = Function.update s.store id (some bytes)
  get : ∀ id, Names r id → r.request.method = "GET" →
    (∀ bytes, answer = respondBlock200 bytes ↔ LatestPut history (rawPath r.request) bytes) ∧
    ((∀ bytes, ¬ LatestPut history (rawPath r.request) bytes) → answer = respondBlock404)
  sized : ∀ bytes, answer = respondBlock200 bytes → bytes.length = config.blockSizeBytes.toNat

theorem response_notFound {bytes : Bytes} : respondBlock404 ≠ respondBlock200 bytes := by
  intro same
  cases congrArg Response.status same

theorem response_inj {a b : Bytes} : respondBlock200 a = respondBlock200 b ↔ a = b := by
  constructor
  · exact congrArg Response.body
  · rintro rfl
    rfl

section Answers
variable {config : BlockConfig} {history : List (BlockRequest × Response)} {s : Blocks} {r : BlockRequest}
  {outcome : Response × Blocks}

theorem handles_calls (handled : Handles atomicMap config s r outcome) :
    outcome.2.calls = s.calls ∨ ∃ id call, Names r id ∧ outcome.2.calls = s.calls ++ [call] ∧
      (r.request.method = "GET" ∧ call = .get id ∨ r.request.method = "DELETE" ∧ call = .delete id ∨
        r.request.method = "PUT" ∧ ∃ bytes, Fits config r bytes ∧ call = .put id bytes) := by
  cases handled with
  | noBlock | noMethod | refusedPut => exact .inl rfl
  | @get id named method =>
    refine .inr ⟨id,_,named,?_,.inl ⟨method,rfl⟩⟩
    rw [get_answer]
  | @put id bytes named method fits =>
    exact .inr ⟨id,_,named,rfl,.inr (.inr ⟨method,bytes,fits,rfl⟩)⟩
  | @delete id named method => exact .inr ⟨id,_,named,rfl,.inr (.inl ⟨method,rfl⟩)⟩

theorem handles_put (handled : Handles atomicMap config s r outcome) {id : BlockId} (named : Names r id)
    (method : r.request.method = "PUT") :
    (outcome.1 = respondBlock400 ∧ outcome.2 = s) ∨ ∃ bytes, Fits config r bytes ∧
      outcome.1 = respondBlock204 ∧ outcome.2.store = Function.update s.store id (some bytes) := by
  cases handled with
  | noBlock unnamed => exact absurd named (unnamed id)
  | noMethod _ _ put => exact absurd method put
  | get _ other => exact absurd (other.symm.trans method) (by decide)
  | delete _ other => exact absurd (other.symm.trans method) (by decide)
  | refusedPut => exact .inl ⟨rfl,rfl⟩
  | @put found bytes named' _ fits =>
    rw [names_unique named named']
    exact .inr ⟨bytes,fits,rfl,rfl⟩

theorem handles_get (remembers : Remembers config history s)
    (handled : Handles atomicMap config s r outcome) {id : BlockId} (named : Names r id)
    (method : r.request.method = "GET") :
    (∀ bytes, outcome.1 = respondBlock200 bytes ↔ LatestPut history (rawPath r.request) bytes) ∧
    ((∀ bytes, ¬ LatestPut history (rawPath r.request) bytes) → outcome.1 = respondBlock404) := by
  cases handled with
  | noBlock unnamed => exact absurd named (unnamed id)
  | noMethod _ get => exact absurd method get
  | refusedPut _ other => exact absurd (other.symm.trans method) (by decide)
  | put _ other => exact absurd (other.symm.trans method) (by decide)
  | delete _ other => exact absurd (other.symm.trans method) (by decide)
  | @get found named' _ =>
    rw [get_answer, names_unique named' named, show rawPath r.request = blocksRoot ++ id.text from named]
    simp only [← remembers.latest]
    cases s.store id with
    | none => simp [response_notFound]
    | some payload => simp [response_inj]

theorem handles_sized (remembers : Remembers config history s)
    (handled : Handles atomicMap config s r outcome) {bytes : Bytes}
    (answer : outcome.1 = respondBlock200 bytes) : bytes.length = config.blockSizeBytes.toNat := by
  cases handled with
  | noBlock | noMethod => exact absurd answer response_notFound
  | refusedPut | put | delete => cases congrArg Response.status answer
  | @get id named method =>
    rw [get_answer] at answer
    cases found : s.store id with
    | none =>
      rw [found] at answer
      exact absurd answer response_notFound
    | some payload =>
      rw [found] at answer
      rw [← response_inj.mp answer]
      exact remembers.sized id payload found

end Answers

theorem handleBlock_keeps {config : BlockConfig} {s : Blocks} {r : BlockRequest} {id : BlockId}
    {bytes : Bytes} (named : Names r id) (method : r.request.method = "PUT") (fits : Fits config r bytes)
    (word : config.blockSizeBytes.toNat + 1 < 2 ^ 64)
    (room : config.blockSizeBytes.toNat + 1 < 2 ^ config.usizeBits) :
    (handleBlock atomicMap config s r).1 = respondBlock204 ∧
      (handleBlock atomicMap config s r).2.store id = some bytes := by
  rw [handleBlock_stores atomicMap named method fits word room]
  refine ⟨rfl,?_⟩
  change Function.update s.store id (some bytes) id = some bytes
  exact Function.update_self id (some bytes) s.store

/-- The block routes over an atomic map are a store of fixed-size blocks under
    their raw paths, for every size and every width of `usize`. A body that fits is
    stored wherever the limit of the read fits into `usize`. -/
theorem routes_store_blocks (config : BlockConfig) (before : List BlockRequest) (r : BlockRequest) :
    (∀ s : String, (∃ id : BlockId, id.text = s) ↔
      s.toList.length = 43 ∧ ∀ c ∈ s.toList, isBase64urlChar c = true) ∧
    BlockSemantics config (serveAll config before).1 (serveAll config before).2 r
      (handleBlock atomicMap config (serveAll config before).2 r).1
      (handleBlock atomicMap config (serveAll config before).2 r).2 ∧
    ∀ id bytes, Names r id → r.request.method = "PUT" → Fits config r bytes →
      config.blockSizeBytes.toNat + 1 < 2 ^ 64 → config.blockSizeBytes.toNat + 1 < 2 ^ config.usizeBits →
        (handleBlock atomicMap config (serveAll config before).2 r).1 = respondBlock204 ∧
          (handleBlock atomicMap config (serveAll config before).2 r).2.store id = some bytes := by
  have remembers := serveAll_remembers config before
  have handled := handleBlock_handles atomicMap config (serveAll config before).2 r
  refine ⟨fun s => canonical_iff,?_,
    fun id bytes named method fits word room => handleBlock_keeps named method fits word room⟩
  generalize serveAll config before = served at remembers handled ⊢
  generalize handleBlock atomicMap config served.2 r = outcome at handled ⊢
  exact {
    calls := handles_calls handled
    other := handles_other atomicMap handled
    put := fun _ => handles_put handled
    get := fun _ => handles_get remembers handled
    sized := fun _ => handles_sized remembers handled }

end BlockRoutes
