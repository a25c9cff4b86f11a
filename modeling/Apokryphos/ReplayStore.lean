import Mathlib.Data.Finmap
import Mathlib.Data.List.Perm.Basic
import Mathlib.Data.List.Sort
import Apokryphos.Digests
import Apokryphos.ServerConfig
import Apokryphos.StepRuns

/-!
The in-process store of seen proof identifiers. A call is cut where the source
releases a lock: an insertion first claims its key in the map and then pushes
onto the expiry queue, a maintenance tick first pops every due item and then
removes the popped keys from the map. Any number of calls may stand between
their two sections. The invariant pairs every key of the map with exactly one
token, which is a pending push, a queued item or a key waiting for removal.
-/
namespace ReplayStore
open Digests ServerConfig StepRuns

abbrev Instant := Nat

def nanosPerSec : Nat := 10 ^ 9

/-- The clock counts its seconds in a signed word. -/
def endOfTime : Instant := 2 ^ 63 * nanosPerSec

/-- `Instant::checked_add`. -/
def checkedAddSecs (now : Instant) (secs : UInt64) : Option Instant :=
  if now + secs.toNat * nanosPerSec < endOfTime then some (now + secs.toNat * nanosPerSec) else none

theorem checkedAddSecs_some {now deadline : Instant} {secs : UInt64}
    (fits : checkedAddSecs now secs = some deadline) :
    deadline = now + secs.toNat * nanosPerSec ∧ deadline < endOfTime := by
  unfold checkedAddSecs at fits
  split at fits
  · rename_i before
    cases fits
    exact ⟨rfl,before⟩
  · cases fits

theorem checkedAddSecs_fits {now : Instant} {secs : UInt64}
    (fits : now + secs.toNat * nanosPerSec < endOfTime) :
    checkedAddSecs now secs = some (now + secs.toNat * nanosPerSec) := by
  unfold checkedAddSecs
  rw [if_pos fits]

structure JtiKey where
  audience : UInt8
  jtiHash : Bytes32
  deriving DecidableEq

def JtiKey.new (audienceTag : UInt8) (rawJti : String) : JtiKey :=
  ⟨audienceTag, sha256 (utf8 rawJti)⟩

inductive InsertError where
  | replayed
  | memoryPressure
  deriving DecidableEq, Repr

abbrev Entries := AList (fun _ : JtiKey => Instant)

def Entries.size (entries : Entries) : Nat := entries.entries.length

/-- The heap is kept as a list in the order of its deadlines, so that peeking is
    looking at the head. The order of equal deadlines is never observed. -/
structure JtiReplayStore where
  entries : Entries
  expiryQueue : List (Instant × JtiKey)
  len : Nat
  config : AuthConfig

def JtiReplayStore.new (config : AuthConfig) : JtiReplayStore := ⟨∅, [], 0, config⟩

/-- First locked section of `try_insert`. A replay is reported before memory
    pressure, also when the store is full. -/
def insertEntry (s : JtiReplayStore) (key : JtiKey) (deadline : Instant) :
    Except InsertError JtiReplayStore :=
  if key ∈ s.entries then .error .replayed
  else if s.config.maxReplayEntries ≤ s.entries.size then .error .memoryPressure
  else
    let entries : Entries := s.entries.insert key deadline
    .ok { s with entries := entries, len := entries.size }

/-- Second locked section of `try_insert`. -/
def pushExpiry (s : JtiReplayStore) (deadline : Instant) (key : JtiKey) : JtiReplayStore :=
  { s with expiryQueue := s.expiryQueue.orderedInsert (fun a b => a.1 ≤ b.1) (deadline, key) }

def tryInsert (s : JtiReplayStore) (key : JtiKey) (deadline : Instant) :
    Except InsertError Unit × JtiReplayStore :=
  match insertEntry s key deadline with
  | .error e => (.error e, s)
  | .ok t => (.ok (), pushExpiry t deadline key)

def popExpired (now : Instant) :
    List (Instant × JtiKey) → List JtiKey × List (Instant × JtiKey)
  | [] => ([], [])
  | (deadline, key) :: rest =>
    if now < deadline then ([], (deadline, key) :: rest)
    else
      let tail := popExpired now rest
      (key :: tail.1, tail.2)

/-- First locked section of `maintenance_tick`. -/
def takeExpired (s : JtiReplayStore) (now : Instant) : List JtiKey × JtiReplayStore :=
  let popped := popExpired now s.expiryQueue
  (popped.1, { s with expiryQueue := popped.2 })

/-- Second locked section of `maintenance_tick`. -/
def removeExpired (s : JtiReplayStore) (keys : List JtiKey) : JtiReplayStore :=
  if keys = [] then s
  else
    let entries : Entries := keys.foldl (fun rest key => rest.erase key) s.entries
    { s with entries := entries, len := entries.size }

def maintenanceTick (s : JtiReplayStore) (now : Instant) : JtiReplayStore :=
  let taken := takeExpired s now
  removeExpired taken.2 taken.1

inductive Pending where
  | push (deadline : Instant) (key : JtiKey)
  | removal (now : Instant) (keys : List JtiKey)

structure Shared where
  store : JtiReplayStore
  pending : List Pending

/-- `push` and `remove` name the pending call that goes on, by its position. -/
inductive Action where
  | insert (key : JtiKey) (deadline : Instant)
  | push (call : Nat)
  | pop (now : Instant)
  | remove (call : Nat)

/-- A tick that popped nothing returns without taking the second lock. -/
def pendingRemoval (now : Instant) (keys : List JtiKey) : List Pending :=
  if keys = [] then [] else [.removal now keys]

def step (s : Shared) : Action → Option Shared
  | .insert key deadline =>
    match insertEntry s.store key deadline with
    | .ok store => some ⟨store, s.pending ++ [.push deadline key]⟩
    | .error _ => some s
  | .push call =>
    match s.pending[call]? with
    | some (.push deadline key) =>
      some ⟨pushExpiry s.store deadline key, s.pending.eraseIdx call⟩
    | _ => none
  | .pop now =>
    let taken := takeExpired s.store now
    some ⟨taken.2, s.pending ++ pendingRemoval now taken.1⟩
  | .remove call =>
    match s.pending[call]? with
    | some (.removal _ keys) => some ⟨removeExpired s.store keys, s.pending.eraseIdx call⟩
    | _ => none

def Pending.keys : Pending → List JtiKey
  | .push _ key => [key]
  | .removal _ keys => keys

def Pending.Tracks (entries : Entries) : Pending → Prop
  | .push deadline key => entries.lookup key = some deadline
  | .removal now keys => ∀ key ∈ keys, ∃ deadline, entries.lookup key = some deadline ∧ deadline ≤ now

def tokenKeys (s : Shared) : List JtiKey :=
  s.store.expiryQueue.map Prod.snd ++ s.pending.flatMap Pending.keys

structure Consistent (s : Shared) : Prop where
  paired : (tokenKeys s).Perm s.store.entries.keys
  queued : ∀ item ∈ s.store.expiryQueue, s.store.entries.lookup item.2 = some item.1
  inFlight : ∀ call ∈ s.pending, call.Tracks s.store.entries

theorem insertEntry_ok_iff {s t : JtiReplayStore} {key : JtiKey} {deadline : Instant} :
    insertEntry s key deadline = .ok t ↔
      key ∉ s.entries ∧ s.entries.size < s.config.maxReplayEntries ∧
        t = { s with
          entries := s.entries.insert key deadline
          len := Entries.size (s.entries.insert key deadline) } := by
  unfold insertEntry
  by_cases member : key ∈ s.entries
  · simp [member]
  · by_cases full : s.config.maxReplayEntries ≤ s.entries.size
    · simp [member, full]
    · simp only [member, full, if_false, Except.ok.injEq, not_false_eq_true, true_and]
      constructor
      · intro same
        exact ⟨by omega, same.symm⟩
      · intro both
        exact both.2.symm

theorem popExpired_split (now : Instant) (queue : List (Instant × JtiKey)) :
    queue.map Prod.snd = (popExpired now queue).1 ++ (popExpired now queue).2.map Prod.snd := by
  induction queue with
  | nil => rfl
  | cons item rest ih =>
    obtain ⟨deadline,key⟩ := item
    simp only [popExpired]
    split
    · rfl
    · simp only [List.map_cons, List.cons_append, ih]

theorem popExpired_rest {now : Instant} {queue : List (Instant × JtiKey)} {item : Instant × JtiKey}
    (member : item ∈ (popExpired now queue).2) : item ∈ queue := by
  induction queue with
  | nil => exact member
  | cons head rest ih =>
    obtain ⟨deadline,key⟩ := head
    simp only [popExpired] at member
    split at member
    · exact member
    · exact List.mem_cons_of_mem _ (ih member)

theorem popExpired_due {now : Instant} {queue : List (Instant × JtiKey)} {key : JtiKey}
    (member : key ∈ (popExpired now queue).1) : ∃ deadline, (deadline, key) ∈ queue ∧ deadline ≤ now := by
  induction queue with
  | nil => cases member
  | cons head rest ih =>
    obtain ⟨deadline,first⟩ := head
    simp only [popExpired] at member
    split at member
    · cases member
    · rename_i due
      rcases List.mem_cons.mp member with same | later
      · subst same
        exact ⟨deadline, by simp, not_lt.mp due⟩
      · obtain ⟨d,found,bound⟩ := ih later
        exact ⟨d, List.mem_cons_of_mem _ found, bound⟩

theorem lookup_removed_ne {key : JtiKey} (keys : List JtiKey) (entries : Entries)
    (other : key ∉ keys) :
    (keys.foldl (fun rest k => rest.erase k) entries).lookup key = entries.lookup key := by
  induction keys generalizing entries with
  | nil => rfl
  | cons k rest ih =>
    simp only [List.mem_cons, not_or] at other
    rw [List.foldl_cons, ih _ other.2, AList.lookup_erase_ne other.1]

theorem removed_keys_perm (keys others : List JtiKey) (entries : Entries)
    (paired : (keys ++ others).Perm entries.keys) :
    others.Perm (keys.foldl (fun rest k => rest.erase k) entries).keys := by
  induction keys generalizing entries with
  | nil => exact paired
  | cons k rest ih =>
    apply ih
    rw [AList.keys_erase]
    exact (List.cons_perm_iff_perm_erase.mp paired).2

theorem pending_split {calls : List Pending} {call : Nat} {p : Pending}
    (found : calls[call]? = some p) : (p :: calls.eraseIdx call).Perm calls := by
  obtain ⟨inside,same⟩ := List.getElem?_eq_some_iff.mp found
  rw [← same]
  exact List.getElem_cons_eraseIdx_perm inside

theorem pending_keys_split {calls : List Pending} {call : Nat} {p : Pending}
    (found : calls[call]? = some p) :
    (p.keys ++ (calls.eraseIdx call).flatMap Pending.keys).Perm (calls.flatMap Pending.keys) := by
  have split := (pending_split found).flatMap_right Pending.keys
  simpa using split

theorem tracks_of_lookup {before after : Entries} {p : Pending}
    (same : ∀ key ∈ p.keys, after.lookup key = before.lookup key)
    (tracks : p.Tracks before) : p.Tracks after := by
  cases p with
  | push deadline key => exact (same key (by simp [Pending.keys])).trans tracks
  | removal now keys =>
    intro key member
    obtain ⟨deadline,found,bound⟩ := tracks key member
    exact ⟨deadline, (same key member).trans found, bound⟩

theorem step_insert_cases {s t : Shared} {key : JtiKey} {deadline : Instant}
    (taken : step s (.insert key deadline) = some t) :
    (∃ store, insertEntry s.store key deadline = .ok store ∧
      t = ⟨store, s.pending ++ [.push deadline key]⟩) ∨
    (∃ e, insertEntry s.store key deadline = .error e ∧ t = s) := by
  simp only [step] at taken
  cases outcome : insertEntry s.store key deadline with
  | ok store =>
    rw [outcome] at taken
    exact Or.inl ⟨store,rfl,by simpa using taken.symm⟩
  | error e =>
    rw [outcome] at taken
    exact Or.inr ⟨e,rfl,by simpa using taken.symm⟩

theorem step_push_some {s t : Shared} {call : Nat} (taken : step s (.push call) = some t) :
    ∃ deadline key, s.pending[call]? = some (.push deadline key) ∧
      t = ⟨pushExpiry s.store deadline key, s.pending.eraseIdx call⟩ := by
  simp only [step] at taken
  split at taken
  · rename_i deadline key found
    exact ⟨deadline,key,found,by simpa using taken.symm⟩
  · cases taken

theorem step_remove_some {s t : Shared} {call : Nat} (taken : step s (.remove call) = some t) :
    ∃ now keys, s.pending[call]? = some (.removal now keys) ∧
      t = ⟨removeExpired s.store keys, s.pending.eraseIdx call⟩ := by
  simp only [step] at taken
  split at taken
  · rename_i now keys found
    exact ⟨now,keys,found,by simpa using taken.symm⟩
  · cases taken

theorem initial_consistent (config : AuthConfig) :
    Consistent ⟨JtiReplayStore.new config, []⟩ := by
  constructor
  · simp [tokenKeys, JtiReplayStore.new]
  · intro item member
    cases member
  · intro call member
    cases member

theorem consistent_lookup_ne {s : Shared} (inv : Consistent s) {key : JtiKey}
    (absent : key ∉ s.store.entries) {p : Pending} (member : p ∈ s.pending) :
    ∀ k ∈ p.keys, k ≠ key := by
  intro k inside same
  subst same
  apply absent
  rw [AList.mem_keys]
  apply inv.paired.mem_iff.mp
  simp only [tokenKeys, List.mem_append, List.mem_flatMap]
  exact Or.inr ⟨p,member,inside⟩

theorem insert_keeps_consistent {s t : Shared} {key : JtiKey} {deadline : Instant}
    (inv : Consistent s) (taken : step s (.insert key deadline) = some t) : Consistent t := by
  rcases step_insert_cases taken with ⟨store,outcome,rfl⟩ | ⟨e,_,rfl⟩
  · obtain ⟨absent,_,rfl⟩ := insertEntry_ok_iff.mp outcome
    have other : ∀ k, k ≠ key →
        (s.store.entries.insert key deadline).lookup k = s.store.entries.lookup k :=
      fun k different => AList.lookup_insert_ne different
    constructor
    · have grown : (key :: tokenKeys s).Perm (key :: s.store.entries.keys) := inv.paired.cons key
      simp only [tokenKeys, List.flatMap_append, AList.keys_insert]
      rw [List.erase_of_not_mem (by rwa [← AList.mem_keys])]
      refine List.Perm.trans ?_ grown
      simp only [tokenKeys, List.flatMap_cons, List.flatMap_nil, Pending.keys, List.append_nil]
      rw [← List.append_assoc]
      exact List.perm_append_singleton _ _
    · intro item member
      have known := inv.queued item member
      rw [other item.2 ?_]
      · exact known
      · intro same
        rw [same, AList.lookup_eq_none.mpr absent] at known
        cases known
    · intro call member
      rcases List.mem_append.mp member with old | new
      · exact tracks_of_lookup (fun k inside => other k (consistent_lookup_ne inv absent old k inside))
          (inv.inFlight call old)
      · rw [List.mem_singleton.mp new]
        exact AList.lookup_insert _
  · exact inv

theorem push_keeps_consistent {s t : Shared} {call : Nat} (inv : Consistent s)
    (taken : step s (.push call) = some t) : Consistent t := by
  obtain ⟨deadline,key,found,rfl⟩ := step_push_some taken
  have queue : (pushExpiry s.store deadline key).expiryQueue.Perm
      ((deadline, key) :: s.store.expiryQueue) := List.perm_orderedInsert _ _ _
  have pushed := inv.inFlight _ (List.mem_of_getElem? found)
  constructor
  · refine List.Perm.trans ?_ inv.paired
    calc (tokenKeys ⟨pushExpiry s.store deadline key, s.pending.eraseIdx call⟩).Perm
          (((deadline, key) :: s.store.expiryQueue).map Prod.snd ++
            (s.pending.eraseIdx call).flatMap Pending.keys) :=
          (queue.map Prod.snd).append_right _
      _ |>.Perm (s.store.expiryQueue.map Prod.snd ++
            (Pending.keys (.push deadline key) ++ (s.pending.eraseIdx call).flatMap Pending.keys)) :=
          List.perm_middle.symm
      _ |>.Perm (tokenKeys s) := (pending_keys_split found).append_left _
  · intro item member
    rcases List.mem_cons.mp (queue.mem_iff.mp member) with same | old
    · subst same
      exact pushed
    · exact inv.queued item old
  · intro p member
    exact inv.inFlight p (List.mem_of_mem_eraseIdx member)

theorem pendingRemoval_keys (now : Instant) (keys : List JtiKey) :
    (pendingRemoval now keys).flatMap Pending.keys = keys := by
  unfold pendingRemoval
  split
  · rename_i none
    simp [none]
  · simp [Pending.keys]

theorem pendingRemoval_mem {now : Instant} {keys : List JtiKey} {p : Pending}
    (member : p ∈ pendingRemoval now keys) : p = .removal now keys := by
  unfold pendingRemoval at member
  split at member
  · cases member
  · exact List.mem_singleton.mp member

theorem pop_keeps_consistent {s t : Shared} {now : Instant} (inv : Consistent s)
    (taken : step s (.pop now) = some t) : Consistent t := by
  simp only [step, takeExpired, Option.some.injEq] at taken
  subst taken
  constructor
  · refine List.Perm.trans ?_ inv.paired
    simp only [tokenKeys, popExpired_split now s.store.expiryQueue, List.flatMap_append,
      pendingRemoval_keys]
    rw [← List.append_assoc, List.append_assoc (popExpired now s.store.expiryQueue).1]
    exact List.perm_append_comm
  · intro item member
    exact inv.queued item (popExpired_rest member)
  · intro p member
    rcases List.mem_append.mp member with old | new
    · exact inv.inFlight p old
    · rw [pendingRemoval_mem new]
      intro key popped
      obtain ⟨deadline,queued,due⟩ := popExpired_due popped
      exact ⟨deadline, inv.queued _ queued, due⟩

theorem removeExpired_entries (s : JtiReplayStore) (keys : List JtiKey) :
    (removeExpired s keys).entries = keys.foldl (fun rest key => rest.erase key) s.entries := by
  unfold removeExpired
  split
  · rename_i none
    simp [none]
  · rfl

theorem removeExpired_queue (s : JtiReplayStore) (keys : List JtiKey) :
    (removeExpired s keys).expiryQueue = s.expiryQueue := by
  unfold removeExpired
  split <;> rfl

theorem remove_keeps_consistent {s t : Shared} {call : Nat} (inv : Consistent s)
    (taken : step s (.remove call) = some t) : Consistent t := by
  obtain ⟨now,keys,found,rfl⟩ := step_remove_some taken
  let rest : List JtiKey :=
    s.store.expiryQueue.map Prod.snd ++ (s.pending.eraseIdx call).flatMap Pending.keys
  have paired : (keys ++ rest).Perm s.store.entries.keys := by
    refine List.Perm.trans ?_ inv.paired
    refine (List.perm_append_comm_assoc _ _ _).trans ?_
    exact (pending_keys_split found).append_left _
  have separate : ∀ key ∈ rest, key ∉ keys := by
    have distinct : (keys ++ rest).Nodup := paired.nodup_iff.mpr s.store.entries.keys_nodup
    intro key later early
    exact (List.nodup_append.mp distinct).2.2 key early key later rfl
  have kept : ∀ key ∈ rest,
      (removeExpired s.store keys).entries.lookup key = s.store.entries.lookup key := by
    intro key member
    rw [removeExpired_entries]
    exact lookup_removed_ne keys _ (separate key member)
  constructor
  · simp only [tokenKeys, removeExpired_queue, removeExpired_entries]
    exact removed_keys_perm keys rest _ paired
  · intro item member
    simp only [removeExpired_queue] at member
    rw [kept item.2 (List.mem_append_left _ (List.mem_map_of_mem member))]
    exact inv.queued item member
  · intro p member
    apply tracks_of_lookup _ (inv.inFlight p (List.mem_of_mem_eraseIdx member))
    intro key inside
    exact kept key (List.mem_append_right _ (List.mem_flatMap.mpr ⟨p,member,inside⟩))

theorem step_keeps_consistent {s t : Shared} {a : Action} (inv : Consistent s)
    (taken : step s a = some t) : Consistent t := by
  cases a with
  | insert key deadline => exact insert_keeps_consistent inv taken
  | push call => exact push_keeps_consistent inv taken
  | pop now => exact pop_keeps_consistent inv taken
  | remove call => exact remove_keeps_consistent inv taken

theorem reachable_consistent {config : AuthConfig} {s : Shared} {actions : List Action}
    (taken : run step ⟨JtiReplayStore.new config, []⟩ actions = some s) : Consistent s :=
  run_invariant Consistent step_keeps_consistent (initial_consistent config) taken

/-- The step is the removal of `key` by a tick called with a time not before
    the deadline of its entry. -/
def ExpiredRemoval (s : Shared) (a : Action) (key : JtiKey) (deadline : Instant) : Prop :=
  ∃ call now keys, a = .remove call ∧ s.pending[call]? = some (.removal now keys) ∧
    deadline ≤ now ∧ key ∈ keys

theorem entry_kept_or_expired {s t : Shared} {a : Action} (inv : Consistent s)
    (taken : step s a = some t) {key : JtiKey} {deadline : Instant}
    (present : s.store.entries.lookup key = some deadline) :
    t.store.entries.lookup key = some deadline ∨ ExpiredRemoval s a key deadline := by
  cases a with
  | insert other d =>
    rcases step_insert_cases taken with ⟨store,outcome,rfl⟩ | ⟨e,_,rfl⟩
    · obtain ⟨absent,_,rfl⟩ := insertEntry_ok_iff.mp outcome
      have different : key ≠ other := by
        intro same
        subst same
        rw [AList.lookup_eq_none.mpr absent] at present
        cases present
      exact Or.inl ((AList.lookup_insert_ne different).trans present)
    · exact Or.inl present
  | push call =>
    obtain ⟨_,_,_,rfl⟩ := step_push_some taken
    exact Or.inl present
  | pop now =>
    simp only [step, takeExpired, Option.some.injEq] at taken
    subst taken
    exact Or.inl present
  | remove call =>
    obtain ⟨now,keys,found,rfl⟩ := step_remove_some taken
    by_cases member : key ∈ keys
    · obtain ⟨d,known,due⟩ := inv.inFlight _ (List.mem_of_getElem? found) key member
      have same : d = deadline := Option.some.inj (known.symm.trans present)
      subst same
      exact Or.inr ⟨call,now,keys,rfl,found,due,member⟩
    · refine Or.inl ?_
      simp only [removeExpired_entries]
      rw [lookup_removed_ne keys _ member]
      exact present

theorem missing_entry_was_expired {s t : Shared} {actions : List Action} (inv : Consistent s)
    {key : JtiKey} {deadline : Instant} (present : s.store.entries.lookup key = some deadline)
    (taken : run step s actions = some t) (missing : key ∉ t.store.entries) :
    ∃ front a back u, actions = front ++ a :: back ∧ run step s front = some u ∧
      ExpiredRemoval u a key deadline := by
  induction actions generalizing s with
  | nil =>
    cases taken
    rw [AList.lookup_eq_none.mpr missing] at present
    cases present
  | cons a rest ih =>
    obtain ⟨u,first,later⟩ := run_cons_some taken
    rcases entry_kept_or_expired inv first present with kept | expired
    · obtain ⟨front,b,back,v,rfl,before,removal⟩ :=
        ih (step_keeps_consistent inv first) kept later
      refine ⟨a :: front, b, back, v, rfl, ?_, removal⟩
      simp only [run, first]
      exact before
    · exact ⟨[],a,rest,s,rfl,rfl,expired⟩

/-- Two successful insertions of one key are separated by a removal that the
    first deadline allows, and no step of any call removes an entry before its
    own deadline. The run is any interleaving of the locked sections of any
    number of calls. -/
theorem no_premature_eviction (config : AuthConfig) (front : List Action) (s : Shared)
    (reached : run step ⟨JtiReplayStore.new config, []⟩ front = some s) (key : JtiKey) :
    (∀ (d d' : Instant) (store store' : JtiReplayStore) (mid : List Action) (t u : Shared),
      insertEntry s.store key d = .ok store → step s (.insert key d) = some t →
      run step t mid = some u → insertEntry u.store key d' = .ok store' →
      ∃ before a after v, mid = before ++ a :: after ∧ run step t before = some v ∧
        ExpiredRemoval v a key d) ∧
    (∀ (d : Instant) (a : Action) (t : Shared), s.store.entries.lookup key = some d →
      step s a = some t → t.store.entries.lookup key ≠ some d → ExpiredRemoval s a key d) := by
  have inv := reachable_consistent reached
  constructor
  · intro d d' store store' mid t u first inserted between second
    rcases step_insert_cases inserted with ⟨claimed,outcome,rfl⟩ | ⟨e,refused,_⟩
    · have next := step_keeps_consistent inv inserted
      obtain ⟨_,_,rfl⟩ := insertEntry_ok_iff.mp outcome
      obtain ⟨absent,_,_⟩ := insertEntry_ok_iff.mp second
      exact missing_entry_was_expired next (AList.lookup_insert _) between absent
    · rw [first] at refused
      cases refused
  · intro d a t present taken gone
    rcases entry_kept_or_expired inv taken present with kept | expired
    · exact absurd kept gone
    · exact expired

def reusedKey : JtiKey := ⟨1, List.replicate 32 0, rfl⟩

theorem no_premature_eviction_reused :
    ∃ s t u store store', step s (.insert reusedKey 5) = some t ∧
      run step t [.push 0, .pop 7, .remove 0] = some u ∧
      insertEntry s.store reusedKey 5 = .ok store ∧ insertEntry u.store reusedKey 9 = .ok store' ∧
      ∃ before a after v, [.push 0, .pop 7, .remove 0] = before ++ a :: after ∧
        run step t before = some v ∧ ExpiredRemoval v a reusedKey 5 := by
  let s : Shared := ⟨JtiReplayStore.new AuthConfig.default, []⟩
  obtain ⟨store,first⟩ : ∃ store, insertEntry s.store reusedKey 5 = .ok store := ⟨_,rfl⟩
  obtain ⟨t,inserted⟩ : ∃ t, step s (.insert reusedKey 5) = some t := ⟨_,rfl⟩
  obtain ⟨u,between⟩ : ∃ u, run step t [.push 0, .pop 7, .remove 0] = some u := by
    cases inserted
    exact ⟨_,rfl⟩
  obtain ⟨store',second⟩ : ∃ store', insertEntry u.store reusedKey 9 = .ok store' := by
    cases inserted
    cases between
    exact ⟨_,rfl⟩
  exact ⟨s,t,u,store,store',inserted,between,first,second,
    (no_premature_eviction AuthConfig.default [] s rfl reusedKey).1 5 9 store store' _ t u first
      inserted between second⟩

def Sound (s : JtiReplayStore) : Prop := Consistent ⟨s, []⟩

theorem new_sound (config : AuthConfig) : Sound (JtiReplayStore.new config) :=
  initial_consistent config

theorem tryInsert_run {s t : JtiReplayStore} {key : JtiKey} {deadline : Instant}
    (inserted : tryInsert s key deadline = (.ok (), t)) :
    run step ⟨s, []⟩ [.insert key deadline, .push 0] = some ⟨t, []⟩ := by
  unfold tryInsert at inserted
  split at inserted
  · cases inserted
  · rename_i outcome
    cases inserted
    simp [run, step, outcome]

theorem tryInsert_error {s t : JtiReplayStore} {key : JtiKey} {deadline : Instant} {e : InsertError}
    (refused : tryInsert s key deadline = (.error e, t)) : t = s := by
  unfold tryInsert at refused
  split at refused
  · cases refused
    rfl
  · cases refused

theorem maintenanceTick_run (s : JtiReplayStore) (now : Instant) :
    ∃ rest, (rest = [] ∨ rest = [.remove 0]) ∧
      run step ⟨s, []⟩ (.pop now :: rest) = some ⟨maintenanceTick s now, []⟩ := by
  by_cases nothing : (takeExpired s now).1 = []
  · refine ⟨[],.inl rfl,?_⟩
    simp [run, step, maintenanceTick, removeExpired, pendingRemoval, nothing]
  · refine ⟨[.remove 0],.inr rfl,?_⟩
    simp [run, step, maintenanceTick, pendingRemoval, nothing]

theorem tryInsert_sound {s t : JtiReplayStore} {key : JtiKey} {deadline : Instant} (sound : Sound s)
    {outcome : Except InsertError Unit} (called : tryInsert s key deadline = (outcome, t)) :
    Sound t := by
  cases outcome with
  | error e => rwa [tryInsert_error called]
  | ok u => exact run_invariant Consistent step_keeps_consistent sound (tryInsert_run called)

theorem maintenanceTick_sound {s : JtiReplayStore} (sound : Sound s) (now : Instant) :
    Sound (maintenanceTick s now) := by
  obtain ⟨rest,_,taken⟩ := maintenanceTick_run s now
  exact run_invariant Consistent step_keeps_consistent sound taken

theorem tryInsert_ok_iff {s t : JtiReplayStore} {key : JtiKey} {deadline : Instant} :
    tryInsert s key deadline = (.ok (), t) ↔ key ∉ s.entries ∧
      s.entries.size < s.config.maxReplayEntries ∧ t = pushExpiry { s with
        entries := s.entries.insert key deadline
        len := Entries.size (s.entries.insert key deadline) } deadline key := by
  unfold tryInsert
  cases outcome : insertEntry s key deadline with
  | error e =>
    constructor
    · intro impossible
      cases impossible
    · rintro ⟨absent,room,_⟩
      rw [insertEntry_ok_iff.mpr ⟨absent,room,rfl⟩] at outcome
      cases outcome
  | ok u =>
    obtain ⟨absent,room,rfl⟩ := insertEntry_ok_iff.mp outcome
    constructor
    · intro same
      exact ⟨absent,room,(Prod.mk.inj same).2.symm⟩
    · rintro ⟨_,_,rfl⟩
      rfl

theorem tryInsert_pressed {s : JtiReplayStore} {key : JtiKey} {deadline : Instant}
    (pressed : (tryInsert s key deadline).1 = .error .memoryPressure) :
    key ∉ s.entries ∧ s.config.maxReplayEntries ≤ s.entries.size := by
  unfold tryInsert insertEntry at pressed
  by_cases member : key ∈ s.entries
  · rw [if_pos member] at pressed
    cases pressed
  · rw [if_neg member] at pressed
    by_cases full : s.config.maxReplayEntries ≤ s.entries.size
    · exact ⟨member,full⟩
    · rw [if_neg full] at pressed
      cases pressed

theorem tryInsert_lookup {s t : JtiReplayStore} {key : JtiKey} {deadline : Instant}
    (inserted : tryInsert s key deadline = (.ok (), t)) : t.entries.lookup key = some deadline := by
  obtain ⟨_,_,rfl⟩ := tryInsert_ok_iff.mp inserted
  exact AList.lookup_insert _

theorem tryInsert_config {s t : JtiReplayStore} {key : JtiKey} {deadline : Instant}
    {outcome : Except InsertError Unit} (called : tryInsert s key deadline = (outcome, t)) :
    t.config = s.config := by
  cases outcome with
  | error e => rw [tryInsert_error called]
  | ok u =>
    obtain ⟨_,_,rfl⟩ := tryInsert_ok_iff.mp called
    rfl

theorem maintenanceTick_config (s : JtiReplayStore) (now : Instant) :
    (maintenanceTick s now).config = s.config := by
  simp only [maintenanceTick, removeExpired]
  split <;> rfl

theorem tryInsert_keeps {s t : JtiReplayStore} {key other : JtiKey} {deadline d : Instant}
    {outcome : Except InsertError Unit} (called : tryInsert s other d = (outcome, t))
    (present : s.entries.lookup key = some deadline) : t.entries.lookup key = some deadline := by
  cases outcome with
  | error e => rwa [tryInsert_error called]
  | ok u =>
    obtain ⟨absent,_,rfl⟩ := tryInsert_ok_iff.mp called
    have different : key ≠ other := by
      intro same
      subst same
      rw [AList.lookup_eq_none.mpr absent] at present
      cases present
    exact (AList.lookup_insert_ne different).trans present

theorem new_tryInsert {config : AuthConfig} (room : 0 < config.maxReplayEntries) (key : JtiKey)
    (deadline : Instant) :
    ∃ t, tryInsert (JtiReplayStore.new config) key deadline = (.ok (), t) :=
  ⟨_,tryInsert_ok_iff.mpr ⟨AList.notMem_empty key,room,rfl⟩⟩

/-- A tick at the deadline itself already removes the entry. -/
theorem lone_entry_expires {config : AuthConfig} {key : JtiKey} {deadline : Instant}
    {t : JtiReplayStore}
    (inserted : tryInsert (JtiReplayStore.new config) key deadline = (.ok (), t)) :
    maintenanceTick t deadline = JtiReplayStore.new config := by
  obtain ⟨_,_,rfl⟩ := tryInsert_ok_iff.mp inserted
  have gone : (AList.singleton key deadline : Entries).erase key = ∅ := by
    apply AList.ext
    simp [AList.singleton, AList.erase]
  simp [maintenanceTick, takeExpired, popExpired, pushExpiry, removeExpired, JtiReplayStore.new,
    gone, Entries.size]

theorem maintenanceTick_keeps {s : JtiReplayStore} {now : Instant} (sound : Sound s) {key : JtiKey}
    {deadline : Instant} (present : s.entries.lookup key = some deadline) :
    (maintenanceTick s now).entries.lookup key = some deadline ∨ deadline ≤ now := by
  rw [maintenanceTick, removeExpired_entries]
  by_cases popped : key ∈ (takeExpired s now).1
  · right
    obtain ⟨d,queued,due⟩ := popExpired_due popped
    have known := sound.queued _ queued
    rw [present, Option.some.injEq] at known
    rwa [known]
  · left
    rw [lookup_removed_ne _ _ popped]
    exact present

end ReplayStore
