import Mathlib.Data.Finset.Card
import Mathlib.Data.Finset.Filter
import Mathlib.Data.List.Sort
import Apokryphos.ReplayStore

/-!
The replay store against its purpose: one finite map from keys to deadlines. A
completed insertion answers by looking at the map alone, a completed tick keeps
exactly the pairs whose deadline lies ahead. The hash map, the heap and the
cached length are three views of that map, and stay so over calls of any number
in any order.
-/
namespace ReplayRefinement
open Digests ReplayStore ServerConfig

/-- The reference: a finite map, as the set of its pairs. -/
abbrev SeenMap := Finset (JtiKey × Instant)

def SeenMap.tryInsert (max : Nat) (m : SeenMap) (key : JtiKey) (deadline : Instant) :
    Except InsertError Unit × SeenMap :=
  if ∃ pair ∈ m, pair.1 = key then (.error .replayed, m)
  else if max ≤ m.card then (.error .memoryPressure, m)
  else (.ok (), insert (key, deadline) m)

def SeenMap.maintenanceTick (m : SeenMap) (now : Instant) : SeenMap :=
  m.filter fun pair => now < pair.2

inductive Call where
  | tryInsert (key : JtiKey) (deadline : Instant)
  | maintenanceTick (now : Instant)
  deriving DecidableEq

def perform (s : JtiReplayStore) : Call → Option (Except InsertError Unit) × JtiReplayStore
  | .tryInsert key deadline =>
    let answered := ReplayStore.tryInsert s key deadline
    (some answered.1, answered.2)
  | .maintenanceTick now => (none, ReplayStore.maintenanceTick s now)

def SeenMap.perform (max : Nat) (m : SeenMap) : Call → Option (Except InsertError Unit) × SeenMap
  | .tryInsert key deadline =>
    let answered := SeenMap.tryInsert max m key deadline
    (some answered.1, answered.2)
  | .maintenanceTick now => (none, SeenMap.maintenanceTick m now)

def performAll (s : JtiReplayStore) :
    List Call → List (Option (Except InsertError Unit) × Nat) × JtiReplayStore
  | [] => ([], s)
  | c :: rest =>
    let first := perform s c
    let later := performAll first.2 rest
    ((first.1, first.2.len) :: later.1, later.2)

def SeenMap.performAll (max : Nat) (m : SeenMap) :
    List Call → List (Option (Except InsertError Unit) × Nat) × SeenMap
  | [] => ([], m)
  | c :: rest =>
    let first := SeenMap.perform max m c
    let later := SeenMap.performAll max first.2 rest
    ((first.1, first.2.card) :: later.1, later.2)

/-- The three views agree, and the heap is in the order of its deadlines. -/
structure Faithful (s : JtiReplayStore) : Prop where
  sound : Sound s
  sorted : s.expiryQueue.Pairwise fun a b => a.1 ≤ b.1
  counted : s.len = s.entries.size
  bounded : s.entries.size ≤ s.config.maxReplayEntries

def contents (s : JtiReplayStore) : SeenMap :=
  (s.entries.entries.map fun entry => (entry.1, entry.2)).toFinset

theorem mem_contents {s : JtiReplayStore} {pair : JtiKey × Instant} :
    pair ∈ contents s ↔ s.entries.lookup pair.1 = some pair.2 := by
  rw [contents, List.mem_toFinset, List.mem_map, ← Option.mem_def, AList.mem_lookup_iff]
  constructor
  · rintro ⟨entry,member,rfl⟩
    exact member
  · intro member
    exact ⟨⟨pair.1,pair.2⟩,member,rfl⟩

theorem contents_card (s : JtiReplayStore) : (contents s).card = s.entries.size := by
  have distinct : (s.entries.entries.map fun entry => (entry.1, entry.2)).Nodup := by
    apply List.Nodup.of_map Prod.fst
    rw [List.map_map]
    exact s.entries.keys_nodup
  rw [contents, List.toFinset_card_of_nodup distinct, List.length_map]
  rfl

theorem mem_entries {s : JtiReplayStore} {key : JtiKey} :
    key ∈ s.entries ↔ ∃ pair ∈ contents s, pair.1 = key := by
  rw [← AList.lookup_isSome, Option.isSome_iff_exists]
  constructor
  · rintro ⟨deadline,found⟩
    exact ⟨(key,deadline),mem_contents.mpr found,rfl⟩
  · rintro ⟨pair,member,rfl⟩
    exact ⟨pair.2,mem_contents.mp member⟩

theorem new_contents (config : AuthConfig) : contents (JtiReplayStore.new config) = ∅ := rfl

theorem contents_inserted {s : JtiReplayStore} {key : JtiKey} {deadline : Instant} {len : Nat}
    {queue : List (Instant × JtiKey)} (absent : key ∉ s.entries) :
    contents { s with
      entries := s.entries.insert key deadline
      expiryQueue := queue
      len := len } = insert (key, deadline) (contents s) := by
  ext ⟨other,d⟩
  rw [mem_contents, Finset.mem_insert, mem_contents]
  by_cases same : other = key
  · subst same
    rw [AList.lookup_eq_none.mpr absent]
    simp [eq_comm]
  · dsimp only
    rw [AList.lookup_insert_ne same]
    simp [same]

theorem tryInsert_refines (s : JtiReplayStore) (key : JtiKey) (deadline : Instant) :
    SeenMap.tryInsert s.config.maxReplayEntries (contents s) key deadline =
      ((ReplayStore.tryInsert s key deadline).1,
        contents (ReplayStore.tryInsert s key deadline).2) := by
  unfold SeenMap.tryInsert
  rw [contents_card]
  by_cases member : key ∈ s.entries
  · rw [if_pos (mem_entries.mp member)]
    simp [ReplayStore.tryInsert, insertEntry, member]
  · rw [if_neg (fun found => member (mem_entries.mpr found))]
    by_cases full : s.config.maxReplayEntries ≤ s.entries.size
    · rw [if_pos full]
      simp [ReplayStore.tryInsert, insertEntry, member, full]
    · rw [if_neg full]
      have inserted := (@tryInsert_ok_iff s _ key deadline).mpr ⟨member,not_le.mp full,rfl⟩
      rw [inserted, ← contents_inserted member]
      rfl

theorem popExpired_complete {now : Instant} {queue : List (Instant × JtiKey)}
    (sorted : queue.Pairwise fun a b => a.1 ≤ b.1) {item : Instant × JtiKey} (member : item ∈ queue)
    (due : item.1 ≤ now) : item.2 ∈ (popExpired now queue).1 := by
  induction queue with
  | nil => cases member
  | cons head rest ih =>
    obtain ⟨deadline,key⟩ := head
    obtain ⟨first,later⟩ := List.pairwise_cons.mp sorted
    simp only [popExpired]
    split
    · rename_i ahead
      rcases List.mem_cons.mp member with same | inside
      · subst same
        exact absurd due (not_le.mpr ahead)
      · have bound := first item inside
        exact absurd (Nat.le_trans bound due) (not_le.mpr ahead)
    · rcases List.mem_cons.mp member with same | inside
      · subst same
        exact List.mem_cons_self
      · exact List.mem_cons_of_mem _ (ih later inside)

theorem popExpired_sorted {now : Instant} {queue : List (Instant × JtiKey)}
    (sorted : queue.Pairwise fun a b => a.1 ≤ b.1) :
    (popExpired now queue).2.Pairwise fun a b => a.1 ≤ b.1 := by
  induction queue with
  | nil => exact sorted
  | cons head rest ih =>
    obtain ⟨deadline,key⟩ := head
    simp only [popExpired]
    split
    · exact sorted
    · exact ih (List.pairwise_cons.mp sorted).2

theorem queue_iff {s : JtiReplayStore} (sound : Sound s) {key : JtiKey} {deadline : Instant} :
    (deadline, key) ∈ s.expiryQueue ↔ s.entries.lookup key = some deadline := by
  constructor
  · intro member
    exact sound.queued _ member
  · intro found
    have keyed : key ∈ s.entries.keys := by
      rw [← AList.mem_keys, ← AList.lookup_isSome, found]
      rfl
    have token : key ∈ s.expiryQueue.map Prod.snd := by
      have paired := sound.paired.mem_iff.mpr keyed
      simpa [tokenKeys] using paired
    obtain ⟨⟨d,k⟩,member,rfl⟩ := List.mem_map.mp token
    have known := sound.queued _ member
    rw [found, Option.some.injEq] at known
    rw [known]
    exact member

theorem removed_lookup {key : JtiKey} (keys : List JtiKey) (entries : Entries) (member : key ∈ keys) :
    (keys.foldl (fun rest k => rest.erase k) entries).lookup key = none := by
  induction keys generalizing entries with
  | nil => cases member
  | cons k rest ih =>
    by_cases inside : key ∈ rest
    · exact ih (entries.erase k) inside
    · have same : key = k := (List.mem_cons.mp member).resolve_right inside
      subst same
      rw [List.foldl_cons, lookup_removed_ne rest _ inside, AList.lookup_erase]

theorem tick_refines {s : JtiReplayStore} (faithful : Faithful s) (now : Instant) :
    SeenMap.maintenanceTick (contents s) now = contents (ReplayStore.maintenanceTick s now) := by
  ext ⟨key,deadline⟩
  rw [SeenMap.maintenanceTick, Finset.mem_filter, mem_contents, mem_contents,
    ReplayStore.maintenanceTick, removeExpired_entries]
  by_cases popped : key ∈ (takeExpired s now).1
  · rw [removed_lookup _ _ popped]
    obtain ⟨d,queued,due⟩ := popExpired_due popped
    have known := (queue_iff faithful.sound).mp queued
    simp only [known, Option.some.injEq, reduceCtorEq, iff_false, not_and, not_lt]
    rintro rfl
    exact due
  · rw [lookup_removed_ne _ _ popped]
    constructor
    · intro both
      exact both.1
    · intro found
      refine ⟨found,?_⟩
      by_contra due
      apply popped
      exact popExpired_complete faithful.sorted ((queue_iff faithful.sound).mpr found) (not_lt.mp due)

theorem new_faithful (config : AuthConfig) : Faithful (JtiReplayStore.new config) where
  sound := new_sound config
  sorted := List.Pairwise.nil
  counted := rfl
  bounded := Nat.zero_le _

instance : Std.Total fun a b : Instant × JtiKey => a.1 ≤ b.1 := ⟨fun a b => Nat.le_total a.1 b.1⟩

instance : IsTrans (Instant × JtiKey) fun a b => a.1 ≤ b.1 := ⟨fun _ _ _ => Nat.le_trans⟩

theorem tryInsert_faithful {s t : JtiReplayStore} {key : JtiKey} {deadline : Instant}
    {outcome : Except InsertError Unit} (faithful : Faithful s)
    (called : ReplayStore.tryInsert s key deadline = (outcome, t)) : Faithful t := by
  cases outcome with
  | error e =>
    rw [tryInsert_error called]
    exact faithful
  | ok u =>
    have sound := tryInsert_sound faithful.sound called
    obtain ⟨absent,room,rfl⟩ := tryInsert_ok_iff.mp called
    have grown : Entries.size (s.entries.insert key deadline) = s.entries.size + 1 := by
      rw [Entries.size, AList.entries_insert_of_notMem absent]
      rfl
    exact {
      sound := sound
      sorted := faithful.sorted.orderedInsert _ _
      counted := rfl
      bounded := by
        change Entries.size (s.entries.insert key deadline) ≤ s.config.maxReplayEntries
        omega }

theorem tick_faithful {s : JtiReplayStore} (faithful : Faithful s) (now : Instant) :
    Faithful (ReplayStore.maintenanceTick s now) where
  sound := maintenanceTick_sound faithful.sound now
  sorted := by
    rw [ReplayStore.maintenanceTick, removeExpired_queue]
    exact popExpired_sorted faithful.sorted
  counted := by
    simp only [ReplayStore.maintenanceTick, removeExpired]
    split
    · exact faithful.counted
    · rfl
  bounded := by
    rw [← contents_card, ← tick_refines faithful, maintenanceTick_config]
    refine Nat.le_trans (Finset.card_filter_le _ _) ?_
    rw [contents_card]
    exact faithful.bounded

theorem perform_refines {s : JtiReplayStore} (faithful : Faithful s) (c : Call) :
    Faithful (perform s c).2 ∧ (perform s c).2.config = s.config ∧
      SeenMap.perform s.config.maxReplayEntries (contents s) c =
        ((perform s c).1, contents (perform s c).2) := by
  cases c with
  | tryInsert key deadline =>
    refine ⟨tryInsert_faithful faithful rfl,tryInsert_config rfl,?_⟩
    simp only [SeenMap.perform, tryInsert_refines]
    rfl
  | maintenanceTick now =>
    refine ⟨tick_faithful faithful now,maintenanceTick_config s now,?_⟩
    simp only [SeenMap.perform, tick_refines faithful]
    rfl

theorem performAll_refines {s : JtiReplayStore} (faithful : Faithful s) (calls : List Call) :
    Faithful (performAll s calls).2 ∧ (performAll s calls).2.config = s.config ∧
      SeenMap.performAll s.config.maxReplayEntries (contents s) calls =
        ((performAll s calls).1, contents (performAll s calls).2) := by
  induction calls generalizing s with
  | nil => exact ⟨faithful,rfl,rfl⟩
  | cons c rest ih =>
    obtain ⟨kept,config,answers⟩ := perform_refines faithful c
    obtain ⟨keptAll,configAll,answersAll⟩ := ih kept
    refine ⟨keptAll,configAll.trans config,?_⟩
    rw [config] at answersAll
    simp only [SeenMap.performAll, performAll, answers, answersAll]
    rw [contents_card, ← kept.counted]

/-- Over every sequence of completed calls the results and lengths are those of
    the reference map, which the heap and the map both hold, and nothing else. -/
theorem store_refines_map (config : AuthConfig) (calls : List Call) :
    (performAll (JtiReplayStore.new config) calls).1 =
        (SeenMap.performAll config.maxReplayEntries ∅ calls).1 ∧
      (∀ key deadline, (key, deadline) ∈ (SeenMap.performAll config.maxReplayEntries ∅ calls).2 ↔
        (performAll (JtiReplayStore.new config) calls).2.entries.lookup key = some deadline) ∧
      (∀ key deadline, (key, deadline) ∈ (SeenMap.performAll config.maxReplayEntries ∅ calls).2 ↔
        (deadline, key) ∈ (performAll (JtiReplayStore.new config) calls).2.expiryQueue) ∧
      (performAll (JtiReplayStore.new config) calls).2.expiryQueue.Nodup ∧
      (performAll (JtiReplayStore.new config) calls).2.len =
        (SeenMap.performAll config.maxReplayEntries ∅ calls).2.card ∧
      (SeenMap.performAll config.maxReplayEntries ∅ calls).2.card ≤ config.maxReplayEntries := by
  have refined := performAll_refines (new_faithful config) calls
  generalize performAll (JtiReplayStore.new config) calls = reached at refined
  obtain ⟨faithful,same,answers⟩ := refined
  rw [new_contents] at answers
  change SeenMap.performAll config.maxReplayEntries ∅ calls = _ at answers
  rw [answers]
  refine ⟨rfl,fun _ _ => mem_contents,?_,?_,?_,?_⟩
  · intro key deadline
    rw [queue_iff faithful.sound, mem_contents]
  · apply List.Nodup.of_map Prod.snd
    have paired := faithful.sound.paired.nodup_iff.mpr reached.2.entries.keys_nodup
    simpa [tokenKeys] using paired
  · rw [contents_card]
    exact faithful.counted
  · rw [contents_card]
    have bounded := faithful.bounded
    rwa [same] at bounded

end ReplayRefinement
