import Apokryphos.LocalFs
import Apokryphos.PathTexts

/-!
Where a block lies in the file system. The root comes from the configuration, a
text; the shards are slices of the identifier. The alphabet of the identifiers
has neither a separator nor a dot, so that a block stays below the root and
takes the name of no other file of the provider.
-/
namespace BlockPaths
open BlockStorage hiding blockPath
open Digests PathTexts Texts

def place (root : PathText) (path : BlockPath) : PathText :=
  join (join (join root path.top.toList) path.mid.toList) path.name.toList

def shardDir (root : PathText) (id : BlockId) : PathText :=
  join (join root id.shardTop.toList) id.shardMid.toList

def blockPath (root : PathText) (id : BlockId) : PathText :=
  join (shardDir root id) id.text.toList

def topDir (root : PathText) (id : BlockId) : PathText := join root id.shardTop.toList

/-- What `tempfile` makes of a prefix, its random characters and a suffix. -/
def tempName (start random : String) : String := start ++ random ++ ".tmp"

def putTemp (root : PathText) (id : BlockId) (random : String) : PathText :=
  join (shardDir root id) (tempName ".put." random).toList

def probeFilename : String := ".startup_probe"

def probeTemp (root : PathText) (random : String) : PathText :=
  join root (tempName ".probe." random).toList

def probeFile (root : PathText) : PathText := join root probeFilename.toList

/-- The paths that the disk of the provider knows files by. -/
structure PlainPath (path : BlockPath) : Prop where
  top : PlainName path.top.toList
  mid : PlainName path.mid.toList
  name : PlainName path.name.toList

theorem components_place (root : PathText) {path : BlockPath} (plain : PlainPath path) :
    components (place root path) = components root ++
      [.normal path.top.toList, .normal path.mid.toList, .normal path.name.toList] := by
  rw [place, components_join_name _ plain.name, components_join_name _ plain.mid,
    components_join_name _ plain.top]
  simp

theorem place_distinct {root : PathText} {path other : BlockPath} (plain : PlainPath path)
    (plainly : PlainPath other) (same : components (place root path) = components (place root other)) :
    path = other := by
  rw [components_place root plain, components_place root plainly, List.append_cancel_left_eq] at same
  simp only [List.cons.injEq, Component.normal.injEq, and_true] at same
  obtain ⟨top,mid,name⟩ := same
  cases path
  cases other
  cases String.toList_injective top
  cases String.toList_injective mid
  cases String.toList_injective name
  rfl

theorem blockPath_place (root : PathText) (id : BlockId) :
    blockPath root id = place root (BlockStorage.blockPath id) := rfl

def InAlphabet (b : UInt8) : Prop :=
  (65 ≤ b ∧ b ≤ 90) ∨ (97 ≤ b ∧ b ≤ 122) ∨ (48 ≤ b ∧ b ≤ 57) ∨ b = 45 ∨ b = 95

instance (b : UInt8) : Decidable (InAlphabet b) := by
  unfold InAlphabet
  infer_instance

theorem byte_inAlphabet : ∀ n < 256,
    isBase64urlByte (UInt8.ofNat n) = 1 ↔ InAlphabet (UInt8.ofNat n) := by
  decide +kernel

theorem flag_iff (b : UInt8) : isBase64urlByte b = 1 ↔ InAlphabet b := by
  have named := byte_inAlphabet b.toNat b.toNat_lt
  rwa [UInt8.ofNat_toNat] at named

theorem parse_isSome_iff (s : String) :
    (BlockId.parse s).isSome ↔ (utf8 s).length = idLength ∧ ∀ b ∈ utf8 s, InAlphabet b := by
  rw [Option.isSome_iff_exists]
  constructor
  · rintro ⟨id,parsed⟩
    cases parse_some.mp parsed
    exact ⟨id.size,fun b member => (flag_iff b).mp (id.clean b member)⟩
  · rintro ⟨size,clean⟩
    exact ⟨⟨s,size,fun b member => (flag_iff b).mpr (clean b member)⟩,parse_some.mpr rfl⟩

section Identifiers
variable (id : BlockId)

theorem text_chars : id.text.toList.length = 43 ∧ ∀ c ∈ id.text.toList, isBase64urlChar c = true :=
  canonical_iff.mp ⟨id,rfl⟩

theorem text_ascii : ∀ c ∈ id.text.toList, c.utf8Size = 1 := by
  intro c member
  have low : c.val.toNat < 128 := alphabet_ascii ((text_chars id).2 c member)
  exact Char.utf8Size_eq_one_iff.mpr (Nat.le_of_lt_succ low)

theorem shardTop_slice : slice id.text.toList 0 2 = some id.shardTop.toList := by
  have size := (text_chars id).1
  rw [slice_ascii (text_ascii id) (by omega) (by omega)]
  simp [BlockId.shardTop]

theorem shardMid_slice : slice id.text.toList 2 4 = some id.shardMid.toList := by
  have size := (text_chars id).1
  rw [slice_ascii (text_ascii id) (by omega) (by omega)]
  simp [BlockId.shardMid, List.drop_take]

theorem plain_alphabet {name : List Char} (clean : ∀ c ∈ name, isBase64urlChar c = true)
    (named : name ≠ []) : PlainName name where
  named := named
  single := fun slash => absurd (clean _ slash) (by decide)
  other := by
    constructor
    · rintro rfl
      exact absurd (clean '.' List.mem_cons_self) (by decide)
    · rintro rfl
      exact absurd (clean '.' List.mem_cons_self) (by decide)

theorem plain_text : PlainName id.text.toList := by
  refine plain_alphabet (text_chars id).2 fun nothing => ?_
  have size := (text_chars id).1
  rw [nothing] at size
  cases size

theorem text_undotted : '.' ∉ id.text.toList := fun dot =>
  absurd ((text_chars id).2 '.' dot) (by decide)

theorem plain_shardTop : PlainName id.shardTop.toList := by
  have size := (text_chars id).1
  rw [BlockId.shardTop, String.toList_ofList]
  refine plain_alphabet (fun c member => (text_chars id).2 c (List.mem_of_mem_take member)) ?_
  simp [← List.length_eq_zero_iff, size]

theorem plain_shardMid : PlainName id.shardMid.toList := by
  have size := (text_chars id).1
  rw [BlockId.shardMid, String.toList_ofList]
  refine plain_alphabet
    (fun c member => (text_chars id).2 c (List.mem_of_mem_drop (List.mem_of_mem_take member))) ?_
  simp [← List.length_eq_zero_iff, size]

theorem plain_blockPath : PlainPath (BlockStorage.blockPath id) :=
  ⟨plain_shardTop id,plain_shardMid id,plain_text id⟩

variable (root : PathText)

theorem topDir_below : Below root (topDir root id) 1 :=
  below_join (below_root root) (plain_shardTop id)

theorem shardDir_below : Below root (shardDir root id) 2 :=
  below_join (topDir_below id root) (plain_shardMid id)

theorem blockPath_below : Below root (blockPath root id) 3 :=
  below_join (shardDir_below id root) (plain_text id)

theorem blockPath_last :
    (components (blockPath root id)).getLast? = some (.normal id.text.toList) := by
  rw [blockPath, components_join_name _ (plain_text id), List.getLast?_concat]

end Identifiers

theorem blockPath_distinct {root : PathText} {a b : BlockId}
    (same : components (blockPath root a) = components (blockPath root b)) : a = b := by
  rw [blockPath_place, blockPath_place] at same
  exact blockPath_injective (place_distinct (plain_blockPath a) (plain_blockPath b) same)

theorem blockPath_undotted {root path : PathText} {id : BlockId} {name : List Char}
    (last : (components path).getLast? = some (.normal name)) (dotted : '.' ∈ name) :
    components (blockPath root id) ≠ components path := by
  intro same
  rw [← same, blockPath_last] at last
  simp only [Option.some.injEq, Component.normal.injEq] at last
  exact text_undotted id (last ▸ dotted)

theorem temp_last (dir : PathText) {start : String} (random : String) (single : '/' ∉ start.toList)
    (long : 1 < start.toList.length) : ∃ name, '.' ∈ name ∧
      (components (join dir (tempName start random).toList)).getLast? = some (.normal name) := by
  have shape : (tempName start random).toList =
      start.toList ++ (random.toList ++ ".tmp".toList) := by
    simp [tempName, String.toList_append]
  have relative := anchor_front (random.toList ++ ".tmp".toList) single long
  have unslashed : '/' ∉ ".tmp".toList := by decide
  obtain ⟨front,name,parts⟩ := segments_back (start.toList ++ random.toList) unslashed (by decide)
  refine ⟨name ++ ".tmp".toList,by simp,?_⟩
  rw [shape, components_join dir relative, ← List.append_assoc, parts, ← List.append_assoc,
    List.getLast?_concat]

theorem blockPath_temp {root : PathText} (id : BlockId) (dir : PathText) {start : String}
    (random : String) (single : '/' ∉ start.toList) (long : 1 < start.toList.length) :
    components (blockPath root id) ≠ components (join dir (tempName start random).toList) := by
  obtain ⟨name,dotted,last⟩ := temp_last dir random single long
  exact blockPath_undotted last dotted

theorem plain_probe : PlainName probeFilename.toList where
  named := by decide
  single := by decide
  other := by decide

theorem blockPath_probe (root : PathText) (id : BlockId) :
    components (blockPath root id) ≠ components (probeFile root) := by
  have last : (components (probeFile root)).getLast? = some (.normal probeFilename.toList) := by
    rw [probeFile, components_join_name root plain_probe, List.getLast?_concat]
  exact blockPath_undotted last (by decide)

/-- The blocks are three names below the root, where no directory of theirs and
    no other file of the provider is. -/
theorem block_paths_confined :
    (∀ s : String, (BlockId.parse s).isSome ↔ (utf8 s).length = 43 ∧ ∀ b ∈ utf8 s, InAlphabet b) ∧
    (∀ id : BlockId, slice id.text.toList 0 2 = some id.shardTop.toList ∧
      slice id.text.toList 2 4 = some id.shardMid.toList) ∧
    (∀ (root : PathText) (id : BlockId), Below root (blockPath root id) 3) ∧
    (∀ (root : PathText) (a b : BlockId),
      components (blockPath root a) = components (blockPath root b) → a = b) ∧
    (∀ (root : PathText) (a b : BlockId) (random : String),
      components (blockPath root a) ≠ components (putTemp root b random)) ∧
    (∀ (root : PathText) (a : BlockId) (random : String),
      components (blockPath root a) ≠ components (probeTemp root random)) ∧
    (∀ (root : PathText) (a : BlockId),
      components (blockPath root a) ≠ components (probeFile root)) ∧
    (∀ (root : PathText) (a b : BlockId),
      components (blockPath root a) ≠ components (topDir root b) ∧
      components (blockPath root a) ≠ components (shardDir root b)) := by
  refine ⟨parse_isSome_iff,fun id => ⟨shardTop_slice id,shardMid_slice id⟩,?_,?_,?_,?_,?_,?_⟩
  · intro root id
    exact blockPath_below id root
  · intro root a b same
    exact blockPath_distinct same
  · intro root a b random
    exact blockPath_temp a (shardDir root b) random (by decide) (by decide)
  · intro root a random
    exact blockPath_temp a root random (by decide) (by decide)
  · intro root a
    exact blockPath_probe root a
  · intro root a b
    constructor
    · intro same
      cases below_depth (blockPath_below a root) (below_congr (topDir_below b root) same)
    · intro same
      cases below_depth (blockPath_below a root) (below_congr (shardDir_below b root) same)

end BlockPaths
