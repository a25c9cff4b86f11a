import Apokryphos.Digests

/-!
Block identifiers, the layout of the blocks below the root directory, and the
interface of a storage provider. An identifier is a text of 43 bytes of the
base64url alphabet. The check reads every byte, so that its time does not tell
where the first wrong one is.
-/
namespace BlockStorage
open Digests

def flag (b : Bool) : UInt8 := if b then 1 else 0

def isBase64urlByte (b : UInt8) : UInt8 :=
  let upper := flag (decide (65 ≤ b) && decide (b ≤ 90))
  let lower := flag (decide (97 ≤ b) && decide (b ≤ 122))
  let digit := flag (decide (48 ≤ b) && decide (b ≤ 57))
  let dash := flag (b == 45)
  let underscore := flag (b == 95)
  upper ||| lower ||| digit ||| dash ||| underscore

theorem byte_flag : ∀ n < 256, isBase64urlByte (UInt8.ofNat n) = 0 ∨
    (isBase64urlByte (UInt8.ofNat n) = 1 ∧ n < 128) := by
  decide +kernel

theorem flag_cases (b : UInt8) : isBase64urlByte b = 0 ∨ isBase64urlByte b = 1 := by
  have named := byte_flag b.toNat b.toNat_lt
  rw [UInt8.ofNat_toNat] at named
  rcases named with zero | ⟨one,_⟩
  · exact .inl zero
  · exact .inr one

/-- The loop that ANDs the validity of every byte. -/
def allBase64url (bytes : Bytes) : UInt8 :=
  bytes.foldl (fun valid b => valid &&& isBase64urlByte b) 1

theorem foldl_valid {bytes : Bytes} {valid : UInt8} (bit : valid = 0 ∨ valid = 1) :
    bytes.foldl (fun valid b => valid &&& isBase64urlByte b) valid = 1 ↔
      valid = 1 ∧ ∀ b ∈ bytes, isBase64urlByte b = 1 := by
  induction bytes generalizing valid with
  | nil => simp
  | cons b rest ih =>
    have next : valid &&& isBase64urlByte b = 0 ∨ valid &&& isBase64urlByte b = 1 := by
      rcases bit with rfl | rfl <;> rcases flag_cases b with zero | one <;> simp [*]
    rw [List.foldl_cons, ih next, List.forall_mem_cons, ← and_assoc]
    refine and_congr_left fun _ => ?_
    rcases bit with rfl | rfl <;> rcases flag_cases b with zero | one <;> simp [*]

theorem allBase64url_iff {bytes : Bytes} :
    allBase64url bytes = 1 ↔ ∀ b ∈ bytes, isBase64urlByte b = 1 := by
  unfold allBase64url
  rw [foldl_valid (.inr rfl)]
  simp

def idLength : Nat := 43

structure BlockId where
  text : String
  size : (utf8 text).length = idLength
  clean : ∀ b ∈ utf8 text, isBase64urlByte b = 1
  deriving DecidableEq

def BlockId.parse (s : String) : Option BlockId :=
  if size : (utf8 s).length = idLength then
    if valid : allBase64url (utf8 s) = 1 then some ⟨s, size, allBase64url_iff.mp valid⟩ else none
  else none

theorem parse_some {s : String} {id : BlockId} : BlockId.parse s = some id ↔ s = id.text := by
  unfold BlockId.parse
  constructor
  · intro parsed
    split at parsed
    · split at parsed
      · cases parsed
        rfl
      · cases parsed
    · cases parsed
  · rintro rfl
    rw [dif_pos id.size, dif_pos (allBase64url_iff.mpr id.clean)]

theorem alphabet_char {c : Char} (clean : ∀ b ∈ String.utf8EncodeChar c, isBase64urlByte b = 1) :
    c.val.toNat < 128 := by
  have low {n : Nat} (byte : n < 256) (member : UInt8.ofNat n ∈ String.utf8EncodeChar c) : n < 128 := by
    rcases byte_flag n byte with zero | ⟨_,below⟩
    · rw [clean _ member] at zero
      cases zero
    · exact below
  unfold String.utf8EncodeChar at low
  dsimp only at low
  by_cases one : c.val.toNat ≤ 0x7f
  · omega
  · -- the first byte of a longer encoding lies beyond the alphabet
    rw [if_neg one] at low
    by_cases two : c.val.toNat ≤ 0x7ff
    · rw [if_pos two] at low
      have leading := low (by omega) List.mem_cons_self
      omega
    · rw [if_neg two] at low
      by_cases three : c.val.toNat ≤ 0xffff
      · rw [if_pos three] at low
        have leading := low (by omega) List.mem_cons_self
        omega
      · rw [if_neg three] at low
        have leading := low (by omega) List.mem_cons_self
        omega

theorem ascii_encoding {c : Char} (ascii : c.val.toNat < 128) :
    String.utf8EncodeChar c = [UInt8.ofNat c.val.toNat] := by
  unfold String.utf8EncodeChar
  dsimp only
  exact if_pos (by omega)

def isBase64urlChar (c : Char) : Bool :=
  ('A' ≤ c && c ≤ 'Z') || ('a' ≤ c && c ≤ 'z') || ('0' ≤ c && c ≤ '9') || c == '-' || c == '_'

theorem alphabets_agree : ∀ n < 128,
    isBase64urlByte (UInt8.ofNat n) = 1 ↔ isBase64urlChar (Char.ofNat n) = true := by
  decide +kernel

theorem alphabet_ascii {c : Char} (clean : isBase64urlChar c = true) : c.val.toNat < 128 := by
  simp only [isBase64urlChar, Bool.or_eq_true, Bool.and_eq_true, decide_eq_true_eq, beq_iff_eq] at clean
  have upper : ∀ d : Char, d.val.toNat < 128 → c ≤ d → c.val.toNat < 128 := by
    intro d bound below
    exact Nat.lt_of_le_of_lt below bound
  rcases clean with (((⟨_,below⟩ | ⟨_,below⟩) | ⟨_,below⟩) | rfl) | rfl
  · exact upper _ (by decide) below
  · exact upper _ (by decide) below
  · exact upper _ (by decide) below
  · decide
  · decide

theorem clean_char {c : Char} :
    (∀ b ∈ String.utf8EncodeChar c, isBase64urlByte b = 1) ↔ isBase64urlChar c = true := by
  have agree (ascii : c.val.toNat < 128) :
      (∀ b ∈ String.utf8EncodeChar c, isBase64urlByte b = 1) ↔ isBase64urlChar c = true := by
    have same : Char.ofNat c.val.toNat = c := Char.ofNat_toNat c
    rw [ascii_encoding ascii, List.forall_mem_singleton, alphabets_agree _ ascii, same]
  constructor
  · intro clean
    exact (agree (alphabet_char clean)).mp clean
  · intro clean
    exact (agree (alphabet_ascii clean)).mpr clean

theorem clean_text {cs : List Char} :
    (∀ b ∈ cs.flatMap String.utf8EncodeChar, isBase64urlByte b = 1) ↔
      ∀ c ∈ cs, isBase64urlChar c = true := by
  simp only [List.mem_flatMap, forall_exists_index, and_imp]
  constructor
  · intro clean c member
    exact clean_char.mp fun b inside => clean b c member inside
  · intro clean b c member inside
    exact clean_char.mpr (clean c member) b inside

theorem clean_length {cs : List Char} (clean : ∀ c ∈ cs, isBase64urlChar c = true) :
    (cs.flatMap String.utf8EncodeChar).length = cs.length := by
  induction cs with
  | nil => rfl
  | cons c rest ih =>
    obtain ⟨first,others⟩ := List.forall_mem_cons.mp clean
    rw [List.flatMap_cons, List.length_append, ih others, ascii_encoding (alphabet_ascii first),
      List.length_singleton, List.length_cons, Nat.add_comm]

theorem canonical_iff {s : String} : (∃ id : BlockId, id.text = s) ↔
    s.toList.length = idLength ∧ ∀ c ∈ s.toList, isBase64urlChar c = true := by
  constructor
  · rintro ⟨id,rfl⟩
    have clean := clean_text.mp id.clean
    have size := id.size
    unfold utf8 at size
    rw [clean_length clean] at size
    exact ⟨size,clean⟩
  · rintro ⟨size,clean⟩
    exact ⟨⟨s,(clean_length clean).trans size,clean_text.mpr clean⟩,rfl⟩

structure BlockPath where
  top : String
  mid : String
  name : String
  deriving DecidableEq

def BlockId.shardTop (id : BlockId) : String := String.ofList (id.text.toList.take 2)

def BlockId.shardMid (id : BlockId) : String := String.ofList ((id.text.toList.drop 2).take 2)

def blockPath (id : BlockId) : BlockPath := ⟨id.shardTop, id.shardMid, id.text⟩

theorem blockId_ext {a b : BlockId} (same : a.text = b.text) : a = b := by
  cases a
  cases b
  cases same
  rfl

theorem blockPath_injective {a b : BlockId} (same : blockPath a = blockPath b) : a = b :=
  blockId_ext (congrArg BlockPath.name same)

inductive BackendFailureCause where
  | diskFull
  | permissionDenied
  | ioError
  deriving DecidableEq, Repr

inductive StorageError where
  | notFound
  | backend (cause : BackendFailureCause)
  deriving DecidableEq, Repr

structure StorageProvider (S : Type) where
  put : S → BlockId → Bytes → Except StorageError Unit × S
  get : S → BlockId → Except StorageError Bytes × S
  delete : S → BlockId → Except StorageError Unit × S

end BlockStorage
