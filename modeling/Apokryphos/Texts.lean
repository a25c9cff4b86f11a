import Mathlib.Algebra.Group.Nat.Defs
import Mathlib.Data.List.Basic
import Mathlib.Data.List.DropRight

/-!
String operations of the standard library on texts given by their characters:
trimming of Unicode white space, splitting, comparison up to ASCII case and the
reading of decimal words.
-/
namespace Texts

/-- The Unicode property `White_Space`. -/
def isWhitespace (c : Char) : Bool :=
  let n := c.toNat
  (9 ≤ n && n ≤ 13) || n == 32 || n == 0x85 || n == 0xA0 || n == 0x1680 ||
    (0x2000 ≤ n && n ≤ 0x200A) || n == 0x2028 || n == 0x2029 || n == 0x202F ||
    n == 0x205F || n == 0x3000

def trimList (s : List Char) : List Char :=
  ((s.dropWhile isWhitespace).reverse.dropWhile isWhitespace).reverse

def trim (s : String) : String := String.ofList (trimList s.toList)

def splitOnce (separator : Char) : List Char → Option (List Char × List Char)
  | [] => none
  | c :: rest =>
    if c = separator then some ([], rest)
    else (splitOnce separator rest).map fun parts => (c :: parts.1, parts.2)

def splitOn (separator : Char) : List Char → List (List Char)
  | [] => [[]]
  | c :: rest =>
    if c = separator then [] :: splitOn separator rest
    else match splitOn separator rest with
      | [] => [[c]]
      | first :: others => (c :: first) :: others

theorem splitOn_ne_nil (separator : Char) (s : List Char) : splitOn separator s ≠ [] := by
  cases s with
  | nil => simp [splitOn]
  | cons c rest =>
    simp only [splitOn]
    split
    · simp
    · split <;> simp

theorem splitOn_append (separator : Char) (a b : List Char) :
    splitOn separator (a ++ separator :: b) = splitOn separator a ++ splitOn separator b := by
  induction a with
  | nil => simp [splitOn]
  | cons c rest ih =>
    simp only [List.cons_append, splitOn, ih]
    split
    · rfl
    · cases parts : splitOn separator rest with
      | nil => exact absurd parts (splitOn_ne_nil separator rest)
      | cons first others => rfl

theorem splitOn_front {separator : Char} {a : List Char} (absent : separator ∉ a) (b : List Char) :
    ∃ first others, splitOn separator b = first :: others ∧
      splitOn separator (a ++ b) = (a ++ first) :: others := by
  induction a with
  | nil =>
    cases parts : splitOn separator b with
    | nil => exact absurd parts (splitOn_ne_nil separator b)
    | cons first others => exact ⟨first,others,rfl,parts⟩
  | cons c rest ih =>
    rw [List.mem_cons, not_or] at absent
    obtain ⟨first,others,parts,split⟩ := ih absent.2
    refine ⟨first,others,parts,?_⟩
    simp only [List.cons_append, splitOn, split, if_neg (Ne.symm absent.1)]

theorem splitOn_single {separator : Char} {a : List Char} (absent : separator ∉ a) :
    splitOn separator a = [a] := by
  obtain ⟨first,others,parts,split⟩ := splitOn_front absent []
  cases parts
  simpa using split

theorem splitOn_back {separator : Char} (a : List Char) {b : List Char} (absent : separator ∉ b) :
    ∃ front last, splitOn separator (a ++ b) = front ++ [last ++ b] := by
  induction a with
  | nil => exact ⟨[],[],splitOn_single absent⟩
  | cons c rest ih =>
    obtain ⟨front,last,split⟩ := ih
    simp only [List.cons_append, splitOn, split]
    split
    · exact ⟨[] :: front,last,rfl⟩
    · cases front with
      | nil => exact ⟨[],c :: last,rfl⟩
      | cons first others => exact ⟨(c :: first) :: others,last,rfl⟩

theorem splitOn_intercalate {separator : Char} {parts : List (List Char)} (present : parts ≠ [])
    (absent : ∀ part ∈ parts, separator ∉ part) :
    splitOn separator ([separator].intercalate parts) = parts := by
  induction parts with
  | nil => exact absurd rfl present
  | cons part rest ih =>
    obtain ⟨first,others⟩ := List.forall_mem_cons.mp absent
    cases rest with
    | nil => rw [List.intercalate_singleton, splitOn_single first]
    | cons next rest =>
      rw [List.intercalate_cons_cons, List.append_assoc, List.singleton_append, splitOn_append,
        splitOn_single first, ih (List.cons_ne_nil _ _) others]
      rfl

/-- The texts before and after a byte position, which must not lie inside a character. -/
def splitAtByte : Nat → List Char → Option (List Char × List Char)
  | 0, s => some ([], s)
  | _ + 1, [] => none
  | n + 1, c :: rest =>
    if c.utf8Size ≤ n + 1 then
      (splitAtByte (n + 1 - c.utf8Size) rest).map fun parts => (c :: parts.1, parts.2)
    else none

/-- `&s[start..stop]`; there is no such text where the code panics. -/
def slice (s : List Char) (start stop : Nat) : Option (List Char) :=
  (splitAtByte stop s).bind fun parts => (splitAtByte start parts.1).map Prod.snd

theorem splitAtByte_ascii {n : Nat} {s : List Char} (ascii : ∀ c ∈ s, c.utf8Size = 1)
    (inside : n ≤ s.length) : splitAtByte n s = some (s.take n, s.drop n) := by
  induction s generalizing n with
  | nil =>
    cases Nat.le_zero.mp inside
    rfl
  | cons c rest ih =>
    cases n with
    | zero => rfl
    | succ n =>
      obtain ⟨single,others⟩ := List.forall_mem_cons.mp ascii
      simp [splitAtByte, single, ih others (Nat.le_of_succ_le_succ inside)]

theorem slice_ascii {s : List Char} {start stop : Nat} (ascii : ∀ c ∈ s, c.utf8Size = 1)
    (ordered : start ≤ stop) (inside : stop ≤ s.length) :
    slice s start stop = some ((s.take stop).drop start) := by
  have front : ∀ c ∈ s.take stop, c.utf8Size = 1 := fun c member => ascii c (List.mem_of_mem_take member)
  have short : start ≤ (s.take stop).length := by
    rw [List.length_take]
    omega
  simp [slice, splitAtByte_ascii ascii inside, splitAtByte_ascii front short]

example : slice "aéb".toList 0 1 = some ['a'] ∧ slice "aéb".toList 0 2 = none := by
  decide

def asciiLower (c : Char) : Char :=
  if 65 ≤ c.toNat ∧ c.toNat ≤ 90 then Char.ofNat (c.toNat + 32) else c

def eqIgnoreAsciiCase (a b : List Char) : Bool := a.map asciiLower == b.map asciiLower

def trimEndMatches (c : Char) (s : String) : String :=
  String.ofList ((s.toList.reverse.dropWhile (· == c)).reverse)

theorem trimEndMatches_eq_iff {c : Char} {s : String} :
    trimEndMatches c s = s ↔ s.toList.getLast? ≠ some c := by
  have listed : trimEndMatches c s = s ↔ s.toList.rdropWhile (· == c) = s.toList := by
    rw [← String.toList_inj, trimEndMatches, String.toList_ofList]
    rfl
  rw [listed, List.rdropWhile_eq_self_iff]
  cases s.toList using List.reverseRecOn with
  | nil => simp
  | append_singleton rest last => simp

def stripPrefix (start s : String) : Option String :=
  if start.toList <+: s.toList then some (String.ofList (s.toList.drop start.toList.length)) else none

theorem stripPrefix_some {start s rest : String} :
    stripPrefix start s = some rest ↔ s = start ++ rest := by
  unfold stripPrefix
  constructor
  · intro found
    split at found
    · rename_i begins
      obtain ⟨tail,same⟩ := begins
      cases found
      rw [← same, List.drop_left]
      apply String.toList_injective
      rw [String.toList_append, String.toList_ofList, same]
    · cases found
  · rintro rfl
    rw [String.toList_append, if_pos (List.prefix_append _ _), List.drop_left, String.ofList_toList]

def readDigits : Nat → List Char → Option Nat
  | n, [] => some n
  | n, c :: rest =>
    if 48 ≤ c.toNat ∧ c.toNat ≤ 57 then readDigits (10 * n + (c.toNat - 48)) rest else none

/-- `str::parse::<u64>`: an optional plus sign, at least one digit, no overflow. -/
def parseU64 (s : String) : Option UInt64 :=
  let digits := match s.toList with
    | '+' :: rest => rest
    | cs => cs
  if digits.isEmpty then none
  else (readDigits 0 digits).bind fun n => if n < 2 ^ 64 then some (UInt64.ofNat n) else none

theorem field_unique {first first' rest rest' : List Char} {c : Char} (free : c ∉ first)
    (free' : c ∉ first') (same : first ++ c :: rest = first' ++ c :: rest') :
    first = first' ∧ rest = rest' := by
  induction first generalizing first' with
  | nil =>
    cases first' with
    | nil => exact ⟨rfl,(List.cons.inj same).2⟩
    | cons d others =>
      cases (List.cons.inj same).1
      exact absurd List.mem_cons_self free'
  | cons d others ih =>
    cases first' with
    | nil =>
      cases (List.cons.inj same).1
      exact absurd List.mem_cons_self free
    | cons d' others' =>
      obtain ⟨head,tail⟩ := List.cons.inj same
      obtain ⟨fields,rests⟩ := ih (List.not_mem_of_not_mem_cons free)
        (List.not_mem_of_not_mem_cons free') tail
      exact ⟨by rw [head, fields],rests⟩

section Fields
variable {opening separator closing first first' second second' : String} {c : Char}

theorem opening_prefix : opening.toList <+: (opening ++ first ++ separator ++ second ++ closing).toList := by
  simp only [String.toList_append, List.append_assoc]
  exact List.prefix_append _ _

/-- Two fields between fixed texts, of which the middle one starts with a character
    that the first field does not have. -/
theorem fields_unique (starts : separator.toList.head? = some c) (free : c ∉ first.toList)
    (free' : c ∉ first'.toList)
    (same : opening ++ first ++ separator ++ second ++ closing =
      opening ++ first' ++ separator ++ second' ++ closing) : first = first' ∧ second = second' := by
  have texts := congrArg String.toList same
  obtain ⟨between,split⟩ := List.head?_eq_some_iff.mp starts
  simp only [String.toList_append, List.append_assoc, split, List.cons_append] at texts
  obtain ⟨firsts,rest⟩ := field_unique free free' (List.append_cancel_left texts)
  have seconds := List.append_cancel_right (List.append_cancel_left rest)
  exact ⟨String.toList_inj.mp firsts,String.toList_inj.mp seconds⟩

end Fields

theorem readDigits_digits {cs : List Char} (digits : ∀ c ∈ cs, c.isDigit = true) (n : Nat) :
    readDigits n cs = some (Nat.ofDigitChars 10 cs n) := by
  induction cs generalizing n with
  | nil => rfl
  | cons c rest ih =>
    obtain ⟨first,others⟩ := List.forall_mem_cons.mp digits
    have bounds : 48 ≤ c.toNat ∧ c.toNat ≤ 57 := Char.isDigit_iff_toNat.mp first
    rw [readDigits, if_pos bounds, ih others, Nat.ofDigitChars_cons]
    rfl

theorem toList_decimal (n : Nat) : (toString n).toList = Nat.toDigits 10 n := by
  rw [Nat.toString_eq_ofList_toDigits, String.toList_ofList]

theorem parseU64_decimal {n : Nat} (fits : n < 2 ^ 64) :
    parseU64 (toString n) = some (UInt64.ofNat n) := by
  have digits : ∀ c ∈ Nat.toDigits 10 n, c.isDigit = true := fun c member =>
    Nat.isDigit_of_mem_toDigits (by decide) (by decide) member
  have read := readDigits_digits digits 0
  rw [Nat.ofDigitChars_ten_toDigits] at read
  unfold parseU64
  rw [toList_decimal]
  cases written : Nat.toDigits 10 n with
  | nil => exact absurd written Nat.toDigits_ne_nil
  | cons c rest =>
    rw [written] at read digits
    have unsigned : c ≠ '+' := by
      rintro rfl
      exact absurd (digits '+' List.mem_cons_self) (by decide)
    simpa [unsigned, read] using fits

example : parseU64 "+90" = some 90 ∧ parseU64 "" = none ∧ parseU64 "18446744073709551616" = none := by
  decide

end Texts
