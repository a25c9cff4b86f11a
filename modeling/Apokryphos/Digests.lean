import Mathlib.Algebra.Group.Nat.Defs
import Mathlib.Data.List.Basic

/-!
Byte strings, the SHA-256 digest of the FIPS standard and the unpadded base64
alphabet for URLs. Words of the compression function are natural numbers below
2^32, so that the kernel evaluates a digest with its own arithmetic. Decoding is
the strict one: no padding, no foreign character, no stray trailing bits.
-/
namespace Digests

abbrev Bytes := List UInt8

abbrev Bytes32 := { bytes : Bytes // bytes.length = 32 }

def utf8 (s : String) : Bytes := s.toList.flatMap String.utf8EncodeChar

structure Registers where
  a : Nat
  b : Nat
  c : Nat
  d : Nat
  e : Nat
  f : Nat
  g : Nat
  h : Nat

def initialRegisters : Registers :=
  ⟨0x6a09e667, 0xbb67ae85, 0x3c6ef372, 0xa54ff53a, 0x510e527f, 0x9b05688c, 0x1f83d9ab, 0x5be0cd19⟩

def roundConstants : List Nat := [
  0x428a2f98, 0x71374491, 0xb5c0fbcf, 0xe9b5dba5, 0x3956c25b, 0x59f111f1, 0x923f82a4, 0xab1c5ed5,
  0xd807aa98, 0x12835b01, 0x243185be, 0x550c7dc3, 0x72be5d74, 0x80deb1fe, 0x9bdc06a7, 0xc19bf174,
  0xe49b69c1, 0xefbe4786, 0x0fc19dc6, 0x240ca1cc, 0x2de92c6f, 0x4a7484aa, 0x5cb0a9dc, 0x76f988da,
  0x983e5152, 0xa831c66d, 0xb00327c8, 0xbf597fc7, 0xc6e00bf3, 0xd5a79147, 0x06ca6351, 0x14292967,
  0x27b70a85, 0x2e1b2138, 0x4d2c6dfc, 0x53380d13, 0x650a7354, 0x766a0abb, 0x81c2c92e, 0x92722c85,
  0xa2bfe8a1, 0xa81a664b, 0xc24b8b70, 0xc76c51a3, 0xd192e819, 0xd6990624, 0xf40e3585, 0x106aa070,
  0x19a4c116, 0x1e376c08, 0x2748774c, 0x34b0bcb5, 0x391c0cb3, 0x4ed8aa4a, 0x5b9cca4f, 0x682e6ff3,
  0x748f82ee, 0x78a5636f, 0x84c87814, 0x8cc70208, 0x90befffa, 0xa4506ceb, 0xbef9a3f7, 0xc67178f2]

def rotateRight (x n : Nat) : Nat := (x >>> n) ||| ((x <<< (32 - n)) % 2 ^ 32)

def roundStep (r : Registers) (input : Nat × Nat) : Registers :=
  let sum1 := rotateRight r.e 6 ^^^ rotateRight r.e 11 ^^^ rotateRight r.e 25
  let choice := (r.e &&& r.f) ^^^ ((r.e ^^^ 0xffffffff) &&& r.g)
  let first := (r.h + sum1 + choice + input.1 + input.2) % 2 ^ 32
  let sum0 := rotateRight r.a 2 ^^^ rotateRight r.a 13 ^^^ rotateRight r.a 22
  let majority := (r.a &&& r.b) ^^^ (r.a &&& r.c) ^^^ (r.b &&& r.c)
  let second := (sum0 + majority) % 2 ^ 32
  ⟨(first + second) % 2 ^ 32, r.a, r.b, r.c, (r.d + first) % 2 ^ 32, r.e, r.f, r.g⟩

/-- The schedule is kept newest word first. -/
def nextWord (newest : List Nat) : Nat :=
  let w15 := newest.getD 14 0
  let w2 := newest.getD 1 0
  let small0 := rotateRight w15 7 ^^^ rotateRight w15 18 ^^^ (w15 >>> 3)
  let small1 := rotateRight w2 17 ^^^ rotateRight w2 19 ^^^ (w2 >>> 10)
  (newest.getD 15 0 + small0 + newest.getD 6 0 + small1) % 2 ^ 32

def extendSchedule : Nat → List Nat → List Nat
  | 0, newest => newest
  | n + 1, newest => extendSchedule n (nextWord newest :: newest)

def compress (r : Registers) (block : List Nat) : Registers :=
  let schedule := (extendSchedule 48 block.reverse).reverse
  let o := (roundConstants.zip schedule).foldl roundStep r
  ⟨(r.a + o.a) % 2 ^ 32, (r.b + o.b) % 2 ^ 32, (r.c + o.c) % 2 ^ 32, (r.d + o.d) % 2 ^ 32,
   (r.e + o.e) % 2 ^ 32, (r.f + o.f) % 2 ^ 32, (r.g + o.g) % 2 ^ 32, (r.h + o.h) % 2 ^ 32⟩

def bigEndian (width n : Nat) : List Nat :=
  (List.range width).reverse.map fun i => n / 256 ^ i % 256

def padMessage (message : List Nat) : List Nat :=
  message ++ 0x80 :: (List.replicate ((119 - message.length % 64) % 64) 0 ++
    bigEndian 8 (8 * message.length))

def wordsOf : List Nat → List Nat
  | a :: b :: c :: d :: rest => (a * 2 ^ 24 + b * 2 ^ 16 + c * 2 ^ 8 + d) :: wordsOf rest
  | _ => []

def blocksOf : Nat → List Nat → List (List Nat)
  | 0, _ => []
  | n + 1, words => words.take 16 :: blocksOf n (words.drop 16)

def registerBytes (r : Registers) : Bytes :=
  ([r.a, r.b, r.c, r.d, r.e, r.f, r.g, r.h].flatMap (bigEndian 4)).map UInt8.ofNat

theorem registerBytes_length (r : Registers) : (registerBytes r).length = 32 := by
  simp [registerBytes, bigEndian]

def sha256 (message : Bytes) : Bytes32 :=
  let words := wordsOf (padMessage (message.map UInt8.toNat))
  let r := (blocksOf (words.length / 16) words).foldl compress initialRegisters
  ⟨registerBytes r, registerBytes_length r⟩

example : (sha256 [0x61, 0x62, 0x63]).val.take 4 = [0xba, 0x78, 0x16, 0xbf] := by decide +kernel

def symbol (value : Nat) : Char :=
  if value < 26 then Char.ofNat (65 + value)
  else if value < 52 then Char.ofNat (71 + value)
  else if value < 62 then Char.ofNat (value - 4)
  else if value = 62 then '-' else '_'

def symbolValue (c : Char) : Option Nat :=
  let n := c.toNat
  if 65 ≤ n ∧ n ≤ 90 then some (n - 65)
  else if 97 ≤ n ∧ n ≤ 122 then some (n - 71)
  else if 48 ≤ n ∧ n ≤ 57 then some (n + 4)
  else if c = '-' then some 62
  else if c = '_' then some 63
  else none

def encodeSymbols : Bytes → List Char
  | [] => []
  | [a] => [symbol (a.toNat / 4), symbol (a.toNat % 4 * 16)]
  | [a, b] => [symbol (a.toNat / 4), symbol (a.toNat % 4 * 16 + b.toNat / 16),
      symbol (b.toNat % 16 * 4)]
  | a :: b :: c :: rest =>
      symbol (a.toNat / 4) :: symbol (a.toNat % 4 * 16 + b.toNat / 16) ::
      symbol (b.toNat % 16 * 4 + c.toNat / 64) :: symbol (c.toNat % 64) :: encodeSymbols rest

def decodeValues : List Nat → Option Bytes
  | [] => some []
  | [_] => none
  | [w, x] => if x % 16 = 0 then some [UInt8.ofNat (w * 4 + x / 16)] else none
  | [w, x, y] =>
      if y % 4 = 0 then
        some [UInt8.ofNat (w * 4 + x / 16), UInt8.ofNat (x % 16 * 16 + y / 4)]
      else none
  | w :: x :: y :: z :: rest => (decodeValues rest).map fun tail =>
      UInt8.ofNat (w * 4 + x / 16) :: UInt8.ofNat (x % 16 * 16 + y / 4) ::
      UInt8.ofNat (y % 4 * 64 + z) :: tail

def base64urlEncode (bytes : Bytes) : String := String.ofList (encodeSymbols bytes)

def base64urlDecode (s : String) : Option Bytes :=
  (s.toList.mapM symbolValue).bind decodeValues

theorem symbolValue_symbol : ∀ v < 64, symbolValue (symbol v) = some v := by decide

theorem byte_of_parts (a : UInt8) {n : Nat} (parts : n = a.toNat) : UInt8.ofNat n = a := by
  rw [parts, UInt8.ofNat_toNat]

theorem decode_symbols (bytes : Bytes) :
    ∃ values, (encodeSymbols bytes).mapM symbolValue = some values ∧ decodeValues values = some bytes := by
  fun_induction encodeSymbols bytes with
  | case1 => exact ⟨[],rfl,rfl⟩
  | case2 a =>
    have ha := a.toNat_lt
    refine ⟨[a.toNat / 4, a.toNat % 4 * 16],?_,?_⟩
    · simp (disch := omega) [symbolValue_symbol]
    · rw [decodeValues, if_pos (by omega), byte_of_parts a (by omega)]
  | case3 a b =>
    have ha := a.toNat_lt
    have hb := b.toNat_lt
    refine ⟨[a.toNat / 4, a.toNat % 4 * 16 + b.toNat / 16, b.toNat % 16 * 4],?_,?_⟩
    · simp (disch := omega) [symbolValue_symbol]
    · rw [decodeValues, if_pos (by omega), byte_of_parts a (by omega), byte_of_parts b (by omega)]
  | case4 a b c rest ih =>
    have ha := a.toNat_lt
    have hb := b.toNat_lt
    have hc := c.toNat_lt
    obtain ⟨values,symbols,decoded⟩ := ih
    refine ⟨a.toNat / 4 :: (a.toNat % 4 * 16 + b.toNat / 16) :: (b.toNat % 16 * 4 + c.toNat / 64) ::
      c.toNat % 64 :: values,?_,?_⟩
    · simp (disch := omega) [symbolValue_symbol, symbols]
    · rw [decodeValues, decoded, Option.map_some, byte_of_parts a (by omega),
        byte_of_parts b (by omega), byte_of_parts c (by omega)]

theorem mapM_isSome {A B : Type} {f : A → Option B} {xs : List A} {ys : List B}
    (mapped : xs.mapM f = some ys) {x : A} (member : x ∈ xs) : (f x).isSome := by
  induction xs generalizing ys with
  | nil => cases member
  | cons first rest ih =>
    simp only [List.mapM_cons, Option.bind_eq_bind, Option.bind_eq_some_iff] at mapped
    obtain ⟨y,found,others,later,_⟩ := mapped
    rcases List.mem_cons.mp member with rfl | behind
    · simp [found]
    · exact ih later behind

theorem decode_encode (bytes : Bytes) : base64urlDecode (base64urlEncode bytes) = some bytes := by
  obtain ⟨values,symbols,decoded⟩ := decode_symbols bytes
  rw [base64urlDecode, base64urlEncode, String.toList_ofList, symbols, Option.bind_some, decoded]

theorem encode_injective : Function.Injective base64urlEncode := by
  intro a b same
  have decoded := congrArg base64urlDecode same
  rwa [decode_encode, decode_encode, Option.some.injEq] at decoded

theorem encode_alphabet {bytes : Bytes} {c : Char} (foreign : symbolValue c = none) :
    c ∉ (base64urlEncode bytes).toList := by
  intro member
  obtain ⟨values,symbols,_⟩ := decode_symbols bytes
  rw [base64urlEncode, String.toList_ofList] at member
  have known := mapM_isSome symbols member
  rw [foreign] at known
  cases known

theorem utf8_injective : Function.Injective utf8 := by
  intro s t same
  have encoded : s.toList.utf8Encode = t.toList.utf8Encode := by
    simp only [List.utf8Encode]
    exact congrArg List.toByteArray same
  rw [String.utf8Encode_toList, String.utf8Encode_toList] at encoded
  exact String.toByteArray_inj.mp encoded

end Digests
