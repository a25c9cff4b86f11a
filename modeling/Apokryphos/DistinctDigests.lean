import Mathlib.Data.Nat.Bitwise
import Apokryphos.Digests

/-!
Many texts with pairwise different digests. The kernel reduces a term only as
far as it is asked to, and would carry the unevaluated words of a digest along;
`forced` makes it evaluate a number before it goes on. The leading word of a
short digest is computed that way, with the same operations as the digest
itself, and a run over a range of messages marks the words it has seen in the
bits of one number.
-/
namespace DistinctDigests
open Digests

/-- The continuation at `n`, entered only when `n` is a numeral. -/
def forced {α : Type} (n : Nat) (next : Nat → α) : α :=
  Nat.rec (next 0) (fun m _ => next (Nat.succ m)) n

theorem forced_eq {α : Type} (n : Nat) (next : Nat → α) : forced n next = next n := by
  cases n <;> rfl

def turn (x n rest : Nat) : Nat :=
  Nat.lor (Nat.shiftRight x n) (Nat.mod (Nat.shiftLeft x rest) 4294967296)

/-- The first register after the rounds over the constants, with the sixteen
    words of the schedule that come next. A round consumes the oldest of them
    and appends the word it is due. -/
def leadingRegister (constants : List Nat) :
    Nat → Nat → Nat → Nat → Nat → Nat → Nat → Nat →
    Nat → Nat → Nat → Nat → Nat → Nat → Nat → Nat →
    Nat → Nat → Nat → Nat → Nat → Nat → Nat → Nat → Nat :=
  List.rec (fun a _ _ _ _ _ _ _ _ _ _ _ _ _ _ _ _ _ _ _ _ _ _ _ => a)
    (fun k _ rest a b c d e f g h w0 w1 w2 w3 w4 w5 w6 w7 w8 w9 w10 w11 w12 w13 w14 w15 =>
    forced (Nat.mod (Nat.add (Nat.add (Nat.add (Nat.add h
        (Nat.xor (Nat.xor (turn e 6 26) (turn e 11 21)) (turn e 25 7)))
        (Nat.xor (Nat.land e f) (Nat.land (Nat.xor e 4294967295) g))) k) w0) 4294967296)
      fun first =>
    forced (Nat.mod (Nat.add first (Nat.mod (Nat.add
        (Nat.xor (Nat.xor (turn a 2 30) (turn a 13 19)) (turn a 22 10))
        (Nat.xor (Nat.xor (Nat.land a b) (Nat.land a c)) (Nat.land b c))) 4294967296)) 4294967296)
      fun new =>
    forced (Nat.mod (Nat.add d first) 4294967296) fun middle =>
    forced (Nat.mod (Nat.add (Nat.add (Nat.add w0
        (Nat.xor (Nat.xor (turn w1 7 25) (turn w1 18 14)) (Nat.shiftRight w1 3))) w9)
        (Nat.xor (Nat.xor (turn w14 17 15) (turn w14 19 13)) (Nat.shiftRight w14 10))) 4294967296)
      fun due =>
    rest new a b c middle e f g w1 w2 w3 w4 w5 w6 w7 w8 w9 w10 w11 w12 w13 w14 w15 due) constants

theorem extendSchedule_older (n w15 w14 w13 w12 w11 w10 w9 w8 w7 w6 w5 w4 w3 w2 w1 w0 : Nat)
    (older : List Nat) : extendSchedule n
      (w15 :: w14 :: w13 :: w12 :: w11 :: w10 :: w9 :: w8 :: w7 :: w6 :: w5 :: w4 :: w3 :: w2 :: w1 :: w0 :: older) =
    extendSchedule n [w15, w14, w13, w12, w11, w10, w9, w8, w7, w6, w5, w4, w3, w2, w1, w0] ++ older := by
  induction n generalizing w15 w14 w13 w12 w11 w10 w9 w8 w7 w6 w5 w4 w3 w2 w1 w0 older with
  | zero => rfl
  | succ n ih =>
    unfold extendSchedule
    -- the new word reads the sixteen newest ones only
    have due : nextWord (w15 :: w14 :: w13 :: w12 :: w11 :: w10 :: w9 :: w8 :: w7 :: w6 :: w5 :: w4 ::
        w3 :: w2 :: w1 :: w0 :: older) =
      nextWord [w15, w14, w13, w12, w11, w10, w9, w8, w7, w6, w5, w4, w3, w2, w1, w0] := rfl
    rw [due, ih _ _ _ _ _ _ _ _ _ _ _ _ _ _ _ _ (w0 :: older), ih _ _ _ _ _ _ _ _ _ _ _ _ _ _ _ _ [w0]]
    simp

theorem schedule_cons (n w15 w14 w13 w12 w11 w10 w9 w8 w7 w6 w5 w4 w3 w2 w1 w0 : Nat) :
    (extendSchedule (n + 1) [w15, w14, w13, w12, w11, w10, w9, w8, w7, w6, w5, w4, w3, w2, w1, w0]).reverse =
      w0 :: (extendSchedule n [nextWord [w15, w14, w13, w12, w11, w10, w9, w8, w7, w6, w5, w4, w3, w2, w1, w0],
        w15, w14, w13, w12, w11, w10, w9, w8, w7, w6, w5, w4, w3, w2, w1]).reverse := by
  rw [extendSchedule, extendSchedule_older, List.reverse_append]
  rfl

theorem leadingRegister_eq (constants : List Nat) (r : Registers)
    (w15 w14 w13 w12 w11 w10 w9 w8 w7 w6 w5 w4 w3 w2 w1 w0 : Nat) :
    leadingRegister constants r.a r.b r.c r.d r.e r.f r.g r.h
      w0 w1 w2 w3 w4 w5 w6 w7 w8 w9 w10 w11 w12 w13 w14 w15 =
    ((constants.zip (extendSchedule constants.length
      [w15, w14, w13, w12, w11, w10, w9, w8, w7, w6, w5, w4, w3, w2, w1, w0]).reverse).foldl roundStep r).a := by
  induction constants generalizing r w15 w14 w13 w12 w11 w10 w9 w8 w7 w6 w5 w4 w3 w2 w1 w0 with
  | nil => rfl
  | cons k rest ih =>
    rw [List.length_cons, schedule_cons, List.zip_cons_cons, List.foldl_cons, ← ih]
    unfold leadingRegister
    dsimp only
    rw [forced_eq, forced_eq, forced_eq, forced_eq]
    rfl

theorem extendSchedule_add (m n : Nat) (newest : List Nat) :
    extendSchedule (m + n) newest = extendSchedule n (extendSchedule m newest) := by
  induction m generalizing newest with
  | zero => rw [Nat.zero_add]; rfl
  | succ m ih => rw [Nat.succ_add, extendSchedule, ih]; rfl

theorem extendSchedule_grows (n : Nat) (newest : List Nat) :
    ∃ later : List Nat, extendSchedule n newest = later ++ newest := by
  induction n generalizing newest with
  | zero => exact ⟨[],rfl⟩
  | succ n ih =>
    obtain ⟨later,grown⟩ := ih (nextWord newest :: newest)
    exact ⟨later ++ [nextWord newest],by rw [extendSchedule, grown, List.append_assoc]; rfl⟩

theorem extendSchedule_length (n : Nat) (newest : List Nat) :
    (extendSchedule n newest).length = n + newest.length := by
  induction n generalizing newest with
  | zero => exact (Nat.zero_add _).symm
  | succ n ih =>
    rw [extendSchedule, ih, List.length_cons]
    omega

theorem roundConstants_length : roundConstants.length = 64 := by decide

theorem zip_schedule (block : List Nat) (sixteen : block.length = 16) :
    roundConstants.zip (extendSchedule 48 block).reverse =
      roundConstants.zip (extendSchedule roundConstants.length block).reverse := by
  obtain ⟨later,grown⟩ := extendSchedule_grows 16 (extendSchedule 48 block)
  have length : (extendSchedule 48 block).reverse.length = roundConstants.length := by
    rw [List.length_reverse, extendSchedule_length, sixteen, roundConstants_length]
  rw [roundConstants_length, extendSchedule_add 48 16, grown, List.reverse_append]
  have zipped := @List.zip_append _ _ roundConstants [] _ later.reverse length.symm
  rw [List.append_nil, List.zip_nil_left, List.append_nil] at zipped
  exact zipped.symm

def leadingWord (w : Nat) : Nat :=
  Nat.mod (Nat.add 0x6a09e667 (leadingRegister roundConstants
    0x6a09e667 0xbb67ae85 0x3c6ef372 0xa54ff53a 0x510e527f 0x9b05688c 0x1f83d9ab 0x5be0cd19
    w 0 0 0 0 0 0 0 0 0 0 0 0 0 0 16)) 4294967296

def wordOf : Bytes → Nat
  | a :: b :: c :: d :: _ =>
    a.toNat * 16777216 + b.toNat * 65536 + c.toNat * 256 + d.toNat
  | _ => 0

theorem wordOf_registerBytes {r : Registers} (word : r.a < 4294967296) :
    wordOf (registerBytes r) = r.a := by
  have bytes : registerBytes r = UInt8.ofNat (r.a / 16777216 % 256) :: UInt8.ofNat (r.a / 65536 % 256) ::
      UInt8.ofNat (r.a / 256 % 256) :: UInt8.ofNat (r.a / 1 % 256) :: (registerBytes r).drop 4 := rfl
  rw [bytes]
  simp only [wordOf, UInt8.toNat_ofNat']
  omega

theorem padded_words (x y : Nat) : wordsOf (padMessage [x, y]) =
    (x * 16777216 + y * 65536 + 32768) :: [0, 0, 0, 0, 0, 0, 0, 0, 0, 0, 0, 0, 0, 0, 16] := by
  simp [padMessage, bigEndian, List.range_succ, wordsOf, List.replicate]

theorem compress_leading (w : Nat) : (compress initialRegisters
    (w :: [0, 0, 0, 0, 0, 0, 0, 0, 0, 0, 0, 0, 0, 0, 16])).a = leadingWord w := by
  have rounds := leadingRegister_eq roundConstants initialRegisters
    16 0 0 0 0 0 0 0 0 0 0 0 0 0 0 w
  rw [← zip_schedule _ rfl] at rounds
  exact congrArg (fun a => (0x6a09e667 + a) % 2 ^ 32) rounds.symm

theorem compress_bounded (r : Registers) (block : List Nat) : (compress r block).a < 4294967296 := by
  unfold compress
  exact Nat.mod_lt _ (by decide)

theorem one_block (w : Nat) : blocksOf ((w :: [0, 0, 0, 0, 0, 0, 0, 0, 0, 0, 0, 0, 0, 0, 16]).length / 16)
    (w :: [0, 0, 0, 0, 0, 0, 0, 0, 0, 0, 0, 0, 0, 0, 16]) =
      [w :: [0, 0, 0, 0, 0, 0, 0, 0, 0, 0, 0, 0, 0, 0, 16]] := by
  simp [blocksOf]

theorem sha256_leading (x y : UInt8) :
    wordOf (sha256 [x, y]).val = leadingWord (x.toNat * 16777216 + y.toNat * 65536 + 32768) := by
  unfold sha256
  rw [List.map_cons, List.map_cons, List.map_nil, padded_words]
  dsimp only
  rw [one_block, List.foldl_cons, List.foldl_nil, wordOf_registerBytes (compress_bounded _ _),
    compress_leading]

/-- Runs down from `n` and stops at a value whose bit is set already. -/
def marked (f : Nat → Nat) (n : Nat) : Nat → Bool :=
  Nat.rec (fun _ => true) (fun m rest seen => forced (f m) fun v =>
    Bool.rec (rest (Nat.lor seen (Nat.shiftLeft 1 v))) false (Nat.testBit seen v)) n

theorem marked_succ (f : Nat → Nat) (m seen : Nat) :
    marked f (m + 1) seen = (!seen.testBit (f m) && marked f m (seen ||| 1 <<< f m)) := by
  unfold marked
  dsimp only
  rw [forced_eq]
  cases seen.testBit (f m) <;> rfl

theorem marked_injective {f : Nat → Nat} {n seen : Nat} (run : marked f n seen = true) :
    (∀ i < n, seen.testBit (f i) = false) ∧ ∀ i < n, ∀ j < n, f i = f j → i = j := by
  induction n generalizing seen with
  | zero => exact ⟨nofun,nofun⟩
  | succ m ih =>
    rw [marked_succ, Bool.and_eq_true, Bool.not_eq_true'] at run
    obtain ⟨new,rest⟩ := run
    obtain ⟨unseen,injective⟩ := ih rest
    have apart : ∀ i < m, seen.testBit (f i) = false ∧ f m ≠ f i := by
      intro i below
      have clear := unseen i below
      rw [Nat.testBit_or, Bool.or_eq_false_iff, Nat.testBit_shiftLeft] at clear
      refine ⟨clear.1,?_⟩
      intro same
      simp [same] at clear
    constructor
    · intro i below
      rcases Nat.lt_succ_iff_lt_or_eq.mp below with lower | rfl
      · exact (apart i lower).1
      · exact new
    · intro i below j below' same
      rcases Nat.lt_succ_iff_lt_or_eq.mp below with lower | rfl <;>
        rcases Nat.lt_succ_iff_lt_or_eq.mp below' with lower' | rfl
      · exact injective i lower j lower' same
      · exact absurd same.symm (apart i lower).2
      · exact absurd same (apart j lower').2
      · rfl

def identifier (i : Nat) : String :=
  String.ofList [Char.ofNat (64 + i / 32 % 32), Char.ofNat (64 + i % 32)]

def identifierWord (i : Nat) : Nat :=
  Nat.mod (leadingWord (Nat.add (Nat.add (Nat.mul (Nat.add 64 (Nat.mod (Nat.div i 32) 32)) 16777216)
    (Nat.mul (Nat.add 64 (Nat.mod i 32)) 65536)) 32768)) 1048576

theorem identifier_words : marked identifierWord 1024 0 = true := by decide +kernel

theorem ascii_byte : ∀ n < 128, String.utf8EncodeChar (Char.ofNat n) = [UInt8.ofNat n] := by decide

theorem utf8_identifier (i : Nat) : utf8 (identifier i) =
    [UInt8.ofNat (64 + i / 32 % 32), UInt8.ofNat (64 + i % 32)] := by
  have first := ascii_byte (64 + i / 32 % 32) (by omega)
  have second := ascii_byte (64 + i % 32) (by omega)
  unfold utf8 identifier
  rw [String.toList_ofList, List.flatMap_cons, List.flatMap_cons, List.flatMap_nil, first, second]
  rfl

theorem identifier_leading (i : Nat) :
    wordOf (sha256 (utf8 (identifier i))).val % 1048576 = identifierWord i := by
  rw [utf8_identifier, sha256_leading, UInt8.toNat_ofNat', UInt8.toNat_ofNat',
    Nat.mod_eq_of_lt (by omega : 64 + i / 32 % 32 < 2 ^ 8), Nat.mod_eq_of_lt (by omega : 64 + i % 32 < 2 ^ 8)]
  rfl

theorem identifier_digests {i j : Nat} (below : i < 1024) (below' : j < 1024)
    (same : sha256 (utf8 (identifier i)) = sha256 (utf8 (identifier j))) : i = j := by
  refine (marked_injective identifier_words).2 i below j below' ?_
  rw [← identifier_leading, ← identifier_leading, same]

end DistinctDigests
