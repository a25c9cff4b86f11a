import Mathlib.Data.Set.Function
import Apokryphos.ProofValidation
import Apokryphos.Texts

/-!
What a thumbprint says of a key. The text that is hashed has two fields of
base64url symbols between fixed delimiters, so that it determines the shape of the
key and the bytes of both parameters, however long they are. The digest is the
only place where two keys could meet; that it does not happen is assumed of the
texts of the keys in question.
-/
namespace KeyThumbprints
open Digests Outcomes ProofValidation SigningKeys Texts TokenValidation

theorem encode_unquoted (bytes : Bytes) : '"' ∉ (base64urlEncode bytes).toList :=
  encode_alphabet (by decide)

theorem shapes_apart (n e : Bytes) (x y : Bytes32) :
    canonicalJson (.rsa n e) ≠ canonicalJson (.ecP256 x y) := by
  intro same
  have rsa : "\x7b\"e\":\"".toList <+: (canonicalJson (.rsa n e)).toList := opening_prefix
  have ec : "\x7b\"crv\":\"P-256\",\"kty\":\"EC\",\"x\":\"".toList <+:
      (canonicalJson (.ecP256 x y)).toList := opening_prefix
  rw [same] at rsa
  exact absurd (List.prefix_of_prefix_length_le rsa ec (by decide)) (by decide)

theorem canonicalJson_injective : Function.Injective canonicalJson := by
  intro a b same
  cases a with
  | rsa n e =>
    cases b with
    | rsa n' e' =>
      obtain ⟨exponents,moduli⟩ := fields_unique (by decide) (encode_unquoted e) (encode_unquoted e') same
      rw [encode_injective exponents, encode_injective moduli]
    | ecP256 x' y' => exact absurd same (shapes_apart n e x' y')
  | ecP256 x y =>
    cases b with
    | rsa n' e' => exact absurd same.symm (shapes_apart n' e' x y)
    | ecP256 x' y' =>
      obtain ⟨firsts,seconds⟩ :=
        fields_unique (by decide) (encode_unquoted x.val) (encode_unquoted x'.val) same
      rw [Subtype.ext (encode_injective firsts), Subtype.ext (encode_injective seconds)]

/-- Both copies of the decoding return the same digests. They differ in their errors,
    and in that one of them panics at an octet key. -/
theorem copies_agree {jwk : RawJwk} {thumbprint : Bytes32} :
    computeThumbprint jwk = .ok thumbprint ↔ computeJwkThumbprint jwk = .ok thumbprint := by
  unfold computeThumbprint computeJwkThumbprint
  cases jwk.algorithm with
  | rsa nText eText => simp only [bind_ok_iff, okOr_ok_iff, pure_ok_iff]
  | ellipticCurve curve xText yText =>
    simp only [bind_ok_iff, okOr_ok_iff, rejectIf_ok_iff, checked_ok_iff]
  | octetKey | octetKeyPair => simp only [reduceCtorEq]

def SameKey (a b : RawJwk) : Prop :=
  (∃ n e, Decodes a (.rsa n e) ∧ Decodes b (.rsa n e)) ∨
    ∃ x y, Decodes a (.ecP256 x y) ∧ Decodes b (.ecP256 x y)

theorem sameKey_iff {a b : RawJwk} : SameKey a b ↔ ∃ input, Decodes a input ∧ Decodes b input := by
  constructor
  · rintro (⟨n,e,both⟩ | ⟨x,y,both⟩)
    · exact ⟨.rsa n e,both⟩
    · exact ⟨.ecP256 x y,both⟩
  · rintro ⟨input,both⟩
    cases input with
    | rsa n e => exact .inl ⟨n,e,both⟩
    | ecP256 x y => exact .inr ⟨x,y,both⟩

def HashedTexts (keys : Set RawJwk) : Set Bytes :=
  { text | ∃ jwk ∈ keys, ∃ input, Decodes jwk input ∧ utf8 (canonicalJson input) = text }

section Identity
variable {keys : Set RawJwk} {a b : RawJwk} {input other : JwkThumbprintInput}

theorem jwkThumbprint_injOn (injective : Set.InjOn sha256 (HashedTexts keys)) (member : a ∈ keys)
    (member' : b ∈ keys) (decodes : Decodes a input) (decodes' : Decodes b other)
    (same : jwkThumbprint input = jwkThumbprint other) : input = other := by
  have texts : utf8 (canonicalJson input) = utf8 (canonicalJson other) :=
    injective ⟨a,member,input,decodes,rfl⟩ ⟨b,member',other,decodes',rfl⟩ same
  exact canonicalJson_injective (utf8_injective texts)

theorem injOn_two_keys (decodes : Decodes a input) (decodes' : Decodes b other)
    (apart : jwkThumbprint input ≠ jwkThumbprint other) : Set.InjOn sha256 (HashedTexts {a, b}) := by
  have texts : HashedTexts {a, b} ⊆ {utf8 (canonicalJson input), utf8 (canonicalJson other)} := by
    rintro text ⟨jwk,rfl | rfl,found,decoded,rfl⟩
    · rw [decodes_unique decoded decodes]
      exact Set.mem_insert _ _
    · rw [decodes_unique decoded decodes']
      exact Set.mem_insert_of_mem _ rfl
  have pair : Set.InjOn sha256 {utf8 (canonicalJson input), utf8 (canonicalJson other)} :=
    Set.injOn_pair.mpr fun same => absurd same apart
  exact pair.mono texts

theorem thumbprint_eq_iff {t t' : Bytes32} (injective : Set.InjOn sha256 (HashedTexts keys))
    (member : a ∈ keys) (member' : b ∈ keys) (computed : computeThumbprint a = .ok t)
    (computed' : computeThumbprint b = .ok t') : t = t' ↔ SameKey a b := by
  obtain ⟨input,decodes,rfl⟩ := computeThumbprint_ok_iff.mp computed
  obtain ⟨other,decodes',rfl⟩ := computeThumbprint_ok_iff.mp computed'
  rw [sameKey_iff]
  constructor
  · intro same
    cases jwkThumbprint_injOn injective member member' decodes decodes' same
    exact ⟨input,decodes,decodes'⟩
  · rintro ⟨common,first,second⟩
    rw [decodes_unique decodes first, decodes_unique decodes' second]

end Identity

/-- Both copies compute one thumbprint, and it identifies the key among any keys for
    whose texts the digest has no collision. The text itself has none. -/
theorem thumbprints_identify_keys :
    (∀ jwk t, computeThumbprint jwk = .ok t ↔ computeJwkThumbprint jwk = .ok t) ∧
    (∀ keys : Set RawJwk, Set.InjOn sha256 (HashedTexts keys) → ∀ a ∈ keys, ∀ b ∈ keys, ∀ t t',
      computeThumbprint a = .ok t → computeThumbprint b = .ok t' → (t = t' ↔ SameKey a b)) ∧
    Function.Injective canonicalJson := by
  refine ⟨fun _ _ => copies_agree,?_,canonicalJson_injective⟩
  intro keys injective a member b member' t t' computed computed'
  exact thumbprint_eq_iff injective member member' computed computed'

def ecKey : RawJwk where
  keyAlgorithm := some .es256
  keyId := none
  algorithm := .ellipticCurve .p256 "AAAAAAAAAAAAAAAAAAAAAAAAAAAAAAAAAAAAAAAAAAA"
    "AAAAAAAAAAAAAAAAAAAAAAAAAAAAAAAAAAAAAAAAAAA"

def zeroBytes : Bytes32 := ⟨List.replicate 32 0, List.length_replicate⟩

theorem thumbprints_identify_two_keys :
    ∃ t t', computeThumbprint soloKey = .ok t ∧ computeJwkThumbprint ecKey = .ok t' ∧ t ≠ t' := by
  have rsa : Decodes soloKey (.rsa [0, 0, 0] [1, 0, 1]) :=
    .rsa rfl (by decide +kernel) (by decide +kernel)
  have ec : Decodes ecKey (.ecP256 zeroBytes zeroBytes) :=
    .ecP256 rfl (by decide +kernel) (by decide +kernel)
  have digests : jwkThumbprint (.rsa [0, 0, 0] [1, 0, 1]) ≠
      jwkThumbprint (.ecP256 zeroBytes zeroBytes) := by decide +kernel
  have injective : Set.InjOn sha256 (HashedTexts {soloKey, ecKey}) := injOn_two_keys rsa ec digests
  obtain ⟨agree,identify,_⟩ := thumbprints_identify_keys
  have computed := computeThumbprint_ok_iff.mpr ⟨_,rsa,rfl⟩
  have computed' := computeThumbprint_ok_iff.mpr ⟨_,ec,rfl⟩
  refine ⟨_,_,computed,(agree ecKey _).mp computed',?_⟩
  rw [ne_eq, identify _ injective soloKey (Set.mem_insert _ _) ecKey
    (Set.mem_insert_of_mem _ rfl) _ _ computed computed']
  rintro (⟨n,e,_,shown⟩ | ⟨x,y,shown,_⟩)
  · cases decodes_unique ec shown
  · cases decodes_unique rsa shown

end KeyThumbprints
