import Mathlib.Data.List.AList
import Apokryphos.Digests
import Apokryphos.Outcomes

/-!
Public signing keys as the identity providers publish them, their RFC 7638
thumbprints, and the parsed key set that one audience caches. A key whose
declared algorithm is not PS256 or ES256 is skipped; the key type is a separate
field and is only looked at when the thumbprint is computed. A panic of the
source is an outcome of its own, apart from the errors it returns.
-/
namespace SigningKeys
open Digests Outcomes

inductive JwsAlg where
  | ps256
  | es256
  deriving DecidableEq, Repr

inductive Algorithm where
  | hs256 | hs384 | hs512
  | es256 | es384
  | rs256 | rs384 | rs512
  | ps256 | ps384 | ps512
  | edDsa
  deriving DecidableEq, Repr

inductive KeyAlgorithm where
  | hs256 | hs384 | hs512
  | es256 | es384
  | rs256 | rs384 | rs512
  | ps256 | ps384 | ps512
  | edDsa
  | rsa15 | rsaOaep | rsaOaep256
  | unknownAlgorithm
  deriving DecidableEq, Repr

def JwsAlg.fromJwtKeyAlg : KeyAlgorithm → Option JwsAlg
  | .ps256 => some .ps256
  | .es256 => some .es256
  | _ => none

def JwsAlg.toJwtAlgorithm : JwsAlg → Algorithm
  | .ps256 => .ps256
  | .es256 => .es256

inductive EllipticCurve where
  | p256 | p384 | p521 | ed25519
  deriving DecidableEq, Repr

/-- Parameters of a key by its type `kty`, still in their base64url texts. -/
inductive AlgorithmParameters where
  | ellipticCurve (curve : EllipticCurve) (x y : String)
  | rsa (n e : String)
  | octetKey (value : String)
  | octetKeyPair (curve : EllipticCurve) (x : String)
  deriving DecidableEq, Repr

structure RawJwk where
  keyAlgorithm : Option KeyAlgorithm
  keyId : Option String
  algorithm : AlgorithmParameters
  deriving DecidableEq, Repr

abbrev JwkSet := List RawJwk

structure Jwk where
  kid : Option String
  alg : JwsAlg
  thumbprint : Bytes32
  jwk : RawJwk
  deriving DecidableEq

structure Jwks where
  byKid : AList (fun _ : String => Jwk)
  byThumbprint : AList (fun _ : Bytes32 => Jwk)
  keyless : List Jwk

instance : DecidableEq Jwks := fun a b =>
  decidable_of_iff (a.byKid.entries = b.byKid.entries ∧
      a.byThumbprint.entries = b.byThumbprint.entries ∧ a.keyless = b.keyless) (by
    cases a
    cases b
    simp [AList.ext_iff])

def Jwks.empty : Jwks := ⟨∅, ∅, []⟩

def Jwks.isEmpty (jwks : Jwks) : Bool := jwks.byKid.entries.isEmpty && jwks.keyless.isEmpty

def Jwks.iterThumbprints (jwks : Jwks) : List Bytes32 := jwks.byThumbprint.keys

/-- A key named by the header is the only candidate; otherwise the keys without
    a name are tried. -/
def Jwks.lookupCandidates (jwks : Jwks) (kid : Option String) : List Jwk :=
  match kid.bind fun k => jwks.byKid.lookup k with
  | some found => [found]
  | none => jwks.keyless

inductive JwkThumbprintInput where
  | rsa (n e : Bytes)
  | ecP256 (x y : Bytes32)

def canonicalJson : JwkThumbprintInput → String
  | .rsa n e => "\x7b\"e\":\"" ++ base64urlEncode e ++ "\",\"kty\":\"RSA\",\"n\":\"" ++
      base64urlEncode n ++ "\"\x7d"
  | .ecP256 x y => "\x7b\"crv\":\"P-256\",\"kty\":\"EC\",\"x\":\"" ++ base64urlEncode x.val ++
      "\",\"y\":\"" ++ base64urlEncode y.val ++ "\"\x7d"

def jwkThumbprint (input : JwkThumbprintInput) : Bytes32 := sha256 (utf8 (canonicalJson input))

inductive JwksFetchError where
  | http
  | badStatus (status : Nat)
  | parse
  | empty
  | unsupportedCurve
  | invalidEcCoordinate (len : Nat)
  | base64Decode
  deriving DecidableEq, Repr

/-- How a computation of the source can end without a value. -/
inductive Fault (E : Type) where
  | error (e : E)
  | panicked
  deriving DecidableEq, Repr

theorem left_size {x y : Bytes} (sizes : x.length = 32 ∧ y.length = 32) : x.length = 32 := sizes.1

theorem right_size {x y : Bytes} (sizes : x.length = 32 ∧ y.length = 32) : y.length = 32 := sizes.2

def computeThumbprint (jwk : RawJwk) : Except (Fault JwksFetchError) Bytes32 :=
  match jwk.algorithm with
  | .ellipticCurve curve xText yText => do
    rejectIf (curve ≠ .p256) (.error .unsupportedCurve)
    let x ← okOr (base64urlDecode xText) (.error .base64Decode)
    let y ← okOr (base64urlDecode yText) (.error .base64Decode)
    if sizes : x.length = 32 ∧ y.length = 32 then
      return jwkThumbprint (.ecP256 ⟨x, left_size sizes⟩ ⟨y, right_size sizes⟩)
    else .error (.error (.invalidEcCoordinate (max x.length y.length)))
  | .rsa nText eText => do
    let n ← okOr (base64urlDecode nText) (.error .base64Decode)
    let e ← okOr (base64urlDecode eText) (.error .base64Decode)
    return jwkThumbprint (.rsa n e)
  -- The source marks these arms unreachable.
  | .octetKey _ | .octetKeyPair _ _ => .error .panicked

inductive Decodes (jwk : RawJwk) : JwkThumbprintInput → Prop where
  | rsa {nText eText : String} {n e : Bytes} (typed : jwk.algorithm = .rsa nText eText)
      (modulus : base64urlDecode nText = some n) (exponent : base64urlDecode eText = some e) :
      Decodes jwk (.rsa n e)
  | ecP256 {xText yText : String} {x y : Bytes32} (typed : jwk.algorithm = .ellipticCurve .p256 xText yText)
      (first : base64urlDecode xText = some x.val) (second : base64urlDecode yText = some y.val) :
      Decodes jwk (.ecP256 x y)

section Keys
variable {jwk : RawJwk} {thumbprint : Bytes32}

theorem computeThumbprint_ok_iff :
    computeThumbprint jwk = .ok thumbprint ↔ ∃ input, Decodes jwk input ∧ jwkThumbprint input = thumbprint := by
  constructor
  · intro computed
    unfold computeThumbprint at computed
    cases parameters : jwk.algorithm with
    | rsa nText eText =>
      simp only [parameters, bind_ok_iff, okOr_ok_iff, pure_ok_iff] at computed
      obtain ⟨n,modulus,e,exponent,rfl⟩ := computed
      exact ⟨.rsa n e,.rsa parameters modulus exponent,rfl⟩
    | ellipticCurve curve xText yText =>
      simp only [parameters, bind_ok_iff, okOr_ok_iff, rejectIf_ok_iff, not_not, checked_ok_iff]
        at computed
      obtain ⟨_,supported,x,first,y,second,sizes,rfl⟩ := computed
      subst supported
      exact ⟨_,.ecP256 parameters first second,rfl⟩
    | octetKey | octetKeyPair =>
      rw [parameters] at computed
      cases computed
  · rintro ⟨input,decodes,rfl⟩
    unfold computeThumbprint
    cases decodes with
    | rsa typed modulus exponent =>
      simp only [typed, bind_ok_iff, okOr_ok_iff, pure_ok_iff]
      exact ⟨_,modulus,_,exponent,rfl⟩
    | @ecP256 _ _ x y typed first second =>
      simp only [typed, bind_ok_iff, okOr_ok_iff, rejectIf_ok_iff, not_not, checked_ok_iff]
      exact ⟨(),trivial,_,first,_,second,⟨x.property,y.property⟩,rfl⟩

end Keys

theorem decodes_unique {jwk : RawJwk} {input other : JwkThumbprintInput} (first : Decodes jwk input)
    (second : Decodes jwk other) : input = other := by
  cases first with
  | rsa typed modulus exponent =>
    cases second with
    | rsa typed' modulus' exponent' =>
      cases typed.symm.trans typed'
      cases modulus.symm.trans modulus'
      cases exponent.symm.trans exponent'
      rfl
    | ecP256 typed' => cases typed.symm.trans typed'
  | @ecP256 _ _ x y typed left right =>
    cases second with
    | rsa typed' => cases typed.symm.trans typed'
    | @ecP256 _ _ x' y' typed' left' right' =>
      cases typed.symm.trans typed'
      have xs : x = x' := Subtype.ext (Option.some.inj (left.symm.trans left'))
      have ys : y = y' := Subtype.ext (Option.some.inj (right.symm.trans right'))
      rw [xs, ys]

def addKey (jwks : Jwks) (raw : RawJwk) : Except (Fault JwksFetchError) Jwks :=
  match raw.keyAlgorithm.bind JwsAlg.fromJwtKeyAlg with
  | none => .ok jwks
  | some alg => do
    let thumbprint ← computeThumbprint raw
    let entry : Jwk := ⟨raw.keyId, alg, thumbprint, raw⟩
    let byThumbprint := jwks.byThumbprint.insert thumbprint entry
    match raw.keyId with
    | some k => return { jwks with byThumbprint, byKid := jwks.byKid.insert k entry }
    | none => return { jwks with byThumbprint, keyless := jwks.keyless ++ [entry] }

def parseJwks (raw : JwkSet) : Except (Fault JwksFetchError) Jwks := do
  let jwks ← raw.foldlM addKey Jwks.empty
  rejectIf (jwks.isEmpty = true) (.error .empty)
  return jwks

/-- How an HTTP request ends. The document is absent when the body is not JSON
    of the expected shape. -/
inductive HttpOutcome (Document : Type) where
  | failed
  | responded (status : Nat) (document : Option Document)
  deriving DecidableEq, Repr

def fetchJwks : HttpOutcome JwkSet → Except (Fault JwksFetchError) Jwks
  | .failed => .error (.error .http)
  | .responded status document => do
    rejectIf (status < 200 ∨ 300 ≤ status) (.error (.badStatus status))
    let raw ← okOr document (.error .parse)
    parseJwks raw

end SigningKeys
