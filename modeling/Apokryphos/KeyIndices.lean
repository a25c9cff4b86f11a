import Apokryphos.OverwritingIndex
import Apokryphos.SigningKeys

/-!
What the parser of a key set makes of the set. It stops at the first usable key
without a thumbprint; otherwise every usable key is filed under its name and
under its thumbprint, where a later key takes the place of an earlier one, or
among the keys without a name. From this follow which sets stop the process,
which keys of the wrong type get in, and which usable keys get lost.
-/
namespace KeyIndices
open Digests Outcomes OverwritingIndex SigningKeys

def declared (raw : RawJwk) : Option JwsAlg := raw.keyAlgorithm.bind JwsAlg.fromJwtKeyAlg

def Usable (raw : RawJwk) : Prop := (declared raw).isSome = true

def entryOf (raw : RawJwk) : Option Jwk :=
  match declared raw, computeThumbprint raw with
  | some alg, .ok thumbprint => some ⟨raw.keyId, alg, thumbprint, raw⟩
  | _, _ => none

def file (jwks : Jwks) (entry : Jwk) : Jwks where
  byKid := enter Jwk.kid jwks.byKid entry
  byThumbprint := enter (fun e => some e.thumbprint) jwks.byThumbprint entry
  keyless := jwks.keyless ++ [entry].filter fun e => e.kid.isNone

def filed (entries : List Jwk) : Jwks where
  byKid := indexed Jwk.kid entries
  byThumbprint := indexed (fun e => some e.thumbprint) entries
  keyless := entries.filter fun e => e.kid.isNone

theorem foldl_file (entries : List Jwk) : entries.foldl file Jwks.empty = filed entries := by
  induction entries using List.reverseRecOn with
  | nil => rfl
  | append_singleton entries e ih =>
    rw [List.foldl_append, ih, List.foldl_cons, List.foldl_nil]
    unfold file filed
    rw [indexed_snoc, indexed_snoc, List.filter_append]

theorem addKey_skips {jwks : Jwks} {raw : RawJwk} (skipped : ¬ Usable raw) :
    addKey jwks raw = .ok jwks := by
  have none : declared raw = none := by simpa [Usable] using skipped
  unfold declared at none
  simp only [addKey, none]

theorem addKey_files {jwks : Jwks} {raw : RawJwk} {alg : JwsAlg} {thumbprint : Bytes32}
    (kept : declared raw = some alg) (computed : computeThumbprint raw = .ok thumbprint) :
    addKey jwks raw = .ok (file jwks ⟨raw.keyId, alg, thumbprint, raw⟩) := by
  unfold declared at kept
  simp only [addKey, kept, computed]
  unfold file enter
  cases name : raw.keyId with
  | none => rfl
  | some kid => simp [Bind.bind, Except.bind, Pure.pure, Except.pure]

theorem addKey_fails {jwks : Jwks} {raw : RawJwk} {fault : Fault JwksFetchError}
    (kept : Usable raw) (failed : computeThumbprint raw = .error fault) :
    addKey jwks raw = .error fault := by
  obtain ⟨alg,known⟩ := Option.isSome_iff_exists.mp kept
  unfold declared at known
  simp only [addKey, known, failed]
  rfl

theorem entryOf_some {raw : RawJwk} {entry : Jwk} : entryOf raw = some entry ↔
    ∃ alg thumbprint, declared raw = some alg ∧ computeThumbprint raw = .ok thumbprint ∧
      entry = ⟨raw.keyId, alg, thumbprint, raw⟩ := by
  unfold entryOf
  cases kept : declared raw with
  | none => simp
  | some alg =>
    cases computed : computeThumbprint raw with
    | error fault => simp
    | ok thumbprint => simp [eq_comm]

def Computable (raw : JwkSet) : Prop :=
  ∀ k ∈ raw, Usable k → ∃ thumbprint, computeThumbprint k = .ok thumbprint

def Stops (raw : JwkSet) (fault : Fault JwksFetchError) : Prop :=
  ∃ front k rest, raw = front ++ k :: rest ∧ Usable k ∧ computeThumbprint k = .error fault ∧
    Computable front

theorem computable_nil : Computable [] := by
  simp [Computable]

theorem computable_cons {k : RawJwk} {rest : JwkSet} :
    Computable (k :: rest) ↔
      (Usable k → ∃ thumbprint, computeThumbprint k = .ok thumbprint) ∧ Computable rest := by
  unfold Computable
  exact List.forall_mem_cons

theorem stops_cons {k : RawJwk} {rest : JwkSet} {fault : Fault JwksFetchError} :
    Stops (k :: rest) fault ↔ (Usable k ∧ computeThumbprint k = .error fault) ∨
      ((Usable k → ∃ thumbprint, computeThumbprint k = .ok thumbprint) ∧ Stops rest fault) := by
  constructor
  · rintro ⟨front,k',rest',split,kept,failed,before⟩
    cases front with
    | nil =>
      cases split
      exact .inl ⟨kept,failed⟩
    | cons first others =>
      cases split
      obtain ⟨head,tail⟩ := computable_cons.mp before
      exact .inr ⟨head,others,k',rest',rfl,kept,failed,tail⟩
  · rintro (⟨kept,failed⟩ | ⟨head,front,k',rest',rfl,kept,failed,before⟩)
    · exact ⟨[],k,rest,rfl,kept,failed,computable_nil⟩
    · exact ⟨k :: front,k',rest',rfl,kept,failed,computable_cons.mpr ⟨head,before⟩⟩

/-- The whole loop: it stops at the first usable key without a thumbprint, or
    files the entries of all. -/
theorem foldlM_addKey (raw : JwkSet) (jwks : Jwks) :
    (∃ fault, raw.foldlM addKey jwks = .error fault ∧ Stops raw fault ∧ ¬ Computable raw) ∨
    (raw.foldlM addKey jwks = .ok ((raw.filterMap entryOf).foldl file jwks) ∧ Computable raw) := by
  induction raw generalizing jwks with
  | nil => exact .inr ⟨rfl,computable_nil⟩
  | cons k rest ih =>
    rw [List.foldlM_cons, computable_cons]
    by_cases kept : Usable k
    · cases computed : computeThumbprint k with
      | error fault =>
        rw [addKey_fails kept computed]
        refine .inl ⟨fault,rfl,stops_cons.mpr (.inl ⟨kept,computed⟩),?_⟩
        rintro ⟨head,_⟩
        obtain ⟨_,impossible⟩ := head kept
        cases impossible
      | ok thumbprint =>
        obtain ⟨alg,known⟩ := Option.isSome_iff_exists.mp kept
        have entry := entryOf_some.mpr ⟨alg,thumbprint,known,computed,rfl⟩
        rw [addKey_files known computed, List.filterMap_cons_some entry, List.foldl_cons]
        rcases ih (file jwks ⟨k.keyId, alg, thumbprint, k⟩) with ⟨fault,failed,stops,not⟩ | ⟨done,all⟩
        · exact .inl ⟨fault,failed,stops_cons.mpr (.inr ⟨fun _ => ⟨_,computed⟩,stops⟩),fun both => not both.2⟩
        · exact .inr ⟨done,fun _ => ⟨_,rfl⟩,all⟩
    · have none : entryOf k = none := by
        rw [Option.eq_none_iff_forall_ne_some]
        intro entry found
        obtain ⟨alg,_,known,_⟩ := entryOf_some.mp found
        exact kept (by unfold Usable; rw [known]; rfl)
      rw [addKey_skips kept, List.filterMap_cons_none none]
      rcases ih jwks with ⟨fault,failed,stops,not⟩ | ⟨done,all⟩
      · exact .inl ⟨fault,failed,stops_cons.mpr (.inr ⟨fun usable => absurd usable kept,stops⟩),
          fun both => not both.2⟩
      · exact .inr ⟨done,fun usable => absurd usable kept,all⟩

theorem filed_isEmpty {entries : List Jwk} : (filed entries).isEmpty = true ↔ entries = [] := by
  constructor
  · intro empty
    unfold Jwks.isEmpty at empty
    rw [Bool.and_eq_true, List.isEmpty_iff, List.isEmpty_iff] at empty
    obtain ⟨noName,noKeyless⟩ := empty
    rw [List.eq_nil_iff_forall_not_mem]
    intro e member
    cases name : e.kid with
    | none =>
      have inside : e ∈ (filed entries).keyless := List.mem_filter.mpr ⟨member,by rw [name]; rfl⟩
      rw [noKeyless] at inside
      cases inside
    | some kid =>
      have inside : kid ∈ (filed entries).byKid := mem_indexed.mpr ⟨e,member,name⟩
      rw [AList.mem_keys, AList.keys, noName] at inside
      cases inside
  · rintro rfl
    rfl

theorem parseJwks_ok {raw : JwkSet} {jwks : Jwks} : parseJwks raw = .ok jwks ↔
    Computable raw ∧ raw.filterMap entryOf ≠ [] ∧ jwks = filed (raw.filterMap entryOf) := by
  unfold parseJwks
  rcases foldlM_addKey raw Jwks.empty with ⟨fault,failed,_,not⟩ | ⟨done,all⟩
  · rw [failed]
    constructor
    · intro impossible
      cases impossible
    · rintro ⟨all,_⟩
      exact absurd all not
  · rw [done, foldl_file]
    simp only [bind_ok_iff, rejectIf_ok_iff, pure_ok_iff, Except.ok.injEq]
    constructor
    · rintro ⟨_,rfl,_,nonempty,rfl⟩
      exact ⟨all,fun empty => nonempty (filed_isEmpty.mpr empty),rfl⟩
    · rintro ⟨_,nonempty,rfl⟩
      exact ⟨_,rfl,(),fun empty => nonempty (filed_isEmpty.mp empty),rfl⟩

/-- The key types for which the source has no thumbprint. -/
def Octets (raw : RawJwk) : Prop :=
  (∃ value, raw.algorithm = .octetKey value) ∨ ∃ curve x, raw.algorithm = .octetKeyPair curve x

def Malformed (raw : RawJwk) : Prop :=
  (∃ curve x y, raw.algorithm = .ellipticCurve curve x y ∧
    ¬ (curve = .p256 ∧ ∃ xs ys, base64urlDecode x = some xs ∧ base64urlDecode y = some ys ∧
      xs.length = 32 ∧ ys.length = 32)) ∨
  ∃ n e, raw.algorithm = .rsa n e ∧ (base64urlDecode n = none ∨ base64urlDecode e = none)

theorem octets_panic {raw : RawJwk} (octets : Octets raw) : computeThumbprint raw = .error .panicked := by
  unfold computeThumbprint
  rcases octets with ⟨value,parameters⟩ | ⟨curve,x,parameters⟩
  · simp only [parameters]
  · simp only [parameters]

theorem panics_octets {raw : RawJwk} (panics : computeThumbprint raw = .error .panicked) : Octets raw := by
  unfold computeThumbprint at panics
  cases parameters : raw.algorithm with
  | octetKey value => exact .inl ⟨value,parameters⟩
  | octetKeyPair curve x => exact .inr ⟨curve,x,parameters⟩
  | rsa n e =>
    simp only [parameters, bind_error_iff, okOr_error_iff, pure_error_iff, reduceCtorEq, and_false,
      exists_const, or_self] at panics
  | ellipticCurve curve x y =>
    simp [parameters, bind_error_iff, okOr_error_iff, rejectIf_error_iff, checked_error_iff] at panics

theorem malformed_iff {raw : RawJwk} (typed : ¬ Octets raw) :
    Malformed raw ↔ ¬ ∃ input, Decodes raw input := by
  cases parameters : raw.algorithm with
  | octetKey value => exact absurd (.inl ⟨value,parameters⟩) typed
  | octetKeyPair curve x => exact absurd (.inr ⟨curve,x,parameters⟩) typed
  | rsa n e =>
    constructor
    · rintro (⟨_,_,_,other,_⟩ | ⟨n',e',same,missing⟩) ⟨input,decodes⟩
      · cases parameters.symm.trans other
      · cases decodes with
        | rsa found modulus exponent =>
          cases same.symm.trans found
          simp [modulus, exponent] at missing
        | ecP256 found => cases parameters.symm.trans found
    · intro undecoded
      refine .inr ⟨n,e,parameters,?_⟩
      cases modulus : base64urlDecode n with
      | none => exact .inl rfl
      | some ns =>
        cases exponent : base64urlDecode e with
        | none => exact .inr rfl
        | some es => exact absurd ⟨_,.rsa parameters modulus exponent⟩ undecoded
  | ellipticCurve curve x y =>
    constructor
    · rintro (⟨curve',x',y',same,bad⟩ | ⟨_,_,other,_⟩) ⟨input,decodes⟩
      · cases decodes with
        | rsa found => cases parameters.symm.trans found
        | @ecP256 _ _ xs ys found first second =>
          cases same.symm.trans found
          exact bad ⟨rfl,xs,ys,first,second,xs.property,ys.property⟩
      · cases parameters.symm.trans other
    · intro undecoded
      refine .inl ⟨curve,x,y,parameters,?_⟩
      rintro ⟨rfl,xs,ys,first,second,long,long'⟩
      exact undecoded ⟨.ecP256 ⟨xs,long⟩ ⟨ys,long'⟩,.ecP256 parameters first second⟩

theorem computeThumbprint_cases (raw : RawJwk) :
    (Octets raw ∧ computeThumbprint raw = .error .panicked) ∨
    (¬ Octets raw ∧ Malformed raw ∧ ∃ failure, computeThumbprint raw = .error (.error failure)) ∨
    (¬ Octets raw ∧ ¬ Malformed raw ∧ ∃ thumbprint, computeThumbprint raw = .ok thumbprint) := by
  by_cases octets : Octets raw
  · exact .inl ⟨octets,octets_panic octets⟩
  · rw [malformed_iff octets]
    cases computed : computeThumbprint raw with
    | ok thumbprint =>
      obtain ⟨input,decodes,_⟩ := computeThumbprint_ok_iff.mp computed
      exact .inr (.inr ⟨octets,not_not.mpr ⟨input,decodes⟩,thumbprint,rfl⟩)
    | error fault =>
      have undecoded : ¬ ∃ input, Decodes raw input := by
        rintro ⟨input,decodes⟩
        have succeeds := computeThumbprint_ok_iff.mpr ⟨input,decodes,rfl⟩
        rw [computed] at succeeds
        cases succeeds
      cases fault with
      | panicked => exact absurd (panics_octets computed) octets
      | error failure => exact .inr (.inl ⟨octets,undecoded,failure,rfl⟩)

theorem malformed_errs {raw : RawJwk} {failure : JwksFetchError}
    (failed : computeThumbprint raw = .error (.error failure)) : Malformed raw := by
  rcases computeThumbprint_cases raw with ⟨_,panics⟩ | ⟨_,bad,_⟩ | ⟨_,_,_,computed⟩
  · rw [panics] at failed
    cases failed
  · exact bad
  · rw [computed] at failed
    cases failed

theorem computable_iff {raw : JwkSet} :
    Computable raw ↔ ∀ k ∈ raw, Usable k → ¬ Octets k ∧ ¬ Malformed k := by
  constructor
  · intro all k member kept
    obtain ⟨_,computed⟩ := all k member kept
    rcases computeThumbprint_cases k with ⟨_,panics⟩ | ⟨_,_,_,failed⟩ | ⟨typed,good,_⟩
    · rw [computed] at panics
      cases panics
    · rw [computed] at failed
      cases failed
    · exact ⟨typed,good⟩
  · intro all k member kept
    obtain ⟨typed,good⟩ := all k member kept
    rcases computeThumbprint_cases k with ⟨octets,_⟩ | ⟨_,bad,_⟩ | ⟨_,_,computed⟩
    · exact absurd octets typed
    · exact absurd bad good
    · exact computed

theorem split_order {α : Type} {front rest front' rest' : List α} {k k' : α}
    (split : front ++ k :: rest = front' ++ k' :: rest') : k ∈ front' ∨ k = k' ∨ k' ∈ front := by
  rcases List.append_eq_append_iff.mp split with ⟨between,rfl,tail⟩ | ⟨between,rfl,tail⟩
  · cases between with
    | nil =>
      cases tail
      exact .inr (.inl rfl)
    | cons first others =>
      cases tail
      exact .inl (by simp)
  · cases between with
    | nil =>
      cases tail
      exact .inr (.inl rfl)
    | cons first others =>
      cases tail
      exact .inr (.inr (by simp))

/-- Before every usable octet key a malformed one ends the loop. -/
def Guarded (raw : JwkSet) : Prop :=
  ∀ front k rest, raw = front ++ k :: rest → Usable k → Octets k → ∃ e ∈ front, Usable e ∧ Malformed e

theorem parseJwks_panics {raw : JwkSet} : parseJwks raw ≠ .error .panicked ↔ Guarded raw := by
  unfold parseJwks
  rcases foldlM_addKey raw Jwks.empty with ⟨fault,failed,stops,_⟩ | ⟨done,all⟩
  · obtain ⟨before,first,after,split,kept,cause,computed⟩ := stops
    rw [failed]
    constructor
    · intro returned front k rest split' kept' octets
      cases fault with
      | panicked => exact absurd rfl returned
      | error failure =>
        have bad := malformed_errs cause
        rcases split_order (split'.symm.trans split) with earlier | same | later
        · exact absurd octets (computable_iff.mp computed k earlier kept').1
        · rw [← same, octets_panic octets] at cause
          cases cause
        · exact ⟨first,later,kept,bad⟩
    · intro guarded stopped
      have same : fault = .panicked := by
        cases stopped
        rfl
      subst same
      have octets : Octets first := by
        rcases computeThumbprint_cases first with ⟨octets,_⟩ | ⟨_,_,_,other⟩ | ⟨_,_,_,other⟩
        · exact octets
        · rw [cause] at other
          cases other
        · rw [cause] at other
          cases other
      obtain ⟨e,member,usable,bad⟩ := guarded before first after split kept octets
      exact (computable_iff.mp computed e member usable).2 bad
  · rw [done]
    constructor
    · intro _ front k rest split kept octets
      exact absurd octets (computable_iff.mp all k (by simp [split]) kept).1
    · intro _ stopped
      simp only [rejectIf, Bind.bind, Except.bind] at stopped
      split at stopped
      · rename_i outcome
        split at outcome
        · cases outcome
          cases stopped
        · cases outcome
      · cases stopped

/-- What the algorithms stand for: ES256 is P-256 with two coordinates of 32
    bytes, PS256 is RSA. -/
structure WellTyped (raw : RawJwk) : Prop where
  elliptic : raw.keyAlgorithm = some .es256 → ∃ x y xs ys, raw.algorithm = .ellipticCurve .p256 x y ∧
    base64urlDecode x = some xs ∧ base64urlDecode y = some ys ∧ xs.length = 32 ∧ ys.length = 32
  rsa : raw.keyAlgorithm = some .ps256 → ∃ n e, raw.algorithm = .rsa n e

def Holds (jwks : Jwks) (key : Jwk) : Prop :=
  (∃ kid, jwks.byKid.lookup kid = some key) ∨
  (∃ thumbprint, jwks.byThumbprint.lookup thumbprint = some key) ∨ key ∈ jwks.keyless

/-- Later usable keys take the place of this one in both maps. -/
def Replaced (k : RawJwk) (rest : JwkSet) : Prop :=
  (∃ kid, k.keyId = some kid ∧ ∃ later ∈ rest, Usable later ∧ later.keyId = some kid) ∧
  ∃ later ∈ rest, Usable later ∧ computeThumbprint later = computeThumbprint k

theorem entry_split {raw : JwkSet} {front rest : List Jwk} {entry : Jwk}
    (split : raw.filterMap entryOf = front ++ entry :: rest) :
    ∃ before k after, raw = before ++ k :: after ∧ entryOf k = some entry ∧
      after.filterMap entryOf = rest := by
  obtain ⟨first,second,rfl,_,tail⟩ := List.filterMap_eq_append_iff.mp split
  obtain ⟨skipped,k,after,rfl,_,found,rest⟩ := List.filterMap_eq_cons_iff.mp tail
  exact ⟨first ++ skipped,k,after,by rw [List.append_assoc],found,rest⟩

theorem split_entry {before after : JwkSet} {k : RawJwk} {entry : Jwk} (found : entryOf k = some entry) :
    (before ++ k :: after).filterMap entryOf =
      before.filterMap entryOf ++ entry :: after.filterMap entryOf := by
  rw [List.filterMap_append, List.filterMap_cons_some found]

theorem entry_usable {k : RawJwk} {entry : Jwk} (found : entryOf k = some entry) :
    Usable k ∧ entry.jwk = k ∧ entry.kid = k.keyId ∧ computeThumbprint k = .ok entry.thumbprint := by
  obtain ⟨alg,thumbprint,known,computed,rfl⟩ := entryOf_some.mp found
  exact ⟨by unfold Usable; rw [known]; rfl,rfl,rfl,computed⟩

theorem usable_entry {raw : JwkSet} (all : Computable raw) {k : RawJwk} (member : k ∈ raw)
    (kept : Usable k) : ∃ entry, entryOf k = some entry := by
  obtain ⟨thumbprint,computed⟩ := all k member kept
  obtain ⟨alg,known⟩ := Option.isSome_iff_exists.mp kept
  exact ⟨_,entryOf_some.mpr ⟨alg,thumbprint,known,computed,rfl⟩⟩

theorem last_or_later {K : Type} (key : Jwk → Option K) {before after : JwkSet} {k : RawJwk}
    {entry : Jwk} (found : entryOf k = some entry) {name : K} (own : key entry = some name) :
    Last key ((before ++ k :: after).filterMap entryOf) name entry ∨
      ∃ later ∈ after, ∃ entry', entryOf later = some entry' ∧ key entry' = some name := by
  by_cases again : ∃ entry' ∈ after.filterMap entryOf, key entry' = some name
  · obtain ⟨entry',member,same⟩ := again
    obtain ⟨later,inside,found'⟩ := List.mem_filterMap.mp member
    exact .inr ⟨later,inside,entry',found',same⟩
  · refine .inl ⟨before.filterMap entryOf,after.filterMap entryOf,split_entry found,own,?_⟩
    intro later member same
    exact again ⟨later,member,same⟩

theorem last_split {K : Type} {key : Jwk → Option K} {raw : JwkSet} {name : K} {entry : Jwk}
    (last : Last key (raw.filterMap entryOf) name entry) :
    ∃ before k after, raw = before ++ k :: after ∧ entryOf k = some entry ∧ key entry = some name ∧
      ∀ later ∈ after, ∀ entry', entryOf later = some entry' → key entry' ≠ some name := by
  obtain ⟨front,rest,split,own,final⟩ := last
  obtain ⟨before,k,after,whole,found,tail⟩ := entry_split split
  refine ⟨before,k,after,whole,found,own,?_⟩
  intro later member entry' found'
  apply final
  rw [← tail]
  exact List.mem_filterMap.mpr ⟨later,member,found'⟩

theorem typed_iff {raw : JwkSet} (all : Computable raw) :
    (∀ key, Holds (filed (raw.filterMap entryOf)) key → WellTyped key.jwk) ↔
      ∀ front k rest, raw = front ++ k :: rest → Usable k → WellTyped k ∨ Replaced k rest := by
  constructor
  · intro typed front k rest split kept
    subst split
    obtain ⟨entry,found⟩ := usable_entry all (by simp) kept
    obtain ⟨_,same,name,computed⟩ := entry_usable found
    by_cases well : WellTyped k
    · exact .inl well
    · have hidden : ¬ Holds (filed ((front ++ k :: rest).filterMap entryOf)) entry := by
        intro held
        exact well (same ▸ typed entry held)
      refine .inr ⟨?_,?_⟩
      · cases own : k.keyId with
        | none =>
          refine absurd (.inr (.inr (List.mem_filter.mpr ⟨?_,?_⟩))) hidden
          · rw [split_entry found]
            simp
          · rw [name, own]
            rfl
        | some kid =>
          refine ⟨kid,rfl,?_⟩
          rcases last_or_later Jwk.kid found (name.trans own) with last | ⟨later,inside,e,found',again⟩
          · exact absurd (.inl ⟨kid,lookup_indexed.mpr last⟩) hidden
          · obtain ⟨usable,_,named,_⟩ := entry_usable found'
            exact ⟨later,inside,usable,named.symm.trans again⟩
      · rcases last_or_later (fun e => some e.thumbprint) found rfl with last | ⟨later,inside,e,found',again⟩
        · exact absurd (.inr (.inl ⟨_,lookup_indexed.mpr last⟩)) hidden
        · obtain ⟨usable,_,_,computed'⟩ := entry_usable found'
          exact ⟨later,inside,usable,by rw [computed, computed', Option.some.inj again]⟩
  · intro replaced key held
    -- in each index the surviving key is one that nothing later replaced
    rcases held with ⟨kid,found⟩ | ⟨thumbprint,found⟩ | member
    · obtain ⟨before,k,after,rfl,entry,own,final⟩ := last_split (lookup_indexed.mp found)
      obtain ⟨kept,same,name,_⟩ := entry_usable entry
      rw [same]
      rcases replaced before k after rfl kept with well | ⟨⟨kid',own',later,inside,usable,again⟩,_⟩
      · exact well
      · obtain ⟨e,found'⟩ := usable_entry all (by simp [inside]) usable
        obtain ⟨_,_,named,_⟩ := entry_usable found'
        exact absurd (by rw [named, again, ← own', ← name, own]) (final later inside e found')
    · obtain ⟨before,k,after,rfl,entry,own,final⟩ := last_split (lookup_indexed.mp found)
      obtain ⟨kept,same,_,computed⟩ := entry_usable entry
      rw [same]
      rcases replaced before k after rfl kept with well | ⟨_,later,inside,usable,again⟩
      · exact well
      · obtain ⟨e,found'⟩ := usable_entry all (by simp [inside]) usable
        obtain ⟨_,_,_,computed'⟩ := entry_usable found'
        rw [computed, computed', Except.ok.injEq] at again
        exact absurd (by rw [again]; exact own) (final later inside e found')
    · obtain ⟨inside,keyless⟩ := List.mem_filter.mp member
      obtain ⟨k,listed,entry⟩ := List.mem_filterMap.mp inside
      obtain ⟨kept,same,name,_⟩ := entry_usable entry
      obtain ⟨front,rest,rfl⟩ := List.append_of_mem listed
      rw [same]
      rcases replaced front k rest rfl kept with well | ⟨⟨kid,own,_⟩,_⟩
      · exact well
      · rw [name, own] at keyless
        cases keyless

/-- The parser returns and admits only keys of the type their algorithm asks
    for, exactly if no usable octet key is reached and every other usable key of
    the wrong type is replaced, in both maps, before the set is done. -/
theorem parse_typed_iff (raw : JwkSet) :
    (parseJwks raw ≠ .error .panicked ∧
      ∀ jwks, parseJwks raw = .ok jwks → ∀ key, Holds jwks key → WellTyped key.jwk) ↔
    Guarded raw ∧ ((∀ k ∈ raw, Usable k → ¬ Malformed k) →
      ∀ front k rest, raw = front ++ k :: rest → Usable k → WellTyped k ∨ Replaced k rest) := by
  rw [parseJwks_panics]
  refine and_congr_right fun guarded => ?_
  constructor
  · intro typed well front k rest split kept
    have all : Computable raw := by
      rw [computable_iff]
      intro k member kept
      refine ⟨?_,well k member kept⟩
      intro octets
      obtain ⟨front,rest,split⟩ := List.append_of_mem member
      obtain ⟨e,inside,usable,bad⟩ := guarded front k rest split kept octets
      exact well e (by simp [split, inside]) usable bad
    refine (typed_iff all).mp ?_ front k rest split kept
    obtain ⟨entry,found⟩ := usable_entry all (by simp [split]) kept
    refine typed _ (parseJwks_ok.mpr ⟨all,?_,rfl⟩)
    intro empty
    have member : entry ∈ raw.filterMap entryOf := List.mem_filterMap.mpr ⟨k,by simp [split],found⟩
    rw [empty] at member
    cases member
  · intro replaced jwks parsed
    obtain ⟨all,_,rfl⟩ := parseJwks_ok.mp parsed
    apply (typed_iff all).mpr
    exact replaced fun k member kept => (computable_iff.mp all k member kept).2

def rsaKey (alg : KeyAlgorithm) (kid : Option String) (modulus : String) : RawJwk :=
  ⟨some alg, kid, .rsa modulus "AQAB"⟩

theorem rsaKey_computable {alg : KeyAlgorithm} {kid : Option String} {modulus : String} {bytes : Bytes}
    (read : base64urlDecode modulus = some bytes) :
    ¬ Octets (rsaKey alg kid modulus) ∧ ¬ Malformed (rsaKey alg kid modulus) := by
  have exponent : base64urlDecode "AQAB" = some [1, 0, 1] := by decide +kernel
  constructor
  · rintro (⟨_,impossible⟩ | ⟨_,_,impossible⟩) <;> cases impossible
  · rintro (⟨_,_,_,impossible,_⟩ | ⟨n,e,same,missing⟩)
    · cases impossible
    · cases same
      rw [read, exponent] at missing
      rcases missing with impossible | impossible <;> cases impossible

theorem declared_es256_mistyped :
    parseJwks [⟨some .es256, none, .octetKey "AAAA"⟩] = .error .panicked ∧
      ∃ jwks key, parseJwks [rsaKey .es256 none "AAAA"] = .ok jwks ∧ Holds jwks key ∧
        ¬ WellTyped key.jwk := by
  have modulus : base64urlDecode "AAAA" = some [0, 0, 0] := by decide +kernel
  have all : Computable [rsaKey .es256 none "AAAA"] := by
    rw [computable_iff]
    intro k member _
    rw [List.mem_singleton.mp member]
    exact rsaKey_computable modulus
  obtain ⟨entry,found⟩ := usable_entry all List.mem_cons_self rfl
  obtain ⟨_,same,name,_⟩ := entry_usable found
  have entries : [rsaKey .es256 none "AAAA"].filterMap entryOf = [entry] := by
    rw [List.filterMap_cons_some found, List.filterMap_nil]
  refine ⟨rfl,_,entry,parseJwks_ok.mpr ⟨all,by rw [entries]; exact List.cons_ne_nil _ _,rfl⟩,?_,?_⟩
  · refine .inr (.inr (List.mem_filter.mpr ⟨by rw [entries]; exact List.mem_cons_self,?_⟩))
    rw [name]
    rfl
  · intro well
    rw [same] at well
    obtain ⟨_,_,_,_,impossible,_⟩ := well.elliptic rfl
    cases impossible

/-- Every usable key comes back for its own name, every key that comes back is a
    usable one of the set, and the keys that come back have exactly the indexed
    thumbprints. -/
structure Complete (raw : JwkSet) (jwks : Jwks) : Prop where
  found : ∀ k ∈ raw, Usable k → ∃ entry ∈ jwks.lookupCandidates k.keyId, entry.jwk = k
  sound : ∀ kid, ∀ entry ∈ jwks.lookupCandidates kid, entry.jwk ∈ raw ∧ Usable entry.jwk
  covered : ∀ thumbprint, thumbprint ∈ jwks.iterThumbprints ↔
    ∃ kid, ∃ entry ∈ jwks.lookupCandidates kid, entry.thumbprint = thumbprint

theorem lookup_named {entries : List Jwk} {kid : String} {entry : Jwk}
    (last : Last Jwk.kid entries kid entry) : (filed entries).lookupCandidates (some kid) = [entry] := by
  have found : (filed entries).byKid.lookup kid = some entry := lookup_indexed.mpr last
  simp only [Jwks.lookupCandidates, Option.bind_some, found]

theorem lookup_entries {entries : List Jwk} {kid : Option String} {entry : Jwk}
    (found : entry ∈ (filed entries).lookupCandidates kid) : entry ∈ entries := by
  unfold Jwks.lookupCandidates at found
  split at found
  · rename_i named hit
    obtain ⟨name,_,stored⟩ := Option.bind_eq_some_iff.mp hit
    obtain ⟨front,rest,rfl,_⟩ := lookup_indexed.mp stored
    rw [List.mem_singleton.mp found]
    simp
  · exact (List.mem_filter.mp found).1

theorem mem_iterThumbprints {entries : List Jwk} {thumbprint : Bytes32} :
    thumbprint ∈ (filed entries).iterThumbprints ↔ ∃ entry ∈ entries, entry.thumbprint = thumbprint := by
  have listed := @mem_indexed _ _ _ (fun e : Jwk => some e.thumbprint) entries thumbprint
  rw [AList.mem_keys] at listed
  exact listed.trans (by simp)

theorem candidate_listed {raw : JwkSet} {jwks : Jwks} (parsed : parseJwks raw = .ok jwks)
    {kid : Option String} {entry : Jwk} (offered : entry ∈ jwks.lookupCandidates kid) :
    entry.thumbprint ∈ jwks.iterThumbprints := by
  obtain ⟨_,_,rfl⟩ := parseJwks_ok.mp parsed
  exact mem_iterThumbprints.mpr ⟨entry,lookup_entries offered,rfl⟩

theorem entry_of_mem {raw : JwkSet} {entry : Jwk} (member : entry ∈ raw.filterMap entryOf) :
    entry.jwk ∈ raw ∧ Usable entry.jwk ∧ entryOf entry.jwk = some entry := by
  obtain ⟨k,listed,found⟩ := List.mem_filterMap.mp member
  obtain ⟨kept,same,_⟩ := entry_usable found
  rw [same]
  exact ⟨listed,kept,found⟩

theorem named_candidate {raw : JwkSet} (all : Computable raw) {k : RawJwk} (member : k ∈ raw)
    (kept : Usable k) {kid : String} (name : k.keyId = some kid) :
    ∃ entry, (filed (raw.filterMap entryOf)).lookupCandidates (some kid) = [entry] ∧
      entry.jwk ∈ raw ∧ Usable entry.jwk ∧ entry.jwk.keyId = some kid := by
  obtain ⟨own,found⟩ := usable_entry all member kept
  obtain ⟨_,_,named,_⟩ := entry_usable found
  have present : kid ∈ indexed Jwk.kid (raw.filterMap entryOf) :=
    mem_indexed.mpr ⟨own,List.mem_filterMap.mpr ⟨k,member,found⟩,named.trans name⟩
  obtain ⟨entry,stored⟩ := Option.isSome_iff_exists.mp (AList.lookup_isSome.mpr present)
  have last := lookup_indexed.mp stored
  obtain ⟨before,k',after,rfl,found',own',_⟩ := last_split last
  obtain ⟨kept',same,named',_⟩ := entry_usable found'
  refine ⟨entry,lookup_named last,?_⟩
  rw [same]
  exact ⟨by simp,kept',named'.symm.trans own'⟩

theorem complete_agree {raw : JwkSet} {jwks : Jwks} (parsed : parseJwks raw = .ok jwks)
    (complete : Complete raw jwks) {k k' : RawJwk} (member : k ∈ raw) (member' : k' ∈ raw)
    (kept : Usable k) (kept' : Usable k') (named : k.keyId ≠ none) (same : k.keyId = k'.keyId) :
    k = k' := by
  obtain ⟨all,_,rfl⟩ := parseJwks_ok.mp parsed
  obtain ⟨kid,name⟩ := Option.ne_none_iff_exists'.mp named
  obtain ⟨entry,only,_⟩ := named_candidate all member kept name
  obtain ⟨e,returned,own⟩ := complete.found k member kept
  obtain ⟨e',returned',own'⟩ := complete.found k' member' kept'
  rw [name, only, List.mem_singleton] at returned
  rw [← same, name, only, List.mem_singleton] at returned'
  rw [← own, ← own', returned, returned']

theorem agree_found {raw : JwkSet} (all : Computable raw)
    (agree : ∀ k ∈ raw, ∀ k' ∈ raw, Usable k → Usable k' → k.keyId ≠ none → k.keyId = k'.keyId → k = k')
    {k : RawJwk} (member : k ∈ raw) (kept : Usable k) :
    ∃ entry ∈ (filed (raw.filterMap entryOf)).lookupCandidates k.keyId, entry.jwk = k := by
  cases name : k.keyId with
  | none =>
    obtain ⟨entry,found⟩ := usable_entry all member kept
    obtain ⟨_,same,named,_⟩ := entry_usable found
    refine ⟨entry,List.mem_filter.mpr ⟨List.mem_filterMap.mpr ⟨k,member,found⟩,?_⟩,same⟩
    rw [named, name]
    rfl
  | some kid =>
    obtain ⟨entry,only,listed,usable,named⟩ := named_candidate all member kept name
    refine ⟨entry,by rw [only]; exact List.mem_cons_self,?_⟩
    refine (agree k member entry.jwk listed kept usable ?_ (name.trans named.symm)).symm
    rw [name]
    exact Option.some_ne_none kid

/-- No usable key is lost, exactly if no two different usable keys share a name. -/
theorem complete_iff {raw : JwkSet} {jwks : Jwks} (parsed : parseJwks raw = .ok jwks) :
    Complete raw jwks ↔ ∀ k ∈ raw, ∀ k' ∈ raw, Usable k → Usable k' → k.keyId ≠ none →
      k.keyId = k'.keyId → k = k' := by
  constructor
  · intro complete k member k' member' kept kept' named same
    exact complete_agree parsed complete member member' kept kept' named same
  · intro agree
    obtain ⟨all,_,rfl⟩ := parseJwks_ok.mp parsed
    refine {
      found := fun k member kept => agree_found all agree member kept
      sound := ?_
      covered := ?_ }
    · intro kid entry returned
      obtain ⟨listed,kept,_⟩ := entry_of_mem (lookup_entries returned)
      exact ⟨listed,kept⟩
    · intro thumbprint
      rw [mem_iterThumbprints]
      constructor
      · rintro ⟨entry,member,own⟩
        obtain ⟨listed,kept,found⟩ := entry_of_mem member
        obtain ⟨entry',returned,same⟩ := agree_found all agree listed kept
        obtain ⟨_,_,found'⟩ := entry_of_mem (lookup_entries returned)
        rw [same, found, Option.some.injEq] at found'
        exact ⟨_,entry',returned,by rw [← found', own]⟩
      · rintro ⟨kid,entry,returned,own⟩
        exact ⟨entry,lookup_entries returned,own⟩

theorem two_keys_parsed (kid kid' : Option String) :
    ∃ jwks, parseJwks [rsaKey .ps256 kid "AAAA", rsaKey .ps256 kid' "BBBB"] = .ok jwks := by
  have first : base64urlDecode "AAAA" = some [0, 0, 0] := by decide +kernel
  have second : base64urlDecode "BBBB" = some [4, 16, 65] := by decide +kernel
  have all : Computable [rsaKey .ps256 kid "AAAA", rsaKey .ps256 kid' "BBBB"] := by
    rw [computable_iff]
    intro k member _
    simp only [List.mem_cons, List.not_mem_nil, or_false] at member
    rcases member with rfl | rfl
    · exact rsaKey_computable first
    · exact rsaKey_computable second
  obtain ⟨entry,found⟩ := usable_entry all List.mem_cons_self rfl
  refine ⟨_,parseJwks_ok.mpr ⟨all,?_,rfl⟩⟩
  rw [List.filterMap_cons_some found]
  exact List.cons_ne_nil _ _

theorem complete_two_names :
    ∃ jwks, parseJwks [rsaKey .ps256 (some "a") "AAAA", rsaKey .ps256 (some "b") "BBBB"] = .ok jwks ∧
      Complete [rsaKey .ps256 (some "a") "AAAA", rsaKey .ps256 (some "b") "BBBB"] jwks := by
  obtain ⟨jwks,parsed⟩ := two_keys_parsed (some "a") (some "b")
  refine ⟨jwks,parsed,(complete_iff parsed).mpr ?_⟩
  intro k member k' member' _ _ _ same
  simp only [List.mem_cons, List.not_mem_nil, or_false] at member member'
  rcases member with rfl | rfl <;> rcases member' with rfl | rfl
  · rfl
  · exact absurd same (by decide)
  · exact absurd same (by decide)
  · rfl

theorem shared_name_loses_key :
    ∃ jwks, parseJwks [rsaKey .ps256 (some "a") "AAAA", rsaKey .ps256 (some "a") "BBBB"] = .ok jwks ∧
      ¬ Complete [rsaKey .ps256 (some "a") "AAAA", rsaKey .ps256 (some "a") "BBBB"] jwks := by
  obtain ⟨jwks,parsed⟩ := two_keys_parsed (some "a") (some "a")
  refine ⟨jwks,parsed,?_⟩
  intro complete
  have same := complete_agree parsed complete List.mem_cons_self
    (List.mem_cons_of_mem _ List.mem_cons_self) rfl rfl (by decide) rfl
  exact absurd same (by decide)

end KeyIndices
