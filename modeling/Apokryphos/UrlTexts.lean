import Mathlib.Data.List.Basic
import Mathlib.Data.List.TakeDrop
import Mathlib.Data.List.TakeWhile
import Apokryphos.MachineWords
import Apokryphos.Texts

/-!
Absolute URLs of the special schemes, as far as a client of a URL library can
see them. The library itself is a parameter: a function from texts to parsed
URLs. What is fixed here is the textual rule of the WHATWG standard for where an
authority ends: slashes after `scheme://` are skipped, and the authority then
runs to the first `/`, `\`, `?` or `#`. Only the text after it can reach the
path and the query.
-/
namespace UrlTexts
open MachineWords Texts

/-- The components a parsed URL exposes. `port` is the explicit port, already
    elided when it is the scheme's default; `text` is the serialised URL. -/
structure Url where
  scheme : String
  username : String
  password : Option String
  host : Option String
  port : Option Nat
  path : String
  query : Option String
  fragment : Option String
  text : String
  deriving DecidableEq, Repr

abbrev UrlParser := String → Except String Url

def knownDefaultPort (scheme : String) : Option Nat :=
  if scheme = "http" ∨ scheme = "ws" then some 80
  else if scheme = "https" ∨ scheme = "wss" then some 443
  else if scheme = "ftp" then some 21
  else none

def Url.portOrKnownDefault (u : Url) : Option Nat := u.port.or (knownDefaultPort u.scheme)

def isSlash (c : Char) : Bool := c == '/' || c == '\\'

def endsAuthority (c : Char) : Bool := isSlash c || c == '?' || c == '#'

def dropAuthority (rest : List Char) : List Char := rest.dropWhile fun c => !endsAuthority c

def afterAuthority (rest : List Char) : List Char := dropAuthority (rest.dropWhile isSlash)

/-- No space and no control character, so that a URL parser strips nothing. -/
def Printable (s : String) : Prop := ∀ c ∈ s.toList, 32 < c.toNat

def PlainAuthority (a : List Char) : Prop := a ≠ [] ∧ ∀ c ∈ a, endsAuthority c = false

/-- A text that, put before any request target, leaves the target's own path
    and query in place. -/
def KeepsTarget (a : List Char) : Prop := PlainAuthority (a.dropWhile isSlash)

instance (a : List Char) : Decidable (PlainAuthority a) :=
  inferInstanceAs (Decidable (_ ∧ _))

instance (a : List Char) : Decidable (KeepsTarget a) :=
  inferInstanceAs (Decidable (PlainAuthority _))

def behind (scheme rest : String) : String := scheme ++ "://" ++ rest

def authorityOf (rest : List Char) : List Char :=
  (rest.dropWhile isSlash).takeWhile fun c => !endsAuthority c

/-- The documented rules on which callers rely. Behind `http://` or `https://`
    the path and the query are determined by the text after the authority, and
    a URL without a host is refused. -/
structure Standard (parseUrl : UrlParser) : Prop where
  follows : ∀ s₁ ∈ ["http", "https"], ∀ s₂ ∈ ["http", "https"], ∀ r₁ r₂ : String,
    Printable r₁ → Printable r₂ → afterAuthority r₁.toList = afterAuthority r₂.toList →
    ∀ u₁ u₂, parseUrl (behind s₁ r₁) = .ok u₁ → parseUrl (behind s₂ r₂) = .ok u₂ →
      u₁.path = u₂.path ∧ u₁.query = u₂.query
  needs_host : ∀ s ∈ ["http", "https"], ∀ r : String, Printable r → authorityOf r.toList = [] →
    ∀ u, parseUrl (behind s r) ≠ .ok u

def afterScheme (text : List Char) : Option (String × List Char) :=
  if "http://".toList.isPrefixOf text then some ("http", text.drop 7)
  else if "https://".toList.isPrefixOf text then some ("https", text.drop 8)
  else none

/-- `host[:port]`; a text after the colon that is no port stays in the host. -/
def hostAndPort (authority : List Char) : String × Option Nat :=
  match splitOnce ':' authority with
  | none => (String.ofList authority, none)
  | some (host, portText) =>
    match readDigits 0 portText with
    | some n => if n < 65536 then (String.ofList host, some n) else (String.ofList authority, none)
    | none => (String.ofList authority, none)

def inPath (c : Char) : Bool := c != '?' && c != '#'

def pathText (tail : List Char) : List Char :=
  (tail.takeWhile inPath).map fun c => if isSlash c then '/' else c

def plainUrl (scheme text : String) (rest : List Char) : Url :=
  let tail := afterAuthority rest
  let (host, port) := hostAndPort (authorityOf rest)
  { scheme
    username := ""
    password := none
    host := some host
    port := if port = knownDefaultPort scheme then none else port
    path := if pathText tail = [] then "/" else String.ofList (pathText tail)
    query := (splitOnce '?' (tail.takeWhile (· != '#'))).map fun parts => String.ofList parts.2
    fragment := (splitOnce '#' tail).map fun parts => String.ofList parts.2
    text := if tail = [] then text ++ "/" else text }

/-- A parser for texts that need no normalisation but of backslashes: lower case,
    no userinfo, no dot segments, nothing to percent-encode. On these it agrees
    with the standard. -/
def plainParser : UrlParser := fun text =>
  match afterScheme text.toList with
  | none => .error "relative URL without a base"
  | some (scheme, rest) =>
    if authorityOf rest = [] then .error "empty host" else .ok (plainUrl scheme text rest)

theorem dropAuthority_plain {a : List Char} (inside : ∀ c ∈ a, endsAuthority c = false)
    (rest : List Char) : dropAuthority (a ++ rest) = dropAuthority rest := by
  unfold dropAuthority
  rw [List.dropWhile_append_of_pos]
  intro c member
  simp [inside c member]

theorem slash_ends {c : Char} (slash : isSlash c = true) : endsAuthority c = true := by
  simp [endsAuthority, slash]

theorem plain_first {c : Char} {tail : List Char} (plain : PlainAuthority (c :: tail)) :
    isSlash c = false := by
  by_contra slash
  have ends := slash_ends (by simpa using slash)
  simp [plain.2 c (by simp)] at ends

theorem afterAuthority_plain {a : List Char} (plain : PlainAuthority a) (rest : List Char) :
    afterAuthority (a ++ rest) = dropAuthority rest := by
  cases a with
  | nil => exact absurd rfl plain.1
  | cons c tail =>
    have kept : (c :: tail ++ rest).dropWhile isSlash = c :: tail ++ rest := by
      simp [plain_first plain]
    unfold afterAuthority
    rw [kept]
    exact dropAuthority_plain plain.2 rest

theorem afterAuthority_slash {c : Char} (slash : isSlash c = true) (rest : List Char) :
    afterAuthority (c :: rest) = afterAuthority rest := by
  simp [afterAuthority, slash]

theorem afterAuthority_keeps {a : List Char} (keeps : KeepsTarget a) (rest : List Char) :
    afterAuthority (a ++ rest) = dropAuthority rest := by
  induction a with
  | nil => exact absurd rfl keeps.1
  | cons c tail ih =>
    cases slash : isSlash c with
    | true =>
      rw [List.cons_append, afterAuthority_slash slash]
      apply ih
      simpa [KeepsTarget, slash] using keeps
    | false =>
      apply afterAuthority_plain
      simpa [KeepsTarget, slash] using keeps

theorem plain_keeps {a : List Char} (plain : PlainAuthority a) : KeepsTarget a := by
  unfold KeepsTarget
  cases a with
  | nil => exact absurd rfl plain.1
  | cons c tail => simpa [plain_first plain] using plain

theorem afterScheme_behind {scheme : String} (special : scheme ∈ ["http", "https"]) (rest : String) :
    afterScheme (behind scheme rest).toList = some (scheme, rest.toList) := by
  simp only [List.mem_cons, List.not_mem_nil, or_false] at special
  rcases special with rfl | rfl
  · simp [afterScheme, behind]
  · simp [afterScheme, behind]

theorem plainParser_behind {scheme : String} (special : scheme ∈ ["http", "https"]) (rest : String) :
    plainParser (behind scheme rest) = if authorityOf rest.toList = [] then .error "empty host"
      else .ok (plainUrl scheme (behind scheme rest) rest.toList) := by
  unfold plainParser
  rw [afterScheme_behind special]

theorem plainParser_ok {scheme : String} (special : scheme ∈ ["http", "https"]) {rest : String}
    {u : Url} (parsed : plainParser (behind scheme rest) = .ok u) :
    authorityOf rest.toList ≠ [] ∧ u = plainUrl scheme (behind scheme rest) rest.toList := by
  rw [plainParser_behind special] at parsed
  split at parsed
  · cases parsed
  · rename_i hosted
    cases parsed
    exact ⟨hosted,rfl⟩

theorem plainParser_standard : Standard plainParser := by
  constructor
  · intro s₁ special₁ s₂ special₂ r₁ r₂ _ _ same u₁ u₂ parsed₁ parsed₂
    obtain ⟨_,rfl⟩ := plainParser_ok special₁ parsed₁
    obtain ⟨_,rfl⟩ := plainParser_ok special₂ parsed₂
    simp only [plainUrl, same, and_self]
  · intro s special r _ hostless u parsed
    exact (plainParser_ok special parsed).1 hostless

theorem slashes_host {a : List Char} (slashes : a.dropWhile isSlash = []) (letter : Char)
    (plain : endsAuthority letter = false) :
    authorityOf (a ++ ['/', letter]) ≠ [] ∧ afterAuthority (a ++ ['/', letter]) = [] := by
  have notSlash : isSlash letter = false := by
    by_contra slash
    rw [slash_ends (by simpa using slash)] at plain
    cases plain
  have skipped : (a ++ ['/', letter]).dropWhile isSlash = [letter] := by
    have slash : isSlash '/' = true := by decide
    rw [List.dropWhile_append, slashes]
    simp [slash, notSlash]
  simp [authorityOf, afterAuthority, dropAuthority, skipped, plain]

theorem ended_host {a : List Char} {c : Char} (first : c ∈ (a.dropWhile isSlash).head?)
    (begins : endsAuthority c = false) (ended : ¬ KeepsTarget a) :
    ∃ front ≠ [], ∀ target, authorityOf (a ++ target) ≠ [] ∧
      afterAuthority (a ++ target) = front ++ target := by
  cases stripped : a.dropWhile isSlash with
  | nil => simp [stripped] at first
  | cons d tail =>
    rw [stripped, List.head?_cons, Option.mem_some_iff] at first
    subst first
    have left : dropAuthority (d :: tail) ≠ [] := by
      intro all
      apply ended
      unfold KeepsTarget
      rw [stripped]
      refine ⟨by simp,?_⟩
      intro e member
      simpa using List.dropWhile_eq_nil_iff.mp all e member
    refine ⟨dropAuthority (d :: tail),left,?_⟩
    intro target
    have skipped : (a ++ target).dropWhile isSlash = d :: tail ++ target := by
      rw [List.dropWhile_append, stripped]
      rfl
    constructor
    · simp [authorityOf, skipped, begins]
    · unfold afterAuthority
      rw [skipped, dropAuthority, List.dropWhile_append, if_neg]
      · rfl
      · simpa [dropAuthority] using left

theorem pathText_behind {front : List Char} (nonempty : front ≠ [])
    (first : pathText (front ++ ['/', 'x']) = ['/', 'x'])
    (second : pathText (front ++ ['/', 'y']) = ['/', 'y']) : False := by
  unfold pathText at first second
  rw [List.takeWhile_append] at first second
  split at first
  · have long := congrArg List.length first
    simp [inPath] at long
    exact nonempty long
  · rename_i cut
    rw [if_neg cut, first] at second
    cases second

end UrlTexts
