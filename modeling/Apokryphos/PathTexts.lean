import Apokryphos.Texts

/-!
Paths of a Unix system as texts, the way a path library takes them apart. A path
splits at its slashes; empty parts and dots vanish, but for a leading dot, and
two paths are equal when their components are. Joining appends one path to
another, unless it is absolute.
-/
namespace PathTexts
open Texts

abbrev PathText := List Char

inductive Component where
  | rootDir
  | curDir
  | parentDir
  | normal (name : List Char)
  deriving DecidableEq

def segment (part : List Char) : Option Component :=
  if part = [] ∨ part = ['.'] then none
  else if part = ['.', '.'] then some .parentDir
  else some (.normal part)

/-- What the beginning of a path adds to its parts. -/
def anchor : PathText → List Component
  | '/' :: _ => [.rootDir]
  | path => if (splitOn '/' path).head? = some ['.'] then [.curDir] else []

def segments (path : PathText) : List Component := (splitOn '/' path).filterMap segment

/-- `Path::components`. -/
def components (path : PathText) : List Component := anchor path ++ segments path

/-- `Path::join`. -/
def join (path piece : PathText) : PathText :=
  if piece.head? = some '/' then piece
  else if path = [] ∨ path.getLast? = some '/' then path ++ piece
  else path ++ '/' :: piece

/-- A name of one file: no path of several parts, and not one of the two dots. -/
structure PlainName (name : List Char) : Prop where
  named : name ≠ []
  single : '/' ∉ name
  other : name ≠ ['.'] ∧ name ≠ ['.', '.']

def Below (root path : PathText) (depth : Nat) : Prop :=
  ∃ names : List (List Char), names.length = depth ∧ (∀ name ∈ names, PlainName name) ∧
    components path = components root ++ names.map .normal

example : components "/var//lib/./blocks/".toList =
    [.rootDir, .normal "var".toList, .normal "lib".toList, .normal "blocks".toList] := by
  decide

theorem segments_append (path piece : PathText) :
    segments (path ++ '/' :: piece) = segments path ++ segments piece := by
  unfold segments
  rw [splitOn_append, List.filterMap_append]

theorem segments_slash (path : PathText) : segments (path ++ ['/']) = segments path := by
  rw [segments_append]
  simp [segments, splitOn, segment]

theorem anchor_append {path : PathText} (here : path ≠ []) (rest : PathText) :
    anchor (path ++ '/' :: rest) = anchor path := by
  cases path with
  | nil => exact absurd rfl here
  | cons c tail =>
    by_cases slash : c = '/'
    · subst slash
      rfl
    · have same : (splitOn '/' (c :: tail ++ '/' :: rest)).head? = (splitOn '/' (c :: tail)).head? := by
        rw [splitOn_append]
        exact List.head?_append_of_ne_nil _ (splitOn_ne_nil '/' (c :: tail))
      simp only [anchor, List.cons_append] at same ⊢
      simp [slash, same]

theorem anchor_slash (path : PathText) (here : path ≠ []) : anchor (path ++ ['/']) = anchor path :=
  anchor_append here []

theorem components_nil : components [] = [] := rfl

theorem relative_head {piece : PathText} (relative : anchor piece = []) :
    piece.head? ≠ some '/' := by
  cases piece with
  | nil => simp
  | cons c rest =>
    rintro slash
    cases slash
    cases relative

theorem components_join {piece : PathText} (path : PathText) (relative : anchor piece = []) :
    components (join path piece) = components path ++ segments piece := by
  unfold join
  rw [if_neg (relative_head relative)]
  by_cases direct : path = [] ∨ path.getLast? = some '/'
  · rw [if_pos direct]
    rcases direct with rfl | closed
    · rw [List.nil_append, components_nil, List.nil_append, components, relative, List.nil_append]
    · -- the separator is there already
      obtain ⟨front,rfl⟩ := List.getLast?_eq_some_iff.mp closed
      have split : front ++ ['/'] ++ piece = front ++ '/' :: piece := by simp
      by_cases here : front = []
      · subst here
        simp [components, anchor, segments, splitOn, segment]
      · rw [components, components, split, anchor_append here, segments_append,
          anchor_slash front here, segments_slash, List.append_assoc]
  · rw [if_neg direct]
    have here : path ≠ [] := fun nothing => direct (.inl nothing)
    simp [components, segments_append, anchor_append here]

theorem anchor_plain {name : List Char} (plain : PlainName name) : anchor name = [] := by
  cases name with
  | nil => exact absurd rfl plain.named
  | cons c rest =>
    have single : c ≠ '/' := by
      rintro rfl
      exact plain.single List.mem_cons_self
    simp [anchor, single, splitOn_single plain.single, plain.other.1]

theorem segments_plain {name : List Char} (plain : PlainName name) :
    segments name = [.normal name] := by
  simp [segments, splitOn_single plain.single, segment, plain.named, plain.other]

theorem components_join_name {name : List Char} (path : PathText) (plain : PlainName name) :
    components (join path name) = components path ++ [.normal name] := by
  rw [components_join path (anchor_plain plain), segments_plain plain]

theorem below_root (root : PathText) : Below root root 0 :=
  ⟨[],rfl,by simp,by simp⟩

theorem below_join {root path : PathText} {depth : Nat} {name : List Char}
    (below : Below root path depth) (plain : PlainName name) :
    Below root (join path name) (depth + 1) := by
  obtain ⟨names,size,each,same⟩ := below
  refine ⟨names ++ [name],by simp [size],?_,?_⟩
  · intro other member
    rcases List.mem_append.mp member with before | last
    · exact each other before
    · rwa [List.mem_singleton.mp last]
  · rw [components_join_name path plain, same]
    simp

theorem below_depth {root path : PathText} {m n : Nat} (shallow : Below root path m)
    (deep : Below root path n) : m = n := by
  obtain ⟨_,size,_,same⟩ := shallow
  obtain ⟨_,length,_,equal⟩ := deep
  have lengths := congrArg List.length (same.symm.trans equal)
  simp only [List.length_append, List.length_map, size, length] at lengths
  omega

theorem below_congr {root path other : PathText} {depth : Nat} (below : Below root path depth)
    (same : components other = components path) : Below root other depth := by
  obtain ⟨names,size,each,down⟩ := below
  exact ⟨names,size,each,same.trans down⟩

theorem anchor_front {front : List Char} (rest : List Char) (single : '/' ∉ front)
    (long : 1 < front.length) : anchor (front ++ rest) = [] := by
  obtain ⟨first,others,_,split⟩ := splitOn_front single rest
  have other : front ++ first ≠ ['.'] := by
    intro dot
    have size := congrArg List.length dot
    simp only [List.length_append, List.length_singleton] at size
    omega
  cases front with
  | nil => simp at long
  | cons c tail =>
    have unrooted : c ≠ '/' := by
      rintro rfl
      exact single List.mem_cons_self
    simp only [List.cons_append] at split other ⊢
    simp [anchor, unrooted, split, other]

theorem segments_back {back : List Char} (rest : List Char) (single : '/' ∉ back)
    (long : 2 < back.length) : ∃ front name, segments (rest ++ back) = front ++ [.normal (name ++ back)] := by
  obtain ⟨front,last,split⟩ := splitOn_back rest single
  have shape {few : List Char} (short : few.length ≤ 2) : last ++ back ≠ few := by
    rintro rfl
    rw [List.length_append] at short
    omega
  have named : segment (last ++ back) = some (.normal (last ++ back)) := by
    unfold segment
    rw [if_neg (not_or.mpr ⟨shape (by decide),shape (by decide)⟩), if_neg (shape (by decide))]
  refine ⟨front.filterMap segment,last,?_⟩
  unfold segments
  rw [split, List.filterMap_append]
  simp [named]

end PathTexts
