import ManagedRuntime.Loading.Resolution
import ManagedRuntime.Proofs.Class.ArrayNames

/-!
Where the bootstrap loader looks for class files. A program names a class with dots, and the name
with slashes for dots becomes the path of a file. Main statement: the files that are tried for such
a name lie under directories of the boot class path if the name is not led by a dot; otherwise one
file is tried, the same for each directory.
-/
namespace ManagedRuntime

namespace Path

def Under (dir path : String) : Prop :=
  ∃ rest, isAbsolute rest = false ∧ ".." ∉ components rest ∧ path = join dir rest

theorem isAbsolute_iff {p : String} : isAbsolute p = true ↔ p.toList.head? = some '/' := by
  simp [isAbsolute]

theorem isAbsolute_append {p q : String} (some : p ≠ "") :
    isAbsolute (p ++ q) = isAbsolute p := by
  unfold isAbsolute
  cases chars : p.toList with
  | nil => exact absurd (String.toList_eq_nil_iff.mp chars) some
  | cons c cs =>
    rw [String.toList_append, chars, List.cons_append, List.head?_cons, List.head?_cons]

theorem isAbsolute_join {dir p : String} (relative : isAbsolute dir = false)
    (relative' : isAbsolute p = false) : isAbsolute (join dir p) = false := by
  unfold join
  rw [relative']
  by_cases empty : dir = ""
  · simpa [empty] using relative'
  · split
    · contradiction
    · split
      · rw [isAbsolute_append empty, relative]
      · rw [String.append_assoc, isAbsolute_append empty, relative]

/-- No path from relative directories leads to an absolute one. -/
theorem not_under_of_relative {dir path : String} (relative : isAbsolute dir = false)
    (absolute : isAbsolute path = true) : ¬ Under dir path := by
  rintro ⟨rest, relative', -, rfl⟩
  rw [isAbsolute_join relative relative'] at absolute
  cases absolute

theorem dots_notMem_components {name : String} (dotless : '.' ∉ name.toList) :
    ".." ∉ components (name ++ ".class") := by
  -- by recursion on the name, as the path is split
  have each (cs : List Char) (dotless : '.' ∉ cs) :
      ∀ w ∈ splitChars '/' (cs ++ ".class".toList), w ≠ ['.', '.'] := by
    induction cs with
    | nil => decide
    | cons c cs ih =>
      obtain ⟨other, dotless⟩ := not_or.mp (mt List.mem_cons.mpr dotless)
      have rest := ih dotless
      rw [List.cons_append, splitChars]
      generalize splitChars '/' (cs ++ ".class".toList) = words at rest
      rcases words with _ | ⟨w, ws⟩
      · simp
      · obtain ⟨first, later⟩ := List.forall_mem_cons.mp rest
        dsimp only
        split
        · exact List.forall_mem_cons.mpr ⟨nofun, List.forall_mem_cons.mpr ⟨first, later⟩⟩
        · exact List.forall_mem_cons.mpr ⟨fun same => other (List.cons.inj same).1.symm, later⟩
  intro member
  obtain ⟨w, member, same⟩ := List.mem_map.mp member
  rw [String.toList_append] at member
  exact each _ dotless w member (by rw [← String.toList_ofList (l := w), same]; rfl)

end Path

namespace FileTree
variable (files : FileTree)

def tries : List String → List String
  | [] => []
  | p :: ps => if (files.read? p).isSome then [p] else p :: tries ps

variable {files}

theorem mem_of_mem_tries {p : String} {ps : List String} (member : p ∈ files.tries ps) :
    p ∈ ps := by
  induction ps with
  | nil => cases member
  | cons q qs ih =>
    rw [tries] at member
    split at member
    · exact List.mem_cons.mpr (.inl (List.mem_singleton.mp member))
    · exact List.mem_cons.mpr ((List.mem_cons.mp member).imp_right ih)

theorem findSome?_tries (ps : List String) :
    (files.tries ps).findSome? files.read? = ps.findSome? files.read? := by
  induction ps with
  | nil => rfl
  | cons p ps ih =>
    rw [tries, List.findSome?_cons]
    split
    · rename_i found
      rw [List.findSome?_cons]
      obtain ⟨bytes, found⟩ := Option.isSome_iff_exists.mp found
      rw [found]
    · rw [List.findSome?_cons, ih]

end FileTree

namespace World
variable {η : Type} (w : World η)

/-- The paths that the bootstrap loader tries for the class file of this name. Without a parser for
class files it tries none. -/
def bootFilesTried (name : String) : List String :=
  if w.parser.isSome then
    w.platform.files.tries (w.options.bootClassPath.map (Path.join · (name ++ ".class")))
  else []

def OnBootPath (path : String) : Prop := ∃ dir ∈ w.options.bootClassPath, Path.Under dir path

theorem findSome?_bootFilesTried (name : String) :
    (w.bootFilesTried name).findSome? w.platform.files.read? =
      if w.parser.isSome then w.bootClassFile? name else none := by
  unfold bootFilesTried
  split
  · rw [FileTree.findSome?_tries, List.findSome?_map]
    rfl
  · rfl

variable {w} {name path : String}

theorem mem_bootFilesTried (member : path ∈ w.bootFilesTried name) :
    ∃ dir ∈ w.options.bootClassPath, path = Path.join dir (name ++ ".class") := by
  unfold bootFilesTried at member
  split at member
  · obtain ⟨dir, here, rfl⟩ := List.mem_map.mp (FileTree.mem_of_mem_tries member)
    exact ⟨dir, here, rfl⟩
  · cases member

end World

/-- The names that the boot class path may be searched for when a program asks for a class: that
class, or the element class if it is an array class. -/
inductive SearchedFor (asked : String) : String → Prop
  | plain {internal : String} (names : internalName? asked = some internal)
      (plain : Registry.isArrayName internal = false) : SearchedFor asked internal
  | element {internal name : String} (names : internalName? asked = some internal)
      (array : Registry.isArrayName internal = true)
      (element : Registry.elementName? internal = some name) : SearchedFor asked name

def LedByDot (asked : String) : Prop :=
  (if Registry.isArrayName asked then asked.toList.drop (Registry.brackets asked + 1)
    else asked.toList).head? = some '.'

instance (asked : String) : Decidable (LedByDot asked) := inferInstanceAs (Decidable (_ = _))

namespace SearchedFor
variable {asked name internal : String}

def slashForDot (c : Char) : Char := if c = '.' then '/' else c

theorem slashForDot_ne_dot (c : Char) : slashForDot c ≠ '.' := by
  unfold slashForDot
  split
  · decide
  · assumption

theorem toList_slashed (s : String) : (slashed s).toList = s.toList.map slashForDot :=
  String.toList_map

theorem internalName?_eq_some (names : internalName? asked = some internal) :
    internal = slashed asked ∧ '/' ∉ asked.toList := by
  unfold internalName? at names
  split at names
  · cases names
  · rename_i valid
    have slashless : '/' ∉ asked.toList := fun member => valid (by simp [member])
    split at names
    · split at names
      · cases names
        exact ⟨rfl, slashless⟩
      · cases names
    · cases names
      exact ⟨rfl, slashless⟩

theorem brackets_slashed (s : String) :
    Registry.brackets (slashed s) = Registry.brackets s := by
  unfold Registry.brackets
  rw [toList_slashed, List.takeWhile_map, List.length_map]
  congr 2
  funext c
  by_cases dot : c = '.' <;> simp [slashForDot, dot]

theorem isArrayName_slashed (s : String) :
    Registry.isArrayName (slashed s) = Registry.isArrayName s := by
  unfold Registry.isArrayName
  rw [brackets_slashed]

theorem toList_elementName (found : Registry.elementName? (slashed asked) = some name) :
    (asked.toList.drop (Registry.brackets asked + 1)).map slashForDot = name.toList ++ [';'] := by
  obtain ⟨element, object, rfl⟩ := Option.map_eq_some_iff.mp found
  have chars := Registry.objectName?_eq_some.mp object
  rw [brackets_slashed, toList_slashed, ← List.map_drop] at chars
  rw [← List.tail_drop, List.map_tail, chars, List.tail_cons, String.toList_ofList]

theorem dot_notMem_map (cs : List Char) : '.' ∉ cs.map slashForDot := by
  intro member
  obtain ⟨c, -, same⟩ := List.mem_map.mp member
  exact slashForDot_ne_dot c same

theorem dotless (searched : SearchedFor asked name) : '.' ∉ name.toList := by
  cases searched with
  | plain names =>
    rw [(internalName?_eq_some names).1, toList_slashed]
    exact dot_notMem_map _
  | element names array element =>
    rw [(internalName?_eq_some names).1] at element
    intro member
    refine dot_notMem_map (asked.toList.drop (Registry.brackets asked + 1)) ?_
    rw [toList_elementName element]
    exact List.mem_append_left _ member

theorem isAbsolute_iff (searched : SearchedFor asked name) :
    Path.isAbsolute name = true ↔ LedByDot asked := by
  have head (cs : List Char) (slashless : '/' ∉ cs) :
      (cs.map slashForDot).head? = some '/' ↔ cs.head? = some '.' := by
    cases cs with
    | nil => simp
    | cons c cs =>
      rw [List.map_cons, List.head?_cons, List.head?_cons, Option.some.injEq, Option.some.injEq,
        slashForDot]
      by_cases dot : c = '.'
      · simp [dot]
      · rw [if_neg dot]
        exact iff_of_false (fun same => slashless (same ▸ List.mem_cons_self)) dot
  rw [Path.isAbsolute_iff, LedByDot]
  cases searched with
  | plain names plain =>
    obtain ⟨rfl, slashless⟩ := internalName?_eq_some names
    rw [isArrayName_slashed] at plain
    rw [plain, toList_slashed]
    exact head _ slashless
  | element names array element =>
    obtain ⟨rfl, slashless⟩ := internalName?_eq_some names
    rw [isArrayName_slashed] at array
    rw [array, if_pos rfl, ← head _ fun member => slashless (List.mem_of_mem_drop member),
      toList_elementName element]
    cases name.toList <;> simp

/-- Whatever the files are: those that are tried lie under directories of the boot class path,
unless the name is led by a dot. Then one file is tried, and it lies there only if it happens to.
-/
theorem inside_iff {η : Type} (searched : SearchedFor asked name) (w : World η) :
    (∀ path ∈ w.bootFilesTried name, w.OnBootPath path) ↔
      ¬ LedByDot asked ∨ w.bootFilesTried name = [] ∨ w.OnBootPath (name ++ ".class") := by
  have dotless := Path.dots_notMem_components searched.dotless
  have absolute : Path.isAbsolute (name ++ ".class") = Path.isAbsolute name := by
    by_cases empty : name = ""
    · rw [empty]
      decide
    · exact Path.isAbsolute_append empty
  rw [← searched.isAbsolute_iff, ← absolute]
  cases relative : Path.isAbsolute (name ++ ".class") with
  | false =>
    refine iff_of_true (fun path member => ?_) (.inl nofun)
    obtain ⟨dir, here, rfl⟩ := World.mem_bootFilesTried member
    exact ⟨dir, here, _, relative, dotless, rfl⟩
  | true =>
    have same {path : String} (member : path ∈ w.bootFilesTried name) :
        path = name ++ ".class" := by
      obtain ⟨dir, -, rfl⟩ := World.mem_bootFilesTried member
      rw [Path.join, relative, if_pos rfl]
    constructor
    · intro inside
      cases tried : w.bootFilesTried name with
      | nil => exact .inr (.inl rfl)
      | cons path paths =>
        have member : path ∈ w.bootFilesTried name := by rw [tried]; exact List.mem_cons_self
        rw [← same member]
        exact .inr (.inr (inside path member))
    · rintro (never | none | inside) path member
      · exact absurd rfl never
      · rw [none] at member
        cases member
      · rw [same member]
        exact inside

end SearchedFor
end ManagedRuntime
