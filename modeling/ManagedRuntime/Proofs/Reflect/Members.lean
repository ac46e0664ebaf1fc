import ManagedRuntime.Proofs.Class.Links
import ManagedRuntime.Reflect.Members

/-!
The members of a class that reflection lists. Methods are numbered by their positions, so all kinds of
members are listed by position. Main statement: a list is in the order of declaration and names every
member of its kind, methods and constructors together are all methods but class initialisers, and the
list of the public members has the public ones of the other list.
-/
namespace ManagedRuntime

inductive Member where
  | field (f : Field)
  | method (m : Method)

namespace Member

def name : Member → String
  | field f => f.name
  | method m => m.name

def flags : Member → AccessFlags
  | field f => f.flags
  | method m => m.flags

def isPublic (y : Member) : Bool := y.flags.contains .isPublic

end Member

namespace Class

def member? (x : Class) (kind : MemberKind) (i : Nat) : Option Member :=
  match kind with
  | .field => (x.field? i).map .field
  | .method => ((x.method? i).filter fun m => !m.isInitializer).map .method
  | .constructor => ((x.method? i).filter Method.isConstructor).map .method

def positions {α : Type} (l : List α) (p : α → Bool) (name : α → String) : List (Nat × String) :=
  (l.zipIdx.filter fun a => p a.1).map fun a => (a.2, name a.1)

section positions
variable {α : Type} {l : List α} {p : α → Bool} {name : α → String} {i : Nat} {s : String}

theorem mem_positions :
    (i, s) ∈ positions l p name ↔ ∃ a, l[i]? = some a ∧ p a = true ∧ name a = s := by
  simp only [positions, List.mem_map, List.mem_filter, Prod.mk.injEq]
  constructor
  · rintro ⟨⟨a, j⟩, ⟨there, holds⟩, rfl, rfl⟩
    exact ⟨a, List.mem_zipIdx_iff_getElem?.mp there, holds, rfl⟩
  · rintro ⟨a, there, holds, rfl⟩
    exact ⟨(a, i), ⟨List.mem_zipIdx_iff_getElem?.mpr there, holds⟩, rfl, rfl⟩

theorem pairwise_positions : ((positions l p name).map Prod.fst).Pairwise (· < ·) := by
  have all : (l.zipIdx.map Prod.snd).Pairwise (· < ·) := by
    rw [List.zipIdx_map_snd]
    exact List.pairwise_lt_range'
  rw [positions, List.map_map]
  exact List.pairwise_map.mpr ((List.pairwise_map.mp all).filter _)

theorem map_filter_eq_positions {number : α → Nat} (numbered : ∀ i a, l[i]? = some a → number a = i) :
    ((l.filter p).map fun a => (number a, name a)) = positions l p name := by
  have fronts : l.filter p = (l.zipIdx.filter fun a => p a.1).map Prod.fst := by
    have whole := List.filter_map (f := Prod.fst) (p := p) (l := l.zipIdx)
    rw [List.zipIdx_map_fst] at whole
    exact whole
  rw [fronts, List.map_map, positions]
  refine List.map_congr_left fun a member => ?_
  have there := List.mem_zipIdx_iff_getElem?.mp (List.mem_filter.mp member).1
  exact congrArg (·, name a.1) (numbered _ _ there)

end positions

variable {x : Class} {kind : MemberKind} {publicOnly : Bool} {i : Nat} {s : String}

def Numbered (x : Class) : Prop := ∀ i m, x.method? i = some m → m.slot = i

theorem members_field : x.members .field publicOnly =
    positions x.fields (fun f => !publicOnly || f.flags.contains .isPublic) Field.name := rfl

theorem Numbered.members_method (numbered : x.Numbered) : x.members .method publicOnly =
    positions x.methods (fun m => !m.isInitializer && (!publicOnly || m.flags.contains .isPublic))
      Method.name := map_filter_eq_positions numbered

theorem Numbered.members_constructor (numbered : x.Numbered) : x.members .constructor publicOnly =
    positions x.methods (fun m => m.isConstructor && (!publicOnly || m.flags.contains .isPublic))
      Method.name := map_filter_eq_positions numbered

/-- What is listed is the member at its position. -/
theorem Numbered.mem_members_iff (numbered : x.Numbered) :
    (i, s) ∈ x.members kind publicOnly ↔
      ∃ y, x.member? kind i = some y ∧ y.name = s ∧ (publicOnly = true → y.isPublic = true) := by
  have visible (b : Bool) : (!publicOnly || b) = true ↔ (publicOnly = true → b = true) := by
    cases publicOnly <;> simp
  cases kind with
  | field =>
    rw [members_field, mem_positions]
    simp only [member?, Option.map_eq_some_iff, visible]
    constructor
    · rintro ⟨f, here, shown, named⟩
      exact ⟨_, ⟨f, here, rfl⟩, named, shown⟩
    · rintro ⟨_, ⟨f, here, rfl⟩, named, shown⟩
      exact ⟨f, here, shown, named⟩
  | method | constructor =>
    first
      | rw [numbered.members_method, mem_positions]
      | rw [numbered.members_constructor, mem_positions]
    simp only [member?, Option.map_eq_some_iff, Option.filter_eq_some_iff, Bool.and_eq_true, visible]
    constructor
    · rintro ⟨m, here, ⟨counts, shown⟩, named⟩
      exact ⟨_, ⟨m, ⟨here, counts⟩, rfl⟩, named, shown⟩
    · rintro ⟨_, ⟨m, ⟨here, counts⟩, rfl⟩, named, shown⟩
      exact ⟨m, here, ⟨counts, shown⟩, named⟩

theorem Numbered.pairwise_members (numbered : x.Numbered) (kind : MemberKind) (publicOnly : Bool) :
    ((x.members kind publicOnly).map Prod.fst).Pairwise (· < ·) := by
  cases kind with
  | field =>
    rw [members_field]
    exact pairwise_positions
  | method =>
    rw [numbered.members_method]
    exact pairwise_positions
  | constructor =>
    rw [numbered.members_constructor]
    exact pairwise_positions

structure Enumerated (x : Class) : Prop where
  ordered : ∀ kind publicOnly, ((x.members kind publicOnly).map Prod.fst).Pairwise (· < ·)
  named : ∀ kind publicOnly i s, (i, s) ∈ x.members kind publicOnly →
    ∃ y, x.member? kind i = some y ∧ y.name = s
  fields : ∀ i f, x.field? i = some f → (i, f.name) ∈ x.members .field false
  methods : ∀ i m, x.method? i = some m → (m.name ≠ "<clinit>" ↔
    (i, m.name) ∈ x.members .method false ∨ (i, m.name) ∈ x.members .constructor false)
  apart : ∀ publicOnly publicOnly' i s s', (i, s) ∈ x.members .method publicOnly →
    (i, s') ∉ x.members .constructor publicOnly'
  filtered : ∀ kind, x.members kind true =
    (x.members kind false).filter fun e => (x.member? kind e.1).any Member.isPublic

theorem method_kinds (m : Method) :
    m.name ≠ "<clinit>" ↔ m.isInitializer = false ∨ m.isConstructor = true := by
  unfold Method.isInitializer Method.isConstructor
  by_cases constructor : m.name = "<init>"
  · simp [constructor]
  · simp [constructor]

theorem eq_of_mem_iff {l k : List (Nat × String)} (first : (l.map Prod.fst).Pairwise (· < ·))
    (second : (k.map Prod.fst).Pairwise (· < ·)) (same : ∀ e, e ∈ l ↔ e ∈ k) : l = k := by
  have distinct {l : List (Nat × String)} (ordered : (l.map Prod.fst).Pairwise (· < ·)) :
      l.Nodup := (List.pairwise_map.mp ordered).imp fun less same => by
    rw [same] at less
    exact Nat.lt_irrefl _ less
  have perm := (List.perm_ext_iff_of_nodup (distinct first) (distinct second)).mpr same
  refine perm.eq_of_pairwise ?_ (List.pairwise_map.mp first) (List.pairwise_map.mp second)
  intro a b _ _ below above
  exact absurd (Nat.lt_trans below above) (Nat.lt_irrefl _)

theorem Numbered.enumerated (numbered : x.Numbered) : x.Enumerated where
  ordered := numbered.pairwise_members
  named kind publicOnly i s member := by
    obtain ⟨y, here, named, -⟩ := numbered.mem_members_iff.mp member
    exact ⟨y, here, named⟩
  fields i f here := by
    refine numbered.mem_members_iff.mpr ⟨.field f, ?_, rfl, nofun⟩
    rw [member?, here]
    rfl
  methods i m here := by
    simp only [numbered.mem_members_iff, member?, here, method_kinds]
    constructor
    · rintro (method | constructor)
      · exact .inl ⟨.method m, by simp [method], rfl, nofun⟩
      · exact .inr ⟨.method m, by simp [constructor], rfl, nofun⟩
    · rintro (⟨y, found, -⟩ | ⟨y, found, -⟩)
      · obtain ⟨_, filtered, -⟩ := Option.map_eq_some_iff.mp found
        have counts := (Option.filter_eq_some_iff.mp filtered)
        cases counts.1
        exact .inl (by simpa using counts.2)
      · obtain ⟨_, filtered, -⟩ := Option.map_eq_some_iff.mp found
        have counts := (Option.filter_eq_some_iff.mp filtered)
        cases counts.1
        exact .inr counts.2
  apart publicOnly publicOnly' i s s' method constructor := by
    obtain ⟨y, found, -⟩ := numbered.mem_members_iff.mp method
    obtain ⟨y', found', -⟩ := numbered.mem_members_iff.mp constructor
    obtain ⟨m, filtered, -⟩ := Option.map_eq_some_iff.mp found
    obtain ⟨m', filtered', -⟩ := Option.map_eq_some_iff.mp found'
    obtain ⟨here, ordinary⟩ := Option.filter_eq_some_iff.mp filtered
    obtain ⟨here', initialises⟩ := Option.filter_eq_some_iff.mp filtered'
    cases here.symm.trans here'
    simp [Method.isInitializer, initialises] at ordinary
  filtered kind := by
    have sublist := List.filter_sublist (l := x.members kind false)
      (p := fun e => (x.member? kind e.1).any Member.isPublic)
    refine eq_of_mem_iff (numbered.pairwise_members kind true)
      ((numbered.pairwise_members kind false).sublist (sublist.map _)) fun ⟨i, s⟩ => ?_
    rw [List.mem_filter, numbered.mem_members_iff, numbered.mem_members_iff]
    constructor
    · rintro ⟨y, here, named, shown⟩
      exact ⟨⟨y, here, named, nofun⟩, by simp [here, shown]⟩
    · rintro ⟨⟨y, here, named, -⟩, shown⟩
      exact ⟨y, here, named, fun _ => by simpa [here] using shown⟩

end Class

theorem Registry.Built.enumerated {r : Registry} (built : r.Built) (c : ClassId) :
    (r.cls c).Enumerated :=
  Class.Numbered.enumerated fun _ _ here => (built.numbered here).1

end ManagedRuntime
