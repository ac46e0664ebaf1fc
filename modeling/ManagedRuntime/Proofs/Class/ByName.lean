import ManagedRuntime.Class.Hierarchy
import ManagedRuntime.Proofs.Class.Links

/-!
Types that a class has by name. Loaders do not matter, and an array class has a type where its
components have the element type. Main statement: the walk by name finds exactly these types.
-/
namespace ManagedRuntime.Registry
variable {r : Registry}

/-- The class, a class above it or, for an array, its component has a type of this name. -/
inductive NamedAs (r : Registry) : ClassId → String → Prop where
  | here {c : ClassId} {name : String} (same : (r.cls c).name = name) : NamedAs r c name
  | component {c e : ClassId} {name element : String} (array : (r.cls c).component? = some e)
      (reference : (r.cls e).isPrimitive = false) (text : componentName? name = some element)
      (named : NamedAs r e element) : NamedAs r c name
  | superclass {c s : ClassId} {name : String} (above : (r.cls c).superclass = some s)
      (named : NamedAs r s name) : NamedAs r c name
  | interface {c i : ClassId} {name : String} (above : i ∈ (r.cls c).interfaces)
      (named : NamedAs r i name) : NamedAs r c name

theorem subtypeNamedWithin_iff (ordered : r.Ordered) (n : Nat) (c : ClassId) (name : String)
    (enough : c.index < n) : r.subtypeNamedWithin n c name = true ↔ r.NamedAs c name := by
  induction n generalizing c name with
  | zero => omega
  | succ n ih =>
    constructor
    · intro found
      simp only [subtypeNamedWithin, Bool.or_eq_true, beq_iff_eq] at found
      rcases found with ((here | component) | above) | implemented
      · exact .here here
      · split at component
        · rename_i e element array text
          rw [Bool.and_eq_true] at component
          have less := ordered.component_lt array
          exact .component array (by simpa using component.1) text
            ((ih e element (by omega)).mp component.2)
        · cases component
      · split at above
        · cases above
        · rename_i s link
          have less := ordered.superclass_lt link
          exact .superclass link ((ih s name (by omega)).mp above)
      · obtain ⟨i, link, found⟩ := List.any_eq_true.mp implemented
        have less := ordered.interface_lt link
        exact .interface link ((ih i name (by omega)).mp found)
    · intro named
      simp only [subtypeNamedWithin, Bool.or_eq_true, beq_iff_eq]
      cases named with
      | here same => exact .inl (.inl (.inl same))
      | component array reference text named =>
        have less := ordered.component_lt array
        refine .inl (.inl (.inr ?_))
        simp [array, text, reference, (ih _ _ (by omega)).mpr named]
      | superclass above named =>
        have less := ordered.superclass_lt above
        refine .inl (.inr ?_)
        simp [above, (ih _ _ (by omega)).mpr named]
      | interface above named =>
        have less := ordered.interface_lt above
        exact .inr (List.any_eq_true.mpr ⟨_, above, (ih _ _ (by omega)).mpr named⟩)

theorem subtypeNamed_iff (ordered : r.Ordered) (c : ClassId) (name : String) :
    r.subtypeNamed c name = true ↔ r.NamedAs c name :=
  subtypeNamedWithin_iff ordered _ c name (Nat.lt_succ_self _)

end ManagedRuntime.Registry
