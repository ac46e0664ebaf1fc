import ManagedRuntime.Proofs.Class.Names

/-!
Instances and their fields. Main statement: in every class that operations have defined, every
declared instance field lies inside the instance, and its type is the one that its descriptor tells.
-/
namespace ManagedRuntime

theorem FieldType.length_zeroed (t : FieldType) :
    (Slot.zeroed t.primitive?).length = t.slotCount := by
  cases t with
  | primitive p => cases p <;> rfl
  | object name | array component => rfl

structure Field.Fits (f : Field) (size : Nat) : Prop where
  type : FieldType.parse f.descriptor = .ok f.type
  inside : f.isStatic = false → f.offset + f.type.slotCount ≤ size

namespace Registry
variable {r : Registry}

/-- How fields are laid out: a static field takes the next slots of static storage, each other one
the next slots of an instance. -/
inductive Lays : Nat → Nat → List Field → Prop where
  | nil {instanceAt staticAt : Nat} : Lays instanceAt staticAt []
  | static {instanceAt : Nat} {f : Field} {fs : List Field} (static : f.isStatic = true)
      (type : FieldType.parse f.descriptor = .ok f.type)
      (rest : Lays instanceAt (f.offset + f.type.slotCount) fs) : Lays instanceAt f.offset (f :: fs)
  | own {staticAt : Nat} {f : Field} {fs : List Field} (own : f.isStatic = false)
      (type : FieldType.parse f.descriptor = .ok f.type)
      (rest : Lays (f.offset + f.type.slotCount) staticAt fs) : Lays f.offset staticAt (f :: fs)

theorem lays_of_layFields {className : String} {instanceAt staticAt : Nat} {ds : List MemberDef}
    {fields : List Field} (laid : layFields className instanceAt staticAt ds = .ok fields) :
    Lays instanceAt staticAt fields := by
  induction ds generalizing instanceAt staticAt fields with
  | nil =>
    cases laid
    exact .nil
  | cons d ds ih =>
    rw [layFields] at laid
    split at laid
    · cases laid
    rename_i type parsed
    split at laid
    · rename_i static
      cases rest : layFields className instanceAt (staticAt + type.slotCount) ds with
      | error f =>
        rw [rest] at laid
        cases laid
      | ok later =>
        rw [rest] at laid
        cases laid
        exact .static (f := ⟨d.name, d.descriptor, type, d.flags, staticAt⟩) static parsed (ih rest)
    · rename_i static
      cases rest : layFields className (instanceAt + type.slotCount) staticAt ds with
      | error f =>
        rw [rest] at laid
        cases laid
      | ok later =>
        rw [rest] at laid
        cases laid
        refine .own (f := ⟨d.name, d.descriptor, type, d.flags, instanceAt⟩) ?_ parsed (ih rest)
        simpa [Field.isStatic] using static

theorem Lays.fits {instanceAt staticAt : Nat} {fields : List Field}
    (lays : Lays instanceAt staticAt fields) :
    ∀ f ∈ fields, f.Fits (instanceAt + ((fields.filter (!·.isStatic)).flatMap fun f =>
      Slot.zeroed f.type.primitive?).length) := by
  induction lays with
  | nil => simp
  | static static type _ ih =>
    rw [List.filter_cons_of_neg (by simp [static])]
    intro g member
    rcases List.mem_cons.mp member with rfl | tail
    · refine ⟨type, fun instance_ => ?_⟩
      rw [static] at instance_
      cases instance_
    · exact ih g tail
  | own own type _ ih =>
    rw [List.filter_cons_of_pos (by simp [own]), List.flatMap_cons, List.length_append,
      FieldType.length_zeroed]
    intro g member
    rcases List.mem_cons.mp member with rfl | tail
    · exact ⟨type, fun _ => by omega⟩
    · obtain ⟨parsed, inside⟩ := ih g tail
      refine ⟨parsed, fun instance_ => ?_⟩
      have bound := inside instance_
      omega

theorem Built.fields_fit (built : r.Built) {c : ClassId} {f : Field}
    (declared : f ∈ (r.cls c).fields) : f.Fits (r.cls c).template.length := by
  by_cases there : c.index < r.loaded.size
  · refine built.each (Q := fun _ _ x => ∀ f ∈ x.fields, f.Fits x.template.length)
      ?_ ?_ ?_ ?_ c there f declared
    · exact fun _ _ _ _ _ _ known => known
    · intro c _ f member
      rw [cls_empty] at member
      cases here : Primitive.all[c.index]? <;> rw [here] at member <;> cases member
    · intro r c _ _ f member
      cases member
    · intro r d loader superclass interfaces x _ _ _ made f member
      rw [made.template, List.length_append]
      exact (lays_of_layFields made.fields).fits f member
  · rw [cls_of_unloaded (by omega)] at declared
    cases declared

end Registry
end ManagedRuntime
