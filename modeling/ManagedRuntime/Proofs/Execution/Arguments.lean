import Mathlib.Algebra.Ring.Nat
import ManagedRuntime.Proofs.Execution.Unaided
import ManagedRuntime.Proofs.World.Running

/-!
How natives read arguments that are there: nothing is run for it, and the operand stack stays as it
is. A native holds the objects that it has read, but not the mirror by which it is given a class.
-/
namespace ManagedRuntime.Exec
variable {η : Type} {rely does : World η → World η → Prop} {w : World η} {env : Env}
  {call : NativeCall} {index : Nat} {o : ObjectId} {c : ClassId}

section
-- only the rules are used here; unfolded, the judgement goes through the task step by step
attribute [local irreducible] Unaided

theorem unaided_arg {a : Value} {T : Except Failure Value → Env → World η → Prop}
    (given : call.argument? env.stack index = some a)
    (holds : T (.ok a) (env.hold (Value.objects [a])) w) :
    Unaided rely does w env (arg call index) T := by
  obtain ⟨p, there, read⟩ := Option.bind_eq_some_iff.mp given
  unfold arg
  rw [there]
  refine unaided_get_bind ?_
  dsimp only
  rw [read]
  exact unaided_modify_bind (unaided_pure holds)

theorem unaided_referenceArg {r : Reference} {T : Except Failure Reference → Env → World η → Prop}
    (given : call.argument? env.stack index = some (.ref r))
    (holds : T (.ok r) (env.hold (Value.objects [.ref r])) w) :
    Unaided rely does w env (referenceArg call index) T :=
  unaided_bind (unaided_arg given (unaided_pure holds))

theorem unaided_objectArg {T : Except Failure ObjectId → Env → World η → Prop}
    (given : call.argument? env.stack index = some (.ref (some o)))
    (holds : T (.ok o) (env.hold [o]) w) : Unaided rely does w env (objectArg call index) T :=
  unaided_bind (unaided_referenceArg given (unaided_pure holds))

theorem unaided_classArg {T : Except Failure ClassId → Env → World η → Prop}
    (given : call.argument? env.stack index = some (.ref (some o)))
    (mirrors : ∀ x, rely w x → (x.heap.get o).mirrored? = some c)
    (holds : ∀ x refs, rely w x → does x (x.during refs) ∧ T (.ok c) env (x.during refs)) :
    Unaided rely does w env (classArg call index) T := by
  refine unaided_keeping (unaided_bind (unaided_objectArg given (unaided_act fun x refs change => ?_)))
  have ran (y : World η) (same : y.heap = x.heap) :
      (Atomic.mirroredClass o).runOn y = (.ok c, y) := by
    rw [Atomic.mirroredClass, Atomic.runOn_get_bind, same, mirrors x change]
    rfl
  rw [ran (x.during ((env.hold [o]).references ++ refs)) rfl]
  exact holds x _ change

theorem unaided_booleanArg {b : Bool} {T : Except Failure Bool → Env → World η → Prop}
    (given : call.argument? env.stack index = some (.boolean b)) (holds : T (.ok b) env w) :
    Unaided rely does w env (booleanArg call index) T := by
  have same : ((if b then 1 else 0 : Int32) != 0) = b := by cases b <;> rfl
  refine unaided_bind (unaided_bind (unaided_arg given (unaided_pure ?_)))
  dsimp only
  rw [same]
  exact unaided_pure holds

theorem unaided_slotArg {slot : Nat} {T : Except Failure Nat → Env → World η → Prop}
    (given : call.argument? env.stack index = some (.int (.ofNat slot))) (small : slot < 2 ^ 31)
    (holds : T (.ok slot) env w) : Unaided rely does w env (slotArg call index) T := by
  have natural : ¬ Int32.ofNat slot < 0 := Int32.not_lt.mpr (Int32.zero_le_ofNat_of_lt small)
  refine unaided_bind (unaided_bind (unaided_arg given (unaided_pure ?_)))
  dsimp only
  rw [if_neg natural]
  refine unaided_pure ?_
  rw [Int32.toNatClampNeg_ofNat_of_lt small]
  exact holds

end
end ManagedRuntime.Exec
