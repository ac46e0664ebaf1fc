import ManagedRuntime.Natives.Objects
import ManagedRuntime.Proofs.Execution.Services
import ManagedRuntime.Proofs.World.Canonical

/-!
Requests for interned strings, with notes where they are answered. A change forgets nothing if
strings stay strings and entries of the table stay. Main statements: without its notes a request is
the runtime's own program, and so is the native that makes one; the actions of a request forget
nothing, and after the last of them there is an entry.
-/
namespace ManagedRuntime
open World
variable {η α β : Type}

inductive InternRequest where
  | object (o : ObjectId)
  | text (s : String)
  deriving DecidableEq

structure Interned where
  request : InternRequest
  answer : Except Failure ObjectId
  deriving DecidableEq

namespace InternRequest

def run : InternRequest → Exec η ObjectId
  | object o => Exec.intern o
  | text s => Exec.internText s

def contents? (w : World η) : InternRequest → Option String
  | object o => (w.heap.get o).string?
  | text s => some s

end InternRequest

namespace Noting

def interning (r : InternRequest) : Noting η Interned ObjectId := do
  let answer ← (ofExec r.run).outcome
  note ⟨r, answer⟩
  conclude answer

theorem plain_interning (r : InternRequest) :
    (interning r : Noting η Interned ObjectId).plain = r.run := by
  rw [interning, plain_bind, plain_outcome, plain_ofExec]
  exact outcome_bind_conclude r.run

def internNative (call : NativeCall) : Noting η Interned Nat := do
  let o ← ofExec (Exec.objectArg call 0)
  let s ← interning (.object o)
  ofExec (Exec.finishRef call (some s))

theorem plain_internNative (call : NativeCall) :
    (internNative call : Noting η Interned Nat).plain = ManagedRuntime.internNative call := by
  simp only [internNative, plain_bind, plain_ofExec, plain_interning]
  rfl

end Noting

namespace World

/-- Strings are still strings with the same contents, entries of the table are still there, and the
limit on memory is the same. -/
structure Remembers (w u : World η) : Prop where
  texts : ∀ o s, (w.heap.get o).string? = some s → (u.heap.get o).string? = some s
  entries : ∀ s o, w.interned.lookup s = some o → u.interned.lookup s = some o
  limit : u.heap.accounting.maxBytes = w.heap.accounting.maxBytes

def Remembering (w u : World η) : Prop := w.Canonical → u.Canonical ∧ w.Remembers u

variable {n : Nat} {w v u : World η}

theorem Remembers.refl (w : World η) : w.Remembers w := ⟨fun _ _ => id, fun _ _ => id, rfl⟩

theorem Remembers.during (w : World η) (refs : List ObjectId) : w.Remembers (w.during refs) :=
  ⟨fun _ _ => id, fun _ _ => id, rfl⟩

theorem Remembers.trans (first : w.Remembers v) (second : v.Remembers u) : w.Remembers u where
  texts o s text := second.texts o s (first.texts o s text)
  entries s o entry := second.entries s o (first.entries s o entry)
  limit := second.limit.trans first.limit

theorem Remembers.contents? {r : InternRequest} {s : String} (remembers : w.Remembers u)
    (asked : r.contents? w = some s) : r.contents? u = some s := by
  cases r with
  | object o => exact remembers.texts o s asked
  | text t => exact asked

theorem Remembering.refl (w : World η) : w.Remembering w := fun canonical => ⟨canonical, .refl w⟩

theorem Keeps.remembers (keeps : w.Keeps n u) (same : u.interned = w.interned) : w.Remembers u where
  texts := keeps.texts
  entries _ _ entry := same ▸ entry
  limit := keeps.limit

theorem Canonical.contents_of_entry {s t : String} {o : ObjectId} (canonical : w.Canonical)
    (first : w.interned.lookup s = some o) (second : w.interned.lookup t = some o) : s = t :=
  Option.some.inj ((canonical.texts s o first).symm.trans (canonical.texts t o second))

end World

/-! Actions on the table, and actions that leave it alone. -/

namespace Atomic
variable {w u : World η}

theorem runOn_contents (w : World η) (o : ObjectId) :
    (contents o).runOn w = match (w.heap.get o).string? with
      | some s => (.ok s, w)
      | none => (.error (.notAString (w.textOf o)), w) := by
  unfold contents
  rw [runOn_get_bind]
  cases (w.heap.get o).string? <;> rfl

theorem runOn_internAs (w : World η) (s : String) (o : ObjectId) :
    (internAs s o).runOn w = match w.interned.lookup s with
      | some e => (.ok e, w)
      | none => (.ok o, { w with interned := (s, o) :: w.interned }) := by
  unfold internAs interned?
  rw [runOn_ask_bind]
  cases w.interned.lookup s <;> rfl

def SparesTable (x : Atomic η α) : Prop := x.Within fun w u => u.interned = w.interned

theorem sparesTable_bind {x : Atomic η α} {g : α → Atomic η β} (first : x.SparesTable)
    (rest : ∀ a, (g a).SparesTable) : (x >>= g).SparesTable :=
  .bind (fun first second => second.trans first) first rest

theorem sparesTable_bootClass (name : String) : (bootClass name : Atomic η _).SparesTable := by
  refine sparesTable_bind (fun w => rfl) fun found => ?_
  cases found <;> exact fun w => rfl

theorem sparesTable_allocate (x : Object) : (allocate x : Atomic η _).SparesTable := by
  intro w
  have comes := allocate_cases w x
  generalize (allocate x).runOn w = result at comes ⊢
  cases comes <;> rfl

theorem sparesTable_newString (s : String) : (newString s : Atomic η _).SparesTable := by
  refine sparesTable_bind (sparesTable_bootClass _) fun c w => ?_
  unfold newCarrier
  rw [runOn_get_bind]
  exact sparesTable_allocate _ w

theorem sparesTable_contents (o : ObjectId) : (contents o : Atomic η _).SparesTable := by
  intro w
  rw [runOn_contents]
  split <;> rfl

theorem remembering_newString (s : String) : (newString s : Atomic η _).Within Remembering := by
  intro w canonical
  have comes := yields_newString (n := 0) (H := fun _ => True) s w canonical (Nat.zero_le _) trivial
  have same := sparesTable_newString s w
  generalize (newString s).runOn w = result at comes same ⊢
  cases comes with
  | ok keeps _ | exhausted keeps _ => exact ⟨keeps.canonical, keeps.remembers same⟩

theorem remembering_link (m : Method) : (link m : Atomic η _).Within Remembering := by
  intro w
  unfold link
  rw [runOn_get_bind]
  split
  · exact .refl w
  · split
    · rename_i f _
      intro canonical
      have keeps : w.Keeps 0 { w with registry := w.registry.modifyState m.owner fun s =>
          { s with bound := (m.slot, f) :: s.bound } } := by
        refine canonical.ofRegistry (canonical.built.modifyState _ _) (.modifyState _ _) ?_
        intro c o mirror
        rw [Registry.state_modifyState] at mirror
        split at mirror <;> exact canonical.mirrors c o mirror
      exact ⟨keeps.canonical, keeps.remembers rfl⟩
    · exact .refl w
    · exact .refl w

/-- An entry is added where there is none. -/
theorem remembering_internAs {s : String} {o : ObjectId}
    (text : (w.heap.get o).string? = some s) : w.Remembering ((internAs s o).runOn w).2 := by
  rw [runOn_internAs]
  cases found : w.interned.lookup s with
  | some e => exact .refl w
  | none =>
    intro canonical
    refine ⟨(canonical.ofInterned (n := 0) text).canonical, fun _ _ => id, fun t p entry => ?_, rfl⟩
    dsimp only
    rw [List.lookup_cons]
    split
    · rename_i same
      rw [beq_iff_eq.mp same, found] at entry
      cases entry
    · exact entry

theorem entry_internAs {s : String} {o : ObjectId} :
    ∃ e, ((internAs s o).runOn w).1 = .ok e ∧
      ((internAs s o).runOn w).2.interned.lookup s = some e := by
  rw [runOn_internAs]
  cases found : w.interned.lookup s with
  | some e => exact ⟨e, rfl, found⟩
  | none => exact ⟨o, rfl, by simp⟩

end Atomic

/-! Programs that use interned strings. -/

namespace Exec
variable {R : World η → World η → Prop} (refl : ∀ w, R w w)
include refl

theorem within_unexpected (call : NativeCall) (index : Nat) (expected : String) (found : Value) :
    Within R (unexpected call index expected found : Exec η α) :=
  within_bind (within_ask refl _) fun _ => within_throw _

omit refl in
theorem within_arg (call : NativeCall) (index : Nat) : Within R (arg call index) := by
  unfold arg
  split
  · exact within_throw _
  refine within_get_bind fun e => ?_
  dsimp only
  split
  · exact within_bind (within_modify _) fun _ => within_pure _
  · exact within_throw _

theorem within_objectArg (call : NativeCall) (index : Nat) : Within R (objectArg call index) := by
  refine within_bind (within_bind (within_arg call index) fun a => ?_) fun r => ?_
  · cases a with
    | ref r => exact within_pure r
    | _ => exact within_unexpected refl call index "reference" _
  · cases r with
    | some o => exact within_pure o
    | none => exact within_throw _

omit refl in
theorem within_finish (call : NativeCall) (result : Option Value) :
    Within R (finish call result) :=
  within_bind (within_onEnv _) fun _ => within_get_bind fun _ => within_pure _

end Exec

namespace Noting

theorem uses_callMethod (m : Method) (args : List Value) :
    Uses Remembering interning (ofExec (Exec.callMethod m args) : Noting η Interned _) :=
  uses_ofExec (Exec.within_callMethod Atomic.remembering_link m args)

theorem uses_internNative (call : NativeCall) :
    Uses Remembering interning (internNative call : Noting η Interned Nat) :=
  uses_bind (uses_ofExec (Exec.within_objectArg Remembering.refl call 0)) fun _ =>
    uses_bind (uses_request _) fun _ => uses_ofExec (Exec.within_finish call _)

end Noting
end ManagedRuntime
