import ManagedRuntime.Natives.Classes
import ManagedRuntime.Proofs.Execution.StackNeutrality
import ManagedRuntime.Proofs.World.Mirrors

/-!
Definitions of classes from class files, as managed code asks for them. The class is entered first,
and its mirror, which keeps the protection domain, is made afterwards. Main statement: a definition
that fails leaves all lookups for its loader as they were, unless the class had been entered when
the memory for the mirror ran out; one that succeeds has entered the class, and the mirror that it
returns keeps the protection domain.
-/
namespace ManagedRuntime
variable {η α β : Type}

namespace Exec
open Atomic Registry
variable {code : Code η} {w v u : World η} {env d e : Env} {call : NativeCall} {index : Nat}

def still (w x : World η) : Prop := x = w

structure Kept (w : World η) (env : Env) (e : Env) (u : World η) : Prop where
  registry : u.registry = w.registry
  heap : u.heap = w.heap
  domainOffset : u.domainOffset = w.domainOffset
  stack : e.stack = env.stack

theorem Kept.refl (w : World η) (env : Env) : Kept w env env w := ⟨rfl, rfl, rfl, rfl⟩

theorem Kept.trans (first : Kept w env d v) (second : Kept v d e u) : Kept w env e u where
  registry := second.registry.trans first.registry
  heap := second.heap.trans first.heap
  domainOffset := second.domainOffset.trans first.domainOffset
  stack := second.stack.trans first.stack

theorem Kept.keepsDomains (kept : Kept w env e u) (keeps : w.KeepsDomains) : u.KeepsDomains := by
  have later : Later w.registry u.registry := kept.registry ▸ .refl _
  exact keeps.later (kept.registry ▸ keeps.built) later kept.domainOffset

def Inert (code : Code η) (x : Exec η α) : Prop :=
  ∀ ⦃w env r e u⦄, Ends code still w env x r e u → Kept w env e u

theorem Inert.bind {x : Exec η α} {g : α → Exec η β} (first : Inert code x)
    (rest : ∀ a, Inert code (g a)) : Inert code (x >>= g) := by
  intro w env r e u ends
  rcases ends_bind.mp ends with ⟨f, failed, -⟩ | ⟨a, d, v, ended, later⟩
  · exact first failed
  · exact (first ended).trans (rest a later)

theorem inert_pure (a : α) : Inert code (pure a : Exec η α) := by
  intro w env r e u ends
  obtain ⟨-, rfl, rfl⟩ := ends_pure.mp ends
  exact .refl u e

theorem inert_throw (f : Failure) : Inert code (throw f : Exec η α) := by
  intro w env r e u ends
  obtain ⟨-, rfl, rfl⟩ := ends_throw.mp ends
  exact .refl u e

theorem inert_act {x : Atomic η α}
    (looks : ∀ w : World η, (x.runOn w).2.registry = w.registry ∧ (x.runOn w).2.heap = w.heap ∧
      (x.runOn w).2.domainOffset = w.domainOffset) : Inert code (act x) := by
  intro w env r e u ends
  obtain ⟨y, refs, rfl, ran, rfl⟩ := ends_act.mp ends
  obtain ⟨registry, heap, offset⟩ := looks (y.during (env.references ++ refs))
  rw [ran] at registry heap offset
  exact ⟨registry, heap, offset, rfl⟩

theorem inert_ask (f : World η → α) : Inert code (act (Atomic.ask f)) :=
  inert_act fun _ => ⟨rfl, rfl, rfl⟩

theorem ends_arg {r : Except Failure Value} (ends : Ends code still w env (arg call index) r e u) :
    Kept w env e u ∧ ∀ v, call.argument? env.stack index = some v → r = .ok v := by
  unfold arg at ends
  unfold NativeCall.argument?
  cases found : call.method.layout.params[index]? with
  | none =>
    rw [found] at ends
    obtain ⟨rfl, rfl, rfl⟩ := ends_throw.mp ends
    exact ⟨.refl _ _, nofun⟩
  | some p =>
    rw [found] at ends
    simp only [ends_get_bind] at ends
    simp only [Option.bind_some]
    cases value : env.stack.read (call.base + p.offset) p.type with
    | none =>
      rw [value] at ends
      obtain ⟨rfl, rfl, rfl⟩ := ends_throw.mp ends
      exact ⟨.refl _ _, nofun⟩
    | some v =>
      rw [value] at ends
      dsimp only [hold] at ends
      have rest := ends_modify_bind.mp ends
      obtain ⟨rfl, rfl, rfl⟩ := ends_pure.mp rest
      refine ⟨⟨rfl, rfl, rfl, rfl⟩, fun v' same => ?_⟩
      cases same
      rfl

theorem inert_arg : Inert code (arg call index) := fun _ _ _ _ _ ends => (ends_arg ends).1

theorem inert_unexpected (expected : String) (found : Value) :
    Inert code (unexpected call index expected found : Exec η α) :=
  (inert_ask _).bind fun _ => inert_throw _

theorem inert_referenceArg : Inert code (referenceArg call index) := by
  refine inert_arg.bind fun v => ?_
  cases v with
  | ref r => exact inert_pure r
  | _ => exact inert_unexpected _ _

theorem inert_intArg : Inert code (intArg call index) := by
  refine inert_arg.bind fun v => ?_
  cases v with
  | int v | short v | byte v | char v | boolean v => exact inert_pure _
  | _ => exact inert_unexpected _ _

theorem ends_referenceArg {r : Except Failure Reference} {x : Reference}
    (given : call.argument? env.stack index = some (.ref x))
    (ends : Ends code still w env (referenceArg call index) r e u) : r = .ok x := by
  rcases ends_bind.mp ends with ⟨f, failed, -⟩ | ⟨v, d, w', read, rest⟩
  · cases (ends_arg failed).2 _ given
  · cases (ends_arg read).2 _ given
    exact (ends_pure.mp rest).1

/-! Entering a class. -/

/-- The loader finds the same classes under all names but those of arrays. -/
def Untouched (before : Registry) (u : World η) (loader : Reference) : Prop :=
  ∀ name, isArrayName name = false →
    u.registry.find? name loader = before.find? name loader

/-- Class `c` has been entered, and the memory for its mirror has run out. -/
structure Stranded (before : Registry) (u : World η) (loader : Reference) (c : ClassId)
    (f : Failure) : Prop where
  adds : before.Adds (u.cls c).name loader c u.registry
  bare : (u.registry.state c).mirror = none
  exhausted : ∃ k, u.registry.find? "java/lang/Class" none = some k ∧
    u.heap.accounting.fits (Heap.newCarrier u.registry k (.mirror c)).bytes = false ∧
    f = .heapExhausted (Heap.newCarrier u.registry k (.mirror c)).bytes
      u.heap.accounting.liveBytes u.heap.accounting.maxBytes

structure Completed (before : Registry) (u : World η) (loader domain : Reference) (c : ClassId)
    (m : ObjectId) : Prop where
  adds : before.Adds (u.cls c).name loader c u.registry
  mirror : (u.registry.state c).mirror = some m
  domain : u.heap.readField m u.domainOffset none = some (.ref domain)

inductive Settles (before : Registry) (u : World η) (loader domain : Reference)
    (named : String → Prop) : Except Failure ObjectId → Prop
  | refused {f : Failure} (untouched : Untouched before u loader) :
      Settles before u loader domain named (.error f)
  | stranded {f : Failure} {c : ClassId} (stranded : Stranded before u loader c f) :
      Settles before u loader domain named (.error f)
  | completed {c : ClassId} {m : ObjectId} (completed : Completed before u loader domain c m)
      (name : named (u.cls c).name) : Settles before u loader domain named (.ok m)

theorem Stranded.not_untouched {loader : Reference} {c : ClassId} {f : Failure}
    (stranded : Stranded w.registry u loader c f) : ¬ Untouched w.registry u loader := by
  intro same
  have found := stranded.adds.built.keyed.find?_iff.mpr stranded.adds.known
  rw [same _ stranded.adds.plain, stranded.adds.unknown] at found
  cases found

theorem ends_storeDomain {m : ObjectId} {domain : Reference} {r : Except Failure PUnit}
    (inside : w.domainOffset < (w.heap.get m).fields.size)
    (ends : Ends code still w env
      (discard (act do Atomic.writeField m (← get).domainOffset (.ref domain))) r e u) :
    r = .ok () ∧ e.stack = env.stack ∧ u.registry = w.registry ∧
      u.heap.readField m u.domainOffset none = some (.ref domain) := by
  obtain ⟨q, wrote, rfl⟩ := ends_discard.mp ends
  obtain ⟨y, refs, rfl, stored, rfl⟩ := ends_act.mp wrote
  rw [runOn_get_bind] at stored
  obtain ⟨heap, ran, kept⟩ :=
    writeField_ref (w := y.during (env.references ++ refs)) domain inside
  cases ran.symm.trans stored
  exact ⟨rfl, rfl, rfl, kept⟩

def keepDomain (c : ClassId) (domain : Reference) : Exec η ObjectId := do
  let m ← act (Atomic.mirror c)
  discard (act do Atomic.writeField m (← get).domainOffset (.ref domain))
  return m

theorem ends_keepDomain (keeps : w.KeepsDomains) {c : ClassId} {domain : Reference}
    (bare : (w.registry.state c).mirror = none) {r : Except Failure ObjectId}
    (ends : Ends code still w env (keepDomain c domain) r e u) :
    e.stack = env.stack ∧
      ((∃ k f, r = .error f ∧ u.registry = w.registry ∧
          w.registry.find? "java/lang/Class" none = some k ∧
          u.heap.accounting.fits (Heap.newCarrier w.registry k (.mirror c)).bytes = false ∧
          f = .heapExhausted (Heap.newCarrier w.registry k (.mirror c)).bytes
            u.heap.accounting.liveBytes u.heap.accounting.maxBytes) ∨
        ∃ m, r = .ok m ∧
          u.registry = w.registry.modifyState c ({ · with mirror := some m }) ∧
          u.heap.readField m u.domainOffset none = some (.ref domain)) := by
  obtain ⟨k, boot, room⟩ := keeps.room
  rcases ends_bind.mp ends with ⟨f, failed, rfl⟩ | ⟨m, e₁, v, mirrored, rest⟩
  · obtain ⟨y, refs, rfl, ran, rfl⟩ := ends_act.mp failed
    have comes := mirror_cases (w := y.during (env.references ++ refs)) bare boot
    rw [ran] at comes
    cases comes with
    | exhausted registry full => exact ⟨rfl, .inl ⟨k, _, rfl, registry, boot, full, rfl⟩⟩
  obtain ⟨y, refs, rfl, ran, rfl⟩ := ends_act.mp mirrored
  have comes := mirror_cases (w := y.during (env.references ++ refs)) bare boot
  rw [ran] at comes
  cases comes with
  | made registry offset object =>
  have inside : v.domainOffset < (v.heap.get m).fields.size := by
    rw [offset, object]
    exact room
  rcases ends_bind.mp rest with ⟨f, wrote, rfl⟩ | ⟨_, e₂, v', wrote, rest⟩
  · cases (ends_storeDomain inside wrote).1
  · obtain ⟨-, stack, same, kept⟩ := ends_storeDomain inside wrote
    obtain ⟨rfl, rfl, rfl⟩ := ends_pure.mp rest
    exact ⟨stack, .inr ⟨m, rfl, same.trans registry, kept⟩⟩

theorem ends_enter (keeps : w.KeepsDomains) {d : ClassDef} {loader domain : Reference}
    {r : Except Failure ObjectId}
    (ends : Ends code still w env
      (do let c ← act (Atomic.defineClass d loader); keepDomain c domain) r e u) :
    e.stack = env.stack ∧ Settles w.registry u loader domain (· = d.name) r := by
  rcases ends_bind.mp ends with ⟨f, failed, rfl⟩ | ⟨c, e₁, v, defined, rest⟩
  · obtain ⟨y, refs, rfl, ran, rfl⟩ := ends_act.mp failed
    have comes := defineClass_cases (w := y.during (env.references ++ refs)) keeps.built d loader
    rw [ran] at comes
    refine ⟨rfl, .refused ?_⟩
    cases comes with
    | refused widens built => exact fun name plain => widens.find? plain loader
  obtain ⟨y, refs, rfl, ran, rfl⟩ := ends_act.mp defined
  have comes := defineClass_cases (w := y.during (env.references ++ refs)) keeps.built d loader
  rw [ran] at comes
  cases comes with
  | @defined c r' adds bare =>
  have keeps' : World.KeepsDomains { y.during (env.references ++ refs) with registry := r' } :=
    keeps.later adds.built adds.later rfl
  have name := adds.known.name
  obtain ⟨stack, ⟨k, f, rfl, same, boot, full, exhausted⟩ | ⟨m, rfl, registry, kept⟩⟩ :=
    ends_keepDomain keeps' bare rest
  · refine ⟨stack, .stranded (c := c) ⟨?_, ?_, k, ?_, ?_, ?_⟩⟩
    · rw [World.cls, same]
      exact name.symm ▸ adds
    · rw [same]
      exact bare
    · rw [same]
      exact boot
    · rw [same]
      exact full
    · rw [same]
      exact exhausted
  · have adds' := adds.modifyState ({ · with mirror := some m })
    have name' : (u.cls c).name = d.name := by
      rw [World.cls, registry]
      exact adds'.known.name
    refine ⟨stack, .completed (c := c) ⟨?_, ?_, kept⟩ name'⟩
    · rw [name', registry]
      exact adds'
    · rw [registry, state_modifyState, if_pos ⟨rfl, adds.known.there⟩]

/-! The native. -/

theorem Inert.step {x : Exec η α} {g : α → Exec η β} {r : Except Failure β} (inert : Inert code x)
    (ends : Ends code still w env (x >>= g) r e u) :
    (∃ f, r = .error f ∧ Kept w env e u) ∨
      ∃ a d v, Ends code still w env x (.ok a) d v ∧ Kept w env d v ∧
        Ends code still v d (g a) r e u := by
  rcases ends_bind.mp ends with ⟨f, failed, rfl⟩ | ⟨a, d, v, ended, rest⟩
  · exact .inl ⟨f, rfl, inert failed⟩
  · exact .inr ⟨a, d, v, ended, inert ended, rest⟩

theorem inert_bytesWithin (array : Reference) (offset length : Int32) :
    Inert code (act do bytesWithin (← get) array offset length) := by
  refine inert_act fun w => ?_
  rw [runOn_get_bind]
  cases bytesWithin w array offset length <;> exact ⟨rfl, rfl, rfl⟩

theorem inert_parseClass (name : Option String) (bytes : ByteArray) :
    Inert code (act (Atomic.parseClass name bytes)) := by
  refine inert_act fun w => ?_
  rw [parseClass, runOn_ofFunction]
  split <;> exact ⟨rfl, rfl, rfl⟩

def Expected (w : World η) (nameObject : Reference) (name : String) : Prop :=
  ∀ o s, nameObject = some o → (w.heap.get o).string? = some s → name = slashed s

theorem ends_defineFromBytes (keeps : w.KeepsDomains) {loader nameObject array domain : Reference}
    {offset length : Int32} {r : Except Failure ObjectId}
    (given : call.argument? env.stack index = some (.ref domain))
    (ends : Ends code still w env
      (defineFromBytes loader nameObject array offset length (referenceArg call index)) r e u) :
    e.stack = env.stack ∧ Settles w.registry u loader domain (Expected w nameObject) r := by
  have refused {d : Env} {v : World η} (kept : Kept w env d v)
      (failed : ∃ f, r = .error f ∧ Kept v d e u) :
      e.stack = env.stack ∧ Settles w.registry u loader domain (Expected w nameObject) r := by
    obtain ⟨f, rfl, after⟩ := failed
    have all := kept.trans after
    exact ⟨all.stack, .refused fun name _ => by rw [all.registry]⟩
  unfold defineFromBytes at ends
  rcases (inert_ask _).step ends with failed | ⟨name, e₁, v₁, asked, kept, ends⟩
  · exact refused (.refl w env) failed
  rcases (inert_bytesWithin _ _ _).step ends with failed | ⟨bytes, e₂, v₂, -, kept', ends⟩
  · exact refused kept failed
  replace kept := kept.trans kept'
  rcases inert_referenceArg.step ends with failed | ⟨domain', e₃, v₃, read, kept', ends⟩
  · exact refused kept failed
  rw [← kept.stack] at given
  cases ends_referenceArg given read
  replace kept := kept.trans kept'
  rcases (inert_parseClass _ _).step ends with failed | ⟨d, e₄, v₄, -, kept', ends⟩
  · exact refused kept failed
  replace kept := kept.trans kept'
  have isName : name = (nameObject.bind fun o => (w.heap.get o).string?).map slashed := by
    obtain ⟨⟨y, refs, rfl, rfl⟩, same, -⟩ := ends_ask.mp asked
    cases same
    rfl
  -- the class is entered once its name has turned out to be the expected one
  have entered (named : Expected w nameObject d.name)
      (ends : Ends code still v₄ e₄
        (do let c ← act (Atomic.defineClass d loader); keepDomain c domain) r e u) :
      e.stack = env.stack ∧ Settles w.registry u loader domain (Expected w nameObject) r := by
    obtain ⟨stack, settles⟩ := ends_enter (kept.keepsDomains keeps) ends
    rw [kept.registry] at settles
    refine ⟨stack.trans kept.stack, ?_⟩
    cases settles with
    | refused untouched => exact .refused untouched
    | stranded stranded => exact .stranded stranded
    | completed completed name => exact .completed completed (name ▸ named)
  cases name with
  | none =>
    refine entered (fun o s object text => ?_) ends
    rw [object, Option.bind_some, text] at isName
    cases isName
  | some expected =>
    by_cases same : expected = d.name
    · dsimp only at ends
      rw [if_neg (not_not_intro same)] at ends
      refine entered (fun o s object text => ?_) ends
      rw [object, Option.bind_some, text] at isName
      cases isName
      exact same.symm
    · dsimp only at ends
      rw [if_pos same] at ends
      obtain ⟨rfl, rfl, rfl⟩ := ends_throw_bind.mp ends
      exact refused kept ⟨_, rfl, .refl _ _⟩

theorem base_lt_of_argument {s : OperandStack} {v : Value}
    (given : call.argument? s index = some v) : call.base < s.size := by
  obtain ⟨p, -, read⟩ := Option.bind_eq_some_iff.mp given
  refine Nat.lt_of_not_le fun outside => ?_
  have none (i : Nat) (above : s.size ≤ i) : s.slots[i]? = none := Array.getElem?_eq_none above
  rw [OperandStack.read, Slot.readAt, none _ (by omega), none _ (by omega)] at read
  cases type : p.type with
  | none =>
    rw [type] at read
    cases read
  | some t =>
    rw [type] at read
    cases t <;> cases read

theorem ends_finishRef {o : Reference} {r : Except Failure Nat}
    (inside : call.base < env.stack.size) (fits : env.stack.size ≤ env.stack.capacity)
    (ends : Ends code still w env (finishRef call o) r e u) :
    (∃ top, r = .ok top) ∧ u = w ∧ e.stack.read call.base none = some (.ref o) := by
  have size : (env.stack.slots.take call.base).size = call.base := by
    have length := congrArg List.length (env.stack.toList_truncate call.base)
    rw [Array.length_toList, List.length_take, Array.length_toList] at length
    exact length.trans (Nat.min_eq_left (Nat.le_of_lt inside))
  have room : (env.stack.truncate call.base).size + [Slot.ref o].length ≤
      (env.stack.truncate call.base).capacity := by
    have capacity : (env.stack.truncate call.base).capacity = env.stack.capacity := rfl
    have height : (env.stack.truncate call.base).size = call.base := size
    rw [height, capacity, List.length_singleton]
    omega
  have placed : env.replaceFrom call.base [.ref o] = (.ok (), { env with
      stack := ⟨env.stack.slots.take call.base ++ #[.ref o], env.stack.capacity⟩ }) := by
    rw [Env.replaceFrom, OperandStack.pushAll_of_room _ _ room]
    rfl
  have replaced {q : Except Failure Unit} {d : Env} {v : World η}
      (ended : Ends code still w env (onEnv (·.replaceFrom call.base
        (((some (Value.ref o)).map Value.slots).getD []))) q d v) :
      q = .ok () ∧ d.stack = ⟨env.stack.slots.take call.base ++ #[.ref o], env.stack.capacity⟩ ∧
        v = w := by
    obtain ⟨same, rfl⟩ := ends_onEnv.mp ended
    cases same.trans placed
    exact ⟨rfl, rfl, rfl⟩
  rcases ends_bind.mp ends with ⟨f, failed, -⟩ | ⟨_, d, v, done, rest⟩
  · cases (replaced failed).1
  · obtain ⟨-, stack, rfl⟩ := replaced done
    have ended := ends_get_bind.mp rest
    obtain ⟨rfl, rfl, rfl⟩ := ends_pure.mp ended
    refine ⟨⟨_, rfl⟩, rfl, ?_⟩
    have here : (env.stack.slots.take call.base ++ #[Slot.ref o])[call.base]? = some (.ref o) := by
      rw [Array.getElem?_append_right (Nat.le_of_eq size), size, Nat.sub_self]
      rfl
    rw [stack, OperandStack.read, Slot.readAt, here]
    cases (env.stack.slots.take call.base ++ #[Slot.ref o])[call.base + 1]? <;> rfl

/-- A definition that fails leaves what its loader finds as it was if and only if it was not
stranded: the class had not been entered when the memory for its mirror ran out. One that succeeds
has entered the class for the loader, under the name that was asked for, and returns the mirror,
which keeps the protection domain. -/
theorem defineClass_atomic_iff (keeps : w.KeepsDomains) {loader name domain : Reference}
    (givenLoader : call.argument? env.stack 0 = some (.ref loader))
    (givenName : call.argument? env.stack 1 = some (.ref name))
    (givenDomain : call.argument? env.stack 5 = some (.ref domain))
    (fits : env.stack.size ≤ env.stack.capacity) {r : Except Failure Nat}
    (ends : Ends code still w env (LoaderNative.run .defineClass call) r e u) :
    (∀ f, r = .error f →
      (Untouched w.registry u loader ↔ ¬ ∃ c, Stranded w.registry u loader c f)) ∧
    ∀ top, r = .ok top → ∃ c m, Completed w.registry u loader domain c m ∧
      Expected w name (u.cls c).name ∧ e.stack.read call.base none = some (.ref (some m)) := by
  have inside := base_lt_of_argument givenLoader
  -- until the class is entered nothing is done but looking
  have refused {d : Env} {v : World η} (kept : Kept w env d v)
      (failed : ∃ f, r = .error f ∧ Kept v d e u) :
      (∀ f, r = .error f →
        (Untouched w.registry u loader ↔ ¬ ∃ c, Stranded w.registry u loader c f)) ∧
      ∀ top, r = .ok top → ∃ c m, Completed w.registry u loader domain c m ∧
        Expected w name (u.cls c).name ∧ e.stack.read call.base none = some (.ref (some m)) := by
    obtain ⟨f, rfl, after⟩ := failed
    have same : Untouched w.registry u loader := fun name _ => by rw [(kept.trans after).registry]
    exact ⟨fun g _ => ⟨fun _ ⟨c, stranded⟩ => stranded.not_untouched same, fun _ => same⟩, nofun⟩
  unfold LoaderNative.run at ends
  rcases inert_referenceArg.step ends with failed | ⟨loader', e₁, v₁, read, kept, ends⟩
  · exact refused (.refl w env) failed
  cases ends_referenceArg givenLoader read
  rcases inert_referenceArg.step ends with failed | ⟨name', e₂, v₂, read, kept', ends⟩
  · exact refused kept failed
  rw [← kept.stack] at givenName
  cases ends_referenceArg givenName read
  replace kept := kept.trans kept'
  rcases inert_referenceArg.step ends with failed | ⟨array, e₃, v₃, -, kept', ends⟩
  · exact refused kept failed
  replace kept := kept.trans kept'
  rcases inert_intArg.step ends with failed | ⟨offset, e₄, v₄, -, kept', ends⟩
  · exact refused kept failed
  replace kept := kept.trans kept'
  rcases inert_intArg.step ends with failed | ⟨length, e₅, v₅, -, kept', ends⟩
  · exact refused kept failed
  replace kept := kept.trans kept'
  rw [← kept.stack] at givenDomain
  have settled {q : Except Failure ObjectId} {d : Env} {v : World η}
      (ends : Ends code still v₅ e₅ (defineFromBytes loader name array offset length
        (referenceArg call 5)) q d v) :
      d.stack = env.stack ∧ Settles w.registry v loader domain (Expected w name) q := by
    obtain ⟨stack, settles⟩ := ends_defineFromBytes (kept.keepsDomains keeps) givenDomain ends
    have expected : Expected v₅ name = Expected w name := by
      unfold Expected
      rw [kept.heap]
    rw [expected, kept.registry] at settles
    exact ⟨stack.trans kept.stack, settles⟩
  rcases ends_bind.mp ends with ⟨f, failed, rfl⟩ | ⟨m, d, v, defined, rest⟩
  · refine ⟨fun g same => ?_, nofun⟩
    cases same
    cases (settled failed).2 with
    | refused same =>
      exact ⟨fun _ ⟨c, stranded⟩ => stranded.not_untouched same, fun _ => same⟩
    | stranded stranded =>
      exact ⟨fun same => absurd same stranded.not_untouched, fun none => absurd ⟨_, stranded⟩ none⟩
  · obtain ⟨stack, settles⟩ := settled defined
    rw [← stack] at inside fits
    obtain ⟨⟨top, rfl⟩, rfl, result⟩ := ends_finishRef inside fits rest
    cases settles with
    | completed completed named =>
      exact ⟨nofun, fun _ _ => ⟨_, m, completed, named, result⟩⟩

/-! A definition for which there is no memory, and one for which there is. -/

def mirrorRegistry : Registry :=
  let root := (Registry.empty.define (ClassDef.named Registry.rootName).root none).2
  (root.define ((ClassDef.named "java/lang/Class").field Boot.domainField Boot.domainDescriptor
    .empty) none).2

def parsingWorld (maxBytes : Nat) : World Unit :=
  { Boot.initialWorld .silent mirrorRegistry 0 with
    parser := some fun _ _ _ => (.ok (.named "T"), ())
    heap := { Heap.empty maxBytes 0 with objects := #[
      { cls := ⟨9⟩, fields := #[], payload := .array ⟨.byte, #[]⟩ },
      { cls := ⟨9⟩, fields := #[], payload := .plain }] } }

theorem keepsDomains_parsingWorld (maxBytes : Nat) : (parsingWorld maxBytes).KeepsDomains where
  built := by
    have built : mirrorRegistry.Built := by
      unfold mirrorRegistry
      exact (Registry.Built.empty.define _ _).define _ _
    exact built
  room := by
    have found : mirrorRegistry.find? "java/lang/Class" none = some ⟨10⟩ := by decide +kernel
    have room : 0 < (mirrorRegistry.cls ⟨10⟩).template.length := by decide +kernel
    exact ⟨⟨10⟩, found, room⟩

def defineCall : NativeCall where
  base := 0
  method := ⟨⟨9⟩, "java/lang/VMClassLoader", "defineClass", "",
    ⟨[.object "java/lang/ClassLoader", .object "java/lang/String", .array (.primitive .byte),
      .primitive .int, .primitive .int, .object "java/security/ProtectionDomain"],
      some (.object "java/lang/Class")⟩, .isStatic ||| .isNative, 0⟩

def defineEnv : Env :=
  { Env.new ⟨0⟩ 8 with
    stack := ⟨#[.ref none, .ref none, .ref (some ⟨0⟩), .int 0, .int 0, .ref (some ⟨1⟩)], 8⟩ }

def noMethods : Code Unit where
  execute _ _ := throw .nullReference
  native _ _ := throw .nullReference

/-- The definition fails for lack of memory, and the class is there. -/
theorem defined_without_mirror :
    (parsingWorld 100).KeepsDomains ∧ isArrayName "T" = false ∧
      (parsingWorld 100).registry.find? "T" none = none ∧
      ∃ e u, Ends noMethods still (parsingWorld 100) defineEnv
          (LoaderNative.run .defineClass defineCall) (.error (.heapExhausted 192 0 100)) e u ∧
        u.registry.find? "T" none = some ⟨11⟩ := by
  refine ⟨keepsDomains_parsingWorld 100, by decide +kernel, by decide +kernel, ?_⟩
  let ended := ((LoaderNative.run .defineClass defineCall).runIn defineEnv).runAlone noMethods 64
    (parsingWorld 100)
  have result : ended.map (fun r => (r.1.1, r.2.registry.find? "T" none)) =
      some (.error (.heapExhausted 192 0 100), some ⟨11⟩) := by
    decide +kernel
  obtain ⟨⟨⟨r, e⟩, u⟩, run, same⟩ := Option.map_eq_some_iff.mp result
  obtain ⟨rfl, found⟩ := Prod.mk.inj same
  have still_refl (w : World Unit) : still w w := rfl
  exact ⟨e, u, Task.runs_of_runAlone still_refl run, found⟩

theorem defined_with_mirror :
    ∃ e u c m, Ends noMethods still (parsingWorld 0) defineEnv
        (LoaderNative.run .defineClass defineCall) (.ok 1) e u ∧
      Completed (parsingWorld 0).registry u none (some ⟨1⟩) c m ∧
      e.stack.read defineCall.base none = some (.ref (some m)) := by
  let ended := ((LoaderNative.run .defineClass defineCall).runIn defineEnv).runAlone noMethods 64
    (parsingWorld 0)
  have result : ended.map (·.1.1) = some (.ok 1) := by decide +kernel
  obtain ⟨⟨⟨r, e⟩, u⟩, run, same⟩ := Option.map_eq_some_iff.mp result
  cases same
  have still_refl (w : World Unit) : still w w := rfl
  have ends : Ends noMethods still (parsingWorld 0) defineEnv
      (LoaderNative.run .defineClass defineCall) (.ok 1) e u := Task.runs_of_runAlone still_refl run
  have loader : defineCall.argument? defineEnv.stack 0 = some (.ref none) := by decide
  have name : defineCall.argument? defineEnv.stack 1 = some (.ref none) := by decide
  have domain : defineCall.argument? defineEnv.stack 5 = some (.ref (some ⟨1⟩)) := by decide
  have fits : defineEnv.stack.size ≤ defineEnv.stack.capacity := by decide
  obtain ⟨-, completed⟩ := defineClass_atomic_iff (keepsDomains_parsingWorld 0) loader name domain
    fits ends
  obtain ⟨c, m, completed, -, result⟩ := completed 1 rfl
  exact ⟨e, u, c, m, ends, completed, result⟩

end Exec
end ManagedRuntime
