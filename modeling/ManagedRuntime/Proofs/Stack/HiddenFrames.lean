import ManagedRuntime.Proofs.Class.Links
import ManagedRuntime.Proofs.Stack.CallerIdentity

/-!
Which frames a caller query passes over as frames of a trampoline. A frame is classified by the name
of its class, and a loader may define a class of any name. Main statement: a query keeps to classes
of the bootstrap loader exactly if no other loader has defined, under the name of a trampoline
class, a class with methods.
-/
namespace ManagedRuntime

def Registry.Declares (r : Registry) (m : Method) : Prop := m ∈ (r.cls m.owner).methods

instance (r : Registry) (m : Method) : Decidable (r.Declares m) :=
  inferInstanceAs (Decidable (m ∈ (r.cls m.owner).methods))

namespace StackWalker
variable (w : StackWalker)

inductive Query where
  | callingClass
  | classContext

def Query.start : Query → FrameChain → FrameChain
  | callingClass => asking
  | classContext => id

/-- The real caller is all that the queries use of the chain they start from. -/
theorem answers (frames : FrameChain) :
    w.callingMethod? frames =
        (w.realCaller (Query.callingClass.start frames)).head?.bind Frame.method? ∧
      w.context frames = (w.realCaller (Query.classContext.start frames)).methods := by
  refine ⟨?_, rfl⟩
  rw [callingMethod?, Query.start]
  split
  · rename_i nobody
    rw [nobody]
    rfl
  · rfl

/-- The frame of `m` is one of those that a query passes over on its way to the real caller. -/
def Skips (q : Query) (frames : FrameChain) (m : Method) : Prop :=
  ∃ above, (q.start frames).tail = above ++ w.realCaller (q.start frames) ∧ .real m ∈ above

theorem dropMachinery_eq (fs : FrameChain) : w.dropMachinery fs = fs.dropWhile w.isMachinery := by
  induction fs with
  | nil => rfl
  | cons f fs ih =>
    cases f with
    | boundary => rw [dropMachinery, ih, List.dropWhile_cons_of_pos (by rfl)]
    | real m => rw [dropMachinery, List.dropWhile_cons, isMachinery, ih]

theorem skips_iff {q : Query} {frames : FrameChain} {m : Method} :
    w.Skips q frames m ↔ ∃ above below, (q.start frames).tail = above ++ .real m :: below ∧
      (∀ f ∈ above, w.isMachinery f = true) ∧ w.isTrampoline m = true := by
  let passed := (q.start frames).tail.takeWhile w.isMachinery
  have cut : (q.start frames).tail = passed ++ w.realCaller (q.start frames) := by
    rw [realCaller, dropMachinery_eq, List.takeWhile_append_dropWhile]
  have machinery : ∀ f ∈ passed, w.isMachinery f = true := List.all_eq_true.mp List.all_takeWhile
  constructor
  · rintro ⟨above, split, member⟩
    obtain rfl : above = passed := List.append_cancel_right (split.symm.trans cut)
    obtain ⟨first, rest, here⟩ := List.append_of_mem member
    refine ⟨first, rest ++ w.realCaller (q.start frames), ?_, ?_, machinery _ member⟩
    · rw [cut, here, List.append_assoc, List.cons_append]
    · intro f earlier
      exact machinery f (here ▸ List.mem_append_left _ earlier)
  · rintro ⟨above, below, split, machinery, tramp⟩
    refine ⟨passed, cut, ?_⟩
    have here : w.isMachinery (.real m) = true := tramp
    simp only [passed]
    rw [split, List.takeWhile_append_of_pos machinery, List.takeWhile_cons_of_pos here]
    simp

theorem mem_start {q : Query} {frames : FrameChain} {f : Frame} (member : f ∈ q.start frames) :
    f ∈ frames := by
  cases q with
  | callingClass =>
    match frames with
    | _ :: .boundary :: .real _ :: _ => exact .tail _ (.tail _ member)
    | _ :: .real _ :: _ => exact .tail _ member
    | [] | [_] | [_, .boundary] | _ :: .boundary :: .boundary :: _ => cases member
  | classContext => exact member

theorem realCaller_suffix (frames : FrameChain) : w.realCaller frames <:+ frames := by
  rw [realCaller, dropMachinery_eq]
  exact (List.dropWhile_suffix _).trans (List.tail_suffix _)

theorem context_suffix (frames : FrameChain) : w.context frames <:+ frames.methods :=
  (w.realCaller_suffix frames).filterMap Frame.method?

theorem callingMethod?_mem {frames : FrameChain} {m : Method}
    (calling : w.callingMethod? frames = some m) : m ∈ frames.methods := by
  rw [(w.answers frames).1] at calling
  obtain ⟨f, first, method⟩ := Option.bind_eq_some_iff.mp calling
  have member := (w.realCaller_suffix _).subset (List.mem_of_head? first)
  exact List.mem_filterMap.mpr ⟨f, mem_start member, method⟩

theorem Skips.spec {q : Query} {frames : FrameChain} {m : Method} (skips : w.Skips q frames m) :
    m ∈ frames.methods ∧ m.className ∈ w.trampolines := by
  obtain ⟨above, below, split, -, tramp⟩ := w.skips_iff.mp skips
  have member : .real m ∈ (q.start frames).tail := by simp [split]
  refine ⟨List.mem_filterMap.mpr ⟨_, mem_start (List.mem_of_mem_tail member), rfl⟩, ?_⟩
  simpa [isTrampoline] using tramp

/-- Every skipped method belongs to a class with the name of a trampoline class. A class of that
name without methods has no frames, so its loader does not matter. -/
theorem skips_bootstrap_iff {r : Registry} (built : r.Built) (q : Query) :
    (∀ frames m, (∀ n ∈ frames.methods, r.Declares n) → w.Skips q frames m →
        (r.cls m.owner).name ∈ w.trampolines) ∧
      ((∀ frames m, (∀ n ∈ frames.methods, r.Declares n) → w.Skips q frames m →
          (r.cls m.owner).loader = none) ↔
        ∀ c, (r.cls c).methods ≠ [] → (r.cls c).name ∈ w.trampolines → (r.cls c).loader = none) := by
  have named {frames : FrameChain} {m : Method} (declared : ∀ n ∈ frames.methods, r.Declares n)
      (skips : w.Skips q frames m) : r.Declares m ∧ (r.cls m.owner).name ∈ w.trampolines := by
    obtain ⟨member, tramp⟩ := skips.spec
    have here := declared m member
    rw [← (built.declared here).2]
    exact ⟨here, tramp⟩
  refine ⟨fun frames m declared skips => (named declared skips).2, ?_, ?_⟩
  · intro honest c some_ tramp
    obtain ⟨m, member⟩ := List.exists_mem_of_ne_nil _ some_
    obtain ⟨rfl, className⟩ := built.declared member
    rw [← className] at tramp
    have counts : w.isTrampoline m = true := by simpa [isTrampoline] using tramp
    -- the method calls itself until every query finds it below where it starts
    refine honest [.real m, .real m, .real m] m ?_ ?_
    · intro n among
      obtain rfl : n = m := by simpa [FrameChain.methods, Frame.method?] using among
      exact member
    · cases q with
      | callingClass => exact w.skips_iff.mpr ⟨[], [], rfl, by simp, counts⟩
      | classContext => exact w.skips_iff.mpr ⟨[], [.real m], rfl, by simp, counts⟩
  · intro honest frames m declared skips
    obtain ⟨here, tramp⟩ := named declared skips
    exact honest m.owner (List.ne_nil_of_mem here) tramp

/-! A loader defines a class with the name of the trampoline. -/

def forged : Registry :=
  let define (r : Registry) (name method : String) (loader : Reference) : Registry :=
    (r.define ((ClassDef.named name).publicMethod method "()V") loader).2
  let root := (Registry.empty.define (ClassDef.named Registry.rootName).root none).2
  let asked := define root "gnu/classpath/VMStackWalker" "getCallingClass" none
  let service := define asked "app/Service" "work" (some ⟨0⟩)
  let shadow := define service "java/lang/reflect/Method" "run" (some ⟨0⟩)
  define shadow "app/Main" "main" (some ⟨0⟩)

theorem built_forged : forged.Built := by
  unfold forged
  exact ((((Registry.Built.empty.define _ _).define _ _).define _ _).define _ _).define _ _

def nativeQuery : Method := methodOf 10 "gnu/classpath/VMStackWalker" "getCallingClass"
def work : Method := methodOf 11 "app/Service" "work"
def shadowRun : Method := methodOf 12 "java/lang/reflect/Method" "run"
def main : Method := methodOf 13 "app/Main" "main"

/-- `main` calls `shadowRun` and is named in its place. -/
theorem shadow_skipped :
    let served : FrameChain := [.real nativeQuery, .real work, .real shadowRun, .real main]
    let direct : FrameChain := [.real nativeQuery, .real shadowRun, .real main]
    forged.Built ∧ (∀ n ∈ served.methods, forged.Declares n) ∧
      (forged.cls shadowRun.owner).loader = some ⟨0⟩ ∧
      (standard.Skips .callingClass served shadowRun ∧
        standard.callingMethod? served = some main) ∧
      standard.Skips .classContext direct shadowRun ∧ standard.context direct = [main] := by
  have tramp : standard.isTrampoline shadowRun = true := by decide
  refine ⟨built_forged, by decide +kernel, by decide +kernel, ⟨?_, by decide⟩, ?_, by decide⟩
  · exact standard.skips_iff.mpr ⟨[], [.real main], rfl, by simp, tramp⟩
  · exact standard.skips_iff.mpr ⟨[], [.real main], rfl, by simp, tramp⟩

theorem shadow_has_trampoline_name :
    let direct : FrameChain := [.real nativeQuery, .real shadowRun, .real main]
    forged.Built ∧ standard.Skips .classContext direct shadowRun ∧
      (forged.cls shadowRun.owner).name ∈ standard.trampolines := by
  have skips : standard.Skips .classContext [.real nativeQuery, .real shadowRun, .real main]
      shadowRun := standard.skips_iff.mpr ⟨[], [.real main], rfl, by simp, by decide⟩
  refine ⟨built_forged, skips, ?_⟩
  exact (standard.skips_bootstrap_iff built_forged .classContext).1 _ _ (by decide +kernel) skips

end StackWalker
end ManagedRuntime
