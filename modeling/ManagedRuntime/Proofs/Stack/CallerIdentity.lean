import ManagedRuntime.Stack.Walk

/-!
Who called the method that asks. The reference answer deletes all machinery from the chain and takes
the second method that is left. Main statement: where the frame that the native takes for the asking
one is a frame of machinery itself, or is not found, the answer is another one, and only there.
-/
namespace ManagedRuntime.StackWalker
variable (w : StackWalker)

def isMachinery : Frame → Bool
  | .boundary => true
  | .real m => w.isTrampoline m

def strip (frames : FrameChain) : FrameChain := frames.filter fun f => !w.isMachinery f

def visible (frames : FrameChain) : List Method := (w.strip frames).methods

theorem visible_boundary (fs : FrameChain) : w.visible (.boundary :: fs) = w.visible fs := by
  simp [visible, strip, isMachinery]

theorem visible_trampoline {m : Method} (tramp : w.isTrampoline m) (fs : FrameChain) :
    w.visible (.real m :: fs) = w.visible fs := by
  simp [visible, strip, isMachinery, tramp]

theorem visible_method {m : Method} (counts : ¬ w.isTrampoline m) (fs : FrameChain) :
    w.visible (.real m :: fs) = m :: w.visible fs := by
  simp [visible, strip, isMachinery, counts, FrameChain.methods, Frame.method?]

theorem visible_strip (fs : FrameChain) : w.visible (w.strip fs) = w.visible fs := by
  simp [visible, strip]

/-- The walk stops at the first method that counts. -/
theorem callerMethod?_eq_head? (f : Frame) (fs : FrameChain) :
    w.callerMethod? (f :: fs) = (w.visible fs).head? := by
  rw [callerMethod?, realCaller, List.tail_cons]
  induction fs with
  | nil => rfl
  | cons g gs ih =>
    cases g with
    | boundary => rw [dropMachinery, ih, visible_boundary]
    | real m =>
      rw [dropMachinery]
      by_cases tramp : w.isTrampoline m
      · rw [if_pos tramp, ih, w.visible_trampoline tramp]
      · rw [if_neg tramp, w.visible_method tramp]
        rfl

/-- The method that the native takes for the one that asks. -/
def asker? (frames : FrameChain) : Option Method := (asking frames).head?.bind Frame.method?

theorem asking_cases (f : Frame) (fs : FrameChain) :
    asking (f :: fs) = [] ∨
      ∃ m below, asking (f :: fs) = .real m :: below ∧
        w.visible fs = w.visible (.real m :: below) := by
  match fs with
  | [] | [.boundary] | .boundary :: .boundary :: _ => exact .inl rfl
  | .real m :: below => exact .inr ⟨m, below, rfl, rfl⟩
  | .boundary :: .real m :: below => exact .inr ⟨m, below, rfl, w.visible_boundary _⟩

/-- An asking method that counts is the first visible one, and its caller the second. A trampoline
in its place is left out twice, so that the first visible method is taken for the caller. -/
theorem callingMethod?_eq (f : Frame) (fs : FrameChain) :
    w.callingMethod? (f :: fs) =
      match asker? (f :: fs) with
      | none => none
      | some m => if w.isTrampoline m then (w.visible fs)[0]? else (w.visible fs)[1]? := by
  rcases w.asking_cases f fs with nobody | ⟨m, below, asks, same⟩
  · simp [callingMethod?, asker?, nobody]
  · have caller : w.callingMethod? (f :: fs) = (w.visible below).head? := by
      rw [callingMethod?, asks]
      exact w.callerMethod?_eq_head? (.real m) below
    have found : asker? (f :: fs) = some m := by rw [asker?, asks]; rfl
    rw [caller, found, same]
    by_cases tramp : w.isTrampoline m
    · rw [w.visible_trampoline tramp]
      simp [tramp, List.head?_eq_getElem?]
    · rw [w.visible_method tramp]
      simp [tramp, List.head?_eq_getElem?]

/-- The second chain is the first with reflective calls put in, at any depth. -/
inductive Reflected : FrameChain → FrameChain → Prop where
  | refl (fs : FrameChain) : Reflected fs fs
  | insert {fs : FrameChain} (above : FrameChain) {below : FrameChain} {m : Method}
      (tramp : w.isTrampoline m) (first : Reflected fs (above ++ below)) :
      Reflected fs (above ++ .boundary :: .real m :: below)

theorem visible_append (above below : FrameChain) :
    w.visible (above ++ below) = w.visible above ++ w.visible below := by
  simp [visible, strip, FrameChain.methods]

theorem Reflected.visible {fs gs : FrameChain} (reflected : w.Reflected fs gs) :
    w.visible gs = w.visible fs := by
  induction reflected with
  | refl => rfl
  | insert above tramp _ ih =>
    rw [visible_append, visible_boundary, w.visible_trampoline tramp, ← visible_append, ih]

/-- What lies below the asking frame decides the answer by its visible methods alone. -/
theorem callingMethod?_below {f : Frame} {above fs gs : FrameChain} {m : Method}
    (asks : asking (f :: above) = [.real m]) (same : w.visible fs = w.visible gs) :
    w.callingMethod? (f :: (above ++ fs)) = w.callingMethod? (f :: (above ++ gs)) := by
  have found (below : FrameChain) : asker? (f :: (above ++ below)) = some m := by
    match above, asks with
    | [.real _], asks => cases asks; rfl
    | [.boundary, .real _], asks => cases asks; rfl
  rw [callingMethod?_eq, callingMethod?_eq, found, found, visible_append, visible_append, same]

/-- On the stripped chain the answer is the class of the second method that is left. On the chain
itself it is the same unless a trampoline stands where the asking method is looked for, or no method
does. Reflective calls below the asking frame change nothing. -/
theorem callingClass_eq_second_iff (f : Frame) (fs : FrameChain) :
    (w.callingMethod? (f :: w.strip fs)).map Method.owner =
        (w.visible fs)[1]?.map Method.owner ∧
      ((w.callingMethod? (f :: fs)).map Method.owner = (w.visible fs)[1]?.map Method.owner ↔
        match asker? (f :: fs) with
        | none => (w.visible fs).length ≤ 1
        | some m => w.isTrampoline m →
          (w.visible fs)[0]?.map Method.owner = (w.visible fs)[1]?.map Method.owner) ∧
      ∀ above below below' m, asking (f :: above) = [.real m] → w.Reflected below below' →
        w.callingMethod? (f :: (above ++ below')) = w.callingMethod? (f :: (above ++ below)) := by
  refine ⟨?_, ?_, fun above below below' m asks reflected =>
    w.callingMethod?_below asks reflected.visible⟩
  · rw [callingMethod?_eq, visible_strip]
    cases left : w.strip fs with
    | nil => simp [asker?, asking, visible, left, FrameChain.methods]
    | cons g gs =>
      have counts : w.isMachinery g = false := by
        have member : g ∈ w.strip fs := by rw [left]; exact List.mem_cons_self
        simpa using (List.mem_filter.mp member).2
      cases g with
      | boundary => cases counts
      | real m =>
        have plain : w.isTrampoline m = false := counts
        simp [asker?, asking, Frame.method?, plain]
  · rw [callingMethod?_eq]
    cases asker? (f :: fs) with
    | none => rw [Option.map_none, eq_comm, Option.map_eq_none_iff, List.getElem?_eq_none_iff]
    | some m => by_cases tramp : w.isTrampoline m <;> simp [tramp]

/-! A native asked through reflection. -/

def methodOf (c : Nat) (className name : String) : Method where
  owner := ⟨c⟩
  className := className
  name := name
  descriptor := "()V"
  type := ⟨[], none⟩
  flags := .isPublic
  slot := 0

def query : Method := methodOf 0 "gnu/classpath/VMStackWalker" "getCallingClass"
def invoke : Method := methodOf 1 "java/lang/reflect/Method" "invokeNative"
def inner : Method := methodOf 2 "test/Inner" "ask"
def outer : Method := methodOf 3 "test/Outer" "run"

/-- `outer` calls `inner`, which asks through a reflective call and is told of itself. -/
theorem reflective_query_names_asker :
    let below : FrameChain := [.boundary, .real invoke, .boundary, .real inner, .real outer]
    (standard.callingMethod? (.real query :: below)).map Method.owner = some inner.owner ∧
      (standard.visible below)[1]?.map Method.owner = some outer.owner ∧
      inner.owner ≠ outer.owner := by
  decide

theorem reflective_call_below_asker :
    asking [.real query, .real inner] = [.real inner] ∧
      standard.Reflected [.real outer] [.boundary, .real invoke, .real outer] ∧
      standard.callingMethod? [.real query, .real inner, .boundary, .real invoke, .real outer] =
        some outer := by
  have asks : asking [.real query, .real inner] = [.real inner] := rfl
  have reflected : standard.Reflected [.real outer] [.boundary, .real invoke, .real outer] :=
    .insert [] (by decide : standard.isTrampoline invoke = true) (.refl [.real outer])
  refine ⟨asks, reflected, ?_⟩
  exact ((standard.callingClass_eq_second_iff (.real query) []).2.2 [.real inner] _ _ inner asks
    reflected).trans (by decide)

end ManagedRuntime.StackWalker
