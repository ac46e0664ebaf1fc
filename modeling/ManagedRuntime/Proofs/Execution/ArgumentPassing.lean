import ManagedRuntime.Proofs.Execution.NativeConvention
import ManagedRuntime.Proofs.Value.Encoding

/-!
Arguments and results of natives that are called with values. Main statement: a native that is run
by `callMethod` reads its arguments as they were given, and the value it returns is the result of
the call, unless it has taken slots of its caller off the operand stack.
-/
namespace ManagedRuntime.Exec
variable {η : Type} {code : Code η} {rely : World η → World η → Prop} {w u : World η}
  {env e : Env} {m : Method} {args : List Value}

open OperandStack

def withArguments (env : Env) (args : List Value) : Env :=
  pushed (atBoundary env args) (args.flatMap Value.slots)

theorem toList_withArguments (env : Env) (args : List Value) :
    (withArguments env args).stack.slots.toList =
      env.stack.slots.toList ++ args.flatMap Value.slots := by
  simp [withArguments, pushed, atBoundary, Env.hold, Env.pushFrame]

theorem argBase_withArguments (takes : m.Takes args) :
    argBase m (withArguments env args) = env.stack.size := by
  have size : (withArguments env args).stack.size =
      env.stack.size + (args.flatMap Value.slots).length := size_pushed _ _
  rw [argBase, size, takes.argSlots, Nat.add_sub_cancel]

/-- As long as the slots of the arguments are as they were, so is every argument. -/
theorem argument?_eq {s : OperandStack} (takes : m.Takes args)
    (agree : AgreeBelow (env.stack.size + m.layout.argSlots) s (withArguments env args).stack)
    (i : Nat) : NativeCall.argument? ⟨m, env.stack.size⟩ s i = args[i]? := by
  unfold NativeCall.argument?
  rw [takes.params i]
  cases found : args[i]? with
  | none => rfl
  | some v =>
    -- The stack up to the argument, its slots, and those of the arguments after it.
    let before := env.stack.slots.toList ++ (args.take i).flatMap Value.slots
    let after := (args.drop (i + 1)).flatMap Value.slots
    obtain ⟨inside, there⟩ := List.getElem?_eq_some_iff.mp found
    have parted : args.take i ++ v :: args.drop (i + 1) = args := by
      rw [← there, List.getElem_cons_drop, List.take_append_drop]
    have written : (withArguments env args).stack.slots.toList = before ++ v.slots ++ after := by
      have slots := congrArg (List.flatMap Value.slots) parted
      rw [List.flatMap_append, List.flatMap_cons] at slots
      rw [toList_withArguments, ← slots]
      simp only [before, after, List.append_assoc]
    have height : (withArguments env args).stack.slots.toList.length =
        env.stack.size + m.layout.argSlots := by
      rw [toList_withArguments, List.length_append, takes.argSlots]
      rfl
    let rest := s.slots.toList.drop (env.stack.size + m.layout.argSlots)
    have stored : s.slots = (before ++ v.slots ++ (after ++ rest)).toArray := by
      apply Array.toList_inj.mp
      rw [← List.take_append_drop (env.stack.size + m.layout.argSlots) s.slots.toList, agree,
        List.take_of_length_le (Nat.le_of_eq height), written, List.append_assoc _ after]
    have position :
        env.stack.size + ((args.take i).flatMap Value.slots).length = before.length := by
      simp [before, size]
    simp only [Option.map_some, Option.bind_some, OperandStack.read, position]
    rw [stored]
    exact Slot.readAt_slots before _ v

theorem read_written {s : OperandStack} {base : Nat} (inside : base ≤ s.size)
    (v : Value) :
    read { s.truncate base with slots := (s.truncate base).slots ++ v.slots.toArray } base
      v.primitive? = some v := by
  have length : (s.slots.toList.take base).length = base :=
    List.length_take_of_le (by simpa [size] using inside)
  have written : (s.truncate base).slots ++ v.slots.toArray =
      (s.slots.toList.take base ++ v.slots ++ []).toArray := by
    simp [OperandStack.truncate]
  have found := Slot.readAt_slots (s.slots.toList.take base) [] v
  rw [length, ← written] at found
  exact found

def answered (d : Env) (base : Nat) (o : Option Value) : Env :=
  pushed (d.truncate base) ((o.map Value.slots).getD [])

def answer (m : Method) (base height : Nat) :
    Except Failure (Option Value) → Except Failure (Option Value)
  | .ok o =>
    if base ≤ height then .ok o
    else .error (.wrongStackTop m.text (height + m.layout.resultSlots)
      (base + m.layout.resultSlots))
  | .error f => .error f

theorem size_answered {d : Env} {base : Nat} {o : Option Value} (returns : m.Returns o) :
    (answered d base o).stack.size = min base d.stack.size + m.layout.resultSlots := by
  rw [answered, size_pushed, returns.resultSlots]
  exact congrArg (· + _) (size_truncate _ _)

theorem ends_finish_fitting {base : Nat} {o : Option Value} {r : Except Failure Nat}
    (returns : m.Returns o) (room : base + m.layout.resultSlots ≤ env.stack.capacity) :
    Ends code rely w env (finish ⟨m, base⟩ o) r e u ↔
      r = .ok (min base env.stack.size + m.layout.resultSlots) ∧ e = answered env base o ∧
        u = w := by
  have fits : (env.stack.truncate base).size + ((o.map Value.slots).getD []).length ≤
      (env.stack.truncate base).capacity := by
    have capacity : (env.stack.truncate base).capacity = env.stack.capacity := rfl
    rw [size_truncate, capacity, returns.resultSlots]
    omega
  rw [ends_finish, pushAll_of_room _ _ fits, ← size_answered returns, Prod.mk.injEq, and_assoc]
  rfl

theorem readable_answered {d : Env} {base : Nat} {o : Option Value} (returns : m.Returns o)
    (inside : base ≤ d.stack.size) :
    readable m base (answered d base o).stack = true ∧
      result? m base (answered d base o).stack = o := by
  unfold readable result?
  unfold Method.Returns at returns
  cases o with
  | none =>
    have undeclared : m.type.result = none := Option.map_eq_none_iff.mp returns.symm
    rw [undeclared]
    exact ⟨rfl, rfl⟩
  | some v =>
    obtain ⟨t, declared, type⟩ := Option.map_eq_some_iff.mp returns.symm
    have found := read_written inside v
    rw [← type] at found
    rw [declared]
    simp [found, answered, pushed, Env.truncate]

/-- Every native that the call may run ends by returning a value of the declared type that fits on
the stack. Before that it does anything, and it may fail. -/
structure Returning (code : Code η) (rely : World η → World η → Prop) (w : World η) (env : Env)
    (m : Method) (args : List Value) (bodies : NativeFunction → Exec η (Option Value)) : Prop where
  body : ∀ ⦃f c v⦄, LinkEnds code rely w (withArguments env args) m (.ok f) c v →
    code.native f ⟨m, env.stack.size⟩ = bodies f >>= finish ⟨m, env.stack.size⟩
  declared : ∀ ⦃f c v o d u⦄, LinkEnds code rely w (withArguments env args) m (.ok f) c v →
    Ends code rely v (c.pushFrame (.real m)) (bodies f) (.ok o) d u → m.Returns o
  room : ∀ ⦃f c v o d u⦄, LinkEnds code rely w (withArguments env args) m (.ok f) c v →
    Ends code rely v (c.pushFrame (.real m)) (bodies f) (.ok o) d u →
    env.stack.size + m.layout.resultSlots ≤ d.stack.capacity

variable {bodies : NativeFunction → Exec η (Option Value)}

theorem Returning.ends_native (returning : Returning code rely w env m args bodies)
    {f : NativeFunction} {c d : Env} {v : World η} {q : Except Failure Nat}
    (linked : LinkEnds code rely w (withArguments env args) m (.ok f) c v) :
    Ends code rely v (c.pushFrame (.real m)) (code.native f ⟨m, env.stack.size⟩) q d u ↔
      (∃ g, Ends code rely v (c.pushFrame (.real m)) (bodies f) (.error g) d u ∧ q = .error g) ∨
        ∃ o d', Ends code rely v (c.pushFrame (.real m)) (bodies f) (.ok o) d' u ∧
          q = .ok (min env.stack.size d'.stack.size + m.layout.resultSlots) ∧
          d = answered d' env.stack.size o := by
  rw [returning.body linked, ends_bind]
  refine or_congr_right ?_
  constructor
  · rintro ⟨o, d', v', ran, finished⟩
    have declared := returning.declared linked ran
    have room := returning.room linked ran
    obtain ⟨rfl, rfl, rfl⟩ := (ends_finish_fitting declared room).mp finished
    exact ⟨o, d', ran, rfl, rfl⟩
  · rintro ⟨o, d', ran, rfl, rfl⟩
    have declared := returning.declared linked ran
    have room := returning.room linked ran
    exact ⟨o, d', u, ran, (ends_finish_fitting declared room).mpr ⟨rfl, rfl, rfl⟩⟩

theorem checkedTop_inside {d : Env} {base : Nat} {o : Option Value} (returns : m.Returns o)
    (inside : base ≤ d.stack.size) :
    checkedTop m base (answered d base o).stack.size
      (.ok (min base d.stack.size + m.layout.resultSlots)) = .ok (base + m.layout.resultSlots) := by
  rw [size_answered returns, checkedTop, Nat.min_eq_left inside, if_pos ⟨rfl, rfl⟩]

theorem checkedTop_outside {d : Env} {base : Nat} {o : Option Value} (returns : m.Returns o)
    (outside : ¬ base ≤ d.stack.size) :
    checkedTop m base (answered d base o).stack.size
        (.ok (min base d.stack.size + m.layout.resultSlots)) =
      .error (.wrongStackTop m.text (d.stack.size + m.layout.resultSlots)
        (base + m.layout.resultSlots)) := by
  have wrong : d.stack.size + m.layout.resultSlots ≠ base + m.layout.resultSlots := by omega
  rw [size_answered returns, checkedTop, Nat.min_eq_right (by omega),
    if_neg fun right => wrong right.1]

def Concludes (code : Code η) (rely : World η → World η → Prop) (m : Method) (base : Nat)
    (q : Except Failure Nat) (d : Env) (v : World η) (r : Except Failure (Option Value)) (e : Env)
    (u : World η) : Prop :=
  match q with
  | .ok _ => Ends code rely v d (takeResult m base) r e u
  | .error f => r = .error f ∧ e = { d.truncate base with pending := none } ∧ u = v

theorem concludes_answered {base : Nat} {c d : Env} {o : Option Value} {p q : Except Failure Nat}
    {r : Except Failure (Option Value)} {v : World η} (returns : m.Returns o)
    (checked : q = checkedTop m base (answered d base o).stack.size
      (.ok (min base d.stack.size + m.layout.resultSlots))) :
    (∃ e, Concludes code rely m base q (settled base (afterBody c (answered d base o) p) q) v r e
      u) ↔ r = answer m base d.stack.size (.ok o) ∧ u = v := by
  by_cases inside : base ≤ d.stack.size
  · have result : answer m base d.stack.size (.ok o) = .ok o := if_pos inside
    rw [result]
    cases checked.trans (checkedTop_inside returns inside)
    obtain ⟨there, read⟩ := readable_answered returns inside
    have stack : (settled base (afterBody c (answered d base o) p)
        (.ok (base + m.layout.resultSlots))).stack = (answered d base o).stack := rfl
    simp [Concludes, ends_takeResult, stack, there, read]
  · have result : answer m base d.stack.size (.ok o) = .error (.wrongStackTop m.text
        (d.stack.size + m.layout.resultSlots) (base + m.layout.resultSlots)) := if_neg inside
    rw [result]
    cases checked.trans (checkedTop_outside returns inside)
    simp [Concludes]

/-- The outcomes of a call that the native itself decides. -/
theorem Returning.ends_call (returning : Returning code rely w env m args bodies)
    (takes : m.Takes args) {r : Except Failure (Option Value)} :
    (∃ e q d v, Ends code rely w (withArguments env args) (invokeNative m) q d v ∧
        Concludes code rely m env.stack.size q d v r e u) ↔
      (∃ f c, LinkEnds code rely w (withArguments env args) m (.error f) c u ∧ r = .error f) ∨
        ∃ f c v q d, LinkEnds code rely w (withArguments env args) m (.ok f) c v ∧
          Ends code rely v (c.pushFrame (.real m)) (bodies f) q d u ∧
          r = answer m env.stack.size d.stack.size q := by
  have present : m.layout.argSlots ≤ (withArguments env args).stack.size := by
    have size : (withArguments env args).stack.size = _ := size_pushed _ _
    rw [size, takes.argSlots]
    omega
  simp only [ends_invokeNative present, BodyEnds, argBase_withArguments takes]
  constructor
  · rintro ⟨e, q, d, v,
      ⟨f, c, failed, rfl, rfl⟩ | ⟨c, p, d, ⟨f, v', linked, ran⟩, checked, rfl⟩, rest⟩
    · obtain ⟨rfl, -, rfl⟩ := rest
      exact .inl ⟨f, c, failed, rfl⟩
    · rcases (returning.ends_native linked).mp ran with
        ⟨g, failed, rfl⟩ | ⟨o, d', returned, rfl, rfl⟩
      · cases checked
        obtain ⟨rfl, -, rfl⟩ := rest
        exact .inr ⟨f, c, v', _, d, linked, failed, rfl⟩
      · have declared := returning.declared linked returned
        obtain ⟨rfl, rfl⟩ := (concludes_answered declared checked).mp ⟨e, rest⟩
        exact .inr ⟨f, c, v', _, d', linked, returned, rfl⟩
  · rintro (⟨f, c, failed, rfl⟩ | ⟨f, c, v, q, d, linked, ran, rfl⟩)
    · exact ⟨_, _, _, u, .inl ⟨f, c, failed, rfl, rfl⟩, rfl, rfl, rfl⟩
    · cases q with
      | error g =>
        have failed := (returning.ends_native linked).mpr (.inl ⟨g, ran, rfl⟩)
        exact ⟨_, _, _, u, .inr ⟨c, _, d, ⟨f, v, linked, failed⟩, rfl, rfl⟩, rfl, rfl, rfl⟩
      | ok o =>
        have returned := (returning.ends_native linked).mpr (.inr ⟨o, d, ran, rfl, rfl⟩)
        have declared := returning.declared linked ran
        obtain ⟨e, rest⟩ := (concludes_answered declared rfl).mpr ⟨rfl, rfl⟩
        exact ⟨e, _, _, u, .inr ⟨c, _, _, ⟨f, v, linked, returned⟩, rfl, rfl⟩, rest⟩

/-- The arguments of a native lie one behind the other, each is read as it was given, and the call
returns what the native returned. It is refused if and only if the native has taken slots of its
caller off the stack. -/
theorem callMethod_passes (native : m.isNative = true) (concrete : m.isAbstract = false)
    (takes : m.Takes args) (room : env.stack.size + m.layout.argSlots ≤ env.stack.capacity)
    (returning : Returning code rely w env m args bodies) :
    m.layout.params.flatMap ParamSlot.range = List.range m.layout.argSlots ∧
      (∀ f c v, LinkEnds code rely w (withArguments env args) m (.ok f) c v →
        ∀ d, AgreeBelow (env.stack.size + m.layout.argSlots) d.stack (c.pushFrame (.real m)).stack →
        ∀ i a, args[i]? = some a → ∀ v r e u, Ends code rely v d (arg ⟨m, env.stack.size⟩ i) r e u ↔
          r = .ok a ∧ e = d.hold (Value.objects [a]) ∧ u = v) ∧
      ∀ r u, (∃ e, Ends code rely w env (callMethod m args) r e u) ↔
        (∃ f c, LinkEnds code rely w (withArguments env args) m (.error f) c u ∧ r = .error f) ∨
          ∃ f c v q d, LinkEnds code rely w (withArguments env args) m (.ok f) c v ∧
            Ends code rely v (c.pushFrame (.real m)) (bodies f) q d u ∧
            r = answer m env.stack.size d.stack.size q := by
  have layout : m.layout.params.flatMap ParamSlot.range = List.range m.layout.argSlots :=
    (ParamSlot.ranges_place 0 _).trans List.range_eq_range'.symm
  refine ⟨layout, fun f c v linked d agree i a given v r e u => ?_, fun r u => ?_⟩
  · obtain ⟨refs, rfl⟩ := linked.link_env
    have found : NativeCall.argument? ⟨m, env.stack.size⟩ d.stack i = some a :=
      (argument?_eq takes agree i).trans given
    exact ends_arg_found found
  · have fit : fits m args (atBoundary env args).stack := by
      refine ⟨takes.argSlots, ?_⟩
      rw [takes.argSlots]
      exact room
    rw [← returning.ends_call takes]
    constructor
    · rintro ⟨e, ends⟩
      obtain ⟨d, onStack, rfl⟩ := (ends_callMethod native concrete takes.length).mp ends
      exact ⟨d, (ends_callOnStack fit).mp onStack⟩
    · rintro ⟨d, rest⟩
      have onStack := (ends_callOnStack fit).mpr rest
      exact ⟨_, (ends_callMethod native concrete takes.length).mpr ⟨d, onStack, rfl⟩⟩

def echoBody (call : NativeCall) : Exec Unit (Option Value) := do
  return some (← arg call 2)

def echoCode : Code Unit where
  execute m _ := throw (.noCode m.text)
  native _ call := echoBody call >>= finish call

def echoMethod : Method :=
  { objectMethod with
    descriptor := "(BJ)J"
    type := ⟨[.primitive .byte, .primitive .long], some (.primitive .long)⟩
    flags := ⟨0x0100⟩ }

def echoArguments : List Value := [.null, .byte (-1), .long 7]

theorem takes_echo : echoMethod.Takes echoArguments := by decide

abbrev EchoLinks (f : NativeFunction) (c : Env) (v : World Unit) : Prop :=
  LinkEnds echoCode (fun _ _ => True) oneNative (withArguments (.new ⟨0⟩ 8) echoArguments)
    echoMethod (.ok f) c v

theorem ends_echo {f : NativeFunction} {c d : Env} {v u : World Unit}
    {q : Except Failure (Option Value)} (linked : EchoLinks f c v) :
    Ends echoCode (fun _ _ => True) v (c.pushFrame (.real echoMethod)) (echoBody ⟨echoMethod, 0⟩)
        q d u ↔
      q = .ok (some (.long 7)) ∧ d = c.pushFrame (.real echoMethod) ∧ u = v := by
  obtain ⟨refs, rfl⟩ := linked.link_env
  let entry := ((withArguments (.new ⟨0⟩ 8) echoArguments).hold refs).pushFrame (.real echoMethod)
  have there : AgreeBelow ((Env.new ⟨0⟩ 8).stack.size + echoMethod.layout.argSlots) entry.stack
      (withArguments (.new ⟨0⟩ 8) echoArguments).stack := rfl
  have found : NativeCall.argument? ⟨echoMethod, 0⟩ entry.stack 2 = some (.long 7) :=
    argument?_eq takes_echo there 2
  constructor
  · intro ends
    rcases ends_bind.mp ends with ⟨g, failed, rfl⟩ | ⟨a, b, x, read, rest⟩
    · cases ((ends_arg_found found).mp failed).1
    · obtain ⟨same, rfl, rfl⟩ := (ends_arg_found found).mp read
      cases same
      exact ends_pure.mp rest
  · rintro ⟨rfl, rfl, rfl⟩
    refine ends_bind.mpr (.inr ⟨.long 7, entry, u, ?_, ends_pure.mpr ⟨rfl, rfl, rfl⟩⟩)
    exact (ends_arg_found found).mpr ⟨rfl, rfl, rfl⟩

theorem returning_echo : Returning echoCode (fun _ _ => True) oneNative (.new ⟨0⟩ 8) echoMethod
    echoArguments fun _ => echoBody ⟨echoMethod, 0⟩ where
  body f c v linked := rfl
  declared f c v o d u linked ran := by
    cases ((ends_echo linked).mp ran).1
    decide
  room f c v o d u linked ran := by
    obtain ⟨-, rfl, -⟩ := (ends_echo linked).mp ran
    obtain ⟨refs, rfl⟩ := linked.link_env
    exact (by decide : 0 + echoMethod.layout.resultSlots ≤ 8)

theorem callMethod_passes_echo :
    echoMethod.layout.argSlots = 4 ∧
      ∃ e u, Ends echoCode (fun _ _ => True) oneNative (.new ⟨0⟩ 8)
        (callMethod echoMethod echoArguments) (.ok (some (.long 7))) e u := by
  obtain ⟨-, -, results⟩ := callMethod_passes (by decide) (by decide) takes_echo (by decide)
    returning_echo
  let start := withArguments (.new ⟨0⟩ 8) echoArguments
  have found : ((Atomic.link echoMethod).runOn (oneNative.during (start.references ++ []))).1 =
      .ok (.embedded 0) := by decide +kernel
  have linked : EchoLinks (.embedded 0) _ _ :=
    ends_act.mpr ⟨oneNative, [], trivial, Prod.ext found rfl, rfl⟩
  have body := (ends_echo linked).mpr ⟨rfl, rfl, rfl⟩
  obtain ⟨e, ends⟩ := (results _ _).mpr (.inr ⟨_, _, _, _, _, linked, body, rfl⟩)
  exact ⟨by decide, e, _, ends⟩

def greedyBody : Exec Unit (Option Value) := do
  modify (·.truncate 0)
  return some (.int 5)

def greedyCode : Code Unit where
  execute m _ := throw (.noCode m.text)
  native _ call := greedyBody >>= finish call

def integerMethod : Method :=
  { objectMethod with
    descriptor := "()I"
    type := ⟨[], some (.primitive .int)⟩ }

def oneSlotEnv : Env := (Env.new ⟨0⟩ 8).replaceFrom 0 [.int 7] |>.2

/-- A native may return a value of the declared type and yet be refused. -/
theorem greedy_refused :
    Returning greedyCode (fun _ _ => True) oneNative oneSlotEnv integerMethod []
        (fun _ => greedyBody) ∧
      ∃ e u, Ends greedyCode (fun _ _ => True) oneNative oneSlotEnv (callMethod integerMethod [])
        (.error (.wrongStackTop integerMethod.text 1 2)) e u := by
  have result {c d : Env} {v u : World Unit} {o : Option Value}
      (ran : Ends greedyCode (fun _ _ => True) v (c.pushFrame (.real integerMethod)) greedyBody
        (.ok o) d u) :
      o = some (.int 5) ∧ d.stack.capacity = c.stack.capacity := by
    have read := ends_modify_bind.mp ran
    obtain ⟨same, rfl, -⟩ := ends_pure.mp read
    cases same
    exact ⟨rfl, rfl⟩
  constructor
  · exact {
      body := fun _ _ _ _ => rfl
      declared := fun f c v o d u linked ran => by
        rw [(result ran).1]
        decide
      room := fun f c v o d u linked ran => by
        obtain ⟨refs, rfl⟩ := linked.link_env
        rw [(result ran).2]
        exact (by decide : 1 + integerMethod.layout.resultSlots ≤ 8) }
  · let ended := Machine.run greedyCode (fun _ => .done ()) 8
      ((callMethod integerMethod []).runIn oneSlotEnv) ⟨oneNative, []⟩
    have refused : ended.map (fun r => r.1.1) =
        some (.error (.wrongStackTop integerMethod.text 1 2)) := by decide +kernel
    obtain ⟨⟨⟨r, e⟩, n⟩, run, same⟩ := Option.map_eq_some_iff.mp refused
    cases same
    exact ⟨e, n.world, Machine.runs_of_run run⟩

end ManagedRuntime.Exec
