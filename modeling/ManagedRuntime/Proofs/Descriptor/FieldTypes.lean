import ManagedRuntime.Descriptor.FieldType

/-!
The texts that are field descriptors, and the types that have them. Main statement: a text is read
exactly if it is up to 255 brackets before a letter or before a name between `L` and `;`, the type
that is read is written as that text, and every type that is written as such a text is read from it.
-/
namespace ManagedRuntime.FieldType
variable {cs rest : List Char} {t : FieldType} {depth : Nat}

/-- What stands for a type that is no array: the letter of a primitive type other than `void`, or
the name of a class. -/
inductive ElementText : List Char → Prop where
  | letter {c : Char} (valued : c ∈ ['Z', 'B', 'C', 'S', 'I', 'F', 'J', 'D']) : ElementText [c]
  | named {name : List Char} (nonempty : name ≠ []) (unended : ';' ∉ name) :
      ElementText ('L' :: (name ++ [';']))

def IsDescriptor (s : String) : Prop :=
  ∃ n element, n ≤ 255 ∧ ElementText element ∧ s.toList = List.replicate n '[' ++ element

def dimensions : FieldType → Nat
  | array component => component.dimensions + 1
  | _ => 0

/-- Values can have the type, and the name in it can stand between `L` and `;`. -/
def Proper : FieldType → Prop
  | primitive p => p ≠ .void
  | object name => name.toList ≠ [] ∧ ';' ∉ name.toList
  | array component => component.Proper

structure WellFormed (t : FieldType) : Prop where
  proper : t.Proper
  fits : t.dimensions ≤ maxDimensions

/-! Reading what is written. -/

theorem scan_letter {p : Primitive} (valued : p ≠ .void) (depth : Nat) (rest : List Char) :
    scan depth (p.letter :: rest) = some (primitive p, rest) := by
  cases p with
  | void => exact absurd rfl valued
  | _ => rfl

theorem scan_named {name : List Char} (nonempty : name ≠ []) (unended : ';' ∉ name)
    (depth : Nat) (rest : List Char) :
    scan depth ('L' :: (name ++ ';' :: rest)) = some (object (String.ofList name), rest) := by
  have inside : ∀ c ∈ name, decide (c ≠ ';') = true := by
    intro c member
    exact decide_eq_true fun same => unended (same ▸ member)
  have front : (name ++ ';' :: rest).takeWhile (· ≠ ';') = name := by
    rw [List.takeWhile_append_of_pos inside]
    simp
  have back : (name ++ ';' :: rest).dropWhile (· ≠ ';') = ';' :: rest := by
    rw [List.dropWhile_append_of_pos inside]
    simp
  rw [scan, front, back]
  cases name with
  | nil => exact absurd rfl nonempty
  | cons c cs => rfl

/-- A type is read from its descriptor, whatever comes after it. -/
theorem scan_descriptorChars (proper : t.Proper) (fits : depth + t.dimensions ≤ maxDimensions)
    (rest : List Char) : scan depth (t.descriptorChars ++ rest) = some (t, rest) := by
  induction t generalizing depth with
  | primitive p => exact scan_letter proper depth rest
  | object name =>
    have read := scan_named proper.1 proper.2 depth rest
    simpa [descriptorChars] using read
  | array component ih =>
    simp only [dimensions] at fits
    have read : scan (depth + 1) (component.descriptorChars ++ rest) = some (component, rest) :=
      ih proper (by omega)
    simp only [descriptorChars, List.cons_append, scan]
    rw [if_pos (by omega), read]
    rfl

/-- What is read is a descriptor, and what was left comes after it. -/
theorem scan_inv (read : scan depth cs = some (t, rest)) (inside : depth ≤ maxDimensions) :
    cs = t.descriptorChars ++ rest ∧ t.Proper ∧ depth + t.dimensions ≤ maxDimensions := by
  fun_induction scan depth cs generalizing t with
  | case1 | case3 | case4 | case5 | case7 | case8 => simp at read
  | case2 depth cs more ih =>
    obtain ⟨⟨component, rest'⟩, element, same⟩ := Option.map_eq_some_iff.mp read
    cases same
    obtain ⟨text, proper, fits⟩ := ih element (by omega)
    refine ⟨by simp [descriptorChars, text], proper, ?_⟩
    simp only [dimensions]
    omega
  | case6 depth cs semicolon after back front =>
    cases read
    have ended : semicolon = ';' := by
      have first := List.head?_dropWhile_not (· ≠ ';') cs
      rw [back] at first
      simpa using first
    rw [ended] at back
    have whole : cs.takeWhile (· ≠ ';') ++ ';' :: rest = cs := by
      rw [← back]
      exact List.takeWhile_append_dropWhile
    refine ⟨?_, ⟨?_, ?_⟩, inside⟩
    · rw [descriptorChars, String.toList_ofList, List.cons_append, List.append_assoc]
      exact congrArg _ whole.symm
    · rw [String.toList_ofList]
      exact front
    · rw [String.toList_ofList]
      intro member
      have kept := List.all_eq_true.mp (List.all_takeWhile (p := (· ≠ ';')) (l := cs)) ';' member
      simp at kept
  | case9 depth c cs _ _ p valued letter =>
    cases read
    exact ⟨by simp [descriptorChars, Primitive.letter_of_ofLetter? letter], valued, inside⟩

theorem parse?_eq_some_iff : parse? cs = some t ↔ cs = t.descriptorChars ∧ t.WellFormed := by
  constructor
  · intro read
    unfold parse? at read
    split at read
    · rename_i found
      cases read
      obtain ⟨text, proper, fits⟩ := scan_inv found (Nat.zero_le _)
      exact ⟨by simpa using text, proper, by simpa using fits⟩
    · cases read
  · rintro ⟨rfl, proper, fits⟩
    have read : scan 0 (t.descriptorChars ++ []) = some (t, []) :=
      scan_descriptorChars proper (by omega) []
    rw [List.append_nil] at read
    rw [parse?, read]

/-! The grammar. -/

theorem descriptorChars_eq (proper : t.Proper) :
    ∃ element, ElementText element ∧
      t.descriptorChars = List.replicate t.dimensions '[' ++ element := by
  induction t with
  | primitive p =>
    refine ⟨[p.letter], .letter ?_, rfl⟩
    cases p with
    | void => exact absurd rfl proper
    | _ => decide
  | object name => exact ⟨_, .named proper.1 proper.2, rfl⟩
  | array component ih =>
    obtain ⟨element, written, text⟩ := ih proper
    exact ⟨element, written, by simp [descriptorChars, dimensions, text, List.replicate_succ]⟩

theorem ElementText.exists_type {element : List Char} (written : ElementText element) :
    ∃ t : FieldType, t.Proper ∧ t.dimensions = 0 ∧ t.descriptorChars = element := by
  cases written with
  | @letter c valued =>
    have known : ∃ p : Primitive, p ≠ .void ∧ p.letter = c := by
      simp only [List.mem_cons, List.not_mem_nil, or_false] at valued
      rcases valued with rfl | rfl | rfl | rfl | rfl | rfl | rfl | rfl
      · exact ⟨.boolean, by decide, rfl⟩
      · exact ⟨.byte, by decide, rfl⟩
      · exact ⟨.char, by decide, rfl⟩
      · exact ⟨.short, by decide, rfl⟩
      · exact ⟨.int, by decide, rfl⟩
      · exact ⟨.float, by decide, rfl⟩
      · exact ⟨.long, by decide, rfl⟩
      · exact ⟨.double, by decide, rfl⟩
    obtain ⟨p, valued, rfl⟩ := known
    exact ⟨.primitive p, ‹p ≠ .void›, rfl, rfl⟩
  | @named name nonempty unended =>
    refine ⟨.object (String.ofList name), ⟨?_, ?_⟩, rfl, ?_⟩
    · simpa using nonempty
    · simpa using unended
    · simp [descriptorChars]

theorem isDescriptor_iff {s : String} :
    IsDescriptor s ↔ ∃ t : FieldType, t.WellFormed ∧ t.descriptor = s := by
  constructor
  · rintro ⟨n, element, fits, written, text⟩
    obtain ⟨base, proper, plain, chars⟩ := written.exists_type
    have nested (n : Nat) : ∃ t : FieldType, t.Proper ∧ t.dimensions = n ∧
        t.descriptorChars = List.replicate n '[' ++ element := by
      induction n with
      | zero => exact ⟨base, proper, plain, chars⟩
      | succ n ih =>
        obtain ⟨t, proper, dims, chars⟩ := ih
        refine ⟨.array t, proper, by simp [dimensions, dims], ?_⟩
        simp [descriptorChars, chars, List.replicate_succ]
    obtain ⟨t, proper, dims, chars⟩ := nested n
    refine ⟨t, ⟨proper, by rw [dims]; exact fits⟩, ?_⟩
    rw [descriptor, chars, ← text, String.ofList_toList]
  · rintro ⟨t, ⟨proper, fits⟩, rfl⟩
    obtain ⟨element, written, chars⟩ := descriptorChars_eq proper
    exact ⟨t.dimensions, element, fits, written, by rw [descriptor, String.toList_ofList, chars]⟩

theorem parse_eq_ok_iff {s : String} : parse s = .ok t ↔ t.descriptor = s ∧ t.WellFormed := by
  have text : s.toList = t.descriptorChars ↔ t.descriptor = s := by
    rw [descriptor]
    constructor
    · intro same
      rw [← same, String.ofList_toList]
    · rintro rfl
      exact String.toList_ofList
  rw [← text, ← parse?_eq_some_iff, parse]
  cases parse? s.toList <;> simp

/-- No two types are written alike. -/
theorem descriptorChars_injective : Function.Injective descriptorChars := by
  intro t u same
  induction t generalizing u with
  | primitive p =>
    cases u with
    | primitive q =>
      have letters : p.letter = q.letter := by simpa [descriptorChars] using same
      have read := congrArg Primitive.ofLetter? letters
      rw [Primitive.ofLetter?_letter, Primitive.ofLetter?_letter] at read
      cases read
      rfl
    | object name => simp [descriptorChars] at same
    | array component => cases p <;> simp [descriptorChars, Primitive.letter] at same
  | object name =>
    cases u with
    | primitive q => simp [descriptorChars] at same
    | object name' =>
      have names : name = name' := by simpa [descriptorChars, String.toList_inj] using same
      rw [names]
    | array component => simp [descriptorChars] at same
  | array component ih =>
    cases u with
    | primitive q => cases q <;> simp [descriptorChars, Primitive.letter] at same
    | object name => simp [descriptorChars] at same
    | array component' =>
      have components : component.descriptorChars = component'.descriptorChars := by
        simpa [descriptorChars] using same
      rw [ih components]

theorem isDescriptor_descriptor_iff : IsDescriptor t.descriptor ↔ t.WellFormed := by
  rw [isDescriptor_iff]
  constructor
  · rintro ⟨u, formed, same⟩
    have chars : u.descriptorChars = t.descriptorChars := String.ofList_injective same
    rwa [descriptorChars_injective chars] at formed
  · intro formed
    exact ⟨t, formed, rfl⟩

/-- Field descriptors are read exactly: no other text is read, each is written again from the type
that was read, and each type that is written as one is read from it. -/
theorem fieldDescriptors_exact (s : String) :
    ((∃ t, parse s = .ok t) ↔ IsDescriptor s) ∧
      (¬ IsDescriptor s → parse s = .error ⟨s⟩) ∧
      (∀ t, parse s = .ok t → t.descriptor = s) ∧
      ∀ t : FieldType, IsDescriptor t.descriptor → parse t.descriptor = .ok t := by
  have accepted : (∃ t, parse s = .ok t) ↔ IsDescriptor s := by
    simp only [parse_eq_ok_iff, isDescriptor_iff, and_comm]
  refine ⟨accepted, ?_, ?_, ?_⟩
  · intro other
    cases read : parse s with
    | ok t => exact absurd (accepted.mp ⟨t, read⟩) other
    | error e =>
      unfold parse at read
      split at read
      · cases read
      · exact read.symm
  · intro t read
    exact (parse_eq_ok_iff.mp read).1
  · intro t described
    exact parse_eq_ok_iff.mpr ⟨rfl, isDescriptor_descriptor_iff.mp described⟩

end ManagedRuntime.FieldType
