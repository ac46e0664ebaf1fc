import ManagedRuntime.Descriptor.MethodType
import ManagedRuntime.Proofs.Descriptor.FieldTypes

/-!
The texts that are method descriptors. Main statement: there is one way at most to split a text into
field descriptors between parentheses and what is returned; a text is read exactly if there is one, and
what is read is that split.
-/
namespace ManagedRuntime.MethodType
variable {cs rest : List Char} {ts : List FieldType} {r : Option FieldType} {m : MethodType}
  {fuel : Nat} {s : String}

def resultText (r : Option FieldType) : String := r.elim "V" FieldType.descriptor

def descriptor (m : MethodType) : String :=
  "(" ++ String.join (m.params.map FieldType.descriptor) ++ ")" ++ resultText m.result

structure WellFormed (m : MethodType) : Prop where
  params : ∀ t ∈ m.params, t.WellFormed
  result : ∀ t ∈ m.result, t.WellFormed

/-- The text is made of these field descriptors and of what is returned. -/
structure Splits (s : String) (params : List String) (result : String) : Prop where
  described : ∀ p ∈ params, FieldType.IsDescriptor p
  returned : result = "V" ∨ FieldType.IsDescriptor result
  whole : s = "(" ++ String.join params ++ ")" ++ result

/-! Characters. -/

theorem toList_resultText (r : Option FieldType) : (resultText r).toList = resultChars r := by
  cases r with
  | none => rfl
  | some t => exact String.toList_ofList

theorem toList_descriptor (m : MethodType) : m.descriptor.toList = m.descriptorChars := by
  have params : (String.join (m.params.map FieldType.descriptor)).toList =
      m.params.flatMap FieldType.descriptorChars := by
    rw [String.toList_join, List.flatMap_map]
    simp only [FieldType.descriptor, String.toList_ofList]
  simp [descriptor, descriptorChars, params, toList_resultText]

theorem descriptorChars_head (t : FieldType) :
    ∃ c cs, t.descriptorChars = c :: cs ∧ c ≠ ')' := by
  cases t with
  | primitive p => exact ⟨p.letter, [], rfl, by cases p <;> decide⟩
  | object name => exact ⟨'L', _, rfl, by decide⟩
  | array component => exact ⟨'[', _, rfl, by decide⟩

theorem length_le_flatMap (ts : List FieldType) :
    ts.length ≤ (ts.flatMap FieldType.descriptorChars).length := by
  induction ts with
  | nil => simp
  | cons t ts ih =>
    obtain ⟨c, cs, chars, -⟩ := descriptorChars_head t
    simp only [List.flatMap_cons, List.length_append, List.length_cons, chars]
    omega

/-! Parameters. -/

theorem scanParams_of_text (formed : ∀ t ∈ ts, t.WellFormed) (enough : ts.length ≤ fuel)
    (rest : List Char) :
    scanParams fuel (ts.flatMap FieldType.descriptorChars ++ ')' :: rest) = some (ts, rest) := by
  induction ts generalizing fuel with
  | nil => simp [scanParams]
  | cons t ts ih =>
    obtain ⟨proper, fits⟩ := formed t (by simp)
    obtain ⟨c, cs, chars, other⟩ := descriptorChars_head t
    have first : FieldType.scan 0 (t.descriptorChars ++
        (ts.flatMap FieldType.descriptorChars ++ ')' :: rest)) = some (t, _) :=
      FieldType.scan_descriptorChars proper (by omega) _
    cases fuel with
    | zero => simp at enough
    | succ fuel =>
      have fewer : ts.length ≤ fuel := by simpa using enough
      have others := ih (fun u member => formed u (by simp [member])) fewer
      rw [List.flatMap_cons, List.append_assoc, scanParams.eq_3, first]
      · simp [others]
      · intro cs' same
        rw [chars] at same
        exact other (List.cons.inj same).1

theorem scanParams_inv (read : scanParams fuel cs = some (ts, rest)) :
    cs = ts.flatMap FieldType.descriptorChars ++ ')' :: rest ∧ ∀ t ∈ ts, t.WellFormed := by
  fun_induction scanParams fuel cs generalizing ts with
  | case1 =>
    cases read
    simp
  | case2 | case3 => simp at read
  | case4 fuel cs unclosed t after first ih =>
    obtain ⟨⟨us, rest'⟩, others, same⟩ := Option.map_eq_some_iff.mp read
    cases same
    obtain ⟨text, formed⟩ := ih others
    obtain ⟨text', proper, fits⟩ := FieldType.scan_inv first (Nat.zero_le _)
    refine ⟨by simp [text', text], ?_⟩
    intro u member
    rcases List.mem_cons.mp member with rfl | later
    · exact ⟨proper, by omega⟩
    · exact formed u later

theorem scanParams_of_length_le (enough : cs.length ≤ fuel) :
    scanParams fuel cs = scanParams cs.length cs := by
  have transfer {n k : Nat} {ts : List FieldType} {rest : List Char} (long : cs.length ≤ k)
      (read : scanParams n cs = some (ts, rest)) :
      scanParams k cs = some (ts, rest) := by
    obtain ⟨rfl, formed⟩ := scanParams_inv read
    have short := length_le_flatMap ts
    rw [List.length_append] at long
    exact scanParams_of_text formed (by omega) rest
  apply Option.ext
  rintro ⟨ts, rest⟩
  exact ⟨transfer (Nat.le_refl _), transfer enough⟩

/-! The whole. -/

theorem parseResult?_of_ne (other : cs ≠ ['V']) :
    parseResult? cs = (FieldType.parse? cs).map some := by
  unfold parseResult?
  split
  · exact absurd rfl other
  · rfl

theorem parseResult?_eq_some_iff :
    parseResult? cs = some r ↔ cs = resultChars r ∧ ∀ t ∈ r, t.WellFormed := by
  by_cases void : cs = ['V']
  · subst void
    have read : parseResult? ['V'] = some none := rfl
    rw [read, Option.some.injEq]
    constructor
    · rintro rfl
      simp [resultChars]
    · rintro ⟨text, formed⟩
      cases r with
      | none => rfl
      | some t =>
        have same : FieldType.descriptorChars (.primitive .void) = t.descriptorChars := text
        obtain rfl := FieldType.descriptorChars_injective same
        exact absurd rfl (formed _ rfl).proper
  · rw [parseResult?_of_ne void, Option.map_eq_some_iff]
    constructor
    · rintro ⟨t, parsed, rfl⟩
      obtain ⟨text, formed⟩ := FieldType.parse?_eq_some_iff.mp parsed
      exact ⟨text, by simpa using formed⟩
    · rintro ⟨text, formed⟩
      cases r with
      | none => exact absurd text void
      | some t => exact ⟨t, FieldType.parse?_eq_some_iff.mpr ⟨text, formed t rfl⟩, rfl⟩

theorem parse?_eq_some_iff : parse? cs = some m ↔ cs = m.descriptorChars ∧ m.WellFormed := by
  constructor
  · intro read
    unfold parse? at read
    split at read
    · rename_i cs
      split at read
      · cases read
      · rename_i params rest scanned
        obtain ⟨r, returned, rfl⟩ := Option.map_eq_some_iff.mp read
        obtain ⟨text, formed⟩ := scanParams_inv scanned
        obtain ⟨rfl, formed'⟩ := parseResult?_eq_some_iff.mp returned
        exact ⟨by rw [text]; rfl, formed, formed'⟩
    · cases read
  · rintro ⟨rfl, params, result⟩
    have enough : m.params.length ≤
        (m.params.flatMap FieldType.descriptorChars ++ ')' :: resultChars m.result).length := by
      rw [List.length_append]
      exact Nat.le_add_right_of_le (length_le_flatMap m.params)
    have scanned := scanParams_of_text params enough (resultChars m.result)
    have returned := parseResult?_eq_some_iff.mpr ⟨rfl, result⟩
    rw [descriptorChars, parse?, scanned]
    simp only [returned, Option.map_some]

theorem parse_eq_ok_iff : parse s = .ok m ↔ m.descriptor = s ∧ m.WellFormed := by
  rw [← String.toList_inj, toList_descriptor, eq_comm (a := m.descriptorChars),
    ← parse?_eq_some_iff, parse]
  cases parse? s.toList <;> simp

/-- A split of the text is the one into the descriptors of what is read. -/
theorem splits_iff {params : List String} {result : String} :
    Splits s params result ↔ ∃ m, parse s = .ok m ∧
      params = m.params.map FieldType.descriptor ∧ result = resultText m.result := by
  constructor
  · rintro ⟨described, returned, whole⟩
    have types : ∃ ts : List FieldType, (∀ t ∈ ts, t.WellFormed) ∧
        params = ts.map FieldType.descriptor := by
      clear whole
      induction params with
      | nil => exact ⟨[], by simp, rfl⟩
      | cons p ps ih =>
        obtain ⟨ts, formed, rfl⟩ := ih fun q member => described q (by simp [member])
        obtain ⟨t, formed', rfl⟩ := FieldType.isDescriptor_iff.mp (described p (by simp))
        exact ⟨t :: ts, by simpa using ⟨formed', formed⟩, rfl⟩
    have type : ∃ r : Option FieldType, (∀ t ∈ r, t.WellFormed) ∧ result = resultText r := by
      rcases returned with rfl | described
      · exact ⟨none, by simp, rfl⟩
      · obtain ⟨t, formed, rfl⟩ := FieldType.isDescriptor_iff.mp described
        exact ⟨some t, by simpa using formed, rfl⟩
    obtain ⟨ts, formed, rfl⟩ := types
    obtain ⟨r, formed', rfl⟩ := type
    exact ⟨⟨ts, r⟩, parse_eq_ok_iff.mpr ⟨whole.symm, formed, formed'⟩, rfl, rfl⟩
  · rintro ⟨m, read, rfl, rfl⟩
    obtain ⟨text, params, result⟩ := parse_eq_ok_iff.mp read
    refine ⟨?_, ?_, text.symm⟩
    · intro p member
      obtain ⟨t, there, rfl⟩ := List.mem_map.mp member
      exact FieldType.isDescriptor_descriptor_iff.mpr (params t there)
    · cases returned : m.result with
      | none => exact .inl rfl
      | some t => exact .inr (FieldType.isDescriptor_descriptor_iff.mpr (result t returned))

end ManagedRuntime.MethodType
