import ManagedRuntime.Natives.Registry

/-!
Registering natives, and what a lookup goes by. Entries with the method's own descriptor come before
entries without any. Main statement: a lookup that finds a function has found the only entry that
applies, if and only if no more than one entry of the method's class and name has its descriptor; and
it depends on the order of the registrations exactly if entries with the descriptor have different
functions.
-/
namespace ManagedRuntime.NativeRegistry
variable {r r' : NativeRegistry} {es es' : List NativeEntry} {className name descriptor : String}

def registered (es : List NativeEntry) : NativeRegistry := es.foldl register empty

def exact (r : NativeRegistry) (className name descriptor : String) : List NativeEntry :=
  (r.candidates className name).filter (·.descriptor == some descriptor)

def unqualified (r : NativeRegistry) (className name : String) : List NativeEntry :=
  (r.candidates className name).filter (·.descriptor.isNone)

/-- The entries that apply to the method: those of the first level that has any. -/
def applying (r : NativeRegistry) (className name descriptor : String) : List NativeEntry :=
  match r.exact className name descriptor with
  | [] => r.unqualified className name
  | e :: es => e :: es

/-! Registrations. -/

theorem entries_foldl_register (es : List NativeEntry) (r : NativeRegistry) :
    (es.foldl register r).entries = r.entries ++ es := by
  induction es generalizing r with
  | nil => simp
  | cons e es ih => simp [ih, register]

theorem entries_registered (es : List NativeEntry) : (registered es).entries = es := by
  simp [registered, entries_foldl_register, empty]

theorem mem_exact_iff {e : NativeEntry} :
    e ∈ r.exact className name descriptor ↔ e ∈ r.entries ∧
      e.className = className ∧ e.name = name ∧ e.descriptor = some descriptor := by
  simp only [exact, candidates, List.mem_filter, Bool.and_eq_true, beq_iff_eq, and_assoc]

theorem exact_perm (same : r.entries.Perm r'.entries) :
    (r.exact className name descriptor).Perm (r'.exact className name descriptor) :=
  (same.filter _).filter _

theorem unqualified_perm (same : r.entries.Perm r'.entries) :
    (r.unqualified className name).Perm (r'.unqualified className name) :=
  (same.filter _).filter _

/-! Lookup. -/

def single : List NativeEntry → NativeLookup
  | [] => .missing
  | [e] => .found e.function
  | es => .ambiguous es.length

theorem single_perm (same : es.Perm es') : single es = single es' := by
  have long := same.length_eq
  cases es with
  | nil => rw [same.nil_eq]
  | cons e es =>
    cases es with
    | nil => rw [same.singleton_eq]
    | cons d es =>
      match es' with
      | [] => simp at long
      | [_] => simp at long
      | _ :: _ :: _ => simpa [single] using long

theorem single_eq_found_iff {f : NativeFunction} :
    single es = .found f ↔ ∃ e, es = [e] ∧ e.function = f := by
  unfold single
  split <;> simp_all

theorem lookup_eq (r : NativeRegistry) (className name descriptor : String) :
    r.lookup className name descriptor =
      match r.exact className name descriptor with
      | [] => single (r.unqualified className name)
      | e :: _ => .found e.function := by
  rw [lookup, ← List.head?_filter, exact, unqualified]
  cases (r.candidates className name).filter (·.descriptor == some descriptor) with
  | nil => rfl
  | cons e es => rfl

/-- Without two entries for the descriptor a function that is found is that of the only entry that
applies. -/
theorem lookup_eq_found_iff {f : NativeFunction}
    (few : (r.exact className name descriptor).length ≤ 1) :
    r.lookup className name descriptor = .found f ↔
      ∃ e, r.applying className name descriptor = [e] ∧ e.function = f := by
  rw [lookup_eq, applying]
  match exactly : r.exact className name descriptor with
  | [] => exact single_eq_found_iff
  | [e] => simp
  | d :: e :: es => simp [exactly] at few

/-- Entries for the descriptor that have one function give that function in any order. -/
theorem lookup_perm (same : r.entries.Perm r'.entries)
    (alike : ∀ e ∈ r.exact className name descriptor, ∀ e' ∈ r.exact className name descriptor,
      e.function = e'.function) :
    r.lookup className name descriptor = r'.lookup className name descriptor := by
  have exactly : (r.exact className name descriptor).Perm (r'.exact className name descriptor) :=
    exact_perm same
  rw [lookup_eq, lookup_eq]
  cases first : r.exact className name descriptor with
  | nil =>
    rw [first] at exactly
    rw [← exactly.nil_eq]
    exact single_perm (unqualified_perm same)
  | cons e es =>
    cases first' : r'.exact className name descriptor with
    | nil =>
      rw [first, first'] at exactly
      cases exactly.eq_nil
    | cons e' es' =>
      have member : e' ∈ r.exact className name descriptor := by
        rw [exactly.mem_iff, first']
        exact List.mem_cons_self
      have functions : e.function = e'.function := alike e (by simp [first]) e' member
      simp only [functions]

/-- Any entry for the descriptor can be made the one that is taken. -/
theorem exists_perm_of_mem_exact {e : NativeEntry}
    (member : e ∈ (registered es).exact className name descriptor) :
    ∃ es', es'.Perm es ∧ (registered es').lookup className name descriptor = .found e.function := by
  obtain ⟨there, applies⟩ := mem_exact_iff.mp member
  rw [entries_registered] at there
  refine ⟨e :: es.erase e, (List.perm_cons_erase there).symm, ?_⟩
  obtain ⟨rfl, rfl, own⟩ := applies
  have first : (registered (e :: es.erase e)).exact e.className e.name descriptor =
      e :: (registered (es.erase e)).exact e.className e.name descriptor := by
    simp [exact, candidates, entries_registered, own]
  rw [lookup_eq, first]

/-- A lookup that finds a function has found the only entry that applies, if and only if no more than
one entry of the class and name has the descriptor; then the order of the registrations does not
matter. It does matter exactly if entries with the descriptor have different functions. -/
theorem lookup_unambiguous_iff (es : List NativeEntry) (className name descriptor : String) :
    ((∀ f, (registered es).lookup className name descriptor = .found f →
        ∃ e, (registered es).applying className name descriptor = [e] ∧ e.function = f) ↔
      ((registered es).exact className name descriptor).length ≤ 1) ∧
    (((registered es).exact className name descriptor).length ≤ 1 →
      ∀ es', es'.Perm es → (registered es').lookup className name descriptor =
        (registered es).lookup className name descriptor) ∧
    ((∀ es', es'.Perm es → (registered es').lookup className name descriptor =
        (registered es).lookup className name descriptor) ↔
      ∀ e ∈ (registered es).exact className name descriptor,
        ∀ e' ∈ (registered es).exact className name descriptor, e.function = e'.function) := by
  have ordered : (∀ e ∈ (registered es).exact className name descriptor,
      ∀ e' ∈ (registered es).exact className name descriptor, e.function = e'.function) →
      ∀ es', es'.Perm es → (registered es').lookup className name descriptor =
        (registered es).lookup className name descriptor := by
    intro alike es' same
    have entries : (registered es).entries.Perm (registered es').entries := by
      rw [entries_registered, entries_registered]
      exact same.symm
    exact (lookup_perm entries alike).symm
  refine ⟨⟨?many, ?few⟩, ?order, ?differ, ordered⟩
  case many =>
    intro unambiguous
    match exactly : (registered es).exact className name descriptor with
    | [] => simp
    | [e] => simp
    | d :: e :: es' =>
      have found : (registered es).lookup className name descriptor = .found d.function := by
        rw [lookup_eq, exactly]
      obtain ⟨_, one, -⟩ := unambiguous _ found
      simp [applying, exactly] at one
  case few =>
    intro few f found
    exact (lookup_eq_found_iff few).mp found
  case order =>
    intro few
    apply ordered
    intro e member e' member'
    match exactly : (registered es).exact className name descriptor with
    | [] => simp [exactly] at member
    | [d] =>
      rw [exactly, List.mem_singleton] at member member'
      rw [member, member']
    | c :: d :: ds => simp [exactly] at few
  case differ =>
    intro same e member e' member'
    obtain ⟨first, perm, found⟩ := exists_perm_of_mem_exact member
    obtain ⟨first', perm', found'⟩ := exists_perm_of_mem_exact member'
    rw [same first perm, ← same first' perm', found'] at found
    exact (NativeLookup.found.inj found).symm

/-- Of two entries for one class, name and descriptor the one that was registered first is taken. -/
theorem first_of_two_taken :
    let one : NativeEntry := ⟨"a/B", "run", some "()I", .embedded 1⟩
    let two : NativeEntry := ⟨"a/B", "run", some "()I", .embedded 2⟩
    (registered [one, two]).applying "a/B" "run" "()I" = [one, two] ∧
      (registered [one, two]).lookup "a/B" "run" "()I" = .found (.embedded 1) ∧
      (registered [two, one]).lookup "a/B" "run" "()I" = .found (.embedded 2) := by
  decide

end ManagedRuntime.NativeRegistry
