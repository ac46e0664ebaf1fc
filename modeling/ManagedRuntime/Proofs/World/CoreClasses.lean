import ManagedRuntime.Proofs.World.Tame

/-!
The classes that a runtime brings along. Main statement: after a start, each class of the runtime is
as the runtime defines it, or as the embedding program does that has replaced it.
-/
namespace ManagedRuntime

namespace Registry
variable {r r' : Registry} {d : ClassDef} {c : ClassId}

structure MadeFrom (r : Registry) (d : ClassDef) (c : ClassId) : Prop where
  known : r.Known d.name none c
  makes : ∃ r₀ : Registry, ∃ superclass interfaces,
    r₀.Makes d none superclass interfaces (r.cls c)

theorem MadeFrom.later (made : r.MadeFrom d c) (later : Later r r') : r'.MadeFrom d c where
  known := later.known made.known
  makes := by
    rw [later.cls c made.known.there]
    exact made.makes

theorem Built.define_made (built : r.Built) (defined : r.define d none = (.ok c, r')) :
    r'.MadeFrom d c := by
  have comes := Registry.define_cases d none built.ordered.primitives
  rw [defined] at comes
  cases comes with
  | @defined r₀ superclass interfaces x _ _ _ _ _ _ made =>
    have makes := makes_of_build made
    have last : (⟨r₀.loaded.size⟩ : ClassId).index = r₀.loaded.size := rfl
    refine ⟨⟨⟨?_, ?_⟩, ?_, ?_⟩, r₀, superclass, interfaces, ?_⟩
    · rw [last, size_add]
      exact Nat.lt_succ_self _
    · rw [cls_add_last last, Class.isPrimitive, makes.kind]
    · rw [cls_add_last last, makes.name]
    · rw [cls_add_last last, makes.loader]
    · rw [cls_add_last last]
      exact makes

theorem Built.define_later (built : r.Built) (d : ClassDef) (loader : Reference) :
    Later r (r.define d loader).2 :=
  ((define_grows d loader built.ordered.primitives).extends built.ordered).later

theorem MadeFrom.find? (made : r.MadeFrom d c) (built : r.Built) : r.find? d.name none = some c :=
  built.keyed.find?_iff.mpr made.known

structure Defined (r : Registry) (ds : List ClassDef) (r' : Registry) : Prop where
  built : r'.Built
  later : Later r r'
  state : ∀ c : ClassId, c.index < r.loaded.size → r'.state c = r.state c
  made : ∀ d ∈ ds, ∃ c, r'.MadeFrom d c
  fresh : ∀ d ∈ ds, r.find? d.name none = none
  distinct : (ds.map ClassDef.name).Nodup

theorem Built.defined_nil (built : r.Built) : r.Defined [] r :=
  ⟨built, .refl r, fun _ _ => rfl, nofun, nofun, List.nodup_nil⟩

theorem Built.defined_one (built : r.Built) (defined : r.define d none = (.ok c, r'))
    (f : ClassState → ClassState) : r.Defined [d] (r'.modifyState c f) := by
  have built' := built.define d none
  have made := built.define_made defined
  have grows := define_grows d none built.ordered.primitives
  have comes := built.define_cases d none
  rw [defined] at built' grows comes
  obtain ⟨f, r₁, failed, -⟩ | ⟨c', r₁, same, adds, -⟩ := comes
  · cases failed
  cases same
  refine ⟨built'.modifyState c f, adds.later.trans (.modifyState c f), ?_, ?_, ?_, ?_⟩
  · intro e there
    have other : e ≠ c := by
      rintro rfl
      exact absurd there (Nat.not_lt_of_le adds.new)
    rw [state_modifyState, if_neg fun both => other both.1, grows.state there]
  · simpa using ⟨c, made.later (.modifyState c f)⟩
  · simpa using adds.unknown
  · simp

theorem Defined.append {ds es : List ClassDef} {r'' : Registry} (first : r.Defined ds r')
    (rest : r'.Defined es r'') : r.Defined (ds ++ es) r'' where
  built := rest.built
  later := first.later.trans rest.later
  state c there := by
    rw [rest.state c (Nat.lt_of_lt_of_le there first.later.size), first.state c there]
  made d member := by
    rcases List.mem_append.mp member with old | new
    · obtain ⟨c, made⟩ := first.made d old
      exact ⟨c, made.later rest.later⟩
    · exact rest.made d new
  fresh d member := by
    rcases List.mem_append.mp member with old | new
    · exact first.fresh d old
    · refine Option.eq_none_iff_forall_ne_some.mpr fun c found => ?_
      have known := first.later.find? first.built found
      rw [rest.fresh d new] at known
      cases known
  distinct := by
    rw [List.map_append, List.nodup_append]
    refine ⟨first.distinct, rest.distinct, ?_⟩
    rintro _ old _ new rfl
    obtain ⟨d, member, name⟩ := List.mem_map.mp old
    obtain ⟨e, member', name'⟩ := List.mem_map.mp new
    obtain ⟨c, made⟩ := first.made d member
    have known := made.find? first.built
    rw [name, ← name', rest.fresh e member'] at known
    cases known

end Registry

namespace Boot
open Registry

theorem find?_eraseP {α : Type} {p q : α → Bool} (apart : ∀ a, q a = true → p a = false)
    (l : List α) : (l.eraseP p).find? q = l.find? q := by
  induction l with
  | nil => rfl
  | cons a l ih =>
    cases erased : p a with
    | true =>
      have other : ¬ q a = true := by
        intro here
        rw [apart a here] at erased
        cases erased
      rw [List.eraseP_cons_of_pos erased, List.find?_cons_of_neg other]
    | false =>
      rw [List.eraseP_cons_of_neg (by simp [erased]), List.find?_cons, List.find?_cons, ih]

def replacement (extra : List ClassDef) (d : ClassDef) : ClassDef :=
  (extra.find? (·.name == d.name)).getD d

theorem replacement_mem {d : ClassDef} {ds : List ClassDef} (member : d ∈ ds)
    (distinct : (ds.map ClassDef.name).Nodup) (extra : List ClassDef) :
    replacement extra d ∈ (replaceCore ds extra).1 := by
  induction ds generalizing extra with
  | nil => cases member
  | cons e es ih =>
    rw [List.map_cons, List.nodup_cons] at distinct
    rw [replaceCore]
    rcases List.mem_cons.mp member with rfl | later
    · unfold replacement
      cases extra.find? (·.name == d.name) <;> exact List.mem_cons_self
    · have other : d.name ≠ e.name := fun same =>
        distinct.1 (List.mem_map.mpr ⟨d, later, same⟩)
      have rest := ih later distinct.2
      split
      · exact List.mem_cons_of_mem _ (rest extra)
      · refine List.mem_cons_of_mem _ ?_
        have same : replacement (extra.eraseP (·.name == e.name)) d = replacement extra d := by
          unfold replacement
          rw [find?_eraseP fun x here => ?_]
          rw [beq_iff_eq.mp here]
          exact beq_eq_false_iff_ne.mpr other
        rw [← same]
        exact rest _

theorem replaceCore_perm (ds extra : List ClassDef) :
    ∃ kept, ((replaceCore ds extra).1 ++ (replaceCore ds extra).2).Perm (kept ++ extra) := by
  induction ds generalizing extra with
  | nil => exact ⟨[], .refl _⟩
  | cons d ds ih =>
    rw [replaceCore]
    split
    · obtain ⟨kept, perm⟩ := ih extra
      exact ⟨d :: kept, perm.cons d⟩
    · rename_i e found
      obtain ⟨kept, perm⟩ := ih (extra.eraseP (·.name == d.name))
      refine ⟨kept, (perm.cons e).trans ?_⟩
      obtain ⟨named, before, after, rfl, others⟩ := List.find?_eq_some_iff_append.mp found
      have left : (before ++ e :: after).eraseP (·.name == d.name) = before ++ after := by
        rw [List.eraseP_append_right _ fun x member => by simpa using others x member,
          List.eraseP_cons_of_pos (p := fun x : ClassDef => x.name == d.name) named]
      rw [left, ← List.append_assoc, ← List.append_assoc]
      exact List.perm_middle.symm

theorem defined_defineCore {natives : NativeRegistry} {ds : List ClassDef} {r r' : Registry}
    (built : r.Built) (defined : defineCore natives ds r = .ok r') : r.Defined ds r' := by
  induction ds generalizing r with
  | nil =>
    cases defined
    exact built.defined_nil
  | cons d ds ih =>
    rw [defineCore] at defined
    split at defined
    · cases defined
    · rename_i c r₁ one
      split at defined
      · cases defined
      · rename_i bound _
        have first := built.defined_one one ({ · with bound })
        exact first.append (ih first.built defined)

theorem found_of_checkRequired {r : Registry} (complete : checkRequired r = .ok ()) {name : String}
    (required : name ∈ Universe.required) : ∃ c, r.find? name none = some c := by
  unfold checkRequired at complete
  split at complete
  · cases complete
  · rename_i all
    have found := List.find?_eq_none.mp all name required
    exact Option.ne_none_iff_exists'.mp fun none => by simp [none] at found

end Boot

namespace Embedding
open Registry
variable {η : Type} {e : Embedding η} {w : World η}

theorem definitions_distinct : (Universe.definitions.map ClassDef.name).Nodup := by decide +kernel

/-- A class of the runtime is as the runtime defines it, if nothing has been put in its place. -/
theorem core_made (booted : e.boot = .ok w) {d : ClassDef} (member : d ∈ Universe.definitions)
    (kept : e.classes.find? (·.name == d.name) = none) : ∃ c, w.registry.MadeFrom d c := by
  obtain ⟨r, offset, core, -, -, extra⟩ := boot_parts booted
  have put : d ∈ (Boot.replaceCore Universe.definitions e.classes).1 := by
    have mem := Boot.replacement_mem member definitions_distinct e.classes
    rwa [Boot.replacement, kept] at mem
  have defined := Boot.defined_defineCore .empty core
  obtain ⟨c, made⟩ := defined.made d put
  have start := Boot.sane_initialWorld e defined.built offset
  exact ⟨c, made.later (Boot.tame_defineExtra extra start).2⟩

end Embedding
end ManagedRuntime
