import ManagedRuntime.Proofs.Class.Tiling
import ManagedRuntime.Proofs.Heap.Reclaim
import ManagedRuntime.Proofs.Value.Storage

/-!
Heaps as the operations of a runtime make them while classes are loaded. Main statement: an object
has the slots of its class, or none at all as arrays do; one that holds no elements has them all.
-/
namespace ManagedRuntime.Heap
open Registry

inductive Requested (r : Registry) (h : Heap) : Object → Prop where
  | plain {c : ClassId} {x : Object} (there : c.index < r.loaded.size)
      (made : newInstance r c = .ok x) : Requested r h x
  | array {c : ClassId} {length : Int32} {x : Object} (there : c.index < r.loaded.size)
      (made : newArray r c length = .ok x) : Requested r h x
  | arrayOf {c : ClassId} (there : c.index < r.loaded.size) (elements : Elements) :
      Requested r h (newArrayOf c elements)
  | carrier {c : ClassId} (there : c.index < r.loaded.size) (payload : Payload) :
      Requested r h (newCarrier r c payload)
  | copy (o : ObjectId) : Requested r h (h.copyOf o)

inductive Stocked : Registry → Heap → Prop where
  | empty (maxBytes initialBytes : Nat) : Stocked .empty (.empty maxBytes initialBytes)
  | classes {r r' : Registry} {h : Heap} (stocked : Stocked r h) (built : r'.Built)
      (later : Later r r') : Stocked r' h
  | allocate {r : Registry} {h : Heap} {x : Object} (stocked : Stocked r h)
      (requested : Requested r h x) : Stocked r (h.allocate x).2
  | writeField {r : Registry} {h h' : Heap} {o : ObjectId} {offset : Nat} {v : Value}
      (stocked : Stocked r h) (wrote : h.writeField? o offset v = some h') : Stocked r h'
  | setElements {r : Registry} {h : Heap} (stocked : Stocked r h) (o : ObjectId)
      (elements : Elements) : Stocked r (h.setElements o elements)
  | setMonitor {r : Registry} {h : Heap} (stocked : Stocked r h) (o : ObjectId) (m : Monitor) :
      Stocked r (h.modify o ({ · with monitor := m }))
  | reclaim {r : Registry} {h h' : Heap} (stocked : Stocked r h) (alike : h.Alike h') :
      Stocked r h'

variable {r r' : Registry} {h h' : Heap}

/-- The object has the slots of its class, or none, and then it holds elements. -/
structure Room (r : Registry) (x : Object) : Prop where
  there : x.cls.index < r.loaded.size
  slots : x.fields.size = 0 ∨ x.fields.size = (r.cls x.cls).template.length
  filled : x.elements? = none → x.fields.size = (r.cls x.cls).template.length

theorem Room.later {x : Object} (room : Room r x) (later : Later r r') : Room r' x where
  there := Nat.lt_of_lt_of_le room.there later.size
  slots := by
    rw [later.cls _ room.there]
    exact room.slots
  filled bare := by
    rw [later.cls _ room.there]
    exact room.filled bare

theorem Room.congr {x y : Object} (room : Room r x) (cls : y.cls = x.cls)
    (slots : y.fields.size = x.fields.size) (bare : y.elements? = none → x.elements? = none) :
    Room r y where
  there := by
    rw [cls]
    exact room.there
  slots := by
    rw [cls, slots]
    exact room.slots
  filled none := by
    rw [cls, slots]
    exact room.filled (bare none)

theorem Requested.room {x : Object} (requested : Requested r h x) (stock : ∀ o, Room r (h.get o)) :
    Room r x := by
  cases requested with
  | plain there made =>
    unfold newInstance at made
    dsimp only at made
    split at made
    · cases made
    · cases made
      exact ⟨there, .inr List.size_toArray, fun _ => List.size_toArray⟩
  | @array c length _ there made =>
    unfold newArray at made
    cases kind : elementKind r c length with
    | error f =>
      rw [kind] at made
      cases made
    | ok k =>
      rw [kind] at made
      cases made
      exact ⟨there, .inl rfl, nofun⟩
  | arrayOf there elements => exact ⟨there, .inl rfl, nofun⟩
  | carrier there payload => exact ⟨there, .inr List.size_toArray, fun _ => List.size_toArray⟩
  | copy o => exact (stock o).congr rfl rfl id

theorem get_allocate (x : Object) (o : ObjectId) :
    (h.allocate x).2.get o = h.get o ∨ (h.allocate x).2.get o = x := by
  unfold allocate
  split
  · exact .inl rfl
  · dsimp only
    rw [get_push]
    split
    · exact .inr rfl
    · exact .inl rfl

/-- Every write goes to one object and keeps its class and its number of slots. -/
theorem writeField?_cases {o : ObjectId} {offset : Nat} {v : Value}
    (wrote : h.writeField? o offset v = some h') :
    ∃ slots, Slot.Writes (h.get o).fields offset v slots ∧
      h' = h.modify o fun _ => { h.get o with fields := slots } := by
  unfold writeField? Object.writeField? at wrote
  obtain ⟨x, written, rfl⟩ := Option.map_eq_some_iff.mp wrote
  obtain ⟨slots, fitted, rfl⟩ := Option.map_eq_some_iff.mp written
  exact ⟨slots, Slot.write?_eq_some fitted, rfl⟩

theorem room_modify {f : Object → Object} {o : ObjectId} (stock : ∀ p, Room r (h.get p))
    (cls : (f (h.get o)).cls = (h.get o).cls)
    (slots : (f (h.get o)).fields.size = (h.get o).fields.size)
    (bare : (f (h.get o)).elements? = none → (h.get o).elements? = none) (p : ObjectId) :
    Room r ((h.modify o f).get p) := by
  rw [get_modify]
  split
  · rename_i same
    rw [← same.1]
    exact (stock o).congr cls slots bare
  · exact stock p

theorem Stocked.built (stocked : Stocked r h) : r.Built := by
  induction stocked with
  | empty => exact .empty
  | classes _ built _ _ => exact built
  | allocate _ _ ih | writeField _ _ ih | setElements _ _ _ ih | setMonitor _ _ _ ih
  | reclaim _ _ ih => exact ih

theorem Stocked.room (stocked : Stocked r h) : ∀ o, Room r (h.get o) := by
  induction stocked with
  | empty maxBytes initialBytes =>
    exact fun _ => ⟨(by decide : 0 < Registry.empty.loaded.size), .inl rfl, fun _ => rfl⟩
  | classes _ _ later ih => exact fun o => (ih o).later later
  | allocate _ requested ih =>
    intro o
    rcases get_allocate _ o with same | same <;> rw [same]
    · exact ih o
    · exact requested.room ih
  | writeField _ wrote ih =>
    obtain ⟨slots, writes, rfl⟩ := writeField?_cases wrote
    exact room_modify ih rfl writes.size id
  | setElements _ o elements ih => exact room_modify ih rfl rfl nofun
  | setMonitor _ o m ih => exact room_modify ih rfl rfl id
  | reclaim _ alike ih =>
    intro o
    refine (ih o).congr (alike.cls o) (congrArg Array.size (alike.fields o)) fun none => ?_
    rwa [Object.elements?, ← alike.payload o]

theorem Stocked.array_bare (stocked : Stocked r h) {o : ObjectId}
    (array : (r.cls (h.classOf o)).isArray = true) : (h.get o).fields.size = 0 := by
  obtain ⟨there, none | slots, -⟩ := stocked.room o
  · exact none
  · have other : (r.cls (h.classOf o)).kind ≠ .ordinary := by
      intro ordinary
      simp [Class.isArray, ordinary] at array
    rw [slots, show (r.cls (h.get o).cls).template = [] from (stocked.built.unstored there other).2]
    rfl

end ManagedRuntime.Heap
