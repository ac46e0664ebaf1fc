import ManagedRuntime.Heap.Basic

/-!
Copying between arrays. The request is checked first: both arrays present, both arrays, both ranges
inside. If every element of the source fits the destination by its class the block is copied as a
whole, as if through a buffer. Otherwise references are stored one by one up to the first that does
not fit.
-/
namespace ManagedRuntime.Heap
variable (r : Registry) (h : Heap)

def inRange (pos length : Int) (size : Nat) : Bool := 0 ≤ pos && 0 ≤ length && pos + length ≤ size

def copyBlock (src : ObjectId) (srcAt : Nat) (dest : ObjectId) (destAt length : Nat)
    (source target : Elements) : Except Failure Unit × Heap :=
  if length = 0 then (.ok (), h)
  else
    match source.overwrite? srcAt (if src = dest then source else target) destAt length with
    | some e => (.ok (), h.setElements dest e)
    | none => (.error .arrayStore, h)

def storable (c : ClassId) : Reference → Bool
  | none => true
  | some o => r.assignable (h.classOf o) c

/-- The transfer of references with a check of each; what was copied before a failure stays. -/
def copyChecked (srcAt : Nat) (dest : ObjectId) (destAt length : Nat) (component : ClassId)
    (source target : Elements) : Except Failure Unit × Heap :=
  match source.references?, target.references? with
  | some refs, some old =>
    let good := ((refs.extract srcAt (srcAt + length)).toList.takeWhile (h.storable r component))
    let copied := Elements.splice refs srcAt old destAt good.length
    (if good.length = length then .ok () else .error .arrayStore,
      h.setElements dest ⟨.reference, copied⟩)
  | _, _ => (.error .arrayStore, h)

def hasReferenceComponents (c : ClassId) : Bool :=
  match (r.cls c).component? with
  | some e => !(r.cls e).isPrimitive
  | none => false

def arrayCopy (src : Reference) (srcPos : Int32) (dest : Reference) (destPos length : Int32) :
    Except Failure Unit × Heap :=
  match src, dest with
  | some s, some d =>
    let sc := h.classOf s
    let dc := h.classOf d
    match (h.get s).elements?, (h.get d).elements?, (r.cls dc).component? with
    | some source, some target, some component =>
      if !(r.cls sc).isArray then (.error .arrayStore, h)
      else if !inRange srcPos.toInt length.toInt source.size
          || !inRange destPos.toInt length.toInt target.size then
        (.error .arrayIndexOutOfBounds, h)
      else
        let srcAt := srcPos.toNatClampNeg
        let destAt := destPos.toNatClampNeg
        let n := length.toNatClampNeg
        if r.assignable sc dc then h.copyBlock s srcAt d destAt n source target
        else if !hasReferenceComponents r sc || !hasReferenceComponents r dc
            || (r.cls sc).dimensions > (r.cls dc).dimensions then
          (.error .arrayStore, h)
        else h.copyChecked r srcAt d destAt n component source target
    | _, _, _ => (.error .arrayStore, h)
  | _, _ => (.error .nullReference, h)

end ManagedRuntime.Heap
