import ManagedRuntime.Heap.Basic

/-!
Objects as they look from outside: class and contents, with the contents of the parts down to a
depth. Strings, mirrors and backtraces show what they hold at any depth.
-/
namespace ManagedRuntime

inductive View where
  | null
  | primitive (v : Value)
  | text (o : ObjectId) (className contents : String)
  /-- The mirror of a class, with the loader of that class if it has one. -/
  | mirror (o : ObjectId) (className mirrored : String) (loader : Option View)
  | backtrace (o : ObjectId) (className : String) (methods : List String)
  | elements (o : ObjectId) (className : String) (items : List View)
  /-- Fields by name; one whose slots have another shape than its type cannot be read. -/
  | fields (o : ObjectId) (className : String) (items : List (String × Option View))
  /-- An object whose parts are too deep to be shown. -/
  | closed (o : ObjectId) (className : String)

namespace Heap
variable (r : Registry) (h : Heap)

/-- View of a value whose parts are shown `depth` levels down. A mirror shows the loader of its
class; `fuel` bounds such chains. -/
def viewWithin : Nat → Nat → Value → View
  | _, _, .ref none => .null
  | 0, _, .ref (some o) => .closed o (r.cls (h.classOf o)).name
  | fuel + 1, depth, .ref (some o) =>
    let x := h.get o
    let name := (r.cls x.cls).name
    match x.payload with
    | .string s => .text o name s
    | .mirror c =>
      .mirror o name (r.cls c).name
        ((r.cls c).loader.map fun l => viewWithin fuel 0 (.ref (some l)))
    | .backtrace ms => .backtrace o name (ms.map Method.text)
    | .array e =>
      match depth with
      | 0 => .closed o name
      | d + 1 => .elements o name (e.toValues.map (viewWithin fuel d))
    | .plain =>
      match depth with
      | 0 => .closed o name
      | d + 1 =>
        .fields o name ((r.instanceFields x.cls).map fun f =>
          (f.1 ++ "." ++ f.2.name,
            (x.readField f.2.offset f.2.type.primitive?).map (viewWithin fuel d)))
  | _, _, v => .primitive v

def view (depth : Nat) (v : Value) : View :=
  h.viewWithin r (depth + r.loaded.size + 1) depth v

end Heap
end ManagedRuntime
