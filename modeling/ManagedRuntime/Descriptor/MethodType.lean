import ManagedRuntime.Descriptor.FieldType

/-!
Method types: parameter types between parentheses, then a return type or `V`.
-/
namespace ManagedRuntime

structure MethodType where
  params : List FieldType
  result : Option FieldType
  deriving DecidableEq, Repr

namespace MethodType

/-- Descriptors up to the closing parenthesis and what follows it. Every step consumes a character,
so as much fuel as there are characters suffices. -/
def scanParams : Nat → List Char → Option (List FieldType × List Char)
  | _, ')' :: cs => some ([], cs)
  | 0, _ => none
  | fuel + 1, cs =>
    match FieldType.scan 0 cs with
    | none => none
    | some (t, rest) => (scanParams fuel rest).map fun r => (t :: r.1, r.2)

def parseResult? : List Char → Option (Option FieldType)
  | ['V'] => some none
  | cs => (FieldType.parse? cs).map some

def parse? : List Char → Option MethodType
  | '(' :: cs =>
    match scanParams cs.length cs with
    | none => none
    | some (params, rest) => (parseResult? rest).map fun r => ⟨params, r⟩
  | _ => none

def parse (s : String) : Except MalformedDescriptor MethodType :=
  match parse? s.toList with
  | some m => .ok m
  | none => .error ⟨s⟩

def resultChars : Option FieldType → List Char
  | none => ['V']
  | some t => t.descriptorChars

def descriptorChars (m : MethodType) : List Char :=
  '(' :: (m.params.flatMap FieldType.descriptorChars ++ ')' :: resultChars m.result)

def resultSlots (m : MethodType) : Nat := (m.result.map FieldType.slotCount).getD 0

end MethodType
end ManagedRuntime
