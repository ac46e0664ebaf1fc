import ManagedRuntime.Reflect.Members

/-!
Natives of class objects, and those behind class loaders.
-/
namespace ManagedRuntime
open Exec
variable {η : Type}

def classQuery (call : NativeCall) (test : Class → Bool) : Exec η Nat := do
  let c ← classArg call 0
  let x ← act (Atomic.ask (·.cls c))
  finishBoolean call (test x)

def mirror? (c : Option ClassId) : Atomic η Reference :=
  match c with
  | none => return none
  | some c => some <$> Atomic.mirror c

/-- The member classes of `x` that name it as their enclosing class. -/
def memberClasses (x : Class) (publicOnly : Bool) : List String → Exec η (List ClassId)
  | [] => return []
  | name :: names => do
    let c ← findClass name x.loader
    let inner ← act (Atomic.ask (·.cls c))
    let counts := inner.declaringClass == some x.name
      && (!publicOnly || (inner.modifiers false).contains .isPublic)
    let rest ← memberClasses x publicOnly names
    return if counts then c :: rest else rest

def memberArray (call : NativeCall) (kind : MemberKind) : Exec η Nat := do
  let c ← classArg call 0
  let publicOnly ← booleanArg call 1
  let array ← declaredMembers c kind publicOnly
  finishRef call (some array)

def ClassNative.run (n : ClassNative) (call : NativeCall) : Exec η Nat := do
  match n with
  | isInstance =>
    let c ← classArg call 0
    let o ← referenceArg call 1
    let answer ← act (Atomic.ask fun w =>
      match o with
      | none => false
      | some o => w.registry.assignable (w.classOf o) c)
    finishBoolean call answer
  | isAssignableFrom =>
    let c ← classArg call 0
    let d ← classArg call 1
    let answer ← act (Atomic.ask fun w => w.registry.assignable d c)
    finishBoolean call answer
  | isInterface => classQuery call Class.isInterface
  | isPrimitive => classQuery call Class.isPrimitive
  | isArray => classQuery call Class.isArray
  | isSynthetic => classQuery call (·.flags.contains .isSynthetic)
  | isAnnotationType => classQuery call (·.flags.contains .isAnnotationType)
  | isEnum => classQuery call (·.flags.contains .isEnum)
  | hasClassInitializer => classQuery call (·.initializer?.isSome)
  | getSuperclass =>
    let c ← classArg call 0
    let x ← act (Atomic.ask (·.cls c))
    let m ← act (mirror? (if x.isPrimitive || x.isInterface then none else x.superclass))
    finishRef call m
  | getComponentType =>
    let c ← classArg call 0
    let x ← act (Atomic.ask (·.cls c))
    let m ← act (mirror? x.component?)
    finishRef call m
  | getName =>
    let c ← classArg call 0
    let x ← act (Atomic.ask (·.cls c))
    let s ← act (Atomic.newString x.dottedName)
    finishRef call (some s)
  | getDeclaredClasses =>
    let c ← classArg call 0
    let publicOnly ← booleanArg call 1
    let x ← act (Atomic.ask (·.cls c))
    let inner ← memberClasses x publicOnly x.innerClasses
    let array ← act (Atomic.mirrorArray inner)
    finishRef call (some array)
  | getDeclaringClass =>
    let c ← classArg call 0
    let x ← act (Atomic.ask (·.cls c))
    match x.declaringClass with
    | none => finishRef call none
    | some outer =>
      let d ← findClass outer x.loader
      let m ← act (Atomic.mirror d)
      finishRef call (some m)
  | getDeclaredConstructors => memberArray call .constructor
  | getDeclaredMethods => memberArray call .method
  | getDeclaredFields => memberArray call .field
  | getInterfaces =>
    let c ← classArg call 0
    let x ← act (Atomic.ask (·.cls c))
    let array ← act (Atomic.mirrorArray x.interfaces)
    finishRef call (some array)
  | getClassLoader =>
    let c ← classArg call 0
    let x ← act (Atomic.ask (·.cls c))
    finishRef call x.loader
  | getModifiers =>
    let c ← classArg call 0
    let ignoreInner ← booleanArg call 1
    let x ← act (Atomic.ask (·.cls c))
    finishInt call (x.modifiers ignoreInner).bits.toUInt32.toInt32
  | forName =>
    let name ← stringArg call 0
    let initialized ← booleanArg call 1
    let loader ← referenceArg call 2
    let m ← classForName name initialized loader
    finishRef call (some m)
  | throwException =>
    let o ← objectArg call 0
    let f ← act (Atomic.ask (·.thrown o))
    throw f

def bytesWithin (w : World η) (array : Reference) (offset length : Int32) :
    Except Failure ByteArray :=
  match array with
  | none => .error .nullReference
  | some o =>
    match (w.heap.get o).elements? with
    | none => .error (.notAnArray (w.textOf o))
    | some ⟨.byte, items⟩ =>
      if offset < 0 || length < 0 || (items.size : Int) < offset.toInt + length.toInt then
        .error .arrayIndexOutOfBounds
      else
        let start := offset.toNatClampNeg
        .ok ⟨(items.extract start (start + length.toNatClampNeg)).map Int8.toUInt8⟩
    | some _ => .error (.notAByteArray (w.textOf o))

/-- Defines a class for a loader from class file bytes. The name, if given, must be that of the
class, and the protection domain is kept in its mirror. -/
def defineFromBytes (loader nameObject array : Reference) (offset length : Int32)
    (domain : Exec η Reference) : Exec η ObjectId := do
  let name ← act (Atomic.ask fun w =>
    (nameObject.bind fun o => (w.heap.get o).string?).map slashed)
  let bytes ← act do bytesWithin (← get) array offset length
  let domain ← domain
  let d ← act (Atomic.parseClass name bytes)
  match name with
  | some expected => if expected ≠ d.name then throw (.wrongClassName expected d.name)
  | none => pure ()
  let c ← act (Atomic.defineClass d loader)
  let m ← act (Atomic.mirror c)
  discard (act do Atomic.writeField m (← get).domainOffset (.ref domain))
  return m

def bootResource? (w : World η) (name : String) (index : Int32) : Option String :=
  if index < 0 then none
  else
    match w.options.bootClassPath[index.toNatClampNeg]? with
    | none => none
    | some dir =>
      if w.platform.files.contains (Path.join dir name) then
        some ("file://" ++ Path.join dir name)
      else none

def LoaderNative.run (n : LoaderNative) (call : NativeCall) : Exec η Nat := do
  match n with
  | loadClass =>
    let name ← stringArg call 0
    let initialized ← booleanArg call 1
    let m ← classForName name initialized none
    finishRef call (some m)
  | getPrimitiveClass =>
    let code ← charArg call 0
    let p := if code.toNat < 128 then Primitive.ofLetter? (Char.ofNat code.toNat) else none
    let m ← act (mirror? (p.map Registry.primitive))
    finishRef call m
  | defineClass =>
    let loader ← referenceArg call 0
    let name ← referenceArg call 1
    let array ← referenceArg call 2
    let offset ← intArg call 3
    let length ← intArg call 4
    let m ← defineFromBytes loader name array offset length (referenceArg call 5)
    finishRef call (some m)
  | findLoadedClass =>
    let loader ← referenceArg call 0
    let name ← stringArg call 1
    let c ← act (Atomic.ask (·.registry.find? (slashed name) loader))
    let m ← act (mirror? c)
    finishRef call m
  | resolveClass =>
    let c ← classArg call 0
    initializeClass c
    finishVoid call
  | getBootClassPathSize =>
    let size ← act (Atomic.ask (·.options.bootClassPath.length))
    finishInt call (.ofNat size)
  | getBootClassPathResource =>
    let name ← stringArg call 0
    let index ← intArg call 1
    match ← act (Atomic.ask (bootResource? · name index)) with
    | none => finishRef call none
    | some url =>
      let s ← act (Atomic.newString url)
      finishRef call (some s)

end ManagedRuntime
