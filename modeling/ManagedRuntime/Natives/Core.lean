/-!
The native functions that the runtime itself provides, by the managed class that declares them.
-/
namespace ManagedRuntime

inductive ObjectNative where
  | getClass | clone | wait | notify | notifyAll
  deriving DecidableEq, Repr

inductive SystemNative where
  | arraycopy | identityHashCode
  deriving DecidableEq, Repr

inductive RuntimeNative where
  | freeMemory | totalMemory | maxMemory | gc | runFinalization | exit | nativeLoad | mapLibraryName
  deriving DecidableEq, Repr

inductive ClassNative where
  | isInstance | isAssignableFrom | isInterface | isPrimitive | isArray | isSynthetic
  | isAnnotationType | isEnum | getSuperclass | getComponentType | getName | getDeclaredClasses
  | getDeclaringClass | getDeclaredConstructors | getDeclaredMethods | getDeclaredFields
  | getInterfaces | getClassLoader | getModifiers | forName | throwException
  | hasClassInitializer
  deriving DecidableEq, Repr

inductive ThreadNative where
  | currentThread | create | sleep | yield | interrupted | holdsLock | interrupt | isAlive
  | isInterrupted | nativeSetPriority
  deriving DecidableEq, Repr

inductive ThrowableNative where
  | fillInStackTrace | getStackTrace
  deriving DecidableEq, Repr

inductive LoaderNative where
  | loadClass | getPrimitiveClass | defineClass | findLoadedClass | resolveClass
  | getBootClassPathSize | getBootClassPathResource
  deriving DecidableEq, Repr

/-- Natives of reflected members. The typed field accessors share one function per direction, and
methods and constructors share the one that reads their modifiers. -/
inductive MemberNative where
  | fieldModifiers | getField | setField | getPrimitiveField | setPrimitiveField
  | invoke | construct | methodModifiers
  deriving DecidableEq, Repr

inductive PropertiesNative where
  | preInit | postInit
  deriving DecidableEq, Repr

inductive CallerNative where
  | getClassContext | getCallingClass | getCallingClassLoader | getStack
  deriving DecidableEq, Repr

inductive CoreNative where
  | object (n : ObjectNative)
  | system (n : SystemNative)
  | runtime (n : RuntimeNative)
  | cls (n : ClassNative)
  | intern
  | thread (n : ThreadNative)
  | throwable (n : ThrowableNative)
  | loader (n : LoaderNative)
  | member (n : MemberNative)
  | properties (n : PropertiesNative)
  | caller (n : CallerNative)
  deriving DecidableEq, Repr

/-- A native function: one of the runtime's own, or one that the embedder numbers. -/
inductive NativeFunction where
  | core (n : CoreNative)
  | embedded (index : Nat)
  deriving DecidableEq, Repr

namespace CoreNative

def objectGroup : List (String × CoreNative) :=
  [("getClass", object .getClass), ("clone", object .clone), ("wait", object .wait),
   ("notify", object .notify), ("notifyAll", object .notifyAll)]

def systemGroup : List (String × CoreNative) :=
  [("arraycopy", system .arraycopy), ("identityHashCode", system .identityHashCode)]

def runtimeGroup : List (String × CoreNative) :=
  [("freeMemory", runtime .freeMemory), ("totalMemory", runtime .totalMemory),
   ("maxMemory", runtime .maxMemory), ("gc", runtime .gc),
   ("runFinalization", runtime .runFinalization), ("exit", runtime .exit),
   ("nativeLoad", runtime .nativeLoad), ("mapLibraryName", runtime .mapLibraryName)]

def classGroup : List (String × CoreNative) :=
  [("isInstance", cls .isInstance), ("isAssignableFrom", cls .isAssignableFrom),
   ("isInterface", cls .isInterface), ("isPrimitive", cls .isPrimitive),
   ("isArray", cls .isArray), ("isSynthetic", cls .isSynthetic),
   ("isAnnotation", cls .isAnnotationType), ("isEnum", cls .isEnum),
   ("getSuperclass", cls .getSuperclass), ("getComponentType", cls .getComponentType),
   ("getName", cls .getName), ("getDeclaredClasses", cls .getDeclaredClasses),
   ("getDeclaringClass", cls .getDeclaringClass),
   ("getDeclaredConstructors", cls .getDeclaredConstructors),
   ("getDeclaredMethods", cls .getDeclaredMethods),
   ("getDeclaredFields", cls .getDeclaredFields), ("getInterfaces", cls .getInterfaces),
   ("getClassLoader", cls .getClassLoader), ("getModifiers", cls .getModifiers),
   ("forName", cls .forName), ("throwException", cls .throwException),
   ("hasClassInitializer", cls .hasClassInitializer)]

def threadGroup : List (String × CoreNative) :=
  [("currentThread", thread .currentThread), ("create", thread .create),
   ("sleep", thread .sleep), ("yield", thread .yield), ("interrupted", thread .interrupted),
   ("holdsLock", thread .holdsLock), ("interrupt", thread .interrupt),
   ("isAlive", thread .isAlive), ("isInterrupted", thread .isInterrupted),
   ("nativeSetPriority", thread .nativeSetPriority)]

def throwableGroup : List (String × CoreNative) :=
  [("fillInStackTrace", throwable .fillInStackTrace), ("getStackTrace", throwable .getStackTrace)]

def loaderGroup : List (String × CoreNative) :=
  [("loadClass", loader .loadClass), ("getPrimitiveClass", loader .getPrimitiveClass),
   ("defineClass", loader .defineClass), ("findLoadedClass", loader .findLoadedClass),
   ("resolveClass", loader .resolveClass),
   ("getBootClassPathSize", loader .getBootClassPathSize),
   ("getBootClassPathResource", loader .getBootClassPathResource)]

def valueLetters : List Char := ['Z', 'B', 'C', 'S', 'I', 'F', 'J', 'D']

def accessorName (verb : String) (letter : Char) : String :=
  verb ++ letter.toString ++ "Field"

def fieldGroup : List (String × CoreNative) :=
  [("getFieldModifiers", member .fieldModifiers), ("getField", member .getField),
   ("setField", member .setField)]
  ++ valueLetters.map (fun c => (accessorName "get" c, member .getPrimitiveField))
  ++ valueLetters.map (fun c => (accessorName "set" c, member .setPrimitiveField))

def groups : List (String × List (String × CoreNative)) :=
  [("java/lang/VMObject", objectGroup),
   ("java/lang/VMSystem", systemGroup),
   ("java/lang/VMRuntime", runtimeGroup),
   ("java/lang/VMClass", classGroup),
   ("java/lang/VMString", [("intern", intern)]),
   ("java/lang/VMThread", threadGroup),
   ("java/lang/VMThrowable", throwableGroup),
   ("java/lang/VMClassLoader", loaderGroup),
   ("java/lang/reflect/Field", fieldGroup),
   ("java/lang/reflect/Method",
    [("invokeNative", member .invoke), ("getMethodModifiers", member .methodModifiers)]),
   ("java/lang/reflect/Constructor",
    [("constructNative", member .construct),
     ("getConstructorModifiers", member .methodModifiers)]),
   ("gnu/classpath/VMSystemProperties",
    [("preInit", properties .preInit), ("postInit", properties .postInit)]),
   ("gnu/classpath/VMStackWalker",
    [("getClassContext", caller .getClassContext), ("getCallingClass", caller .getCallingClass),
     ("getCallingClassLoader", caller .getCallingClassLoader)]),
   ("java/security/VMAccessController", [("getStack", caller .getStack)])]

end CoreNative
end ManagedRuntime
