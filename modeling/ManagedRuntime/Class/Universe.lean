import ManagedRuntime.Class.Definition
import ManagedRuntime.Natives.Core

/-!
The classes that the runtime depends on, in an order in which each comes after its superclass and
its interfaces.
-/
namespace ManagedRuntime.Universe
open ManagedRuntime.AccessFlags ClassDef

def objectType : String := "Ljava/lang/Object;"
def classType : String := "Ljava/lang/Class;"
def stringType : String := "Ljava/lang/String;"

def publicFinal : AccessFlags := isPublic ||| isFinal
def privateFinal : AccessFlags := isPrivate ||| isFinal

def wrapper (name descriptor superName : String) : ClassDef :=
  ((((named name).extending superName).withFlags publicFinal).implementing
    "java/io/Serializable").field "value" descriptor privateFinal

def member (name : String) : ClassDef :=
  ((((named name).withFlags publicFinal).field "declaringClass" classType isPrivate).field
    "name" stringType isPrivate).field "slot" "I" isPrivate

def nativeHolder (name : String) (statics : List (String × String)) : ClassDef :=
  statics.foldl (fun d m => d.staticNative m.1 m.2) ((named name).withFlags isFinal)

def roots : List ClassDef :=
  [(named "java/lang/Object").root,
   interfaceNamed "java/io/Serializable",
   interfaceNamed "java/lang/Cloneable",
   named "java/security/ProtectionDomain",
   (((named "java/lang/Class").withFlags publicFinal).implementing "java/io/Serializable").field
     "pd" "Ljava/security/ProtectionDomain;" isPrivate,
   ((named "java/lang/String").withFlags publicFinal).implementing "java/io/Serializable",
   ((named "java/lang/ClassLoader").withFlags (isPublic ||| isAbstract)).publicMethod
     "loadClass" "(Ljava/lang/String;)Ljava/lang/Class;",
   (named "java/util/Properties").publicMethod
     "setProperty" "(Ljava/lang/String;Ljava/lang/String;)Ljava/lang/Object;",
   (named "java/lang/Number").withFlags (isPublic ||| isAbstract)]

def wrappers : List ClassDef :=
  [wrapper "java/lang/Boolean" "Z" "java/lang/Object",
   wrapper "java/lang/Character" "C" "java/lang/Object",
   wrapper "java/lang/Byte" "B" "java/lang/Number",
   wrapper "java/lang/Short" "S" "java/lang/Number",
   wrapper "java/lang/Integer" "I" "java/lang/Number",
   wrapper "java/lang/Long" "J" "java/lang/Number",
   wrapper "java/lang/Float" "F" "java/lang/Number",
   wrapper "java/lang/Double" "D" "java/lang/Number",
   (named "java/lang/Void").withFlags publicFinal]

def throwables : List ClassDef :=
  [(((((named "java/lang/Throwable").implementing "java/io/Serializable").field
      "detailMessage" stringType isPrivate).field
      "cause" "Ljava/lang/Throwable;" isPrivate).field
      "vmState" "Ljava/lang/VMThrowable;" isTransient).publicMethod
      "fillInStackTrace" "()Ljava/lang/Throwable;",
   (named "java/lang/Exception").extending "java/lang/Throwable",
   (named "java/lang/Error").extending "java/lang/Throwable",
   ((((((((named "java/lang/StackTraceElement").withFlags publicFinal).implementing
      "java/io/Serializable").field
      "fileName" stringType privateFinal).field
      "lineNumber" "I" privateFinal).field
      "declaringClass" stringType privateFinal).field
      "methodName" stringType privateFinal).field
      "isNative" "Z" privateFinal)]

def threadClass : ClassDef :=
  ((((((named "java/lang/Thread").field "vmThread" "Ljava/lang/VMThread;" empty).field
    "name" stringType empty).field
    "priority" "I" empty).field
    "daemon" "Z" empty).publicMethod "run" "()V")

def fieldArgs : String := "(Ljava/lang/Object;Ljava/lang/Class;Ljava/lang/Class;I"

/-- `java/lang/reflect/Field` with an accessor pair for every primitive type. -/
def fieldClass : ClassDef :=
  let base :=
    (((member "java/lang/reflect/Field").nativeMethod
      "getFieldModifiers" "(Ljava/lang/Class;I)I").nativeMethod
      "getField" (fieldArgs ++ ")" ++ objectType)).nativeMethod
      "setField" (fieldArgs ++ objectType ++ ")V")
  CoreNative.valueLetters.foldl
    (fun d c =>
      (d.nativeMethod (CoreNative.accessorName "get" c)
        (fieldArgs ++ ")" ++ c.toString)).nativeMethod
        (CoreNative.accessorName "set" c) (fieldArgs ++ c.toString ++ ")V"))
    base

def vmThreadClass : ClassDef :=
  let base := ((named "java/lang/VMThread").withFlags isFinal).field
    "thread" "Ljava/lang/Thread;" isFinal
  let statics :=
    [("currentThread", "()Ljava/lang/Thread;"), ("create", "(Ljava/lang/Thread;J)V"),
     ("sleep", "(JI)V"), ("yield", "()V"), ("interrupted", "()Z"),
     ("holdsLock", "(Ljava/lang/Object;)Z")].foldl (fun d m => d.staticNative m.1 m.2) base
  [("interrupt", "()V"), ("isAlive", "()Z"), ("isInterrupted", "()Z"),
   ("nativeSetPriority", "(I)V")].foldl (fun d m => d.nativeMethod m.1 m.2) statics

def nativeClasses : List ClassDef :=
  [nativeHolder "java/lang/VMObject"
     [("getClass", "(Ljava/lang/Object;)Ljava/lang/Class;"),
      ("clone", "(Ljava/lang/Cloneable;)Ljava/lang/Object;"),
      ("wait", "(Ljava/lang/Object;JI)V"),
      ("notify", "(Ljava/lang/Object;)V"),
      ("notifyAll", "(Ljava/lang/Object;)V")],
   nativeHolder "java/lang/VMSystem"
     [("arraycopy", "(Ljava/lang/Object;ILjava/lang/Object;II)V"),
      ("identityHashCode", "(Ljava/lang/Object;)I")],
   nativeHolder "java/lang/VMRuntime"
     [("freeMemory", "()J"), ("totalMemory", "()J"), ("maxMemory", "()J"), ("gc", "()V"),
      ("runFinalization", "()V"), ("exit", "(I)V"), ("nativeLoad", "(Ljava/lang/String;)I"),
      ("mapLibraryName", "(Ljava/lang/String;)Ljava/lang/String;")],
   nativeHolder "java/lang/VMClass"
     [("isInstance", "(Ljava/lang/Class;Ljava/lang/Object;)Z"),
      ("isAssignableFrom", "(Ljava/lang/Class;Ljava/lang/Class;)Z"),
      ("isInterface", "(Ljava/lang/Class;)Z"),
      ("isPrimitive", "(Ljava/lang/Class;)Z"),
      ("isArray", "(Ljava/lang/Class;)Z"),
      ("isSynthetic", "(Ljava/lang/Class;)Z"),
      ("isAnnotation", "(Ljava/lang/Class;)Z"),
      ("isEnum", "(Ljava/lang/Class;)Z"),
      ("getSuperclass", "(Ljava/lang/Class;)Ljava/lang/Class;"),
      ("getComponentType", "(Ljava/lang/Class;)Ljava/lang/Class;"),
      ("getName", "(Ljava/lang/Class;)Ljava/lang/String;"),
      ("getDeclaredClasses", "(Ljava/lang/Class;Z)[Ljava/lang/Class;"),
      ("getDeclaringClass", "(Ljava/lang/Class;)Ljava/lang/Class;"),
      ("getDeclaredConstructors", "(Ljava/lang/Class;Z)[Ljava/lang/reflect/Constructor;"),
      ("getDeclaredMethods", "(Ljava/lang/Class;Z)[Ljava/lang/reflect/Method;"),
      ("getDeclaredFields", "(Ljava/lang/Class;Z)[Ljava/lang/reflect/Field;"),
      ("getInterfaces", "(Ljava/lang/Class;)[Ljava/lang/Class;"),
      ("getClassLoader", "(Ljava/lang/Class;)Ljava/lang/ClassLoader;"),
      ("getModifiers", "(Ljava/lang/Class;Z)I"),
      ("forName", "(Ljava/lang/String;ZLjava/lang/ClassLoader;)Ljava/lang/Class;"),
      ("throwException", "(Ljava/lang/Throwable;)V"),
      ("hasClassInitializer", "(Ljava/lang/Class;)Z")],
   nativeHolder "java/lang/VMString" [("intern", "(Ljava/lang/String;)Ljava/lang/String;")],
   vmThreadClass,
   (nativeHolder "java/lang/VMThrowable"
     [("fillInStackTrace", "(Ljava/lang/Throwable;)Ljava/lang/VMThrowable;")]).nativeMethod
     "getStackTrace" "(Ljava/lang/Throwable;)[Ljava/lang/StackTraceElement;",
   nativeHolder "java/lang/VMClassLoader"
     [("loadClass", "(Ljava/lang/String;Z)Ljava/lang/Class;"),
      ("getPrimitiveClass", "(C)Ljava/lang/Class;"),
      ("defineClass", "(Ljava/lang/ClassLoader;Ljava/lang/String;[BIILjava/security/"
        ++ "ProtectionDomain;)Ljava/lang/Class;"),
      ("findLoadedClass", "(Ljava/lang/ClassLoader;Ljava/lang/String;)Ljava/lang/Class;"),
      ("resolveClass", "(Ljava/lang/Class;)V"),
      ("getBootClassPathSize", "()I"),
      ("getBootClassPathResource", "(Ljava/lang/String;I)Ljava/lang/String;")],
   fieldClass,
   ((member "java/lang/reflect/Method").nativeMethod "invokeNative"
     "(Ljava/lang/Object;[Ljava/lang/Object;Ljava/lang/Class;I)Ljava/lang/Object;").nativeMethod
     "getMethodModifiers" "(Ljava/lang/Class;I)I",
   ((member "java/lang/reflect/Constructor").nativeMethod "constructNative"
     "([Ljava/lang/Object;Ljava/lang/Class;I)Ljava/lang/Object;").nativeMethod
     "getConstructorModifiers" "(Ljava/lang/Class;I)I",
   nativeHolder "gnu/classpath/VMSystemProperties"
     [("preInit", "(Ljava/util/Properties;)V"), ("postInit", "(Ljava/util/Properties;)V")],
   nativeHolder "gnu/classpath/VMStackWalker"
     [("getClassContext", "()[Ljava/lang/Class;"),
      ("getCallingClass", "()Ljava/lang/Class;"),
      ("getCallingClassLoader", "()Ljava/lang/ClassLoader;")],
   nativeHolder "java/security/VMAccessController" [("getStack", "()[[Ljava/lang/Object;")]]

def definitions : List ClassDef :=
  roots ++ wrappers ++ throwables ++ [threadClass] ++ nativeClasses

/-- Classes without which the runtime does not start. -/
def required : List String :=
  ["java/lang/Object", "java/lang/Class", "java/lang/String", "java/lang/Thread",
   "java/lang/VMThread", "java/lang/VMThrowable", "java/lang/StackTraceElement",
   "java/lang/reflect/Field", "java/lang/reflect/Method", "java/lang/reflect/Constructor",
   "java/lang/Cloneable", "java/io/Serializable"]

end ManagedRuntime.Universe
