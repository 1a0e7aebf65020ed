/-!
# Access flags

A set of flags is 16 bits. What a bit means depends on what the flags are of, so every kind of
holder has its own list of flags, in the order of their bits.
-/

namespace JavaClass

structure AccessFlag where
  mask : UInt16
  /-- How the flag is written as a keyword of Java, if it is one. -/
  word : String
  deriving DecidableEq, Repr

namespace AccessFlag

def accPublic : AccessFlag := ⟨0x0001, "public"⟩
def accPrivate : AccessFlag := ⟨0x0002, "private"⟩
def accProtected : AccessFlag := ⟨0x0004, "protected"⟩
def accStatic : AccessFlag := ⟨0x0008, "static"⟩
def accFinal : AccessFlag := ⟨0x0010, "final"⟩
def accSuper : AccessFlag := ⟨0x0020, "super"⟩
def accSynchronized : AccessFlag := ⟨0x0020, "synchronized"⟩
def accVolatile : AccessFlag := ⟨0x0040, "volatile"⟩
def accBridge : AccessFlag := ⟨0x0040, "bridge"⟩
def accTransient : AccessFlag := ⟨0x0080, "transient"⟩
def accVarargs : AccessFlag := ⟨0x0080, "varargs"⟩
def accNative : AccessFlag := ⟨0x0100, "native"⟩
def accInterface : AccessFlag := ⟨0x0200, "interface"⟩
def accAbstract : AccessFlag := ⟨0x0400, "abstract"⟩
def accStrict : AccessFlag := ⟨0x0800, "strict"⟩
def accSynthetic : AccessFlag := ⟨0x1000, "synthetic"⟩
def accAnnotationType : AccessFlag := ⟨0x2000, "annotation"⟩
def accEnum : AccessFlag := ⟨0x4000, "enum"⟩
def accModule : AccessFlag := ⟨0x8000, "module"⟩
def accMandated : AccessFlag := ⟨0x8000, "mandated"⟩

/-- The name of the flag in the class file format. -/
def name (flag : AccessFlag) : String :=
  "ACC_" ++ flag.word.toUpper

/-- What flags are of. -/
inductive Holder where
  | ofClass | ofField | ofMethod
  deriving DecidableEq, Repr

/-- The flags that mean something. -/
def known : Holder → List AccessFlag
  | .ofClass =>
    [accPublic, accFinal, accSuper, accInterface, accAbstract, accSynthetic, accAnnotationType,
      accEnum, accModule]
  | .ofField =>
    [accPublic, accPrivate, accProtected, accStatic, accFinal, accVolatile, accTransient,
      accSynthetic, accEnum]
  | .ofMethod =>
    [accPublic, accPrivate, accProtected, accStatic, accFinal, accSynchronized, accBridge,
      accVarargs, accNative, accAbstract, accStrict, accSynthetic]

/-- The flags that are written as keywords in front of a declaration. -/
def keywords : Holder → List AccessFlag
  | .ofClass => [accPublic, accPrivate, accProtected, accStatic, accFinal, accAbstract]
  | .ofField =>
    [accPublic, accPrivate, accProtected, accStatic, accFinal, accVolatile, accTransient]
  | .ofMethod =>
    [accPublic, accPrivate, accProtected, accStatic, accFinal, accSynchronized, accNative,
      accAbstract]

/-- The flags of a method's parameter. -/
def parameter : List AccessFlag :=
  [accFinal, accSynthetic, accMandated]

def isSet (flag : AccessFlag) (bits : UInt16) : Bool :=
  bits &&& flag.mask ≠ 0

/-- The flags of a list that are set, in its order. -/
def set (bits : UInt16) (flags : List AccessFlag) : List AccessFlag :=
  flags.filter (·.isSet bits)

/-- The names of all flags that are set and mean something. -/
def names (bits : UInt16) (holder : Holder) : List String :=
  (set bits (known holder)).map name

end AccessFlag
end JavaClass
