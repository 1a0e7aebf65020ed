/-!
# Kinds of attributes

An attribute carries no tag: what its payload means is decided by its name. These are the names that
mean something; `nameBytes_of_ofName?` and `ofName?_nameBytes` say that the two directions agree.
-/

namespace JavaClass.Attribute

inductive Kind where
  | constantValue | code | stackMapTable | exceptions | innerClasses | enclosingMethod | synthetic
  | signature | sourceFile | sourceDebugExtension | lineNumberTable | localVariableTable
  | localVariableTypeTable | deprecated | bootstrapMethods | methodParameters | nestHost
  | nestMembers
  deriving DecidableEq, Repr, Inhabited

namespace Kind

def name : Kind → String
  | constantValue => "ConstantValue"
  | code => "Code"
  | stackMapTable => "StackMapTable"
  | exceptions => "Exceptions"
  | innerClasses => "InnerClasses"
  | enclosingMethod => "EnclosingMethod"
  | synthetic => "Synthetic"
  | signature => "Signature"
  | sourceFile => "SourceFile"
  | sourceDebugExtension => "SourceDebugExtension"
  | lineNumberTable => "LineNumberTable"
  | localVariableTable => "LocalVariableTable"
  | localVariableTypeTable => "LocalVariableTypeTable"
  | deprecated => "Deprecated"
  | bootstrapMethods => "BootstrapMethods"
  | methodParameters => "MethodParameters"
  | nestHost => "NestHost"
  | nestMembers => "NestMembers"

def all : List Kind :=
  [constantValue, code, stackMapTable, exceptions, innerClasses, enclosingMethod, synthetic,
    signature, sourceFile, sourceDebugExtension, lineNumberTable, localVariableTable,
    localVariableTypeTable, deprecated, bootstrapMethods, methodParameters, nestHost, nestMembers]

/-- The name as it is stored, which is ASCII. -/
def nameBytes (k : Kind) : List UInt8 :=
  k.name.toList.map fun c => UInt8.ofNat c.toNat

def ofName? (bytes : List UInt8) : Option Kind :=
  all.find? fun k => k.nameBytes == bytes

theorem nameBytes_of_ofName? {bytes : List UInt8} {k : Kind} (h : ofName? bytes = some k) :
    k.nameBytes = bytes := by
  simpa using List.find?_some h

theorem ofName?_nameBytes (k : Kind) : ofName? k.nameBytes = some k := by
  cases k <;> decide +kernel

end Kind
end JavaClass.Attribute
