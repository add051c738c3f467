import JavaAtlas.ClassFile.Constants
import JavaAtlas.ClassFile.Descriptor
import JavaAtlas.Java.TypeText
import JavaAtlas.Json.Basic
import JavaAtlas.Model.Encode

namespace JavaAtlas.ClassFile

/-! # Class files

Access flags, hierarchy, members and a few attributes. Generic signatures are not read, so types
are erased. Members that the compiler put in are left out.
-/

/-! ## Flags -/

/-- Whether flags hold all of some bit. -/
def hasFlag (flags bit : Nat) : Bool := flags &&& bit != 0

/-- On what flags stand; some bits mean different things. -/
inductive FlagOwner where
  | ofClass
  | ofField
  | ofMethod
deriving DecidableEq, Inhabited, Repr

/-- The bits that always mean the same. -/
def commonFlags : List (Nat × Modifier) :=
  [(0x0001, .isPublic), (0x0002, .isPrivate), (0x0004, .isProtected), (0x0008, .isStatic),
    (0x0010, .isFinal), (0x0400, .isAbstract)]

/-- The bits that depend on the owner. -/
def ownFlags : FlagOwner → List (Nat × Modifier)
  | .ofClass => []
  | .ofField => [(0x0040, .isVolatile), (0x0080, .isTransient)]
  | .ofMethod => [(0x0020, .isSynchronized), (0x0100, .isNative)]

/-- The modifiers of flags. -/
def modifiersOf (owner : FlagOwner) (flags : Nat) : Modifiers :=
  .ofList ((commonFlags ++ ownFlags owner).filterMap fun (bit, m) =>
    if hasFlag flags bit then some m else none)

/-- The bit of members that the compiler put in. -/
def syntheticFlag : Nat := 0x1000

/-- The bit of methods that only pass a call on. -/
def bridgeFlag : Nat := 0x0040

/-- The bit of methods whose last parameter takes any number of arguments. -/
def varargsFlag : Nat := 0x0080

/-- The bit of interfaces. -/
def interfaceFlag : Nat := 0x0200

/-- The bit of annotation types. -/
def annotationFlag : Nat := 0x2000

/-- The bit of enumerations. -/
def enumFlag : Nat := 0x4000

/-! ## What a class file says -/

/-- A field. -/
structure ClassField where
  name : String
  type : String
  modifiers : Modifiers
  annotations : List String
  hasConstant : Bool
deriving DecidableEq, Inhabited, Repr

/-- A method or constructor. -/
structure ClassMethod where
  name : String
  returnType : String
  /-- Names and types. -/
  params : List (String × String)
  modifiers : Modifiers
  exceptions : List String
  annotations : List String
  hasCode : Bool
deriving DecidableEq, Inhabited, Repr

/-- Whether it is a constructor. -/
def ClassMethod.isConstructor (m : ClassMethod) : Bool := m.name == "<init>"

/-- A class that is nested in another, or holds one. -/
structure InnerClass where
  inner : String
  outer : Option String
  simpleName : Option String
  flags : Nat
deriving DecidableEq, Inhabited, Repr

/-- A class file. -/
structure ParsedClass where
  binaryName : String
  accessFlags : Nat
  superClass : Option String
  interfaces : List String
  fields : List ClassField
  methods : List ClassMethod
  annotations : List String
  innerClasses : List InnerClass
deriving DecidableEq, Inhabited, Repr

namespace ParsedClass

/-- The flags as they were declared; those of a nested class stand with the nested classes. -/
def declaredFlags (c : ParsedClass) : Nat :=
  ((c.innerClasses.find? (·.inner == c.binaryName)).map (·.flags)).getD c.accessFlags

/-- The classes that are members, as full and simple names. -/
def memberTypes (c : ParsedClass) : List (String × String) :=
  (c.innerClasses.filter (·.outer == some c.binaryName)).filterMap fun e =>
    e.simpleName.map (e.inner, ·)

end ParsedClass

/-! ## Annotations -/

/-- Passes over the value of an annotation's element; `fuel` bounds how deep values are nested. -/
def skipElementValue : Nat → Reader Unit
  | 0 => fail .unexpectedEof
  | fuel + 1 => do
    let tag ← u1
    match Char.ofNat tag with
    | 'B' | 'C' | 'D' | 'F' | 'I' | 'J' | 'S' | 'Z' | 's' | 'c' => skip 2
    | 'e' => skip 4
    | '@' => do
      skip 2
      let _ ← counted (do skip 2; skipElementValue fuel)
      return ()
    | '[' => do
      let _ ← counted (skipElementValue fuel)
      return ()
    | _ => fail (.invalidElementTag tag)

/-- Passes over the elements of an annotation. Every level of nesting takes a byte. -/
def skipElements : Reader Unit := do
  let depth := (← get).length + 1
  let _ ← counted (do skip 2; skipElementValue depth)
  return ()

/-- Reads annotations; gives the simple names of their types. -/
def annotationNames (p : Pool) : Reader (List String) :=
  counted do
    let descriptor ← require (p.utf8 (← u2))
    let type ← require (fieldType descriptor)
    skipElements
    return Java.simpleName type

/-! ## Attributes -/

/-- What attributes say about a member. -/
structure MemberAttributes where
  annotations : List String := []
  exceptions : List String := []
  paramNames : List (Option String) := []
  hasCode : Bool := false
  hasConstant : Bool := false
deriving Inhabited

/-- Reads the name and the bytes of an attribute. -/
def namedBody (p : Pool) : Reader (String × List UInt8) := do
  let name ← require (p.utf8 (← u2))
  let body ← bytes (← u4)
  return (name, body)

/-- Reads the name of a parameter. -/
def paramName (p : Pool) : Reader (Option String) := do
  let index ← u2
  skip 2
  if index = 0 then return none else return some (← require (p.utf8 index))

/-- Takes in an attribute of a member. -/
def MemberAttributes.add (p : Pool) (m : MemberAttributes) (name : String) :
    Reader MemberAttributes :=
  match name with
  | "Code" => pure { m with hasCode := true }
  | "ConstantValue" => pure { m with hasConstant := true }
  | "Exceptions" => do
    let more ← counted do return javaName (← require (p.className (← u2)))
    return { m with exceptions := m.exceptions ++ more }
  | "MethodParameters" => do
    let more ← times (paramName p) (← u1)
    return { m with paramNames := m.paramNames ++ more }
  | "RuntimeVisibleAnnotations" => do return { m with annotations := ← annotationNames p }
  | _ => pure m

/-- Reads `count` attributes of a member. -/
def memberAttributes (p : Pool) : Nat → MemberAttributes → Reader MemberAttributes
  | 0, m => pure m
  | count + 1, m => do
    let (name, body) ← namedBody p
    let m ← within body (m.add p name)
    memberAttributes p count m

/-! ## Members -/

/-- Reads flags, name, descriptor and attributes of a member. -/
def memberParts (p : Pool) : Reader (Nat × String × String × MemberAttributes) := do
  let flags ← u2
  let name ← require (p.utf8 (← u2))
  let descriptor ← require (p.utf8 (← u2))
  let attributes ← memberAttributes p (← u2) {}
  return (flags, name, descriptor, attributes)

/-- Reads a field; none if the compiler put it in. -/
def field? (p : Pool) : Reader (Option ClassField) := do
  let (flags, name, descriptor, attributes) ← memberParts p
  if hasFlag flags syntheticFlag then return none
  else
    return some
      { name
        type := ← require (fieldType descriptor)
        modifiers := modifiersOf .ofField flags
        annotations := attributes.annotations
        hasConstant := attributes.hasConstant }

/-- The type of the last parameter of a method that takes any number of arguments. -/
def varargsType (type : String) : String :=
  if type.endsWith "[]" then String.ofList (type.toList.take (type.length - 2)) ++ "..." else type

/-- Parameters with their names, which are made up where there are none. -/
def nameParams (names : List (Option String)) (types : List String) : List (String × String) :=
  types.zipIdx.map fun (type, i) => (((names[i]?).join).getD s!"arg{i}", type)

/-- Reads a method; none if the compiler put it in. -/
def method? (p : Pool) : Reader (Option ClassMethod) := do
  let (flags, name, descriptor, attributes) ← memberParts p
  if hasFlag flags syntheticFlag || hasFlag flags bridgeFlag || name == "<clinit>" then
    return none
  else
    let (types, returnType) ← require (methodType descriptor)
    let types := if hasFlag flags varargsFlag then
        types.dropLast ++ types.getLast?.toList.map varargsType
      else types
    return some
      { name
        returnType
        params := nameParams attributes.paramNames types
        modifiers := modifiersOf .ofMethod flags
        exceptions := attributes.exceptions
        annotations := attributes.annotations
        hasCode := attributes.hasCode }

/-! ## Classes -/

/-- Reads an entry about a nested class. -/
def innerClass (p : Pool) : Reader InnerClass := do
  let inner ← u2
  let outer ← u2
  let name ← u2
  let flags ← u2
  let innerName ← require (p.className inner)
  let outerName ← if outer = 0 then pure none else some <$> require (p.className outer)
  let simpleName ← if name = 0 then pure none else some <$> require (p.utf8 name)
  return { inner := binaryName innerName, outer := outerName.map binaryName, simpleName, flags }

/-- What attributes say about a class. -/
structure ClassAttributes where
  annotations : List String := []
  innerClasses : List InnerClass := []

/-- Takes in an attribute of a class. -/
def ClassAttributes.add (p : Pool) (a : ClassAttributes) (name : String) :
    Reader ClassAttributes :=
  match name with
  | "RuntimeVisibleAnnotations" => do return { a with annotations := ← annotationNames p }
  | "InnerClasses" => do return { a with innerClasses := ← counted (innerClass p) }
  | _ => pure a

/-- Reads `count` attributes of a class. -/
def classAttributes (p : Pool) : Nat → ClassAttributes → Reader ClassAttributes
  | 0, a => pure a
  | count + 1, a => do
    let (name, body) ← namedBody p
    let a ← within body (a.add p name)
    classAttributes p count a

/-- Reads what stands behind the constant pool. -/
def classBody (p : Pool) : Reader ParsedClass := do
  let accessFlags ← u2
  let thisClass ← u2
  let superIndex ← u2
  let name ← require (p.className thisClass)
  let superClass ←
    if superIndex = 0 then pure none else some <$> require (p.className superIndex)
  let interfaces ← counted do return javaName (← require (p.className (← u2)))
  let fields ← counted (field? p)
  let methods ← counted (method? p)
  let attributes ← classAttributes p (← u2) {}
  return {
    binaryName := binaryName name
    accessFlags
    superClass := superClass.map javaName
    interfaces
    fields := fields.filterMap id
    methods := methods.filterMap id
    annotations := attributes.annotations
    innerClasses := attributes.innerClasses }

/-- Reads a class. -/
def classFile : Reader ParsedClass := do
  if (← u4) ≠ 0xCAFEBABE then fail .invalidMagic
  else
    skip 2
    skip 2
    classBody (← pool)

/-- The class that bytes stand for; what follows it does not matter. -/
def parse (bytes : List UInt8) : Except ClassError ParsedClass :=
  (classFile.run bytes).map (·.1)

/-! ## As JSON -/

/-- A class error. -/
def ClassError.toJson (e : ClassError) : Json :=
  Json.ofFields [("error", .str e.code), ("message", .str e.message)]

/-- A class. -/
def ParsedClass.toJson (c : ParsedClass) : Json :=
  let field (f : ClassField) : Json := Json.ofFields [
    ("name", .str f.name), ("type", .str f.type), ("modifiers", f.modifiers.toJson),
    ("annotations", Json.ofStrs f.annotations), ("has_constant", .bool f.hasConstant)]
  let method (m : ClassMethod) : Json := Json.ofFields [
    ("name", .str m.name), ("return_type", .str m.returnType),
    ("params", Json.ofList (fun (n, t) => Json.ofStrs [n, t]) m.params),
    ("modifiers", m.modifiers.toJson), ("exceptions", Json.ofStrs m.exceptions),
    ("annotations", Json.ofStrs m.annotations), ("has_code", .bool m.hasCode),
    ("is_constructor", .bool m.isConstructor)]
  let inner (i : InnerClass) : Json := Json.ofFields [
    ("inner", .str i.inner), ("outer", Json.ofStr? i.outer),
    ("simple_name", Json.ofStr? i.simpleName), ("flags", Json.ofNat i.flags)]
  Json.ofFields [
    ("binary_name", .str c.binaryName),
    ("access_flags", Json.ofNat c.accessFlags),
    ("declared_flags", Json.ofNat c.declaredFlags),
    ("modifiers", (modifiersOf .ofClass c.declaredFlags).toJson),
    ("super_class", Json.ofStr? c.superClass),
    ("interfaces", Json.ofStrs c.interfaces),
    ("annotations", Json.ofStrs c.annotations),
    ("fields", Json.ofList field c.fields),
    ("methods", Json.ofList method c.methods),
    ("inner_classes", Json.ofList inner c.innerClasses),
    ("member_types", Json.ofList (fun (b, s) => Json.ofStrs [b, s]) c.memberTypes)]

end JavaAtlas.ClassFile
