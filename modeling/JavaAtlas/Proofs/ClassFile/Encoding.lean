import Mathlib.Algebra.Group.Nat.Defs
import JavaAtlas.ClassFile.Decode
import JavaAtlas.Proofs.Text.Utf8

namespace JavaAtlas.ClassFile

/-! # Class files as they are written

What a class declares, how it is written over a constant pool, and what is to be read from it. None
of this depends on how class files are read.

* `Layout` is a constant pool, in any order and with any constants besides those that are needed;
* `ClassDescription` is a class, with the constants that hold its names;
* `ClassDescription.encode` gives the bytes of a class, `ClassDescription.Fits` says that the
  constants are there and that everything can be counted in the bytes it has;
* `ClassDescription.expected` is what a reader is to make of it.
-/

/-- The bytes of a number, the highest first. -/
def numberBytes : Nat → Nat → List UInt8
  | 0, _ => []
  | count + 1, n => UInt8.ofNat (n / 256 ^ count) :: numberBytes count n

/-! ## Types -/

/-- The primitive types. -/
inductive Primitive where
  | byte
  | char
  | double
  | float
  | int
  | long
  | short
  | boolean
deriving DecidableEq

namespace Primitive

/-- The letter in a descriptor. -/
def letter : Primitive → Char
  | .byte => 'B'
  | .char => 'C'
  | .double => 'D'
  | .float => 'F'
  | .int => 'I'
  | .long => 'J'
  | .short => 'S'
  | .boolean => 'Z'

/-- The word in source. -/
def keyword : Primitive → String
  | .byte => "byte"
  | .char => "char"
  | .double => "double"
  | .float => "float"
  | .int => "int"
  | .long => "long"
  | .short => "short"
  | .boolean => "boolean"

end Primitive

/-- The type of a field or of a parameter. -/
inductive FieldType where
  | primitive (p : Primitive)
  | reference (internal : String)
  | array (element : FieldType)
deriving DecidableEq

namespace FieldType

/-- The characters of the descriptor. -/
def chars : FieldType → List Char
  | .primitive p => [p.letter]
  | .reference internal => 'L' :: (internal.toList ++ [';'])
  | .array element => '[' :: element.chars

/-- The descriptor. -/
def descriptor (t : FieldType) : String := String.ofList t.chars

/-- The type as it is written in source. -/
def source : FieldType → String
  | .primitive p => p.keyword
  | .reference internal => javaName internal
  | .array element => element.source ++ "[]"

/-- The type of a last parameter that takes any number of arguments. -/
def variableSource : FieldType → String
  | .array element => element.source ++ "..."
  | t => t.source

/-- The names of classes hold neither semicolons nor brackets. -/
def Legal : FieldType → Prop
  | .primitive _ => True
  | .reference internal => ';' ∉ internal.toList ∧ '[' ∉ internal.toList
  | .array element => element.Legal

instance decidableLegal : (t : FieldType) → Decidable t.Legal
  | .primitive _ => inferInstanceAs (Decidable True)
  | .reference internal =>
    inferInstanceAs (Decidable (';' ∉ internal.toList ∧ '[' ∉ internal.toList))
  | .array element => decidableLegal element

end FieldType

/-- The type of a method. -/
structure MethodType where
  params : List FieldType
  /-- None for a method without a result. -/
  result : Option FieldType
deriving DecidableEq

namespace MethodType

/-- The descriptor. -/
def descriptor (t : MethodType) : String :=
  String.ofList ('(' :: (t.params.flatMap (·.chars) ++ ')' :: (t.result.elim ['V'] (·.chars))))

/-- The result as it is written in source. -/
def resultSource (t : MethodType) : String := t.result.elim "void" (·.source)

/-- All types are legal. -/
def Legal (t : MethodType) : Prop :=
  (∀ p ∈ t.params, p.Legal) ∧ ∀ r ∈ t.result, r.Legal

instance (t : MethodType) : Decidable t.Legal := inferInstanceAs (Decidable (_ ∧ _))

end MethodType

/-! ## Constants -/

/-- The constants that are neither texts nor classes. -/
inductive ConstantKind where
  | integer
  | float
  | long
  | double
  | string
  | fieldRef
  | methodRef
  | interfaceMethodRef
  | nameAndType
  | methodHandle
  | methodType
  | dynamic
  | invokeDynamic
  | moduleName
  | packageName
deriving DecidableEq

namespace ConstantKind

/-- The byte in front. -/
def tag : ConstantKind → UInt8
  | .integer => 3
  | .float => 4
  | .long => 5
  | .double => 6
  | .string => 8
  | .fieldRef => 9
  | .methodRef => 10
  | .interfaceMethodRef => 11
  | .nameAndType => 12
  | .methodHandle => 15
  | .methodType => 16
  | .dynamic => 17
  | .invokeDynamic => 18
  | .moduleName => 19
  | .packageName => 20

/-- The number of bytes that follow. -/
def size : ConstantKind → Nat
  | .long | .double => 8
  | .methodHandle => 3
  | .string | .methodType | .moduleName | .packageName => 2
  | .integer | .float | .fieldRef | .methodRef | .interfaceMethodRef | .nameAndType | .dynamic
  | .invokeDynamic => 4

/-- Whether it takes up two numbers. -/
def isWide : ConstantKind → Bool
  | .long | .double => true
  | _ => false

end ConstantKind

/-- A constant. -/
inductive PoolItem where
  | utf8 (text : String)
  | classRef (nameIndex : UInt16)
  | other (kind : ConstantKind) (payload : Vector UInt8 kind.size)
deriving DecidableEq

namespace PoolItem

/-- The bytes of a constant. -/
def encode : PoolItem → List UInt8
  | .utf8 text => 1 :: (numberBytes 2 (Utf8.utf8Bytes text).length ++ Utf8.utf8Bytes text)
  | .classRef nameIndex => 7 :: numberBytes 2 nameIndex.toNat
  | .other kind payload => kind.tag :: payload.toList

/-- What stands under its number, and nothing under the next if it takes up two. -/
def slots : PoolItem → List (Option PoolItem)
  | .utf8 text => [some (.utf8 text)]
  | .classRef nameIndex => [some (.classRef nameIndex)]
  | .other kind payload =>
    if kind.isWide then [some (.other kind payload), none] else [some (.other kind payload)]

/-- The bytes of a text can be counted in two bytes. -/
def Fits : PoolItem → Prop
  | .utf8 text => (Utf8.utf8Bytes text).length < 2 ^ 16
  | .classRef _ | .other _ _ => True

instance : DecidablePred Fits
  | .utf8 text => inferInstanceAs (Decidable ((Utf8.utf8Bytes text).length < 2 ^ 16))
  | .classRef _ | .other _ _ => inferInstanceAs (Decidable True)

end PoolItem

/-- A constant pool, in the order in which it is written. -/
abbrev Layout := List PoolItem

namespace Layout

/-- What stands under each number; under zero stands nothing. -/
def slots (l : Layout) : List (Option PoolItem) := none :: l.flatMap PoolItem.slots

/-- The bytes of the pool. -/
def encode (l : Layout) : List UInt8 := numberBytes 2 l.slots.length ++ l.flatMap PoolItem.encode

/-- A number stands for a text. -/
def HasText (l : Layout) (index : UInt16) (text : String) : Prop :=
  l.slots[index.toNat]? = some (some (.utf8 text))

instance (l : Layout) (index : UInt16) (text : String) : Decidable (l.HasText index text) :=
  inferInstanceAs (Decidable (_ = _))

/-- A number stands for a class of a name. -/
def HasClass (l : Layout) (index : UInt16) (name : String) : Prop :=
  ∃ nameIndex, l.slots[index.toNat]? = some (some (.classRef nameIndex)) ∧ l.HasText nameIndex name

/-- The pool and its texts can be counted in two bytes. -/
structure Fits (l : Layout) : Prop where
  slots : l.slots.length < 2 ^ 16
  items : ∀ item ∈ l, item.Fits

end Layout

/-- A text with the number of the constant that holds it, or of the class that has it as name. -/
structure Named where
  index : UInt16
  text : String

/-- The number of something that may be missing. -/
def optionalIndex (n : Option Named) : Nat := n.elim 0 (·.index.toNat)

/-! ## Annotations -/

/-- The kinds of element values that are one constant. -/
inductive ValueKind where
  | primitive (p : Primitive)
  | string
  | classInfo
deriving DecidableEq

/-- The letter in front. -/
def ValueKind.letter : ValueKind → Char
  | .primitive p => p.letter
  | .string => 's'
  | .classInfo => 'c'

/-- The value of an element of an annotation. -/
inductive ElementValue where
  | constant (kind : ValueKind) (index : UInt16)
  | enumConstant (typeIndex nameIndex : UInt16)
  /-- An annotation in the annotation. -/
  | nested (typeIndex : UInt16) (elements : List (UInt16 × ElementValue))
  | array (values : List ElementValue)

namespace ElementValue

/-- The byte of a letter. -/
def letterByte (c : Char) : UInt8 := UInt8.ofNat c.toNat

mutual

/-- The bytes of a value. -/
def encode : ElementValue → List UInt8
  | .constant kind index => letterByte kind.letter :: numberBytes 2 index.toNat
  | .enumConstant typeIndex nameIndex =>
    letterByte 'e' :: (numberBytes 2 typeIndex.toNat ++ numberBytes 2 nameIndex.toNat)
  | .nested typeIndex elements =>
    letterByte '@' :: (numberBytes 2 typeIndex.toNat ++
      (numberBytes 2 elements.length ++ encodeElements elements))
  | .array values => letterByte '[' :: (numberBytes 2 values.length ++ encodeValues values)

/-- The bytes of named values. -/
def encodeElements : List (UInt16 × ElementValue) → List UInt8
  | [] => []
  | (nameIndex, value) :: rest =>
    numberBytes 2 nameIndex.toNat ++ encode value ++ encodeElements rest

/-- The bytes of values. -/
def encodeValues : List ElementValue → List UInt8
  | [] => []
  | value :: rest => encode value ++ encodeValues rest

end

/-- Nested values can be counted in two bytes. -/
inductive Fits : ElementValue → Prop
  | constant (kind : ValueKind) (index : UInt16) : Fits (.constant kind index)
  | enumConstant (typeIndex nameIndex : UInt16) : Fits (.enumConstant typeIndex nameIndex)
  | nested (typeIndex : UInt16) {elements : List (UInt16 × ElementValue)}
      (count : elements.length < 2 ^ 16) (all : ∀ e ∈ elements, Fits e.2) :
      Fits (.nested typeIndex elements)
  | array {values : List ElementValue} (count : values.length < 2 ^ 16)
      (all : ∀ v ∈ values, Fits v) : Fits (.array values)

end ElementValue

/-- An annotation on a class or a member. -/
structure AnnotationUse where
  typeIndex : UInt16
  type : FieldType
  elements : List (UInt16 × ElementValue)

namespace AnnotationUse

/-- The bytes of an annotation. -/
def encode (a : AnnotationUse) : List UInt8 :=
  numberBytes 2 a.typeIndex.toNat ++
    (numberBytes 2 a.elements.length ++ ElementValue.encodeElements a.elements)

/-- The name without the package. -/
def simpleName (a : AnnotationUse) : String := Java.simpleName a.type.source

/-- The type is held by its constant, and the elements can be counted. -/
structure Fits (l : Layout) (a : AnnotationUse) : Prop where
  type : l.HasText a.typeIndex a.type.descriptor
  legal : a.type.Legal
  count : a.elements.length < 2 ^ 16
  values : ∀ e ∈ a.elements, e.2.Fits

end AnnotationUse

/-! ## Attributes -/

/-- The bytes of values with a count of two bytes in front. -/
def countedBytes {α : Type} (encode : α → List UInt8) (values : List α) : List UInt8 :=
  numberBytes 2 values.length ++ values.flatMap encode

/-- What attributes of one owner can say, and how it is written. -/
class AttributeContent (α : Type) where
  name : α → String
  body : α → List UInt8
  /-- The names that mean something for the owner. -/
  knownNames : List String
  /-- The names in it are held by their constants, and everything can be counted. -/
  Fits : Layout → α → Prop

/-- An attribute, with the number of the constant that holds its name. -/
structure Attribute (α : Type) where
  nameIndex : UInt16
  content : α

namespace Attribute

variable {α : Type} [AttributeContent α]

/-- The bytes of an attribute. -/
def encode (a : Attribute α) : List UInt8 :=
  let body := AttributeContent.body a.content
  numberBytes 2 a.nameIndex.toNat ++ (numberBytes 4 body.length ++ body)

/-- The name is held by its constant, and the bytes can be counted. -/
structure Fits (l : Layout) (a : Attribute α) : Prop where
  name : l.HasText a.nameIndex (AttributeContent.name a.content)
  length : (AttributeContent.body a.content).length < 2 ^ 32
  content : AttributeContent.Fits l a.content

/-- The attributes of one owner: no name that means something stands twice. -/
structure AllFit (l : Layout) (as : List (Attribute α)) : Prop where
  count : as.length < 2 ^ 16
  each : ∀ a ∈ as, a.Fits l
  once : as.Pairwise fun a b =>
    AttributeContent.name a.content = AttributeContent.name b.content →
      AttributeContent.name a.content ∉ AttributeContent.knownNames α

/-- What an attribute says, if there is one that says it. -/
def said {β : Type} (as : List (Attribute α)) (ask : α → Option (List β)) : List β :=
  (as.findSome? fun a => ask a.content).getD []

end Attribute

/-- What an attribute of a field or a method says. -/
inductive MemberAttribute where
  | code (body : List UInt8)
  | constantValue (index : UInt16)
  | exceptions (classes : List Named)
  /-- Names, where there are any, and flags. -/
  | methodParameters (params : List (Option Named × UInt16))
  | annotations (uses : List AnnotationUse)
  | unknown (name : String) (body : List UInt8)

namespace MemberAttribute

/-- The names that mean something for a member. -/
def knownNames : List String :=
  ["Code", "ConstantValue", "Exceptions", "MethodParameters", "RuntimeVisibleAnnotations"]

/-- The name. -/
def name : MemberAttribute → String
  | .code _ => "Code"
  | .constantValue _ => "ConstantValue"
  | .exceptions _ => "Exceptions"
  | .methodParameters _ => "MethodParameters"
  | .annotations _ => "RuntimeVisibleAnnotations"
  | .unknown name _ => name

/-- The bytes behind the name and the length. -/
def body : MemberAttribute → List UInt8
  | .code body => body
  | .constantValue index => numberBytes 2 index.toNat
  | .exceptions classes => countedBytes (fun c => numberBytes 2 c.index.toNat) classes
  | .methodParameters params =>
    numberBytes 1 params.length ++
      params.flatMap fun p => numberBytes 2 (optionalIndex p.1) ++ numberBytes 2 p.2.toNat
  | .annotations uses => countedBytes AnnotationUse.encode uses
  | .unknown _ body => body

/-- The names in it are held by their constants, and everything can be counted. -/
def Fits (l : Layout) : MemberAttribute → Prop
  | .code _ | .constantValue _ => True
  | .exceptions classes => classes.length < 2 ^ 16 ∧ ∀ c ∈ classes, l.HasClass c.index c.text
  | .methodParameters params =>
    params.length < 2 ^ 8 ∧ ∀ p ∈ params, ∀ n ∈ p.1, l.HasText n.index n.text
  | .annotations uses => uses.length < 2 ^ 16 ∧ ∀ u ∈ uses, u.Fits l
  | .unknown name _ => name ∉ knownNames

instance : AttributeContent MemberAttribute where
  name
  body
  knownNames
  Fits

/-- Whether it holds instructions. -/
def isCode : MemberAttribute → Bool
  | .code _ => true
  | _ => false

/-- Whether it holds a constant. -/
def isConstantValue : MemberAttribute → Bool
  | .constantValue _ => true
  | _ => false

/-- The exceptions in it. -/
def exceptions? : MemberAttribute → Option (List String)
  | .exceptions classes => some (classes.map fun c => javaName c.text)
  | _ => none

/-- The names of parameters in it. -/
def paramNames? : MemberAttribute → Option (List (Option String))
  | .methodParameters params => some (params.map fun p => p.1.map (·.text))
  | _ => none

/-- The annotations in it. -/
def annotations? : MemberAttribute → Option (List String)
  | .annotations uses => some (uses.map (·.simpleName))
  | _ => none

end MemberAttribute

/-- An entry about a nested class. -/
structure InnerEntry where
  inner : Named
  outer : Option Named
  name : Option Named
  flags : UInt16

namespace InnerEntry

/-- The bytes of the entry. -/
def encode (e : InnerEntry) : List UInt8 :=
  numberBytes 2 e.inner.index.toNat ++ numberBytes 2 (optionalIndex e.outer) ++
    numberBytes 2 (optionalIndex e.name) ++ numberBytes 2 e.flags.toNat

/-- What is to be read from it. -/
def expected (e : InnerEntry) : InnerClass :=
  { inner := binaryName e.inner.text
    outer := e.outer.map fun n => binaryName n.text
    simpleName := e.name.map (·.text)
    flags := e.flags.toNat }

/-- The names are held by their constants. -/
structure Fits (l : Layout) (e : InnerEntry) : Prop where
  inner : l.HasClass e.inner.index e.inner.text
  outer : ∀ n ∈ e.outer, l.HasClass n.index n.text
  name : ∀ n ∈ e.name, l.HasText n.index n.text

end InnerEntry

/-- What an attribute of a class says. -/
inductive ClassAttribute where
  | annotations (uses : List AnnotationUse)
  | innerClasses (entries : List InnerEntry)
  | unknown (name : String) (body : List UInt8)

namespace ClassAttribute

/-- The names that mean something for a class. -/
def knownNames : List String := ["RuntimeVisibleAnnotations", "InnerClasses"]

/-- The name. -/
def name : ClassAttribute → String
  | .annotations _ => "RuntimeVisibleAnnotations"
  | .innerClasses _ => "InnerClasses"
  | .unknown name _ => name

/-- The bytes behind the name and the length. -/
def body : ClassAttribute → List UInt8
  | .annotations uses => countedBytes AnnotationUse.encode uses
  | .innerClasses entries => countedBytes InnerEntry.encode entries
  | .unknown _ body => body

/-- The names in it are held by their constants, and everything can be counted. -/
def Fits (l : Layout) : ClassAttribute → Prop
  | .annotations uses => uses.length < 2 ^ 16 ∧ ∀ u ∈ uses, u.Fits l
  | .innerClasses entries => entries.length < 2 ^ 16 ∧ ∀ e ∈ entries, e.Fits l
  | .unknown name _ => name ∉ knownNames

instance : AttributeContent ClassAttribute where
  name
  body
  knownNames
  Fits

/-- The annotations in it. -/
def annotations? : ClassAttribute → Option (List String)
  | .annotations uses => some (uses.map (·.simpleName))
  | _ => none

/-- The nested classes in it. -/
def innerClasses? : ClassAttribute → Option (List InnerClass)
  | .innerClasses entries => some (entries.map (·.expected))
  | _ => none

end ClassAttribute

/-! ## Members -/

/-- A field or a method; `τ` is what its type is. -/
structure Member (τ : Type) where
  flags : UInt16
  name : Named
  typeIndex : UInt16
  type : τ
  attributes : List (Attribute MemberAttribute)

namespace Member

variable {τ : Type}

/-- The bytes of a member. -/
def encode (m : Member τ) : List UInt8 :=
  numberBytes 2 m.flags.toNat ++ numberBytes 2 m.name.index.toNat ++
    numberBytes 2 m.typeIndex.toNat ++ countedBytes Attribute.encode m.attributes

/-- Whether the compiler put it in. -/
def isSynthetic (m : Member τ) : Bool := m.flags.toNat.testBit 12

/-- Whether it only passes a call on. -/
def isBridge (m : Member τ) : Bool := m.flags.toNat.testBit 6

/-- Whether its last parameter takes any number of arguments. -/
def isVariable (m : Member τ) : Bool := m.flags.toNat.testBit 7

/-- What an attribute says, if there is one that says it. -/
def said {α : Type} (m : Member τ) (ask : MemberAttribute → Option (List α)) : List α :=
  Attribute.said m.attributes ask

/-- The name and the type are held by their constants, and the attributes fit. -/
structure Fits (l : Layout) (descriptor : τ → String) (m : Member τ) : Prop where
  name : l.HasText m.name.index m.name.text
  type : l.HasText m.typeIndex (descriptor m.type)
  attributes : Attribute.AllFit l m.attributes

end Member

/-- The bit of flags that stands for a modifier. -/
def modifierBit : FlagOwner → Modifier → Option Nat
  | _, .isPublic => some 0
  | _, .isPrivate => some 1
  | _, .isProtected => some 2
  | _, .isStatic => some 3
  | _, .isFinal => some 4
  | .ofMethod, .isSynchronized => some 5
  | .ofField, .isVolatile => some 6
  | .ofField, .isTransient => some 7
  | .ofMethod, .isNative => some 8
  | _, .isAbstract => some 10
  | _, _ => none

/-- The modifiers whose bits are set. -/
def expectedModifiers (owner : FlagOwner) (flags : UInt16) : Modifiers :=
  ⟨Modifier.all.filter fun m => (modifierBit owner m).any flags.toNat.testBit⟩

/-- What is to be read from a field. -/
def expectedField (m : Member FieldType) : Option ClassField :=
  if m.isSynthetic then none
  else
    some
      { name := m.name.text
        type := m.type.source
        modifiers := expectedModifiers .ofField m.flags
        annotations := m.said (·.annotations?)
        hasConstant := m.attributes.any (·.content.isConstantValue) }

/-- The types of parameters as they are written in source. -/
def paramSources (isVariable : Bool) : List FieldType → List String
  | [] => []
  | [t] => [if isVariable then t.variableSource else t.source]
  | t :: rest => t.source :: paramSources isVariable rest

/-- What is to be read from a method. A parameter without a name is called by its place. -/
def expectedMethod (m : Member MethodType) : Option ClassMethod :=
  if m.isSynthetic || m.isBridge || m.name.text == "<clinit>" then none
  else
    some
      { name := m.name.text
        returnType := m.type.resultSource
        params := (paramSources m.isVariable m.type.params).mapIdx fun i type =>
          (((m.said (·.paramNames?))[i]?.join).getD s!"arg{i}", type)
        modifiers := expectedModifiers .ofMethod m.flags
        exceptions := m.said (·.exceptions?)
        annotations := m.said (·.annotations?)
        hasCode := m.attributes.any (·.content.isCode) }

/-! ## Classes -/

/-- A class. -/
structure ClassDescription where
  minorVersion : UInt16
  majorVersion : UInt16
  flags : UInt16
  thisClass : Named
  superClass : Option Named
  interfaces : List Named
  fields : List (Member FieldType)
  methods : List (Member MethodType)
  attributes : List (Attribute ClassAttribute)

namespace ClassDescription

/-- The bytes of a class with a constant pool. -/
def encode (l : Layout) (c : ClassDescription) : List UInt8 :=
  numberBytes 4 0xCAFEBABE ++ numberBytes 2 c.minorVersion.toNat ++
    numberBytes 2 c.majorVersion.toNat ++ l.encode ++ numberBytes 2 c.flags.toNat ++
      numberBytes 2 c.thisClass.index.toNat ++ numberBytes 2 (optionalIndex c.superClass) ++
        countedBytes (fun n => numberBytes 2 n.index.toNat) c.interfaces ++
          countedBytes Member.encode c.fields ++ countedBytes Member.encode c.methods ++
            countedBytes Attribute.encode c.attributes

/-- What is to be read: names with dots, members in their order without those that the compiler
put in, and what the attributes say. -/
def expected (c : ClassDescription) : ParsedClass :=
  { binaryName := binaryName c.thisClass.text
    accessFlags := c.flags.toNat
    superClass := c.superClass.map fun n => javaName n.text
    interfaces := c.interfaces.map fun n => javaName n.text
    fields := c.fields.filterMap expectedField
    methods := c.methods.filterMap expectedMethod
    annotations := Attribute.said c.attributes (·.annotations?)
    innerClasses := Attribute.said c.attributes (·.innerClasses?) }

/-- The names are held by their constants, everything can be counted, and the attributes fit. -/
structure Fits (l : Layout) (c : ClassDescription) : Prop where
  pool : l.Fits
  thisClass : l.HasClass c.thisClass.index c.thisClass.text
  superClass : ∀ n ∈ c.superClass, l.HasClass n.index n.text
  interfaceCount : c.interfaces.length < 2 ^ 16
  interfaces : ∀ n ∈ c.interfaces, l.HasClass n.index n.text
  fieldCount : c.fields.length < 2 ^ 16
  fields : ∀ m ∈ c.fields, m.Fits l (·.descriptor) ∧ m.type.Legal
  methodCount : c.methods.length < 2 ^ 16
  methods : ∀ m ∈ c.methods, m.Fits l (·.descriptor) ∧ m.type.Legal
  attributes : Attribute.AllFit l c.attributes

end ClassDescription

end JavaAtlas.ClassFile
