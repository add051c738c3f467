import JavaAtlas.Failure
import JavaAtlas.Java.TypeText
import JavaAtlas.Model.Reports

namespace JavaAtlas

/-! # Names of types, signatures and descriptions -/

/-- How types are named. Both ways may fail. -/
structure TypeNames where
  /-- The full name. -/
  canonical : TypeRef → Except Failure String
  /-- The name as it is written, without packages. -/
  presentable : TypeRef → Except Failure String

/-- What stands for a type that cannot be named. -/
def unknownType : String := "unknown"

/-- The full name of a type, else its short one. -/
def TypeNames.long (names : TypeNames) (t : TypeRef) : String :=
  match names.canonical t with
  | .ok text => text
  | .error _ =>
    match names.presentable t with
    | .ok text => text
    | .error _ => unknownType

/-- The short name of a type, else its full one. -/
def TypeNames.short (names : TypeNames) (t : TypeRef) : String :=
  match names.presentable t with
  | .ok text => text
  | .error _ =>
    match names.canonical t with
    | .ok text => text
    | .error _ => unknownType

/-- The result, name and parameters of a member, with short names of types. -/
def signature (names : TypeNames) (m : Member) : String :=
  let params := ", ".intercalate (m.params.map fun p => s!"{names.short p.type} {p.name}")
  let result := (m.type.map names.short).getD "void"
  s!"{result} {m.name}({params})"

/-! ## Types of source files -/

/-- The supertype of a declaration that names none. -/
def implicitSuper (kind : DeclKind) (qualname : String) : String :=
  match kind with
  | .ofClass => if qualname = "java.lang.Object" then "" else "java.lang.Object"
  | .ofEnum => "java.lang.Enum"
  | .ofInterface | .ofAnnotationType => ""

/-- The package of a declaration. -/
def packageOf (d : Declaration) : String :=
  if d.package = "" then (Java.splitQualname d.qualname).1 else d.package

/-- Where a member stands. -/
def spanOf (m : Member) : Span :=
  { file := m.fileName, startLine := m.startLine, endLine := m.endLine }

/-- A field of a source file. -/
def fieldInfo (names : TypeNames) (m : Member) : FieldInfo :=
  { name := m.name
    type := (m.type.map names.long).getD unknownType
    modifiers := m.modifiers
    annotations := m.annotations
    hasInitializer := m.hasInitializer
    span := some (spanOf m) }

/-- A method or constructor of a source file. -/
def methodInfo (names : TypeNames) (m : Member) : MethodInfo :=
  { name := m.name
    returnType := (m.type.map names.long).getD "void"
    parameters := m.params.map fun p => { name := p.name, type := names.long p.type }
    modifiers := m.modifiers
    exceptions := m.throws.map names.long
    annotations := m.annotations
    isConstructor := m.kind = .constructor
    hasBody := m.hasBody
    span := some (spanOf m) }

/-- What is told about a declaration with these members and nested types. -/
def describe (names : TypeNames) (d : Declaration) (members : List Member)
    (nested : List Declaration) : TypeInfo :=
  { name := d.qualname
    simpleName := d.name
    package := packageOf d
    kind := d.kind
    modifiers := d.modifiers
    superClass := (d.superclass.map names.long).getD (implicitSuper d.kind d.qualname)
    interfaces := d.interfaces.map names.long
    fields := (members.filter (·.kind = .field)).map (fieldInfo names)
    methods := (members.filter (·.kind = .method)).map (methodInfo names)
    constructors := (members.filter (·.kind = .constructor)).map (methodInfo names)
    innerClasses := nested.map (·.qualname)
    annotations := d.annotations
    file := some d.unit.path
    source := .source }

/-! ## Compiled types -/

/-- What is told about a compiled type. -/
def ArtifactInfo.describe (a : ArtifactInfo) : TypeInfo :=
  let (package, simpleName) := Java.splitQualname a.qualname
  { name := a.qualname
    simpleName
    package
    kind := a.kind
    modifiers := a.modifiers
    superClass := a.superClass.getD ""
    interfaces := a.interfaces
    fields := a.fields
    methods := a.methods
    constructors := a.constructors
    innerClasses := a.innerClasses
    annotations := a.annotations
    file := some a.location
    source := .compiled }

end JavaAtlas
