import JavaAtlas.Java.References

namespace JavaAtlas.Java

/-! # What a source file declares

The declarations of a file with their members, and the references made from them. A type is
recorded before what is nested in it, and a member before the references in it. Types that are
declared inside methods are not recorded; the references in them count for the type around.
-/

/-- What has been found in a part of a file. -/
structure Found where
  declarations : List FileDeclaration := []
  members : List FileMember := []
  references : List FileReference := []

/-- What is found in one part and then in another. -/
def Found.append (a b : Found) : Found :=
  { declarations := a.declarations ++ b.declarations
    members := a.members ++ b.members
    references := a.references ++ b.references }

instance : Append Found := ⟨Found.append⟩

/-- The kind of type that a node declares. -/
def declKindOf (kind : String) : DeclKind :=
  match kind with
  | "interface_declaration" => .ofInterface
  | "enum_declaration" => .ofEnum
  | "annotation_type_declaration" => .ofAnnotationType
  | _ => .ofClass

/-- Whether members of such a type are public and static without saying so. -/
def isInterfaceLike (kind : DeclKind) : Bool := kind == .ofInterface || kind == .ofAnnotationType

/-- A set with further modifiers if a condition holds. -/
def addWhen (condition : Bool) (more : List Modifier) (ms : Modifiers) : Modifiers :=
  if condition then more.foldl Modifiers.insert ms else ms

/-- The modifiers of a type: those written, and those that its kind and place imply. -/
def typeModifiers (written : Modifiers) (kind : DeclKind) (isRecord : Bool)
    (outer : Option DeclKind) : Modifiers :=
  addWhen ((outer.map isInterfaceLike).getD false) [.isPublic, .isStatic] <|
  addWhen (outer.isSome && (kind != .ofClass || isRecord)) [.isStatic] <|
  addWhen isRecord [.isFinal] <|
  addWhen (isInterfaceLike kind) [.isAbstract] written

/-- The modifiers of a method: those written, and those that the type around it implies. -/
def methodModifiers (written : Modifiers) (owner : DeclKind) (hasBody : Bool) : Modifiers :=
  match owner with
  | .ofAnnotationType => addWhen true [.isPublic, .isAbstract] written
  | .ofInterface =>
    addWhen (!hasBody && !written.contains .isStatic) [.isAbstract] <|
    addWhen (!written.contains .isPrivate) [.isPublic] written
  | _ => written

namespace Env

/-- The types after `throws`. -/
def throwsOf (env : Env) (t : Tree) : List TypeRef :=
  match t.namedOf? "throws" with
  | some clause => clause.parts.map env.typeRef
  | none => []

/-- The innermost type. -/
def owner? (env : Env) : Option OpenType := env.types.head?

/-- The kind of the innermost type. -/
def ownerKind (env : Env) : DeclKind := (env.owner?.map (·.kind)).getD .ofClass

/-! ## Fields -/

/-- The fields that a node in a body introduces, with the types written for them. -/
def fieldTypesOf (env : Env) (self : TypeRef) (t : Tree) : List (String × TypeRef) :=
  if !t.info.named then []
  else
    match t.kind with
    | "field_declaration" | "constant_declaration" =>
      match t.field? "type" with
      | none => []
      | some type =>
        (t.fields "declarator").filterMap fun d =>
          (d.field? "name").map fun name => (name.text env.source, env.typeRef type)
    | "enum_constant" => ((t.field? "name").map fun name => (name.text env.source, self)).toList
    | _ => []

/-- The fields in the inner lists of declarations among the children of a body. -/
def nestedFieldTypes (env : Env) (self : TypeRef) : List Tree → List (String × TypeRef)
  | [] => []
  | .node info children :: rest =>
    (if info.named && info.kind == "enum_body_declarations" then
      nestedFieldTypes env self children ++ children.flatMap (env.fieldTypesOf self)
    else []) ++ nestedFieldTypes env self rest

/-- The fields in a body, in the order in which a later one replaces an earlier one of its
name. -/
def fieldTypes (env : Env) (self : TypeRef) (body : List Tree) : List (String × TypeRef) :=
  env.nestedFieldTypes self body ++ body.flatMap (env.fieldTypesOf self)

/-- The fields of a declaration of them, each with the references in its initializer. -/
def fieldMembers (env : Env) (index : Nat) (t : Tree) : Found :=
  match t.field? "type" with
  | none => {}
  | some type =>
    let (written, annotations) := modifiersOf env.source t
    let modifiers :=
      addWhen (isInterfaceLike env.ownerKind) [.isPublic, .isStatic, .isFinal] written
    let one (declarator : Tree) : Found :=
      match declarator.field? "name" with
      | none => {}
      | some name =>
        let value := declarator.field? "value"
        let member : FileMember :=
          { declIndex := index
            kind := .field
            name := name.text env.source
            type := some (withDimensions env.source (env.typeRef type) declarator)
            modifiers, annotations
            hasInitializer := value.isSome
            range := { declarator.range with startLine := t.startLine, endLine := t.endLine } }
        { members := [member]
          references := (value.map (env.references {} [])).getD [] }
    ((t.fields "declarator").map one).foldl (· ++ ·) {}

/-- A constant of an enum: a field, and a reference to a constructor of the enum. -/
def enumConstant (env : Env) (index : Nat) (t : Tree) : Found :=
  match t.field? "name", env.owner? with
  | some name, some owner =>
    let member : FileMember :=
      { declIndex := index
        kind := .field
        name := name.text env.source
        type := some owner.asType
        modifiers := .ofList [.isPublic, .isStatic, .isFinal]
        annotations := (modifiersOf env.source t).2
        range := t.range }
    let creation : FileReference :=
      { env.referenceAt .new (simpleName owner.qualname) name with
        argCount := some (argCount (t.field? "arguments"))
        receiver := .type
        receiverType := some owner.asType }
    let inner (part : Option Tree) : List FileReference :=
      (part.map (env.references {} [])).getD []
    { members := [member]
      references := creation :: (inner (t.field? "arguments") ++ inner (t.field? "body")) }
  | _, _ => {}

/-- The fields that the components of a record are. -/
def componentMembers (env : Env) (index : Nat) (params : Tree) : List FileMember :=
  (env.parameters params).map fun p =>
    { declIndex := index
      kind := .field
      name := p.name
      type := some p.type
      modifiers := .ofList [.isPrivate, .isFinal]
      range := params.range }

/-! ## Methods and constructors -/

/-- The references in the body of a method with these parameters. -/
def bodyReferences (env : Env) (params : List Param) (body : Option Tree) : List FileReference :=
  match body with
  | some body => env.references (env.variablesOf params body) [] body
  | none => []

/-- A method with the references in its body. -/
def methodMember (env : Env) (index : Nat) (t : Tree) : Found :=
  match t.field? "name" with
  | none => {}
  | some name =>
    let env := { env with methodTypeParams := typeParameters env.source t }
    let (written, annotations) := modifiersOf env.source t
    let body := t.field? "body"
    let params := ((t.field? "parameters").map env.parameters).getD []
    let member : FileMember :=
      { declIndex := index
        kind := .method
        name := name.text env.source
        type := (t.field? "type").map env.typeRef
        modifiers := methodModifiers written env.ownerKind body.isSome
        params, annotations
        throws := env.throwsOf t
        hasBody := body.isSome
        range := t.range }
    { members := [member]
      references := env.bodyReferences params body }

/-- A constructor with the references in its body. One without a parameter list of its own takes
the components of its record. -/
def constructorMember (env : Env) (index : Nat) (components : Option Tree) (t : Tree) : Found :=
  match t.field? "name" with
  | none => {}
  | some name =>
    let env := { env with methodTypeParams := typeParameters env.source t }
    let (modifiers, annotations) := modifiersOf env.source t
    let body := t.field? "body"
    let list := (t.field? "parameters").orElse fun _ => components
    let params := (list.map env.parameters).getD []
    let member : FileMember :=
      { declIndex := index
        kind := .constructor
        name := name.text env.source
        modifiers, params, annotations
        throws := env.throwsOf t
        hasBody := body.isSome
        range := t.range }
    { members := [member]
      references := env.bodyReferences params body }

/-- What a node in a body declares, if it is not itself a type or a list of such nodes. -/
def memberOf (env : Env) (index : Nat) (components : Option Tree) (t : Tree) : Found :=
  match t.kind with
  | "field_declaration" | "constant_declaration" => env.fieldMembers index t
  | "method_declaration" | "annotation_type_element_declaration" => env.methodMember index t
  | "constructor_declaration" | "compact_constructor_declaration" =>
    env.constructorMember index components t
  | "enum_constant" => env.enumConstant index t
  | "static_initializer" | "block" => { references := env.references {} [] t }
  | _ => {}

/-! ## Types -/

/-- The clause that lists the interfaces of a type. -/
def interfacesClause? (t : Tree) : Option Tree :=
  (t.field? "interfaces").orElse fun _ => t.namedOf? "extends_interfaces"

/-- The full name of a type called `name` that is declared here. -/
def qualnameOf (env : Env) (name : String) : String :=
  match env.owner? with
  | some owner => owner.qualname ++ "." ++ name
  | none => qualify env.file.package name

/-- The declaration that a node makes under a name, and the names inside it. -/
def openType (env : Env) (t : Tree) (name : String) : FileDeclaration × Env :=
  let qualname := env.qualnameOf name
  let kind := declKindOf t.kind
  let isRecord := t.kind == "record_declaration"
  let (written, annotations) := modifiersOf env.source t
  let scope : OpenType :=
    { qualname, kind
      typeParams := typeParameters env.source t }
  let inner : Env := { env with types := scope :: env.types }
  let superclass := ((t.field? "superclass").bind (·.firstNamed?)).map inner.typeRef
  let components := if isRecord then ((t.field? "parameters").map inner.parameters).getD [] else []
  let fields := components.map (fun p => (p.name, p.type)) ++
    (((t.field? "body").map (·.children)).map (inner.fieldTypes scope.asType)).getD []
  ({ qualname, name, kind, superclass, annotations
     modifiers := typeModifiers written kind isRecord (env.owner?.map (·.kind))
     interfaces := ((interfacesClause? t).map fun c => (typesListed c).map inner.typeRef).getD []
     outer := env.typeName?
     range := t.range },
   { env with types := { scope with superclass, fields := fields.reverse } :: env.types })

mutual

/-- What a type and all in it declare. `index` numbers the type among the declarations of the
file. -/
def typeSymbols (env : Env) (index : Nat) : Tree → Found
  | .node info children =>
    let t := Tree.node info children
    match t.field? "name" with
    | none => {}
    | some name =>
      let (declaration, inner) := env.openType t (name.text env.source)
      let components :=
        if info.kind == "record_declaration" then
          ((t.field? "parameters").map (inner.componentMembers index)).getD []
        else []
      let own : Found :=
        { declarations := [declaration]
          members := components }
      own ++ bodySymbols inner index (t.field? "parameters") children

/-- What the body among the children of a type declares. -/
def bodySymbols (env : Env) (index : Nat) (components : Option Tree) : List Tree → Found
  | [] => {}
  | .node info children :: rest =>
    if info.field == some "body" then memberSymbols env index components (index + 1) children
    else bodySymbols env index components rest

/-- What nodes side by side in the body of type `index` declare; `next` numbers the next type. -/
def memberSymbols (env : Env) (index : Nat) (components : Option Tree) (next : Nat) :
    List Tree → Found
  | [] => {}
  | .node info children :: rest =>
    let t := Tree.node info children
    let here :=
      if !info.named then {}
      else if isTypeDeclaration info.kind then typeSymbols env next t
      else if info.kind == "enum_body_declarations" then memberSymbols env index none next children
      else env.memberOf index components t
    here ++ memberSymbols env index components (next + here.declarations.length) rest

end

/-- What the types among nodes side by side declare; `next` numbers the next type. -/
def topSymbols (env : Env) (next : Nat) : List Tree → Found
  | [] => {}
  | t :: rest =>
    let here :=
      if t.info.named && isTypeDeclaration t.kind then typeSymbols env next t else {}
    here ++ topSymbols env (next + here.declarations.length) rest

end Env

/-- All that a source file declares and refers to, given its syntax tree. -/
def extract (source : String) (root : Tree) : FileSymbols :=
  let file := FileNames.ofTree source root
  let found := Env.topSymbols { file } 0 root.children
  { package := file.package
    imports := file.imports
    declarations := found.declarations
    members := found.members
    references := found.references }

end JavaAtlas.Java
