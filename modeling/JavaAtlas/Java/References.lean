import JavaAtlas.Java.Receiver

namespace JavaAtlas.Java

/-! # Calls, creations and method references

Every use of a method or constructor in a piece of code, a node before what is below it. Lambdas
are entered through their bodies only.
-/

/-- The text of the nearest call among the nodes around a place. -/
def enclosingCallText (source : String) (around : List Tree) : Option String :=
  (around.find? fun t =>
    t.kind == "method_invocation" || t.kind == "explicit_constructor_invocation").map
    (callText source)

/-- The simple name of a written type. -/
def typeSimpleName (text : String) : String := simpleName (erase text)

namespace Env

/-- A reference of the given kind and name that stands at a node. -/
def referenceAt (env : Env) (kind : RefKind) (name : String) (place : Tree) : FileReference :=
  { kind, name
    callerClass := env.typeName?
    line := place.startLine
    startByte := place.info.startByte
    endByte := place.info.endByte }

/-- A reference to a constructor of a type. -/
def creationOf (env : Env) (type : TypeRef) (place : Tree) : FileReference :=
  { env.referenceAt .new (typeSimpleName type.text) place with
    receiver := .type
    receiverType := some type }

/-- The reference of a method call. -/
def callReference (env : Env) (vars : Variables) (t : Tree) : Option FileReference := do
  let name ← t.field? "name"
  let (receiver, type, chain) := match t.field? "object" with
    | some object => env.receiver vars object
    | none => (.implicit, none, none)
  return { env.referenceAt .call (name.text env.source) name with
    argCount := some (argCount (t.field? "arguments"))
    receiver
    receiverType := type
    receiverChain := chain
    callText := some (callText env.source t) }

/-- The reference of an object creation. -/
def creationReference (env : Env) (around : List Tree) (t : Tree) : Option FileReference := do
  let type ← t.field? "type"
  return { env.creationOf (env.typeRef type) type with
    argCount := some (argCount (t.field? "arguments"))
    callText := enclosingCallText env.source around }

/-- The reference of a method reference: to a constructor, or to a method by its name. -/
def methodReference (env : Env) (vars : Variables) (around : List Tree) (t : Tree) :
    Option FileReference := do
  let target ← t.firstNamed?
  let last ← t.children.getLast?
  let text := enclosingCallText env.source around
  if last.kind == "new" then
    return { env.creationOf (env.typeRef target) last with callText := text }
  else if last.kind == "identifier" then
    let (receiver, type, chain) := env.receiver vars target
    return { env.referenceAt .methodRef (last.text env.source) last with
      receiver
      receiverType := type
      receiverChain := chain
      callText := text }
  else none

/-- The reference of a call of another constructor at the start of one. -/
def constructorReference (env : Env) (t : Tree) : Option FileReference := do
  let here ← env.types.head?
  let keyword ← t.field? "constructor"
  let target ← match keyword.kind with
    | "this" => some here.asType
    | "super" => here.superclass
    | _ => none
  return { env.creationOf target keyword with
    argCount := some (argCount (t.field? "arguments"))
    callText := some (callText env.source t) }

/-- The reference that a node itself makes. -/
def reference? (env : Env) (vars : Variables) (around : List Tree) (t : Tree) :
    Option FileReference :=
  match t.kind with
  | "method_invocation" => env.callReference vars t
  | "object_creation_expression" => env.creationReference around t
  | "method_reference" => env.methodReference vars around t
  | "explicit_constructor_invocation" => env.constructorReference t
  | _ => none

mutual

/-- The references at a node and below it, given the nodes around it, nearest first. -/
def references (env : Env) (vars : Variables) (around : List Tree) : Tree → List FileReference
  | .node info children =>
    let t := Tree.node info children
    if info.kind == "lambda_expression" then
      referencesOfBody env (vars.inLambda (env.lambdaParams vars around t)) (t :: around) children
    else
      (env.reference? vars around t).toList ++ referencesOfAll env vars (t :: around) children

/-- The references of the named ones among nodes side by side. -/
def referencesOfAll (env : Env) (vars : Variables) (around : List Tree) :
    List Tree → List FileReference
  | [] => []
  | t :: rest =>
    (if t.info.named then references env vars around t else []) ++
      referencesOfAll env vars around rest

/-- The references of the body among the children of a lambda. -/
def referencesOfBody (env : Env) (vars : Variables) (around : List Tree) :
    List Tree → List FileReference
  | [] => []
  | t :: rest =>
    if t.info.field == some "body" then references env vars around t
    else referencesOfBody env vars around rest

end

/-! ## Local variables -/

/-- The variables that a declaration of them or a resource introduces. A variable declared with
`var` has the type of the object created for it. -/
def declaredLocals (env : Env) (t : Tree) : List (String × TypeRef) :=
  match t.field? "type" with
  | none => []
  | some type =>
    let declared := env.typeRef type
    let declarators := if t.kind == "resource" then [t] else t.fields "declarator"
    declarators.filterMap fun d => do
      let name ← d.field? "name"
      let type ←
        if declared.text == "var" then
          match d.field? "value" with
          | some value =>
            if value.kind == "object_creation_expression" then (value.field? "type").map env.typeRef
            else none
          | none => none
        else some declared
      return (name.text env.source, type)

/-- The variable of a loop over elements or of a catch clause. -/
def boundLocal (env : Env) (t : Tree) : Option (String × TypeRef) := do
  let type ← (t.field? "type").orElse fun _ => t.namedOf? "catch_type"
  let name ← t.field? "name"
  let type ← if type.kind == "catch_type" then type.firstNamed? else some type
  let type := env.typeRef type
  if type.text == "var" then none else some (name.text env.source, type)

/-- The variables that a node itself introduces. -/
def ownLocals (env : Env) (t : Tree) : List (String × TypeRef) :=
  match t.kind with
  | "local_variable_declaration" | "resource" => env.declaredLocals t
  | "enhanced_for_statement" | "catch_formal_parameter" => (env.boundLocal t).toList
  | _ => []

mutual

/-- The local variables declared at a node and below it, in their order. -/
def localsIn (env : Env) : Tree → List (String × TypeRef)
  | .node info children => env.ownLocals (.node info children) ++ localsInAll env children

/-- The local variables declared in the named ones among nodes side by side. -/
def localsInAll (env : Env) : List Tree → List (String × TypeRef)
  | [] => []
  | t :: rest => (if t.info.named then localsIn env t else []) ++ localsInAll env rest

end

/-- The variables of a method with these parameters and this body. -/
def variablesOf (env : Env) (params : List Param) (body : Tree) : Variables :=
  { locals := (params.map (fun p => (p.name, p.type)) ++ env.localsIn body).reverse }

end Env

end JavaAtlas.Java
