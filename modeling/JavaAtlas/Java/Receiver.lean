import JavaAtlas.Java.Names

namespace JavaAtlas.Java

/-! # What a member is called on

The type of a receiver is told from its own text where that is possible: a variable with a written
type, a type by its name, a creation, a cast, a string. For other expressions the way from such a
beginning is kept as a chain of fields and calls, to be followed when all files are known.
-/

/-- The variables in scope at some place. -/
structure Variables where
  /-- Parameters and local variables of the method; the first of a name counts. -/
  locals : List (String × TypeRef) := []
  /-- The parameters of the lambdas around the place, innermost first. -/
  lambdas : List (List (String × ReceiverChain)) := []

namespace Variables

/-- The chain that a lambda parameter stands for. -/
def lambdaParam? (vars : Variables) (name : String) : Option ReceiverChain :=
  vars.lambdas.findSome? (·.lookup name)

/-- The variables inside one more lambda. -/
def inLambda (vars : Variables) (params : List (String × ReceiverChain)) : Variables :=
  { vars with lambdas := params :: vars.lambdas }

end Variables

namespace Env

/-- The written type of a local variable or field. -/
def variableType? (env : Env) (vars : Variables) (name : String) : Option TypeRef :=
  (vars.locals.lookup name).orElse fun _ => env.fieldType? name

/-- Whether a text is made of names with dots between them. -/
def isDottedName (text : String) : Bool :=
  (text.splitOn ".").all fun part => !part.isEmpty && part.toList.all isNameChar

/-- The type of a string. -/
def stringType : TypeRef :=
  { text := "String"
    resolved := some "java.lang.String" }

/-- What a name is, used as a receiver. -/
def receiverNamed (env : Env) (vars : Variables) (name : String) : Receiver × Option TypeRef :=
  if (vars.lambdaParam? name).isSome then (.expr, none)
  else
    match env.variableType? vars name with
    | some type => (.expr, some type)
    | none =>
      if startsUppercase name then (.type, some (env.typeNamed name))
      else (.expr, none)

/-- What a field access is, used as a receiver: a field of this object, or a dotted type name. -/
def receiverOfAccess (env : Env) (t : Tree) : Receiver × Option TypeRef :=
  let ownField : Option Tree :=
    if ((t.field? "object").map (·.kind)) == some "this" then t.field? "field" else none
  match ownField with
  | some field => (.expr, env.fieldType? (field.text env.source))
  | none =>
    let text := t.squeezed env.source
    if isDottedName text && startsUppercase (simpleName text) then
      (.type, some (env.typeNamed text))
    else (.expr, none)

/-- What an expression is, used as a receiver, with its type if that can be told. -/
def receiverOf (env : Env) (vars : Variables) (t : Tree) : Receiver × Option TypeRef :=
  match t.kind with
  | "this" => (.this, none)
  | "super" => (.super, none)
  | "identifier" => env.receiverNamed vars (t.text env.source)
  | "field_access" => env.receiverOfAccess t
  | "object_creation_expression" | "cast_expression" =>
    (.expr, (t.field? "type").map env.typeRef)
  | "parenthesized_expression" =>
    match _h : t.firstNamed? with
    | some inner => receiverOf env vars inner
    | none => (.expr, none)
  | "string_literal" => (.expr, some stringType)
  | kind => if isTypeNode kind then (.type, some (env.typeRef t)) else (.expr, none)
termination_by sizeOf t
decreasing_by exact Tree.sizeOf_lt_of_firstNamed? _h

/-- The chain of a name: a lambda parameter, a variable, a type, or else an inherited field. -/
def chainNamed (env : Env) (vars : Variables) (name : String) : ReceiverChain :=
  match vars.lambdaParam? name with
  | some chain => chain
  | none =>
    match env.variableType? vars name with
    | some type => { root := .typed type }
    | none =>
      if startsUppercase name then { root := .typed (env.typeNamed name) }
      else { root := .implicit, steps := [.field name] }

/-- The way to an expression. -/
def chainOf (env : Env) (vars : Variables) (t : Tree) : Option ReceiverChain :=
  match t.kind with
  | "this" => some { root := .this }
  | "identifier" => some (env.chainNamed vars (t.text env.source))
  | "field_access" =>
    match (env.receiverOfAccess t).2 with
    | some type => some { root := .typed type }
    | none =>
      match _h : t.field? "object", t.field? "field" with
      | some object, some field =>
        (chainOf env vars object).map (·.andThen (.field (field.text env.source)))
      | _, _ => none
  | "method_invocation" =>
    match t.field? "name" with
    | none => none
    | some name =>
      let step := ChainStep.call (name.text env.source) (argCount (t.field? "arguments"))
      match _h : t.field? "object" with
      | some object => (chainOf env vars object).map (·.andThen step)
      | none => some { root := .implicit, steps := [step] }
  | "parenthesized_expression" =>
    match _h : t.firstNamed? with
    | some inner => chainOf env vars inner
    | none => none
  | _ => (env.receiverOf vars t).2.map fun type => { root := .typed type }
termination_by sizeOf t
decreasing_by
  · exact Tree.sizeOf_lt_of_field? _h
  · exact Tree.sizeOf_lt_of_field? _h
  · exact Tree.sizeOf_lt_of_firstNamed? _h

/-- A receiver, and the way to it if it is an expression whose type cannot be told here. -/
def receiver (env : Env) (vars : Variables) (t : Tree) :
    Receiver × Option TypeRef × Option ReceiverChain :=
  match env.receiverOf vars t with
  | (.expr, none) => (.expr, none, env.chainOf vars t)
  | (kind, type) => (kind, type, none)

/-! ## Parameters -/

/-- A parameter with `...` behind its type. -/
def spreadParam? (env : Env) (t : Tree) : Option Param := do
  let type ← t.namedChildren.find? fun c =>
    !(c.kind == "modifiers" || c.kind == "variable_declarator") && !c.info.extra
  let declarator ← t.namedOf? "variable_declarator"
  let name ← declarator.field? "name"
  return {
    name := name.text env.source
    type := withSuffix (env.typeRef type) "..."
    varargs := true }

/-- An ordinary parameter. -/
def formalParam? (env : Env) (t : Tree) : Option Param := do
  let type ← t.field? "type"
  let name ← t.field? "name"
  return {
    name := name.text env.source
    type := withDimensions env.source (env.typeRef type) t }

/-- The parameters in a list of them. -/
def parameters (env : Env) (t : Tree) : List Param :=
  t.namedChildren.filterMap fun c =>
    if c.kind == "formal_parameter" then env.formalParam? c
    else if c.kind == "spread_parameter" then env.spreadParam? c
    else none

/-! ## Lambdas -/

/-- The object on whose method a node is handed over as an argument, given the nodes around it,
nearest first. -/
def argumentOf? : List Tree → Option Tree
  | list :: call :: _ =>
    if list.kind == "argument_list" && call.kind == "method_invocation" then call.field? "object"
    else none
  | _ => none

/-- The names of parameters without types. -/
def inferredNames (env : Env) (params : Tree) : List String :=
  if params.kind == "identifier" then [params.text env.source]
  else if params.kind == "inferred_parameters" then
    (params.namedChildren.filter (·.kind == "identifier")).map (·.text env.source)
  else []

/-- The parameters of a lambda. Those with a written type keep it; the others are described
through the object whose method the lambda is handed to. -/
def lambdaParams (env : Env) (vars : Variables) (around : List Tree) (lambda : Tree) :
    List (String × ReceiverChain) :=
  match lambda.field? "parameters" with
  | none => []
  | some params =>
    if params.kind == "formal_parameters" then
      ((env.parameters params).map fun p => (p.name, { root := .typed p.type })).reverse
    else
      match (argumentOf? around).bind (env.chainOf vars) with
      | none => []
      | some base =>
        let names := env.inferredNames params
        (names.zipIdx.map fun (name, i) =>
          (name, base.andThen (.lambdaParam i names.length))).reverse

end Env

end JavaAtlas.Java
