import JavaAtlas.Java.Syntax

namespace JavaAtlas.Java

/-! # What names stand for in one source file

A file has a package, imports, and the types that it declares itself. From these the full name of
a type can mostly be told: a type parameter stands for itself, then come the types of the file,
the imports, the language's own package, and, where no import could bring in unknown names, the
package of the file.
-/

/-- The types of the package `java.lang` that are told apart from those of other packages. -/
def languageTypes : List String :=
  ["AssertionError", "AutoCloseable", "Boolean", "Byte", "CharSequence", "Character", "Class",
    "ClassCastException", "ClassNotFoundException", "CloneNotSupportedException", "Cloneable",
    "Comparable", "Deprecated", "Double", "Enum", "Error", "Exception", "Float",
    "FunctionalInterface", "IllegalArgumentException", "IllegalStateException",
    "IndexOutOfBoundsException", "Integer", "InterruptedException", "Iterable", "Long", "Math",
    "NullPointerException", "Number", "NumberFormatException", "Object", "Override", "Record",
    "Runnable", "RuntimeException", "SafeVarargs", "Short", "String", "StringBuffer",
    "StringBuilder", "SuppressWarnings", "System", "Thread", "Throwable",
    "UnsupportedOperationException", "Void"]

/-! ## The head of a file -/

/-- The package of a file: the last name in its last package declaration. -/
def packageOf (source : String) (root : Tree) : String :=
  let names := (root.namedChildren.filter (·.kind == "package_declaration")).flatMap fun p =>
    p.namedChildren.filter (isNameNode ·.kind)
  (names.getLast?.map (·.text source)).getD ""

/-- The imports of a file in their order. -/
def importsOf (source : String) (root : Tree) : List Import :=
  (root.namedChildren.filter (·.kind == "import_declaration")).filterMap (importOf? source)

/-- The full name of `name` in a package. -/
def qualify (package name : String) : String :=
  if package.isEmpty then name else package ++ "." ++ name

/-! ## The types that a file declares -/

/-- Full names by the names that can be used for them. -/
abbrev KnownTypes := List (String × String)

/-- Where a nested type is declared: the full name of the type around it, and its name relative
to the package. -/
structure Outer where
  qualname : String
  relative : String
deriving DecidableEq, Repr

/-- Adds a type under its relative name, which replaces what was there, and under its simple
name if that is not taken. -/
def KnownTypes.add (known : KnownTypes) (name relative qualname : String) : KnownTypes :=
  let known := if (known.lookup name).isSome then known else (name, qualname) :: known
  (relative, qualname) :: known

/-- The names of the type called `name` that is declared inside `outer`. -/
def namesIn (package : String) (outer : Option Outer) (name : String) : Outer :=
  match outer with
  | some o => ⟨o.qualname ++ "." ++ name, o.relative ++ "." ++ name⟩
  | none => ⟨qualify package name, name⟩

mutual

/-- Adds the types that nodes side by side declare, and those nested in them. -/
def knownTypes (source package : String) (outer : Option Outer) :
    List Tree → KnownTypes → KnownTypes
  | [], known => known
  | .node info children :: rest, known =>
    let known :=
      if !info.named then known
      else if info.kind == "enum_body_declarations" then
        knownTypes source package outer children known
      else if isTypeDeclaration info.kind then
        match (Tree.node info children).field? "name" with
        | some name =>
          let name := name.text source
          let names := namesIn package outer name
          knownTypesOfBody source package names children (known.add name names.relative names.qualname)
        | none => known
      else known
    knownTypes source package outer rest known

/-- Adds the types in the body of a type, the body being the first of the nodes that is in that
field. -/
def knownTypesOfBody (source package : String) (outer : Outer) :
    List Tree → KnownTypes → KnownTypes
  | [], known => known
  | .node info children :: rest, known =>
    if info.field == some "body" then knownTypes source package (some outer) children known
    else knownTypesOfBody source package outer rest known

end

/-! ## Names in their place -/

/-- What a whole file says about names. -/
structure FileNames where
  source : String
  package : String
  imports : List Import
  known : KnownTypes

/-- The names of a file. -/
def FileNames.ofTree (source : String) (root : Tree) : FileNames :=
  let package := packageOf source root
  { source, package
    imports := importsOf source root
    known := knownTypes source package none root.children [] }

/-- A type whose declaration is being read. -/
structure OpenType where
  qualname : String
  kind : DeclKind
  typeParams : List String
  /-- Its fields with their types; the first of a name counts. -/
  fields : List (String × TypeRef) := []
  superclass : Option TypeRef := none

/-- The type as its own members name it. -/
def OpenType.asType (t : OpenType) : TypeRef :=
  { text := simpleName t.qualname
    resolved := some t.qualname }

/-- What names can stand for at some place of a file. -/
structure Env where
  file : FileNames
  /-- The types around the place, innermost first. -/
  types : List OpenType := []
  /-- The type parameters of the method around the place. -/
  methodTypeParams : List String := []

namespace Env

/-- The source text. -/
def source (env : Env) : String := env.file.source

/-- The full name of the innermost type. -/
def typeName? (env : Env) : Option String := env.types.head?.map (·.qualname)

/-- The type of a field of the types around. -/
def fieldType? (env : Env) (name : String) : Option TypeRef :=
  env.types.findSome? (·.fields.lookup name)

/-- Whether a name is a type parameter. -/
def isTypeParam (env : Env) (name : String) : Bool :=
  env.methodTypeParams.contains name || env.types.any (·.typeParams.contains name)

/-- The import of one type by its simple name. -/
def imported? (env : Env) (name : String) : Option String :=
  ((env.file.imports.filter fun i => !i.isStatic && !i.wildcard).reverse.find?
    (simpleName ·.path == name)).map (·.path)

/-- Whether some import brings in names that are not written. -/
def hasWildcards (env : Env) : Bool := env.file.imports.any fun i => !i.isStatic && i.wildcard

/-- The full name of a simple name. -/
def resolveSimple (env : Env) (name : String) : Option String :=
  if env.isTypeParam name then some name
  else
    match env.file.known.lookup name with
    | some qualname => some qualname
    | none =>
      match env.imported? name with
      | some path => some path
      | none =>
        if languageTypes.contains name then some ("java.lang." ++ name)
        else if env.hasWildcards then none
        else some (qualify env.file.package name)

/-- The full name of a name, simple or dotted. A dotted name is one of the file, or begins with a
type, or is a full name already. -/
def resolveDotted (env : Env) (text : String) : Option String :=
  let (first, rest) := (text.toList.takeWhile (· != '.'), text.toList.dropWhile (· != '.'))
  if rest.isEmpty then env.resolveSimple text
  else
    match env.file.known.lookup text with
    | some qualname => some qualname
    | none =>
      if startsUppercase (String.ofList first) then
        (env.resolveSimple (String.ofList first)).map (· ++ String.ofList rest)
      else some text

/-- A text without its spaces. -/
def dropSpaces (text : String) : String := String.ofList (text.toList.filter (· != ' '))

/-- Whether a wildcard names a lower bound. -/
def isLowerBounded (env : Env) (t : Tree) : Bool :=
  occurs "super".toList (t.text env.source).toList
where
  occurs (part : List Char) : List Char → Bool
    | [] => part.isEmpty
    | c :: rest => part.isPrefixOf (c :: rest) || occurs part rest

mutual

/-- The full form of a type: every name resolved, type arguments joined by commas. -/
def canonical (env : Env) (t : Tree) : Option String :=
  match t.kind with
  | "integral_type" | "floating_point_type" | "boolean_type" | "void_type" =>
    some (t.text env.source)
  | "type_identifier" | "identifier" => env.resolveSimple (t.text env.source)
  | "scoped_type_identifier" | "scoped_identifier" =>
    env.resolveDotted (dropSpaces (t.squeezed env.source))
  | "generic_type" =>
    match _h : t.firstNamed? with
    | none => none
    | some head =>
      match canonical env head with
      | none => none
      | some base =>
        match _h : t.namedOf? "type_arguments" with
        | none => some base
        | some list =>
          let args := list.parts.attach.map fun ⟨arg, _⟩ => canonicalArgument env arg
          some (base ++ "<" ++ ",".intercalate args ++ ">")
  | "array_type" =>
    match _h : t.field? "element" with
    | none => none
    | some element =>
      let dimensions := ((t.field? "dimensions").map fun d =>
        dropSpaces (d.squeezed env.source)).getD ""
      (canonical env element).map (· ++ dimensions)
  | "annotated_type" =>
    match _h : t.lastNamed? with
    | none => none
    | some last => canonical env last
  | _ => none
termination_by (sizeOf t, 0)
decreasing_by
  · exact Prod.Lex.left _ _ (Tree.sizeOf_lt_of_firstNamed? _h)
  · exact Prod.Lex.left _ _
      (Nat.lt_trans (Tree.sizeOf_lt_of_mem_parts ‹_›) (Tree.sizeOf_lt_of_namedOf? _h))
  · exact Prod.Lex.left _ _ (Tree.sizeOf_lt_of_field? _h)
  · exact Prod.Lex.left _ _ (Tree.sizeOf_lt_of_lastNamed? _h)

/-- The full form of a type argument. What cannot be resolved stands as it is written. -/
def canonicalArgument (env : Env) (arg : Tree) : String :=
  if arg.kind != "wildcard" then (canonical env arg).getD (arg.squeezed env.source)
  else
    match _h : arg.lastNamed? with
    | none => "?"
    | some bound =>
      if isTypeNode bound.kind then
        let keyword := if env.isLowerBounded arg then "super" else "extends"
        "? " ++ keyword ++ " " ++ (canonical env bound).getD (bound.squeezed env.source)
      else "?"
termination_by (sizeOf arg, 1)
decreasing_by
  · exact Prod.Lex.right _ Nat.zero_lt_one
  · exact Prod.Lex.left _ _ (Tree.sizeOf_lt_of_lastNamed? _h)

end

/-- A written type. -/
def typeRef (env : Env) (t : Tree) : TypeRef :=
  { text := t.squeezed env.source
    resolved := env.canonical t }

/-- A type given by its name. -/
def typeNamed (env : Env) (name : String) : TypeRef :=
  { text := name
    resolved := env.resolveDotted name }

end Env

/-- A type with something behind it, such as array brackets. -/
def withSuffix (t : TypeRef) (suffix : String) : TypeRef :=
  { text := t.text ++ suffix
    resolved := t.resolved.map (· ++ suffix) }

/-- The type of a variable whose own brackets add to those of its type. -/
def withDimensions (source : String) (t : TypeRef) (declarator : Tree) : TypeRef :=
  match declarator.field? "dimensions" with
  | some dimensions => withSuffix t (dimensions.squeezed source)
  | none => t

end JavaAtlas.Java
