import JavaAtlas.Model.Symbols

namespace JavaAtlas

/-! # Reports: what is told about types, callers and diagnostics -/

/-- Where something stands in a file. -/
structure Span where
  file : String
  startLine : Int
  endLine : Int
deriving DecidableEq, Inhabited, Repr

/-- A parameter, its type by name. -/
structure ParamInfo where
  name : String
  type : String
deriving DecidableEq, Inhabited, Repr

/-- What is told about a field. -/
structure FieldInfo where
  name : String
  type : String
  modifiers : Modifiers := {}
  annotations : List String := []
  hasInitializer : Bool := false
  span : Option Span := none
deriving DecidableEq, Inhabited, Repr

/-- What is told about a method or constructor. -/
structure MethodInfo where
  name : String
  returnType : String
  parameters : List ParamInfo := []
  modifiers : Modifiers := {}
  exceptions : List String := []
  annotations : List String := []
  isConstructor : Bool := false
  hasBody : Bool := false
  span : Option Span := none
deriving DecidableEq, Inhabited, Repr

/-- What is told about a type. -/
structure TypeInfo where
  name : String
  simpleName : String
  package : String
  kind : DeclKind
  modifiers : Modifiers := {}
  superClass : String := ""
  interfaces : List String := []
  fields : List FieldInfo := []
  methods : List MethodInfo := []
  constructors : List MethodInfo := []
  innerClasses : List String := []
  annotations : List String := []
  file : Option String := none
  source : Provenance := .source
deriving DecidableEq, Inhabited, Repr

/-- What a compiled class tells about a type. -/
structure ArtifactInfo where
  qualname : String
  kind : DeclKind
  modifiers : Modifiers := {}
  superClass : Option String := none
  interfaces : List String := []
  fields : List FieldInfo := []
  methods : List MethodInfo := []
  constructors : List MethodInfo := []
  innerClasses : List String := []
  annotations : List String := []
  location : String := ""
deriving DecidableEq, Inhabited, Repr

/-- A place from which a method is called. -/
structure CallSite where
  caller : String
  /-- The method or constructor around it; none outside of these. -/
  member : Option String := none
  file : String
  line : Int
  callText : Option String := none
  unresolvedReceiver : Bool := false
deriving DecidableEq, Inhabited, Repr

/-- The callers of one method. -/
structure OverloadCallers where
  signature : String
  /-- Call sites as text, and notes on those that could not be told. -/
  callers : List String
deriving DecidableEq, Inhabited, Repr

/-- The callers of the methods of one name in one class. -/
structure ClassCallers where
  name : String
  methodFound : Bool := false
  overloads : List OverloadCallers := []
  /-- Why the class could not be searched. -/
  note : Option String := none
deriving DecidableEq, Inhabited, Repr

/-- The callers of the methods of one name in all classes that a name stands for. -/
structure CallReport where
  input : String
  method : String
  matched : List String := []
  classes : List ClassCallers := []
  foundAnyMethod : Bool := false
  elapsedMs : Int := 0
deriving DecidableEq, Inhabited, Repr

/-- A line of source text shown with a diagnostic. -/
structure ContextLine where
  line : Int
  text : String
  /-- It is the line of the diagnostic. -/
  marked : Bool
deriving DecidableEq, Inhabited, Repr

/-- An error with the lines around it. -/
structure Diagnostic where
  severity : Severity := .error
  line : Int
  message : String
  context : List ContextLine := []
deriving DecidableEq, Inhabited, Repr

/-- What a check found. -/
structure CheckReport where
  name : String
  fileName : String := ""
  path : String := ""
  state : CheckState := .stable
  errors : List Diagnostic := []
  warningCount : Int := 0
  infoCount : Int := 0
  /-- How the result came about. -/
  notes : List String := []
  /-- Why the result may be incomplete. -/
  caveat : Option String := none
  polls : Int := 0
deriving DecidableEq, Inhabited, Repr

/-- A declaration in a listing. -/
structure DeclarationSummary where
  name : String
  package : String
  kind : DeclKind
  file : String
deriving DecidableEq, Inhabited, Repr

/-- What a run over all files did. -/
structure IndexStats where
  scanned : Nat := 0
  indexed : Nat := 0
  skipped : Nat := 0
  deleted : Nat := 0
  errors : Nat := 0
  declarations : Nat := 0
  members : Nat := 0
  references : Nat := 0
deriving DecidableEq, Inhabited, Repr

/-- What a run over some files did. -/
structure SyncStats where
  indexed : Nat := 0
  deleted : Nat := 0
  skipped : Nat := 0
  errors : Nat := 0
  declarations : Nat := 0
  references : Nat := 0
deriving DecidableEq, Inhabited, Repr

/-- How much of one file went into the index. -/
structure FileCounts where
  declarations : Nat := 0
  members : Nat := 0
  references : Nat := 0
deriving DecidableEq, Inhabited, Repr

end JavaAtlas
