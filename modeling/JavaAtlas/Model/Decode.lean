import JavaAtlas.Json.Basic
import JavaAtlas.Model.Reports

namespace JavaAtlas

/-! # Models from JSON

Reading is lenient: what is missing or malformed has its default.
-/

/-- A set of modifiers; names that are none are dropped. -/
def Modifiers.ofJson (j : Json) (key : String) : Modifiers := .ofNames (j.getStrs key)

/-- A type reference. -/
def TypeRef.ofJson (j : Json) : TypeRef :=
  { text := j.getStr "text", resolved := j.getStr? "resolved" }

/-- A parameter. -/
def Param.ofJson (j : Json) : Param :=
  { name := j.getStr "name"
    type := .ofJson ((j.get? "ty").getD .null)
    varargs := j.getBool "varargs" }

/-- The last part of a path. -/
def lastSegment (separator : Char) (text : String) : String :=
  String.ofList (text.toList.reverse.takeWhile (· != separator)).reverse

/-- A declaration with the file it stands in. -/
def Declaration.ofJson (j : Json) : Declaration :=
  let qualname := j.getStr "qualname"
  let path := j.getStr "path"
  { qualname
    name := j.getStr "name" (lastSegment '.' qualname)
    kind := ((j.getStr? "kind").bind DeclKind.parse?).getD .ofClass
    modifiers := .ofJson j "modifiers"
    package := j.getStr "package"
    superclass := (j.get? "superclass").map TypeRef.ofJson
    interfaces := (j.getArr "interfaces").map TypeRef.ofJson
    annotations := j.getStrs "annotations"
    outer := j.getStr? "outer"
    unit := { path, name := lastSegment '/' path, onDisk := j.getBool "exists" true }
    origin := .parse (j.getStr "origin")
    startLine := j.getInt "start_line" 1
    endLine := j.getInt "end_line" 1 }

/-- A member. -/
def Member.ofJson (j : Json) : Member :=
  { kind := ((j.getStr? "kind").bind MemberKind.parse?).getD .method
    name := j.getStr "name"
    owner := j.getStr "owner"
    type := (j.get? "ty").map TypeRef.ofJson
    modifiers := .ofJson j "modifiers"
    params := (j.getArr "params").map Param.ofJson
    throws := (j.getArr "throws").map TypeRef.ofJson
    annotations := j.getStrs "annotations"
    hasBody := j.getBool "has_body"
    hasInitializer := j.getBool "has_initializer"
    fileName := j.getStr "file_name"
    startLine := j.getInt "start_line" 1
    endLine := j.getInt "end_line" 1 }

/-- A diagnostic of a source file. -/
def Marker.ofJson (j : Json) : Marker :=
  { severity := ((j.getStr? "severity").bind Severity.parse?).getD .error
    line := j.getInt "line" 1
    startByte := j.getInt "start_byte"
    endByte := j.getInt "end_byte"
    message := j.getStr "message" }

/-! ## What one file declares -/

/-- A stretch of a source text. -/
def SourceRange.ofJson (j : Json) : SourceRange :=
  { startLine := j.getInt "start_line" 1
    endLine := j.getInt "end_line" 1
    startByte := j.getInt "start_byte"
    endByte := j.getInt "end_byte" }

/-- An import. -/
def Import.ofJson (j : Json) : Import :=
  { path := j.getStr "path"
    wildcard := j.getBool "wildcard"
    isStatic := j.getBool "is_static"
    line := j.getInt "line" 1 }

/-- A declaration of one file. -/
def FileDeclaration.ofJson (j : Json) : FileDeclaration :=
  { qualname := j.getStr "qualname"
    name := j.getStr "name"
    kind := ((j.getStr? "kind").bind DeclKind.parse?).getD .ofClass
    modifiers := .ofJson j "modifiers"
    superclass := (j.get? "superclass").map TypeRef.ofJson
    interfaces := (j.getArr "interfaces").map TypeRef.ofJson
    annotations := j.getStrs "annotations"
    outer := j.getStr? "outer"
    range := .ofJson j }

/-- A member of one file. -/
def FileMember.ofJson (j : Json) : FileMember :=
  { declIndex := (j.getInt "decl_index").toNat
    kind := ((j.getStr? "kind").bind MemberKind.parse?).getD .method
    name := j.getStr "name"
    type := (j.get? "ty").map TypeRef.ofJson
    modifiers := .ofJson j "modifiers"
    params := (j.getArr "params").map Param.ofJson
    throws := (j.getArr "throws").map TypeRef.ofJson
    annotations := j.getStrs "annotations"
    hasBody := j.getBool "has_body"
    hasInitializer := j.getBool "has_initializer"
    range := .ofJson j }

/-- The start of a chain. -/
def ChainRoot.ofJson (j : Json) : ChainRoot :=
  match j.get? "typed", j with
  | some t, _ => .typed (.ofJson t)
  | none, .str "this" => .this
  | none, _ => .implicit

/-- A step of a chain. -/
def ChainStep.ofJson? (j : Json) : Option ChainStep :=
  match j.get? "field", j.get? "call", j.get? "lambda_param" with
  | some f, _, _ => some (.field (f.getStr "name"))
  | none, some c, _ => some (.call (c.getStr "name") (c.getInt "args"))
  | none, none, some l =>
    some (.lambdaParam (l.getInt "index").toNat (l.getInt "arity").toNat)
  | none, none, none => none

/-- A chain. -/
def ReceiverChain.ofJson (j : Json) : ReceiverChain :=
  { root := .ofJson ((j.get? "root").getD .null)
    steps := (j.getArr "steps").filterMap ChainStep.ofJson? }

/-- A reference of one file. -/
def FileReference.ofJson (j : Json) : FileReference :=
  { kind := ((j.getStr? "kind").bind RefKind.parse?).getD .call
    name := j.getStr "name"
    argCount := (j.get? "arg_count").bind Json.int?
    receiver := ((j.getStr? "receiver").bind Receiver.parse?).getD .implicit
    receiverType := (j.get? "receiver_type").map TypeRef.ofJson
    receiverChain := (j.get? "receiver_chain").map ReceiverChain.ofJson
    callerClass := j.getStr? "caller_class"
    line := j.getInt "line" 1
    startByte := j.getInt "start_byte"
    endByte := j.getInt "end_byte"
    callText := j.getStr? "call_text" }

/-- All that is taken from one file. -/
def FileSymbols.ofJson (j : Json) : FileSymbols :=
  { package := j.getStr "package"
    imports := (j.getArr "imports").map Import.ofJson
    declarations := (j.getArr "declarations").map FileDeclaration.ofJson
    members := (j.getArr "members").map FileMember.ofJson
    references := (j.getArr "references").map FileReference.ofJson }

/-! ## Reports -/

/-- A place in a file. -/
def Span.ofJson (j : Json) : Span :=
  { file := j.getStr "file", startLine := j.getInt "start_line" 1, endLine := j.getInt "end_line" 1 }

/-- A field. -/
def FieldInfo.ofJson (j : Json) : FieldInfo :=
  { name := j.getStr "name"
    type := j.getStr "type"
    modifiers := .ofJson j "modifiers"
    annotations := j.getStrs "annotations"
    hasInitializer := j.getBool "has_initializer"
    span := (j.get? "span").map Span.ofJson }

/-- A method or constructor. -/
def MethodInfo.ofJson (j : Json) : MethodInfo :=
  { name := j.getStr "name"
    returnType := j.getStr "return_type" "void"
    parameters := (j.getArr "parameters").map fun p =>
      { name := p.getStr "name", type := p.getStr "type" }
    modifiers := .ofJson j "modifiers"
    exceptions := j.getStrs "exceptions"
    annotations := j.getStrs "annotations"
    isConstructor := j.getBool "is_constructor"
    hasBody := j.getBool "has_body"
    span := (j.get? "span").map Span.ofJson }

/-- A type. -/
def TypeInfo.ofJson (j : Json) : TypeInfo :=
  { name := j.getStr "name"
    simpleName := j.getStr "simple_name"
    package := j.getStr "package"
    kind := ((j.getStr? "type").bind DeclKind.parse?).getD .ofClass
    modifiers := .ofJson j "modifiers"
    superClass := j.getStr "super_class"
    interfaces := j.getStrs "interfaces"
    fields := (j.getArr "fields").map FieldInfo.ofJson
    methods := (j.getArr "methods").map MethodInfo.ofJson
    constructors := (j.getArr "constructors").map MethodInfo.ofJson
    innerClasses := j.getStrs "inner_classes"
    annotations := j.getStrs "annotations"
    file := j.getStr? "file"
    source := if j.getStr "source" == "compiled" then .compiled else .source }

/-- A compiled type. -/
def ArtifactInfo.ofJson (j : Json) : ArtifactInfo :=
  { qualname := j.getStr "qualname"
    kind := ((j.getStr? "type").bind DeclKind.parse?).getD .ofClass
    modifiers := .ofJson j "modifiers"
    superClass := j.getStr? "super_class"
    interfaces := j.getStrs "interfaces"
    fields := (j.getArr "fields").map FieldInfo.ofJson
    methods := (j.getArr "methods").map MethodInfo.ofJson
    constructors := (j.getArr "constructors").map MethodInfo.ofJson
    innerClasses := j.getStrs "inner_classes"
    annotations := j.getStrs "annotations"
    location := j.getStr "location" }

/-- A call site. -/
def CallSite.ofJson (j : Json) : CallSite :=
  { caller := j.getStr "caller"
    member := j.getStr? "member"
    file := j.getStr "file"
    line := j.getInt "line" 1
    callText := j.getStr? "call_text"
    unresolvedReceiver := j.getBool "unresolved_receiver" }

/-- The callers in one class. -/
def ClassCallers.ofJson (j : Json) : ClassCallers :=
  { name := j.getStr "class"
    methodFound := j.getBool "method_found"
    overloads := (j.getArr "overloads").map fun o =>
      { signature := o.getStr "signature", callers := o.getStrs "callers" }
    note := j.getStr? "note" }

/-- The callers in all classes. -/
def CallReport.ofJson (j : Json) : CallReport :=
  { input := j.getStr "input"
    method := j.getStr "method"
    matched := j.getStrs "matches"
    classes := (j.getArr "classes").map ClassCallers.ofJson
    foundAnyMethod := j.getBool "found_any_method"
    elapsedMs := j.getInt "elapsed_ms" }

/-- An error with its lines. -/
def Diagnostic.ofJson (j : Json) : Diagnostic :=
  { severity := ((j.getStr? "severity").bind Severity.parse?).getD .error
    line := j.getInt "line" 1
    message := j.getStr "message"
    context := (j.getArr "context").map fun c =>
      { line := c.getInt "line" 1, text := c.getStr "text", marked := c.getBool "marked" } }

/-- What a check found. -/
def CheckReport.ofJson (j : Json) : CheckReport :=
  { name := j.getStr "class"
    fileName := j.getStr "file_name"
    path := j.getStr "path"
    state := ((j.getStr? "state").bind CheckState.parse?).getD .stable
    errors := (j.getArr "errors").map Diagnostic.ofJson
    warningCount := j.getInt "warning_count"
    infoCount := j.getInt "info_count"
    notes := j.getStrs "notes"
    caveat := j.getStr? "caveat"
    polls := j.getInt "polls" }

end JavaAtlas
