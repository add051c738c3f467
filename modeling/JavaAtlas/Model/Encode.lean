import JavaAtlas.Json.Basic
import JavaAtlas.Model.Reports

namespace JavaAtlas

/-! # Models as JSON

Optional parts that are left out when absent are written with `ofPresent`; all others are null.
-/

/-- An array of encoded items. -/
def Json.ofList {α : Type} (f : α → Json) (xs : List α) : Json := .arr (xs.map f)

/-- An encoded value, or null. -/
def Json.ofOption {α : Type} (f : α → Json) : Option α → Json
  | some a => f a
  | none => .null

/-- A set of modifiers. -/
def Modifiers.toJson (m : Modifiers) : Json := Json.ofStrs m.names

/-- A type reference. -/
def TypeRef.toJson (t : TypeRef) : Json :=
  Json.ofPresent [("text", some (.str t.text)), ("resolved", t.resolved.map .str)]

/-- A parameter. -/
def Param.toJson (p : Param) : Json :=
  Json.ofFields [("name", .str p.name), ("ty", p.type.toJson), ("varargs", .bool p.varargs)]

/-- A source file. -/
def SourceUnit.toJson (u : SourceUnit) : Json :=
  Json.ofFields [("path", .str u.path), ("name", .str u.name), ("exists", .bool u.onDisk)]

/-- A declaration. -/
def Declaration.toJson (d : Declaration) : Json :=
  Json.ofFields [
    ("qualname", .str d.qualname),
    ("name", .str d.name),
    ("kind", .str d.kind.name),
    ("modifiers", d.modifiers.toJson),
    ("package", .str d.package),
    ("superclass", Json.ofOption TypeRef.toJson d.superclass),
    ("interfaces", Json.ofList TypeRef.toJson d.interfaces),
    ("annotations", Json.ofStrs d.annotations),
    ("outer", Json.ofStr? d.outer),
    ("unit", d.unit.toJson),
    ("origin", .str d.origin.name),
    ("start_line", .int d.startLine),
    ("end_line", .int d.endLine)]

/-- A member. -/
def Member.toJson (m : Member) : Json :=
  Json.ofFields [
    ("kind", .str m.kind.name),
    ("name", .str m.name),
    ("owner", .str m.owner),
    ("ty", Json.ofOption TypeRef.toJson m.type),
    ("modifiers", m.modifiers.toJson),
    ("params", Json.ofList Param.toJson m.params),
    ("throws", Json.ofList TypeRef.toJson m.throws),
    ("annotations", Json.ofStrs m.annotations),
    ("has_body", .bool m.hasBody),
    ("has_initializer", .bool m.hasInitializer),
    ("file_name", .str m.fileName),
    ("start_line", .int m.startLine),
    ("end_line", .int m.endLine)]

/-- A resolution. -/
def Resolution.toJson : Resolution → Json
  | .notFound => Json.ofFields [("kind", .str "not_found")]
  | .single d => Json.ofFields [("kind", .str "single"), ("declaration", d.toJson)]
  | .ambiguous names => Json.ofFields [("kind", .str "ambiguous"), ("matches", Json.ofStrs names)]

/-- A diagnostic of a source file. -/
def Marker.toJson (m : Marker) : Json :=
  Json.ofFields [
    ("severity", .str m.severity.name),
    ("line", .int m.line),
    ("start_byte", .int m.startByte),
    ("end_byte", .int m.endByte),
    ("message", .str m.message)]

/-! ## What one file declares -/

/-- A pair of numbers. -/
def Json.ofPair (a b : Int) : Json := .arr [.int a, .int b]

/-- An import. -/
def Import.toJson (i : Import) : Json :=
  Json.ofFields [("path", .str i.path), ("wildcard", .bool i.wildcard),
    ("is_static", .bool i.isStatic), ("line", .int i.line)]

/-- A declaration of one file. -/
def FileDeclaration.toJson (d : FileDeclaration) : Json :=
  Json.ofFields [
    ("qualname", .str d.qualname),
    ("name", .str d.name),
    ("kind", .str d.kind.name),
    ("modifiers", d.modifiers.toJson),
    ("superclass", Json.ofOption TypeRef.toJson d.superclass),
    ("interfaces", Json.ofList TypeRef.toJson d.interfaces),
    ("annotations", Json.ofStrs d.annotations),
    ("outer", Json.ofStr? d.outer),
    ("lines", Json.ofPair d.range.startLine d.range.endLine),
    ("bytes", Json.ofPair d.range.startByte d.range.endByte)]

/-- A member of one file. -/
def FileMember.toJson (m : FileMember) : Json :=
  Json.ofFields [
    ("decl_index", Json.ofNat m.declIndex),
    ("kind", .str m.kind.name),
    ("name", .str m.name),
    ("ty", Json.ofOption TypeRef.toJson m.type),
    ("modifiers", m.modifiers.toJson),
    ("params", Json.ofList Param.toJson m.params),
    ("throws", Json.ofList TypeRef.toJson m.throws),
    ("annotations", Json.ofStrs m.annotations),
    ("has_body", .bool m.hasBody),
    ("has_initializer", .bool m.hasInitializer),
    ("lines", Json.ofPair m.range.startLine m.range.endLine),
    ("bytes", Json.ofPair m.range.startByte m.range.endByte)]

/-- The start of a chain. -/
def ChainRoot.toJson : ChainRoot → Json
  | .typed t => Json.ofFields [("typed", t.toJson)]
  | .implicit => .str "implicit"
  | .this => .str "this"

/-- A step of a chain. -/
def ChainStep.toJson : ChainStep → Json
  | .field name => Json.ofFields [("field", Json.ofFields [("name", .str name)])]
  | .call name args =>
    Json.ofFields [("call", Json.ofFields [("name", .str name), ("args", .int args)])]
  | .lambdaParam index arity =>
    Json.ofFields [("lambda_param",
      Json.ofFields [("index", Json.ofNat index), ("arity", Json.ofNat arity)])]

/-- A chain. -/
def ReceiverChain.toJson (c : ReceiverChain) : Json :=
  Json.ofFields [("root", c.root.toJson), ("steps", Json.ofList ChainStep.toJson c.steps)]

/-- A reference of one file. -/
def FileReference.toJson (r : FileReference) : Json :=
  Json.ofFields [
    ("kind", .str r.kind.name),
    ("name", .str r.name),
    ("arg_count", Json.ofOption .int r.argCount),
    ("receiver", .str r.receiver.name),
    ("receiver_type", Json.ofOption TypeRef.toJson r.receiverType),
    ("receiver_chain", Json.ofOption ReceiverChain.toJson r.receiverChain),
    ("caller_class", Json.ofStr? r.callerClass),
    ("line", .int r.line),
    ("bytes", Json.ofPair r.startByte r.endByte),
    ("call_text", Json.ofStr? r.callText)]

/-- All that is taken from one file. -/
def FileSymbols.toJson (f : FileSymbols) : Json :=
  Json.ofFields [
    ("package", .str f.package),
    ("imports", Json.ofList Import.toJson f.imports),
    ("wildcard_imports", Json.ofStrs f.wildcardImports),
    ("declarations", Json.ofList FileDeclaration.toJson f.declarations),
    ("members", Json.ofList FileMember.toJson f.members),
    ("references", Json.ofList FileReference.toJson f.references)]

/-! ## Reports -/

/-- A place in a file. -/
def Span.toJson (s : Span) : Json :=
  Json.ofFields [("file", .str s.file), ("start_line", .int s.startLine),
    ("end_line", .int s.endLine)]

/-- A field. -/
def FieldInfo.toJson (f : FieldInfo) : Json :=
  Json.ofPresent [
    ("name", some (.str f.name)),
    ("type", some (.str f.type)),
    ("modifiers", some f.modifiers.toJson),
    ("annotations", some (Json.ofStrs f.annotations)),
    ("has_initializer", some (.bool f.hasInitializer)),
    ("span", f.span.map Span.toJson)]

/-- A parameter. -/
def ParamInfo.toJson (p : ParamInfo) : Json :=
  Json.ofFields [("name", .str p.name), ("type", .str p.type)]

/-- A method or constructor. -/
def MethodInfo.toJson (m : MethodInfo) : Json :=
  Json.ofPresent [
    ("name", some (.str m.name)),
    ("return_type", some (.str m.returnType)),
    ("parameters", some (Json.ofList ParamInfo.toJson m.parameters)),
    ("modifiers", some m.modifiers.toJson),
    ("exceptions", some (Json.ofStrs m.exceptions)),
    ("annotations", some (Json.ofStrs m.annotations)),
    ("is_constructor", some (.bool m.isConstructor)),
    ("has_body", some (.bool m.hasBody)),
    ("span", m.span.map Span.toJson)]

/-- A type. -/
def TypeInfo.toJson (t : TypeInfo) : Json :=
  Json.ofPresent [
    ("name", some (.str t.name)),
    ("simple_name", some (.str t.simpleName)),
    ("package", some (.str t.package)),
    ("type", some (.str t.kind.name)),
    ("modifiers", some t.modifiers.toJson),
    ("super_class", some (.str t.superClass)),
    ("interfaces", some (Json.ofStrs t.interfaces)),
    ("fields", some (Json.ofList FieldInfo.toJson t.fields)),
    ("methods", some (Json.ofList MethodInfo.toJson t.methods)),
    ("constructors", some (Json.ofList MethodInfo.toJson t.constructors)),
    ("inner_classes", some (Json.ofStrs t.innerClasses)),
    ("annotations", some (Json.ofStrs t.annotations)),
    ("file", t.file.map .str),
    ("source", some (.str t.source.name))]

/-- A compiled type. -/
def ArtifactInfo.toJson (a : ArtifactInfo) : Json :=
  Json.ofFields [
    ("qualname", .str a.qualname),
    ("type", .str a.kind.name),
    ("modifiers", a.modifiers.toJson),
    ("super_class", Json.ofStr? a.superClass),
    ("interfaces", Json.ofStrs a.interfaces),
    ("fields", Json.ofList FieldInfo.toJson a.fields),
    ("methods", Json.ofList MethodInfo.toJson a.methods),
    ("constructors", Json.ofList MethodInfo.toJson a.constructors),
    ("inner_classes", Json.ofStrs a.innerClasses),
    ("annotations", Json.ofStrs a.annotations),
    ("location", .str a.location)]

/-- The callers of one method. -/
def OverloadCallers.toJson (o : OverloadCallers) : Json :=
  Json.ofFields [("signature", .str o.signature), ("callers", Json.ofStrs o.callers)]

/-- The callers in one class. -/
def ClassCallers.toJson (c : ClassCallers) : Json :=
  Json.ofPresent [
    ("class", some (.str c.name)),
    ("method_found", some (.bool c.methodFound)),
    ("overloads", some (Json.ofList OverloadCallers.toJson c.overloads)),
    ("note", c.note.map .str)]

/-- The callers in all classes. -/
def CallReport.toJson (r : CallReport) : Json :=
  Json.ofFields [
    ("input", .str r.input),
    ("method", .str r.method),
    ("matches", Json.ofStrs r.matched),
    ("classes", Json.ofList ClassCallers.toJson r.classes),
    ("found_any_method", .bool r.foundAnyMethod),
    ("elapsed_ms", .int r.elapsedMs)]

/-- A line around a diagnostic. -/
def ContextLine.toJson (c : ContextLine) : Json :=
  Json.ofFields [("line", .int c.line), ("text", .str c.text), ("marked", .bool c.marked)]

/-- An error with its lines. -/
def Diagnostic.toJson (d : Diagnostic) : Json :=
  Json.ofFields [
    ("severity", .str d.severity.name),
    ("line", .int d.line),
    ("message", .str d.message),
    ("context", Json.ofList ContextLine.toJson d.context)]

/-- What a check found; how long it took is not told. -/
def CheckReport.toJson (r : CheckReport) : Json :=
  Json.ofPresent [
    ("class", some (.str r.name)),
    ("file_name", some (.str r.fileName)),
    ("path", some (.str r.path)),
    ("state", some (.str r.state.name)),
    ("errors", some (Json.ofList Diagnostic.toJson r.errors)),
    ("warning_count", some (.int r.warningCount)),
    ("info_count", some (.int r.infoCount)),
    ("notes", some (Json.ofStrs r.notes)),
    ("caveat", r.caveat.map .str),
    ("polls", some (.int r.polls)),
    ("elapsed_ms", some (.int 0))]

/-- A declaration in a listing. -/
def DeclarationSummary.toJson (d : DeclarationSummary) : Json :=
  Json.ofFields [("name", .str d.name), ("package", .str d.package), ("type", .str d.kind.name),
    ("file", .str d.file)]

/-- What a run over all files did. -/
def IndexStats.toJson (s : IndexStats) : Json :=
  Json.ofFields [
    ("scanned", Json.ofNat s.scanned),
    ("indexed", Json.ofNat s.indexed),
    ("skipped", Json.ofNat s.skipped),
    ("deleted", Json.ofNat s.deleted),
    ("errors", Json.ofNat s.errors),
    ("declarations", Json.ofNat s.declarations),
    ("members", Json.ofNat s.members),
    ("references", Json.ofNat s.references)]

/-- What a run over some files did. -/
def SyncStats.toJson (s : SyncStats) : Json :=
  Json.ofFields [
    ("indexed", Json.ofNat s.indexed),
    ("deleted", Json.ofNat s.deleted),
    ("skipped", Json.ofNat s.skipped),
    ("errors", Json.ofNat s.errors),
    ("declarations", Json.ofNat s.declarations),
    ("references", Json.ofNat s.references)]

/-- How much of one file went into the index. -/
def FileCounts.toJson (c : FileCounts) : Json :=
  .arr [Json.ofNat c.declarations, Json.ofNat c.members, Json.ofNat c.references]

end JavaAtlas
