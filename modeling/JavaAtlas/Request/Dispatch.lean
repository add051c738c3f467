import JavaAtlas.Report.Text
import JavaAtlas.Request.Methods
import JavaAtlas.Service

namespace JavaAtlas.Request

/-! # Answering requests -/

/-- A failure of a query as such. -/
def orThrow {α : Type} (result : Except QueryError α) : Query Service α := ExceptT.mk (pure result)

/-- Reads the parameters of a method; null stands for none. -/
def readParams (shape : ParamShape) (params : Json) : Except QueryError Values :=
  let params := match params with
    | .null => .obj []
    | params => params
  (shape.read params).mapError fun e => .invalidRequest s!"invalid params: {e.text}"

/-- Reads the form of an answer among the parameters. -/
def readFormat (values : Values) : Except QueryError Format :=
  (Format.parse (Values.text? values "format")).mapError fun other =>
    .invalidRequest s!"unknown format '{other}' (expected json, text or simple)"

/-- The methods, by name only or with all there is to say. -/
def listMethods (params : Json) : Except QueryError Json := do
  let values ← readParams { name := "ListMethodsParams", fields := [formatField] } params
  let format := lowerAscii (trim ((Values.text? values "format").getD "details"))
  return if ["names", "name", "list"].contains format then methodNames else methodDetails

/-- A resolution by its declarations. -/
def resolutionJson (input : String) (found : List Declaration) : Json :=
  let kind := match found with
    | [] => "not_found"
    | [_] => "single"
    | _ => "ambiguous"
  Json.ofFields [
    ("input", .str input),
    ("resolution", .str kind),
    ("matches", Json.ofList Declaration.toJson found)]

/-- The declarations for which a name may stand. -/
def resolve (values : Values) : Query Service Json := do
  let name := Values.text values "name"
  let view ← Service.theView
  return resolutionJson name (← orThrow ((view.resolveAll name).mapError .internal))

/-- A description of a type in one of the forms. -/
def typeInfoAs (info : TypeInfo) : Format → Json
  | .json => info.toJson
  | .text => .str (Report.ofType info)
  | .simple => .str (Report.ofTypeSimply info)

/-- A report of callers in one of the forms. -/
def callReportAs (report : CallReport) : Format → Json
  | .json => report.toJson
  | .text | .simple => .str (Report.ofCalls report)

/-- A report of a check in one of the forms. -/
def checkReportAs (report : CheckReport) : Format → Json
  | .json => report.toJson
  | .text | .simple => .str (Report.ofCheck report)

/-- Describes a type. -/
def describe (values : Values) : Query Service Json := do
  let format ← orThrow (readFormat values)
  return typeInfoAs (← Service.host.describe (Values.text values "class")) format

/-- Lists callers. -/
def callers (values : Values) : Query Service Json := do
  let format ← orThrow (readFormat values)
  let report ← Service.host.callers (Values.text values "class") (Values.text values "method")
  return callReportAs report format

/-- Checks a source file. -/
def checkErrors (values : Values) : Query Service Json := do
  let format ← orThrow (readFormat values)
  let options := Service.checkOptions (← get).config
  let options := match Values.count? values "timeout_ms" with
    | some timeout => { options with timeout }
    | none => options
  return checkReportAs (← Service.host.check options (Values.text values "class")) format

/-- Tells about the project. -/
def projectInfo : Query Service Json := do
  let project ← Service.theProject
  return (project.info (← Service.theView)).toJson

/-- Lists all declarations of the project. -/
def listDeclarations : Query Service Json := do
  let view ← Service.theView
  let found ← orThrow ((view.listDeclarations .project).mapError .internal)
  return Json.ofFields [
    ("count", Json.ofNat found.length),
    ("declarations", Json.ofList DeclarationSummary.toJson found)]

/-- Tells how the service is doing; for how long it has been running is not told. -/
def status : Query Service Json := do
  let project ← Service.theProject
  return Json.ofFields [
    ("status", .str "running"),
    ("project", .str project.name),
    ("index_state", .str project.engine.indexState.name),
    ("open_units", Json.ofStrs project.engine.openPaths),
    ("uptime_ms", .int 0)]

/-- Asks the worker for something. -/
def queued (ask : Engine → Engine × Except Failure Unit) (more : List (String × Json)) :
    Query Service Json := do
  let _ ← Service.theProject
  match ← Service.onEngine ask with
  | .ok () => return Json.ofFields (("queued", .bool true) :: more)
  | .error e => throw (.internal e)

/-- Leaves an edited text. -/
def edit (values : Values) : Query Service Json :=
  let path := Values.text values "path"
  queued (·.edit path (Values.text values "text")) [("path", .str path)]

/-- What a method does with its parameters. -/
def withParams (method : String) (params : Json) (act : Values → Query Service Json) :
    Query Service Json := do
  match shapeOf? method with
  | some shape => act (← orThrow (readParams shape params))
  | none => act []

/-- Answers a request. -/
def answer (method : String) (params : Json) : Query Service Json :=
  match method with
  | "list_methods" => orThrow (listMethods params)
  | "resolve" => withParams method params resolve
  | "describe" => withParams method params describe
  | "callers" => withParams method params callers
  | "check_errors" => withParams method params checkErrors
  | "project_info" => projectInfo
  | "list_declarations" => listDeclarations
  | "status" => status
  | "reindex" => queued (·.requestReindex) []
  | "edit" => withParams method params edit
  | other => throw (.invalidRequest s!"unknown method '{other}'; see list_methods")

/-! ## Requests with an identity -/

/-- A request. -/
structure Message where
  id : Json
  method : String
  params : Json

/-- The answer to a request with its identity. -/
def respond (id : Json) : Except QueryError Json → Json
  | .ok result => Json.ofFields [("id", id), ("result", result)]
  | .error e =>
    Json.ofFields [
      ("id", id),
      ("error", Json.ofPresent [
        ("message", some (.str e.message)),
        ("code", some (.str e.code)),
        ("details", e.details)])]

/-- Answers a request and gives the service as it is afterwards. -/
def Message.handle (r : Message) (s : Service) : Json × Service :=
  let (result, s) := (answer r.method r.params).run.run s
  (respond r.id result, s)

end JavaAtlas.Request
