import JavaAtlas.Model.Reports

namespace JavaAtlas.Report

/-! # Reports as text

Every report is a list of lines, each with a line end.
-/

/-- Lines with their line ends. -/
def ofLines (lines : List String) : String := String.join (lines.map (· ++ "\n"))

/-- Items with something between them, or a word if there are none. -/
def listOrNone (items : List String) : String :=
  if items.isEmpty then "none" else ", ".intercalate items

/-- Modifiers with a space behind them, if there are any. -/
def modifierLead (m : Modifiers) : String :=
  if m.toList.isEmpty then "" else m.text ++ " "

/-- A field on one line. -/
def fieldLine (f : FieldInfo) : String :=
  s!"{modifierLead f.modifiers}{f.type} {f.name}"

/-- A method or constructor on one line. -/
def methodLine (m : MethodInfo) : String :=
  let params := ", ".intercalate (m.parameters.map fun p => s!"{p.type} {p.name}")
  let result := if m.isConstructor then "" else m.returnType ++ " "
  let throws := if m.exceptions.isEmpty then "" else " throws " ++ ", ".intercalate m.exceptions
  s!"{modifierLead m.modifiers}{result}{m.name}({params}){throws}"

/-- A section of a report on a type: an empty line, a title with a count, and the lines. -/
def sectionLines (title : String) (lines : List String) : List String :=
  if lines.isEmpty then []
  else "" :: s!"{title} ({lines.length}):" :: lines.map ("  " ++ ·)

/-- All that is told about a type. -/
def ofType (t : TypeInfo) : String :=
  ofLines (
    [s!"Class report: {t.name}",
      String.ofList (List.replicate 50 '='),
      s!"Package: {t.package}",
      s!"Kind: {t.kind.name}",
      s!"Modifiers: {t.modifiers.text}",
      "Superclass: " ++ (if t.superClass = "" then "none" else t.superClass),
      s!"Interfaces: {listOrNone t.interfaces}"] ++
    (if t.annotations.isEmpty then [] else ["Annotations: @" ++ " @".intercalate t.annotations]) ++
    [s!"Source: {t.source.name}"] ++
    t.file.toList.map ("File: " ++ ·) ++
    sectionLines "Fields" (t.fields.map fieldLine) ++
    sectionLines "Constructors" (t.constructors.map methodLine) ++
    sectionLines "Methods" (t.methods.map methodLine) ++
    sectionLines "Inner classes" t.innerClasses)

/-- The members of a type, one on a line. -/
def ofTypeSimply (t : TypeInfo) : String :=
  ofLines (t.name :: t.fields.map (fun f => s!"- {fieldLine f};") ++
    (t.constructors ++ t.methods).map (fun m => s!"- {methodLine m};"))

/-- The mark of call sites whose receiver is not known. -/
def unresolvedTag : String := "(unresolved receiver)"

/-- A call site on one line. -/
def callSiteLine (s : CallSite) : String :=
  let place := match s.member with
    | some member =>
      s!"{s.caller}.{member} ({s.file}:{s.line})" ++
        match s.callText with
        | some text => " -> " ++ text
        | none => ""
    | none => s!"{s.caller} ({s.file}:{s.line}) -> non-member reference"
  if s.unresolvedReceiver then place ++ " " ++ unresolvedTag else place

/-- The callers of one method, the number of which is `index`. -/
def overloadLines (o : OverloadCallers) (index : Nat) : List String :=
  s!"[overload {index + 1}] {o.signature}" ::
    (if o.callers.isEmpty then ["  no callers found"]
    else s!"  {o.callers.length} caller(s):" ::
      o.callers.zipIdx.map fun (c, i) => s!"  {i + 1}. {c}")

/-- The callers in one class. -/
def classLines (method : String) (c : ClassCallers) : List String :=
  "" :: s!"[class {c.name}]" ::
    match c.note with
    | some note => [note]
    | none =>
      if c.methodFound then
        c.overloads.zipIdx.flatMap fun (o, i) => overloadLines o i
      else [s!"method {method} not found in {c.name}"]

/-- The callers of a method. -/
def ofCalls (r : CallReport) : String :=
  ofLines (
    [s!"Call chain for {r.input}.{r.method}"] ++
    (if r.matched.length > 1 then
      s!"Matched {r.matched.length} classes:" :: r.matched.map ("  - " ++ ·)
    else []) ++
    [String.ofList (List.replicate 25 '=')] ++
    r.classes.flatMap (classLines r.method) ++
    (if r.foundAnyMethod then []
    else ["", "Hint: check the method name; method names are case-sensitive."]) ++
    ["", s!"Finished in {r.elapsedMs} ms"])

/-- An error with the lines around it. -/
def diagnosticLines (d : Diagnostic) : List String :=
  s!"  - line {d.line}: {d.message}" :: d.context.map fun c =>
    "    " ++ (if c.marked then ">>> " else "    ") ++ s!"{c.line}: {c.text}"

/-- What a check found. -/
def ofCheck (r : CheckReport) : String :=
  ofLines (
    [s!"Diagnostics for {r.name}",
      s!"File: {r.fileName}",
      s!"Path: {r.path}",
      s!"State: {r.state.name}",
      ""] ++
    (if r.errors.isEmpty ∧ r.warningCount = 0 then ["No errors or warnings found."]
    else
      (if r.errors.isEmpty then []
      else s!"{r.errors.length} error(s):" :: r.errors.flatMap diagnosticLines) ++
      (if r.warningCount > 0 then [s!"{r.warningCount} warning(s)"] else [])) ++
    (if r.infoCount > 0 then [s!"{r.infoCount} info message(s)"] else []) ++
    (if r.notes.isEmpty then [] else "" :: "Notes:" :: r.notes.map ("  - " ++ ·)) ++
    (match r.caveat with
    | some caveat => ["", s!"Caveat: {caveat}"]
    | none => []))

end JavaAtlas.Report
