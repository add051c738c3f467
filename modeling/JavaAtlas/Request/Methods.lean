import JavaAtlas.Request.Params

namespace JavaAtlas.Request

/-! # Methods -/

/-- What a client can ask for. -/
structure MethodDoc where
  name : String
  summary : String
  keyParams : List String
deriving Inhabited

/-- The name of a class in parameters. -/
def classField : ParamField := { name := "class", aliases := ["name", "input"] }

/-- The form of an answer in parameters. -/
def formatField : ParamField := { name := "format", optional := true }

/-- The parameters of a method; none if it looks at none. -/
def shapeOf? : String → Option ParamShape
  | "list_methods" => some { name := "ListMethodsParams", fields := [formatField] }
  | "resolve" =>
    some { name := "ResolveParams", fields := [{ name := "name", aliases := ["class", "input"] }] }
  | "describe" =>
    some { name := "DescribeParams"
           fields := [classField,
             { formatField with note := some "json (default), text or simple." }] }
  | "callers" =>
    some { name := "CallersParams"
           fields := [classField, { name := "method", aliases := ["method_name"] }, formatField] }
  | "check_errors" =>
    some { name := "CheckErrorsParams"
           fields := [classField, formatField,
             { name := "timeout_ms", type := .count, optional := true
               note := some "Overrides the configured stability timeout." }] }
  | "edit" =>
    some { name := "EditParams"
           fields := [
             { name := "path", note := some "Repo-relative path of an indexed source file." },
             { name := "text" }] }
  | _ => none

/-- The description of a method's parameters. -/
def paramSchema (method : String) : Json :=
  match shapeOf? method with
  | some shape => shape.schema
  | none => Json.ofFields [("type", .str "object")]

/-- All methods. -/
def methods : List MethodDoc :=
  [ { name := "list_methods"
      summary := "List supported methods with short descriptions."
      keyParams := ["format (details|names)"] },
    { name := "resolve"
      summary := "Resolve a qualified name, simple name or file name to declarations."
      keyParams := ["name"] },
    { name := "describe"
      summary := "Describe a type from source, or from compiled classes for qualified names."
      keyParams := ["class", "format (json|text|simple)"] },
    { name := "callers"
      summary := "List the call sites of every overload of a method."
      keyParams := ["class", "method", "format (json|text)"] },
    { name := "check_errors"
      summary := "Open a unit, wait for analysis to settle and report its errors."
      keyParams := ["class", "format (json|text)", "timeout_ms"] },
    { name := "project_info"
      summary := "Project name, root, index state and counts."
      keyParams := [] },
    { name := "list_declarations"
      summary := "Every project declaration with package and kind."
      keyParams := [] },
    { name := "status"
      summary := "Server uptime, index state and open units."
      keyParams := [] },
    { name := "reindex"
      summary := "Queue a full reindex."
      keyParams := [] },
    { name := "edit"
      summary := "Replace a unit's text with an unsaved buffer."
      keyParams := ["path", "text"] }]

/-- The names of all methods. -/
def methodNames : Json := Json.ofStrs (methods.map (·.name))

/-- All methods with their descriptions. -/
def methodDetails : Json :=
  Json.ofFields [
    ("methods", .arr (methods.map fun m => Json.ofFields [
      ("name", .str m.name),
      ("summary", .str m.summary),
      ("key_params", Json.ofStrs m.keyParams),
      ("params", paramSchema m.name)])),
    ("names", methodNames)]

/-- The form of an answer. -/
inductive Format where
  | json
  | text
  | simple
deriving DecidableEq, Inhabited, Repr

/-- Small letters for the capital ones from A to Z. -/
def lowerAscii (s : String) : String := String.ofList (s.toList.map Char.toLower)

/-- Reads the name of a form; an unknown name is given back. -/
def Format.parse (name : Option String) : Except String Format :=
  match lowerAscii (trim (name.getD "json")) with
  | "" | "json" => .ok .json
  | "text" => .ok .text
  | "simple" => .ok .simple
  | other => .error other

end JavaAtlas.Request
