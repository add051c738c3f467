import JavaAtlas.Json.Parser
import JavaAtlas.Request.Dispatch

namespace JavaAtlas.Request

/-! # Single requests -/

/-- A value given as text: JSON, or else the text itself. -/
def looseValue (text : String) : Json :=
  match Json.parse text with
  | .ok value => value
  | .error _ => .str text

/-- Opens a project, waits until it is indexed and answers one request. -/
def call (disk : Disk) (config : Config) (root indexPath : String) (options : ProjectOptions)
    (method params id : String) : Except Failure Json := do
  let params ← (Json.parse params).mapError fun e =>
    .while "parse params JSON" (.because e.message)
  let service ← Service.openingReady disk config root indexPath options
  return (Message.handle { id := looseValue id, method, params } service).1

end JavaAtlas.Request
