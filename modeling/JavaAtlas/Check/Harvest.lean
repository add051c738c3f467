import JavaAtlas.Failure
import JavaAtlas.Text.Excerpt

namespace JavaAtlas

/-! # Errors with the lines around them

The errors among the diagnostics of a file are told with the lines around them. If there are none,
the text is searched for syntax errors in their place.
-/

/-- What the diagnostics of a file come to. -/
structure Harvest where
  errors : List Diagnostic
  warnings : Nat
  infos : Nat
  /-- How the errors came about. -/
  notes : List String
deriving DecidableEq, Inhabited, Repr

namespace Harvest

/-- The markers of a severity. -/
def ofSeverity (severity : Severity) (markers : List Marker) : List Marker :=
  markers.filter (·.severity == severity)

/-- The error markers to tell, and what there is to note: those that are given, or those that a
search for syntax errors finds. -/
def sources (markers : List Marker) (search : Except Failure (List Marker)) :
    List Marker × List String :=
  let errors := ofSeverity .error markers
  if !errors.isEmpty then (errors, [])
  else
    match search with
    | .ok found =>
      (ofSeverity .error found,
        [s!"no error markers; structural parse scan found {found.length}"])
    | .error e => ([], [s!"structural parse scan failed: {e.text}"])

/-- Line and cleaned message of a marker. -/
def key (m : Marker) : Int × String := (m.line, cleanMessage m.message)

/-- An error with the lines around it. -/
def diagnostic (text : String) (line : Int) (message : String) : Diagnostic :=
  { severity := .error
    line
    message
    context := contextWindow text line contextRadius }

/-- The errors of a file: each line and message once, by line. -/
def errorsIn (text : String) (markers : List Marker) : List Diagnostic :=
  let distinct := (markers.map key).eraseDups
  (distinct.map fun (line, message) => diagnostic text line message).mergeSort
    fun a b => a.line ≤ b.line

end Harvest

/-- What the diagnostics of a file come to, given its text and the syntax errors in it, as far as
they can be had. -/
def harvest (markers : List Marker) (search : Except Failure (List Marker))
    (text : Except Failure String) : Harvest :=
  let (errors, searchNotes) := Harvest.sources markers search
  let (text, textNotes) := match text with
    | .ok text => (text, [])
    | .error e => ("", [s!"source text unavailable: {e.text}"])
  { errors := Harvest.errorsIn text errors
    warnings := (Harvest.ofSeverity .warning markers).length
    infos := (Harvest.ofSeverity .info markers).length
    notes := searchNotes ++ textNotes }

end JavaAtlas
