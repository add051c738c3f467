import JavaAtlas.Java.Diagnostics
import JavaAtlas.Java.Grammar
import JavaAtlas.Grammar.Automaton

namespace JavaAtlas.Java

/-! # Source texts

The parser for the language, and what is asked of a source text as a whole.
-/

/-- The automaton of the language. It is built when it is first used. -/
def automaton : Thunk Grammar.Automaton := .mk fun _ => grammar.automaton

/-- The syntax tree of a source text. -/
def parse (source : String) : Tree := Parse.parse automaton.get source

/-- All that a source text declares and refers to. -/
def extractText (source : String) : FileSymbols := extract source (parse source)

/-- All diagnostics of a source text. -/
def analyzeText (source : String) : List Marker := analyze source (parse source)

/-- The syntax errors of a source text. -/
def syntaxErrorsOf (source : String) : List Marker := syntaxErrors source (parse source)

end JavaAtlas.Java
