import JavaAtlas.Index.View

namespace JavaAtlas

/-! # Types by the names that files give them

A type that could not be told from its file alone is looked up in the index: under its own name if
that has dots, in the package of the file, then in what the file imports as a whole. From this
follow the supertypes of a type, near and far.
-/

namespace IndexView

/-- Whether a declaration with a full name is in the index. -/
def hasQualname (v : IndexView) (qualname : String) : Bool :=
  v.index.declarations.any (·.symbol.qualname == qualname)

/-- The full name, without type arguments, of a type written in a file with a package and with
imports of whole packages. -/
def typeIn (v : IndexView) (t : TypeRef) (package : String) (wildcards : List String) :
    Option String :=
  match t.resolved with
  | some resolved => some (Java.erase resolved)
  | none =>
    let base := Java.erase t.text
    if base.isEmpty || Java.isPrimitive base then none
    else
      let own := if base.toList.contains '.' then [base] else []
      let near := Java.qualify package base
      let wide := wildcards.map fun w => w ++ "." ++ base
      (own ++ near :: wide).find? v.hasQualname

/-- The full name of a type as `typeIn` finds it, with its type arguments as they are written. -/
def typeTextIn (v : IndexView) (t : TypeRef) (package : String) (wildcards : List String) :
    Option String :=
  match t.resolved with
  | some resolved => some resolved
  | none =>
    (v.typeIn t package wildcards).map fun base =>
      base ++ String.ofList (t.text.toList.dropWhile (· != '<'))

/-! ## Supertypes -/

/-- The supertypes that the declarations with a full name write. -/
def supertypes (v : IndexView) (qualname : String) : Except Failure (List String) := do
  let rows := v.declarationRows.filter (·.1.symbol.qualname == qualname)
  let found ← rows.mapM fun (d, f) => do
    let declaration ← v.readDeclaration (d, f)
    let written := declaration.superclass.toList ++ declaration.interfaces
    return written.filterMap fun t => v.typeIn t declaration.package f.wildcardImports
  return found.flatten

/-- The names reached from those in the queue by going to supertypes, together with those seen.
Every supertype that is written in the index is put in the queue at most once, so `fuel` need not
be more than their number and that of the first names. -/
def reach (v : IndexView) : Nat → List String → List String → Except Failure (List String)
  | _, [], seen => .ok seen
  | 0, _ :: _, seen => .ok seen
  | fuel + 1, name :: queue, seen =>
    if seen.contains name then v.reach fuel queue seen
    else do v.reach fuel (queue ++ (← v.supertypes name)) (name :: seen)

/-- The number of supertypes written in the index. -/
def supertypeCount (v : IndexView) : Nat :=
  (v.index.declarations.flatMap fun d =>
    d.symbol.superclass.toList ++ d.symbol.interfaces).length

/-- A type and all its supertypes. -/
def allSupertypes (v : IndexView) (qualname : String) : Except Failure (List String) :=
  v.reach (v.supertypeCount + 1) [qualname] []

end IndexView

/-- Supertypes that have been found already. -/
abbrev SupertypeCache := List (String × List String)

/-- A search that remembers the supertypes it has found, also when it fails. -/
abbrev Search := ExceptT Failure (StateM SupertypeCache)

namespace IndexView

/-- A type and all its supertypes, found once. -/
def ancestors (v : IndexView) (qualname : String) : Search (List String) := do
  match (← get).lookup qualname with
  | some found => return found
  | none =>
    match v.allSupertypes qualname with
    | .ok found =>
      modify ((qualname, found) :: ·)
      return found
    | .error e => throw e

/-! ## Types around -/

/-- The type in which a type is declared. -/
def outerOf? (v : IndexView) (qualname : String) : Option String :=
  (v.index.declarations.find? (·.symbol.qualname == qualname)).bind (·.symbol.outer)

/-- Goes on outward from a type, unless it leads to one that has been met. -/
def outward (v : IndexView) : Nat → String → List String → List String
  | 0, _, met => met
  | fuel + 1, qualname, met =>
    match v.outerOf? qualname with
    | none => met
    | some outer => if met.contains outer then met else v.outward fuel outer (met ++ [outer])

/-- A type and those around it, innermost first. Each of them but the last is declared in the
index, so there are at most one more than declarations. -/
def outerChain (v : IndexView) (qualname : String) : List String :=
  v.outward (v.index.declarations.length + 1) qualname [qualname]

end IndexView

end JavaAtlas
