import JavaAtlas.Model.Encode
import JavaAtlas.Proofs.Outcome

namespace JavaAtlas

/-! # Reading back what is written as JSON

What does not fit into one column is written as JSON. It is read back strictly: a part that is
missing is an error, unless it may be left out, and so is a name or a form that is not known.

* `TypeRef.read?`, `Param.read?`, `Modifiers.read?`: types, parameters, sets of modifiers;
* `ReceiverChain.read?`: chains, whose starts and steps are told apart by their only key;
* `read?_toJson` for each of them: what has been written is read back.
-/

namespace Json

/-- A list, each item of which is read. -/
def list? {α : Type} (read : Json → Option α) (j : Json) : Option (List α) := do
  (← j.arr?).mapM read

/-- What may be left out: none if it is not there, or null. -/
def optional? {α : Type} (read : Json → Option α) : Option Json → Option (Option α)
  | none | some .null => some none
  | some j => (read j).map some

/-- If each item is read back, with some loss perhaps, so is the whole list. -/
theorem mapM_map_eq_some {α β γ : Type} {read : β → Option γ} {write : α → β} {g : α → γ}
    {xs : List α} (h : ∀ x ∈ xs, read (write x) = some (g x)) :
    (xs.map write).mapM read = some (xs.map g) := by
  induction xs with
  | nil => rfl
  | cons x xs ih =>
    rw [List.forall_mem_cons] at h
    rw [List.map_cons, List.mapM_cons, h.1, ih h.2]
    rfl

/-- A list is read back if each of its items is. -/
theorem list?_ofList {α : Type} {read : Json → Option α} {write : α → Json}
    (h : ∀ x, read (write x) = some x) (xs : List α) : list? read (ofList write xs) = some xs :=
  (mapM_map_eq_some fun x _ => h x).trans (congrArg some (List.map_id xs))

/-- A list of texts is read back. -/
theorem list?_ofStrs (xs : List String) : list? str? (ofStrs xs) = some xs := by
  have hread : ∀ s : String, str? (.str s) = some s := fun _ => rfl
  exact list?_ofList hread xs

end Json

/-! ## Types, parameters and modifiers -/

/-- Reads a type reference. Its full name may be left out. -/
def TypeRef.read? (j : Json) : Option TypeRef := do
  let text ← (← j.field? "text").str?
  let resolved ← Json.optional? Json.str? (j.field? "resolved")
  return { text, resolved }

/-- A type reference is read back, with or without its full name. -/
theorem TypeRef.read?_toJson (t : TypeRef) : read? t.toJson = some t := by
  obtain ⟨text, resolved⟩ := t
  cases resolved with
  | none => rfl
  | some name => rfl

/-- Reads a parameter. It takes one argument if nothing else is said. -/
def Param.read? (j : Json) : Option Param := do
  let name ← (← j.field? "name").str?
  let type ← TypeRef.read? (← j.field? "ty")
  let varargs ← match j.field? "varargs" with
    | none => some false
    | some varargs => varargs.bool?
  return { name, type, varargs }

/-- A parameter is read back. -/
theorem Param.read?_toJson (p : Param) : read? p.toJson = some p := by
  have hrun : read? p.toJson = (TypeRef.read? p.type.toJson).bind fun type =>
      some { name := p.name, type, varargs := p.varargs } := rfl
  -- of the three parts only the type is read by a reader of its own
  rw [hrun, TypeRef.read?_toJson]
  rfl

/-- Whether a list of modifiers stands for itself: in their order, each once. -/
def Modifiers.IsSet (m : Modifiers) : Prop := Modifiers.ofList m.toList = m

/-- Reads a modifier. -/
def Modifier.read? (j : Json) : Option Modifier := do
  Modifier.parse? (← j.str?)

/-- Reads a set of modifiers. -/
def Modifiers.read? (j : Json) : Option Modifiers := do
  return .ofList (← j.list? Modifier.read?)

/-- A modifier is read back from its name. -/
theorem Modifier.read?_name (m : Modifier) : read? (.str m.name) = some m := by
  cases m <;> rfl

/-- A set of modifiers is read back if it is in order, since reading puts it in order. -/
theorem Modifiers.read?_toJson {m : Modifiers} (h : m.IsSet) : read? m.toJson = some m := by
  have hnames : m.toJson = Json.ofList (fun modifier => .str modifier.name) m.toList :=
    congrArg Json.arr (List.map_map ..)
  -- the names are read one by one, and then put in order
  rw [read?, hnames, Json.list?_ofList Modifier.read?_name]
  exact congrArg some h

/-! ## Chains -/

/-- Reads the start of a chain: a name, or an object with one key. -/
def ChainRoot.read? : Json → Option ChainRoot
  | .str "implicit" => some .implicit
  | .str "this" => some .this
  | .obj [("typed", type)] => (TypeRef.read? type).map .typed
  | _ => none

/-- The start of a chain is read back. -/
theorem ChainRoot.read?_toJson (root : ChainRoot) : read? root.toJson = some root := by
  cases root with
  | typed type =>
    have hrun : read? (typed type).toJson = (TypeRef.read? type.toJson).map .typed := rfl
    rw [hrun, TypeRef.read?_toJson]
    rfl
  | implicit => rfl
  | this => rfl

/-- Reads a step of a chain: an object with one key. -/
def ChainStep.read? : Json → Option ChainStep
  | .obj [("field", step)] => do
    let name ← (← step.field? "name").str?
    return .field name
  | .obj [("call", step)] => do
    let name ← (← step.field? "name").str?
    let args ← (← step.field? "args").int?
    return .call name args
  | .obj [("lambda_param", step)] => do
    let index ← (← step.field? "index").nat?
    let arity ← (← step.field? "arity").nat?
    return .lambdaParam index arity
  | _ => none

/-- A step of a chain is read back. -/
theorem ChainStep.read?_toJson (step : ChainStep) : read? step.toJson = some step := by
  cases step with
  | field name => rfl
  | call name args => rfl
  | lambdaParam index arity => rfl

/-- Reads a chain. -/
def ReceiverChain.read? (j : Json) : Option ReceiverChain := do
  let root ← ChainRoot.read? (← j.field? "root")
  let steps ← (← j.field? "steps").list? ChainStep.read?
  return { root, steps }

/-- A chain is read back, start and steps. -/
theorem ReceiverChain.read?_toJson (c : ReceiverChain) : read? c.toJson = some c := by
  have hrun : read? c.toJson = (ChainRoot.read? c.root.toJson).bind fun root =>
      (Json.list? ChainStep.read? (Json.ofList ChainStep.toJson c.steps)).bind fun steps =>
        some { root, steps } := rfl
  -- both parts are there, and each is read back
  rw [hrun, ChainRoot.read?_toJson, Json.list?_ofList ChainStep.read?_toJson]
  rfl

end JavaAtlas
