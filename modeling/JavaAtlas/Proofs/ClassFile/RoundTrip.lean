import Mathlib.Data.Nat.Bitwise
import JavaAtlas.Proofs.ClassFile.Attributes

namespace JavaAtlas.ClassFile

/-! # Reading undoes writing

Every part of a class is read from its bytes, in the order in which the parts stand, and the bytes
of members that are left out are taken too.

* `reads_field`, `reads_method`: members;
* `reads_classFile`, `parse_encode`: a class.
-/

variable {l : Layout}

/-! ## Flags -/

/-- Each flag stands for one bit. -/
theorem hasFlag_two_pow (flags i : Nat) : hasFlag flags (2 ^ i) = flags.testBit i := by
  unfold hasFlag
  rw [Nat.and_two_pow]
  cases flags.testBit i with
  | true => simp
  | false => simp

/-- The flags that an owner has are those of the modifiers with a bit for it, in their order. -/
theorem ownFlags_eq_filterMap (owner : FlagOwner) :
    commonFlags ++ ownFlags owner =
      Modifier.all.filterMap fun m => (modifierBit owner m).map fun i => (2 ^ i, m) := by
  cases owner with
  | ofClass => rfl
  | ofField => rfl
  | ofMethod => rfl

/-- Modifiers that are picked in their order are a set already. -/
theorem ofList_filter_all (p : Modifier → Bool) :
    Modifiers.ofList (Modifier.all.filter p) = ⟨Modifier.all.filter p⟩ := by
  unfold Modifiers.ofList
  congr 1
  apply List.filter_congr
  intro m hm
  simp [List.contains_eq_mem, List.mem_filter, hm]

/-- The modifiers read from the flags are those whose bits are set. -/
theorem modifiersOf_eq_expected (owner : FlagOwner) (flags : UInt16) :
    modifiersOf owner flags.toNat = expectedModifiers owner flags := by
  unfold modifiersOf expectedModifiers
  rw [ownFlags_eq_filterMap, List.filterMap_filterMap, ← ofList_filter_all,
    ← List.filterMap_eq_filter]
  -- both go through all modifiers, so they are compared one by one
  congr 1
  apply List.filterMap_congr
  intro m _
  rw [Option.guard_eq_ite]
  cases modifierBit owner m with
  | none => rfl
  | some i => simp [hasFlag_two_pow]

section Flags

variable {τ : Type} (m : Member τ)

/-- The twelfth bit tells members that the compiler put in. -/
theorem hasFlag_synthetic : hasFlag m.flags.toNat syntheticFlag = m.isSynthetic :=
  hasFlag_two_pow _ 12

/-- The sixth bit tells methods that only forward to another one. -/
theorem hasFlag_bridge : hasFlag m.flags.toNat bridgeFlag = m.isBridge := hasFlag_two_pow _ 6

/-- The seventh bit tells methods that take any number of arguments. -/
theorem hasFlag_varargs : hasFlag m.flags.toNat varargsFlag = m.isVariable := hasFlag_two_pow _ 7

end Flags

/-! ## Members -/

/-- The parts of a member are read, with all that its attributes say. -/
theorem reads_memberParts {τ : Type} {descriptor : τ → String} {m : Member τ}
    (h : m.Fits l descriptor) :
    Reads (memberParts l.pool) m.encode
      (m.flags.toNat, m.name.text, descriptor m.type, MemberAttributes.collect m.attributes) := by
  unfold Member.encode
  simp only [List.append_assoc]
  refine (reads_index _).bind ?_
  refine (reads_index _).bind ((reads_require h.name.utf8_eq).bind_nil ?_)
  refine (reads_index _).bind ((reads_require h.type.utf8_eq).bind_nil ?_)
  refine (reads_u2 h.attributes.count).bind ?_
  exact (reads_memberAttributes h.attributes).bind_last (.pure _)

/-- A field is read, or left out with all its bytes taken. -/
theorem reads_field {m : Member FieldType} (h : m.Fits l (·.descriptor)) (hlegal : m.type.Legal) :
    Reads (field? l.pool) m.encode (expectedField m) := by
  refine (reads_memberParts h).bind_last ?_
  simp only [hasFlag_synthetic, modifiersOf_eq_expected]
  unfold expectedField
  -- the bytes of a field that is left out have all been taken
  cases m.isSynthetic with
  | true => exact .pure none
  | false => exact (reads_require (fieldType_descriptor hlegal)).bind_nil (.pure _)

/-- A parameter without a name is called after its place. -/
theorem nameParams_eq_mapIdx (names : List (Option String)) (types : List String) :
    nameParams names types =
      types.mapIdx fun i type => ((names[i]?.join).getD s!"arg{i}", type) := by
  unfold nameParams
  rw [List.mapIdx_eq_zipIdx_map]

/-- A method is read, or left out with all its bytes taken. -/
theorem reads_method {m : Member MethodType} (h : m.Fits l (·.descriptor))
    (hlegal : m.type.Legal) : Reads (method? l.pool) m.encode (expectedMethod m) := by
  refine (reads_memberParts h).bind_last ?_
  simp only [hasFlag_synthetic, hasFlag_bridge, hasFlag_varargs, modifiersOf_eq_expected,
    nameParams_eq_mapIdx]
  unfold expectedMethod
  -- the same flags leave a method out of what is expected
  split
  · exact .pure none
  · refine (reads_require (methodType_descriptor hlegal)).bind_nil ?_
    simp only [← paramSources_eq hlegal.1]
    exact .pure _

/-! ## Classes -/

/-- A class is read from its bytes, part by part. -/
theorem reads_classFile {c : ClassDescription} (h : c.Fits l) :
    Reads classFile (c.encode l) c.expected := by
  have hmagic : Reads u4 (numberBytes 4 0xCAFEBABE) 0xCAFEBABE := reads_u4 (by decide)
  have hinterfaces := reads_counted h.interfaceCount fun n hn => reads_className (h.interfaces n hn)
  have hfields := reads_counted h.fieldCount fun m hm =>
    reads_field (h.fields m hm).1 (h.fields m hm).2
  have hmethods := reads_counted h.methodCount fun m hm =>
    reads_method (h.methods m hm).1 (h.methods m hm).2
  unfold ClassDescription.encode
  simp only [List.append_assoc]
  -- the parts in the order in which they are read
  refine hmagic.bind ?_
  refine (reads_skip_index _).bind ((reads_skip_index _).bind ((reads_pool h.pool).bind ?_))
  refine (reads_index _).bind ((reads_index _).bind ((reads_optionalIndex _).bind ?_))
  -- names are looked up when all three numbers have been read
  refine (reads_require h.thisClass.className_eq).bind_nil ?_
  refine reads_optional (fun n hn => (h.superClass n hn).lookup) ?_
  refine hinterfaces.bind ?_
  refine hfields.bind ?_
  refine hmethods.bind ?_
  refine (reads_u2 h.attributes.count).bind ((reads_classAttributes h.attributes).bind_last ?_)
  rw [Option.map_map, List.filterMap_map, List.filterMap_map]
  exact .pure _

/-- The bytes of a class are read as what the class declares: members in their order without those
that the compiler put in, types and names as they are written in source, and what the attributes
say. It holds for every constant pool that has the constants. -/
theorem parse_encode {c : ClassDescription} (h : c.Fits l) :
    parse (c.encode l) = .ok c.expected := by
  have hread : classFile.run (c.encode l) = .ok (c.expected, []) := (reads_classFile h).eq_ok
  unfold parse
  rw [hread]
  rfl

/-- A pool whose first constant takes up two numbers. -/
def exampleLayout : Layout :=
  [.other .long ⟨#[0, 0, 0, 0, 0, 0, 0, 7], rfl⟩,
    .utf8 "com/acme/Widget", .classRef 3, .classRef 6, .utf8 "java/lang/Object",
    .utf8 "$assertionsDisabled", .utf8 "Z",
    .utf8 "format", .utf8 "(I[Ljava/lang/String;)V",
    .utf8 "Signature", .utf8 "MethodParameters", .utf8 "values",
    .utf8 "RuntimeVisibleAnnotations", .utf8 "Lcom/acme/Widget$Marked;"]

/-- A field that the compiler put in. -/
def exampleField : Member FieldType :=
  { flags := 0x1018
    name := ⟨7, "$assertionsDisabled"⟩
    typeIndex := 8
    type := .primitive .boolean
    attributes := [] }

/-- A method that takes any number of arguments; its first parameter has no name, and its annotation
holds an annotation in an array. -/
def exampleMethod : Member MethodType :=
  { flags := 0x0081
    name := ⟨9, "format"⟩
    typeIndex := 10
    type := ⟨[.primitive .int, .array (.reference "java/lang/String")], none⟩
    attributes :=
      [⟨11, .unknown "Signature" [0, 10]⟩,
        ⟨14, .annotations [⟨15, .reference "com/acme/Widget$Marked",
          [(13, .array [.nested 15 [(13, .constant .string 13)], .enumConstant 15 13])]⟩]⟩,
        ⟨12, .methodParameters [(none, 0), (some ⟨13, "values"⟩, 0)]⟩] }

/-- A class with these members. -/
def exampleClass : ClassDescription :=
  { minorVersion := 0
    majorVersion := 61
    flags := 0x0021
    thisClass := ⟨4, "com/acme/Widget"⟩
    superClass := some ⟨5, "java/lang/Object"⟩
    interfaces := []
    fields := [exampleField]
    methods := [exampleMethod]
    attributes := [] }

/-- The field has its name and its type in the pool. -/
theorem exampleField_fits : exampleField.Fits exampleLayout (·.descriptor) where
  name := rfl
  type := by decide +kernel
  attributes := ⟨by decide, by simp [exampleField], .nil⟩

/-- The attributes of the method are known or passed over, each of the known ones once. -/
theorem exampleAttributes_fit : Attribute.AllFit exampleLayout exampleMethod.attributes where
  count := by decide
  each := by
    have hnested : (ElementValue.nested 15 [(13, .constant .string 13)]).Fits :=
      .nested 15 (by decide) (List.forall_mem_singleton.mpr (.constant .string 13))
    have hvalues : (ElementValue.array
        [.nested 15 [(13, .constant .string 13)], .enumConstant 15 13]).Fits :=
      .array (by decide)
        (List.forall_mem_cons.mpr ⟨hnested, List.forall_mem_singleton.mpr (.enumConstant 15 13)⟩)
    refine List.forall_mem_cons.mpr ⟨⟨rfl, by decide, ?_⟩,
      List.forall_mem_cons.mpr ⟨⟨rfl, by decide +kernel, by decide, ?_⟩,
        List.forall_mem_singleton.mpr ⟨rfl, by decide +kernel, by decide, ?_⟩⟩⟩
    · show "Signature" ∉ MemberAttribute.knownNames
      decide
    · exact List.forall_mem_singleton.mpr ⟨by decide +kernel, by decide +kernel, by decide,
        List.forall_mem_singleton.mpr hvalues⟩
    · decide +kernel
  once := by decide +kernel

/-- So the method fits the pool. -/
theorem exampleMethod_fits : exampleMethod.Fits exampleLayout (·.descriptor) where
  name := rfl
  type := by decide +kernel
  attributes := exampleAttributes_fit

/-- So does the class. -/
theorem exampleClass_fits : exampleClass.Fits exampleLayout where
  pool := ⟨by decide +kernel, by decide +kernel⟩
  thisClass := ⟨3, rfl, rfl⟩
  superClass := by
    rintro n ⟨⟩
    exact ⟨6, rfl, rfl⟩
  interfaceCount := by decide
  interfaces := by
    intro n hn
    cases hn
  fieldCount := by decide
  fields := by
    intro m hm
    rw [List.mem_singleton.mp hm]
    exact ⟨exampleField_fits, trivial⟩
  methodCount := by decide
  methods := by
    intro m hm
    rw [List.mem_singleton.mp hm]
    exact ⟨exampleMethod_fits, by decide +kernel⟩
  attributes := ⟨by decide, by simp [exampleClass], .nil⟩

/-- The field is left out, one parameter is called after its place, and the last one is variable. -/
theorem parse_encode_example :
    exampleClass.Fits exampleLayout ∧
      parse (exampleClass.encode exampleLayout) = .ok
        { binaryName := "com.acme.Widget"
          accessFlags := 0x0021
          superClass := some "java.lang.Object"
          interfaces := []
          fields := []
          methods :=
            [{  name := "format"
                returnType := "void"
                params := [("arg0", "int"), ("values", "java.lang.String...")]
                modifiers := ⟨[.isPublic]⟩
                exceptions := []
                annotations := ["Marked"]
                hasCode := false }]
          annotations := []
          innerClasses := [] } := by
  refine ⟨exampleClass_fits, ?_⟩
  rw [parse_encode exampleClass_fits]
  rfl

end JavaAtlas.ClassFile
