import DatabaseJones.Mapping.Validity

/-!
# Runs of constructions and calls

Every call keeps the fields of a mapping sound, provided that its literal inherits nothing
that the verifier rejects, and every construction makes sound fields if those it is given
are.  A call that adds to the error string leaves the fields alone, except for a `mapField`
with a new name and an argument that it cannot use.
-/

namespace DatabaseJones.Mapping

open Library

variable {texts : Texts}

/-! ## The name of a new field -/

theorem LiteralObjectVerifier.exists_fieldName {ctor : Class} {literal : Value}
    (herrors : ctor.verifier.errorsOf texts literal = "") :
    ∃ name : String, literal.get "fieldName" = .string name ∧
      ctor.verifier.Accepts ("fieldName", .string name) := by
  have hrequired : "fieldName" ∈ ctor.verifier.requiredProperties := by cases ctor <;> decide
  have hlookup : ctor.verifier.properties.lookup "fieldName" = some isNonEmptyString := by
    cases ctor <;> rfl
  have haccepts := accepts_of_checkProperty hlookup
    ((errorsOf_eq_empty_iff.mp herrors).1 _
      (Value.get_mem_ownProperties ((errorsOf_eq_empty_iff.mp herrors).2 _ hrequired)))
  obtain ⟨check, hcheck, htrue⟩ := haccepts
  obtain rfl : isNonEmptyString = check := Option.some.inj (hlookup.symm.trans hcheck)
  cases hvalue : literal.get "fieldName" with
  | string name => exact ⟨name, rfl, isNonEmptyString, hlookup, hvalue ▸ htrue⟩
  | _ =>
      rw [hvalue] at htrue
      cases htrue

/-- The name is copied to the new field. -/
theorem get_fieldName_copyProperties {ctor : Class} {own : List (String × Value)}
    {literal : Value} {name : String} (hname : literal.get "fieldName" = .string name) :
    (Value.object ctor (ctor.verifier.copyProperties own literal) [] false).get "fieldName" =
      .string name := by
  have hknown : "fieldName" ∈ ctor.verifier.properties.map Prod.fst := by cases ctor <;> decide
  have hdefined : (literal.get "fieldName").isUndefined = false := by rw [hname]; rfl
  rw [Value.get, List.append_nil, LiteralObjectVerifier.lookup_copyProperties,
    if_pos ⟨hknown, hdefined⟩, hname]
  rfl

/-- A name that `getFieldMapping` does not find is new. -/
theorem notMem_names_of_getFieldMapping {mapping : TableMapping} {name : String}
    (h : mapping.getFieldMapping (.string name) = none) :
    Value.string name ∉ mapping.fields.map fun field => field.get "fieldName" := by
  intro hmem
  obtain ⟨field, hfield, hname⟩ := List.mem_map.mp hmem
  have hno := List.find?_eq_none.mp h field hfield
  rw [hname] at hno
  exact hno (by simp [Value.strictEquals])

theorem FieldsSound.append {fields : List Value} {field : Value} (hsound : FieldsSound fields)
    (hverified : Verified field)
    (hnew : field.get "fieldName" ∉ fields.map fun field => field.get "fieldName") :
    FieldsSound (fields ++ [field]) := by
  constructor
  · rw [List.map_append, List.nodup_append]
    refine ⟨hsound.nodup, List.nodup_singleton _, ?_⟩
    rintro name hname other hother rfl
    rw [List.mem_singleton.mp hother] at hname
    exact hnew hname
  · intro other hother
    rcases List.mem_append.mp hother with hother | hother
    · exact hsound.verified other hother
    · rw [List.mem_singleton.mp hother]
      exact hverified

/-- The field that is made of a literal without errors, and with a new name, can be added. -/
theorem FieldsSound.append_copy {mapping : TableMapping} {ctor : Class}
    {own : List (String × Value)} {literal : Value} (hsound : FieldsSound mapping.fields)
    (hown : ∀ property ∈ own, property ∈ ctor.defaults ∨ ctor.verifier.Accepts property)
    (herrors : ctor.verifier.errorsOf texts literal = "")
    (hinherits : ctor.verifier.InheritsWell literal)
    (hnew : mapping.getFieldMapping (literal.get "fieldName") = none) :
    FieldsSound (mapping.fields ++
      [.object ctor (ctor.verifier.copyProperties own literal) [] false]) := by
  obtain ⟨name, hname, -⟩ := LiteralObjectVerifier.exists_fieldName herrors
  apply hsound.append (verified_copyProperties hown herrors hinherits)
  rw [get_fieldName_copyProperties hname]
  rw [hname] at hnew
  exact notMem_names_of_getFieldMapping hnew

/-! ## Calls -/

namespace TableMapping

variable {mapping : TableMapping}

/-- What the literal of a call inherits is accepted. -/
def Call.InheritsWell : Call → Prop
  | .mapField nameOrLiteral _ => fieldMappingProperties.InheritsWell nameOrLiteral
  | .mapRelationship kind literalMapping => kind.verifier.InheritsWell literalMapping
  | _ => True

theorem getErrors_eq_some {verifier : LiteralObjectVerifier} {literal : Value} {errors : String}
    (h : verifier.getErrors texts literal = some errors) :
    errors = verifier.errorsOf texts literal := by
  cases literal with
  | undefined => cases h
  | null => cases h
  | _ => exact (Option.some.inj h).symm

/-- What `mapField` does with a literal: it adds the field and no message, or it leaves the
fields alone. -/
theorem mapFieldLiteral_cases {literal : Value} {next : TableMapping}
    (hnext : mapping.mapFieldLiteral texts literal = some next) :
    (fieldMappingProperties.errorsOf texts literal = "" ∧
        mapping.getFieldMapping (literal.get "fieldName") = none ∧
        next.fields = mapping.fields ++ [newField literal] ∧ next.error = mapping.error) ∨
      ((fieldMappingProperties.errorsOf texts literal ≠ "" ∨
          (mapping.getFieldMapping (literal.get "fieldName")).isSome = true) ∧
        next.fields = mapping.fields) := by
  obtain ⟨errors, herrors, rfl⟩ := Option.map_eq_some_iff.mp hnext
  rw [getErrors_eq_some herrors]
  split
  · next hsome => exact .inr ⟨.inl hsome, rfl⟩
  · next hempty =>
      split
      · next hduplicate => exact .inr ⟨.inr hduplicate, rfl⟩
      · next hnew =>
          exact .inl ⟨not_not.mp hempty, Option.not_isSome_iff_eq_none.mp hnew, rfl, rfl⟩

theorem fieldsSound_mapFieldLiteral {literal : Value} {next : TableMapping}
    (hsound : FieldsSound mapping.fields)
    (hinherits : fieldMappingProperties.InheritsWell literal)
    (hnext : mapping.mapFieldLiteral texts literal = some next) : FieldsSound next.fields := by
  rcases mapFieldLiteral_cases hnext with ⟨herrors, hnew, hfields, -⟩ | ⟨-, hfields⟩
  · rw [hfields]
    have hempty : Class.fieldMapping.verifier.errorsOf texts literal = "" := herrors
    obtain ⟨name, hname, haccepts⟩ := LiteralObjectVerifier.exists_fieldName hempty
    refine hsound.append_copy ?_ hempty hinherits hnew
    intro property hproperty
    rcases List.mem_cons.mp hproperty with rfl | hproperty
    · rw [hname]
      exact .inr haccepts
    · exact .inl hproperty
  · rw [hfields]
    exact hsound

/-- A literal that is built up from arguments inherits nothing. -/
theorem inheritsWell_of_own (verifier : LiteralObjectVerifier) (own : List (String × Value)) :
    verifier.InheritsWell (.object .literal own [] false) := by
  intro property _ hown
  left
  have hnone : own.lookup property.1 = none := by
    rw [List.lookup_eq_none_iff]
    intro other hother
    have hne := List.any_eq_false.mp hown other hother
    exact bne_iff_ne.mpr fun heq => hne (beq_iff_eq.mpr heq.symm)
  rw [Value.get, List.append_nil, hnone]
  rfl

theorem fieldsSound_mapField {nameOrLiteral : Value} {args : List Value} {next : TableMapping}
    (hsound : FieldsSound mapping.fields)
    (hinherits : fieldMappingProperties.InheritsWell nameOrLiteral)
    (hnext : mapping.mapField texts nameOrLiteral args = some next) : FieldsSound next.fields := by
  unfold mapField at hnext
  split at hnext
  · refine fieldsSound_mapFieldLiteral ?_ (inheritsWell_of_own _ _) hnext
    exact hsound
  · exact fieldsSound_mapFieldLiteral hsound hinherits hnext
  · exact fieldsSound_mapFieldLiteral hsound hinherits hnext
  · exact fieldsSound_mapFieldLiteral hsound hinherits hnext
  · cases hnext
    exact hsound

theorem relationship_verifier (kind : Relationship) : kind.verifier = kind.ctor.verifier := by
  cases kind <;> rfl

/-- What a relationship call does with a literal: it adds the field and no message, or it
leaves the fields alone. -/
theorem mapRelationshipLiteral_cases (texts : Texts) (kind : Relationship)
    (literalMapping : Value) :
    (kind.verifier.errorsOf texts literalMapping = "" ∧
        mapping.getFieldMapping (literalMapping.get "fieldName") = none ∧
        mapping.mapRelationshipLiteral texts kind literalMapping =
          { mapping with fields := mapping.fields ++ [newRelationship kind literalMapping] }) ∨
      (mapping.mapRelationshipLiteral texts kind literalMapping).fields = mapping.fields := by
  unfold mapRelationshipLiteral
  split
  · exact .inr rfl
  · next hnew =>
      split
      · exact .inr rfl
      · next hempty =>
          have herrors := String.append_eq_empty_iff.mp
            (String.append_eq_empty_iff.mp (not_not.mp hempty)).1
          exact .inl ⟨herrors.1, Option.not_isSome_iff_eq_none.mp hnew, rfl⟩

theorem fieldsSound_mapRelationshipLiteral {kind : Relationship} {literalMapping : Value}
    (hsound : FieldsSound mapping.fields) (hinherits : kind.verifier.InheritsWell literalMapping) :
    FieldsSound (mapping.mapRelationshipLiteral texts kind literalMapping).fields := by
  rcases mapRelationshipLiteral_cases texts kind literalMapping with
    ⟨herrors, hnew, hnext⟩ | hfields
  · rw [hnext]
    rw [relationship_verifier] at herrors hinherits
    have hcopy : newRelationship kind literalMapping =
        .object kind.ctor (kind.ctor.verifier.copyProperties kind.ctor.defaults literalMapping)
          [] false := by
      rw [newRelationship, relationship_verifier]
    rw [hcopy]
    exact hsound.append_copy (fun property hproperty => .inl hproperty) herrors hinherits hnew
  · rw [hfields]
    exact hsound

theorem fieldsSound_mapRelationship {kind : Relationship} {literalMapping : Value}
    {next : TableMapping} (hsound : FieldsSound mapping.fields)
    (hinherits : kind.verifier.InheritsWell literalMapping)
    (hnext : mapping.mapRelationship texts kind literalMapping = some next) :
    FieldsSound next.fields := by
  unfold mapRelationship at hnext
  split at hnext
  · cases hnext
  · cases hnext
    exact fieldsSound_mapRelationshipLiteral hsound hinherits
  · cases hnext
    exact fieldsSound_mapRelationshipLiteral hsound hinherits
  · cases hnext
    exact hsound

theorem excludeField_fields (fieldName : Value) :
    (mapping.excludeField texts fieldName).fields = mapping.fields := by
  unfold excludeField fieldIsNotSparse
  split
  · split <;> rfl
  · rfl

theorem foldl_excludeField_fields (names : List Value) :
    (names.foldl (excludeField texts) mapping).fields = mapping.fields := by
  induction names generalizing mapping with
  | nil => rfl
  | cons name names ih => exact ih.trans (excludeField_fields name)

theorem excludeFields_fields (args : List Value) :
    (mapping.excludeFields texts args).fields = mapping.fields := by
  unfold excludeFields
  induction args generalizing mapping with
  | nil => rfl
  | cons arg args ih =>
      rw [List.foldl_cons, ih]
      split
      · exact foldl_excludeField_fields _
      · exact excludeField_fields _

theorem mapSparseFields_fields (columnName : Value) (args : List Value) :
    (mapping.mapSparseFields texts columnName args).fields = mapping.fields := by
  unfold mapSparseFields
  split <;> rfl

theorem fieldsSound_after {call : Call} (hsound : FieldsSound mapping.fields)
    (hinherits : call.InheritsWell) : FieldsSound (mapping.after texts call).fields := by
  cases call with
  | mapField nameOrLiteral args =>
      cases hnext : mapping.mapField texts nameOrLiteral args with
      | none =>
          simp only [after, hnext, Option.getD_none]
          exact hsound
      | some next =>
          simp only [after, hnext, Option.getD_some]
          exact fieldsSound_mapField hsound hinherits hnext
  | mapRelationship kind literalMapping =>
      cases hnext : mapping.mapRelationship texts kind literalMapping with
      | none =>
          simp only [after, hnext, Option.getD_none]
          exact hsound
      | some next =>
          simp only [after, hnext, Option.getD_some]
          exact fieldsSound_mapRelationship hsound hinherits hnext
  | excludeFields args =>
      rw [after, excludeFields_fields]
      exact hsound
  | mapSparseFields columnName args =>
      rw [after, mapSparseFields_fields]
      exact hsound

/-! ## Constructions -/

/-- The fields that the constructor is given are sound; a literal without fields gives none. -/
def GivesSound (tableNameOrLiteral : Value) : Prop :=
  ∀ fields, (wrapFields tableNameOrLiteral).get "fields" = .array fields → FieldsSound fields

theorem fieldsSound_nil : FieldsSound [] :=
  ⟨List.nodup_nil, fun _ h => by cases h⟩

theorem assignMeta_fields {i : ℕ} {metas : List Value} {next : TableMapping}
    (hnext : mapping.assignMeta texts i metas = some next) : next.fields = mapping.fields := by
  induction metas generalizing i mapping with
  | nil =>
      cases hnext
      rfl
  | cons arg args ih =>
      obtain ⟨middle, hmiddle, hrest⟩ := Option.bind_eq_some_iff.mp hnext
      rw [ih hrest]
      have hpush : ∀ pushed, mapping.pushMeta pushed = some middle →
          middle.fields = mapping.fields := by
        intro pushed h
        unfold pushMeta at h
        split at h
        · cases h
          rfl
        · cases h
      split_ifs at hmiddle
      · exact hpush _ hmiddle
      · exact hpush _ hmiddle
      · cases hmiddle
        rfl

theorem ofProperties_fields {own : List (String × Value)} {error : String} {next : TableMapping}
    (hnext : ofProperties own error = some next) :
    own.lookup "fields" = some (.array next.fields) := by
  unfold ofProperties at hnext
  dsimp only at hnext
  split at hnext
  · next fields _ hfields _ =>
      cases hnext
      cases hlookup : own.lookup "fields" with
      | none =>
          rw [hlookup] at hfields
          cases hfields
      | some value =>
          rw [hlookup] at hfields
          exact congrArg some hfields
  · cases hnext

theorem lookup_fresh_fields : fresh.properties.lookup "fields" = some (.array []) := rfl

/-- The fields that a new mapping has: none, or those that its literal gives. -/
theorem constructFromObject_fields {literal : Value} {next : TableMapping}
    (hnext : constructFromObject texts literal = some next) :
    next.fields = [] ∨ (wrapFields literal).get "fields" = .array next.fields := by
  have hbuilt : ∃ built, (tableMappingProperties texts).buildObjectFromLiteral texts
      fresh.properties (wrapFields literal) = some built ∧
      ofProperties built.1 built.2 = some next := by
    unfold constructFromObject at hnext
    split at hnext
    · cases hnext
    · dsimp only at hnext
      split at hnext
      · cases hnext
      · exact Option.bind_eq_some_iff.mp hnext
  obtain ⟨built, hbuild, hnext⟩ := hbuilt
  have hfields := ofProperties_fields hnext
  obtain ⟨errors, -, rfl⟩ := Option.map_eq_some_iff.mp hbuild
  split at hfields
  · rw [LiteralObjectVerifier.lookup_copyProperties] at hfields
    split at hfields
    · exact .inr (Option.some.inj hfields)
    · rw [lookup_fresh_fields] at hfields
      cases next
      cases hfields
      exact .inl rfl
  · rw [lookup_fresh_fields] at hfields
    cases next
    cases hfields
    exact .inl rfl

theorem constructFromTableName_fields (tableName : String) :
    (constructFromTableName tableName).fields = [] := by
  unfold constructFromTableName
  dsimp only
  split_ifs <;> rfl

theorem fieldsSound_constructFromObject {literal : Value} {metas : List Value}
    {next : TableMapping} (hgives : GivesSound literal)
    (hnext : ((constructFromObject texts literal).bind fun mapping =>
      mapping.assignMeta texts 1 metas) = some next) : FieldsSound next.fields := by
  obtain ⟨mapping, hmapping, hassign⟩ := Option.bind_eq_some_iff.mp hnext
  rw [assignMeta_fields hassign]
  rcases constructFromObject_fields hmapping with hnil | hfields
  · rw [hnil]
    exact fieldsSound_nil
  · exact hgives _ hfields

theorem fieldsSound_construct {tableNameOrLiteral : Value} {metas : List Value}
    {next : TableMapping} (hgives : GivesSound tableNameOrLiteral)
    (hnext : construct texts tableNameOrLiteral metas = some next) : FieldsSound next.fields := by
  unfold construct at hnext
  split at hnext
  · rw [assignMeta_fields hnext, constructFromTableName_fields]
    exact fieldsSound_nil
  · exact fieldsSound_constructFromObject hgives hnext
  · exact fieldsSound_constructFromObject hgives hnext
  · exact fieldsSound_constructFromObject hgives hnext
  · cases hnext
    exact fieldsSound_nil

/-- A mapping gives its copy its own fields. -/
theorem givesSound_toValue (hsound : FieldsSound mapping.fields) : GivesSound mapping.toValue := by
  have hget : mapping.toValue.get "fields" = .array mapping.fields := rfl
  have hfield : mapping.toValue.get "field" = .undefined := by
    simp only [toValue, Value.get, List.append_nil, properties]
    split_ifs <;> rfl
  have hwrap : wrapFields mapping.toValue = mapping.toValue := by
    unfold wrapFields
    rw [hget, hfield]
    rfl
  intro fields hfields
  rw [hwrap, hget] at hfields
  cases hfields
  exact hsound

end TableMapping

/-! ## Runs -/

/-- The condition on an event: fields that are given to the constructor are sound, and
literals inherit nothing that the verifier rejects. -/
def Event.Allowed : Event → Prop
  | .construct tableNameOrLiteral _ => TableMapping.GivesSound tableNameOrLiteral
  | .copy _ _ => True
  | .call _ made => made.InheritsWell

theorem fieldsSound_step {mappings next : List TableMapping} {event : Event}
    (hsound : ∀ mapping ∈ mappings, FieldsSound mapping.fields) (hallowed : event.Allowed)
    (hnext : step texts mappings event = some next) :
    ∀ mapping ∈ next, FieldsSound mapping.fields := by
  cases event with
  | construct tableNameOrLiteral metas =>
      cases hnext
      intro mapping hmapping
      rcases List.mem_append.mp hmapping with hmapping | hmapping
      · exact hsound mapping hmapping
      · exact TableMapping.fieldsSound_construct hallowed (Option.mem_toList.mp hmapping)
  | copy source metas =>
      obtain ⟨original, horiginal, rfl⟩ := Option.map_eq_some_iff.mp hnext
      intro mapping hmapping
      rcases List.mem_append.mp hmapping with hmapping | hmapping
      · exact hsound mapping hmapping
      · have hgives := TableMapping.givesSound_toValue
          (hsound original (List.mem_of_getElem? horiginal))
        exact TableMapping.fieldsSound_construct hgives (Option.mem_toList.mp hmapping)
  | call target call =>
      obtain ⟨original, horiginal, rfl⟩ := Option.map_eq_some_iff.mp hnext
      intro mapping hmapping
      rcases List.mem_or_eq_of_mem_set hmapping with hmapping | rfl
      · exact hsound mapping hmapping
      · exact TableMapping.fieldsSound_after (hsound original (List.mem_of_getElem? horiginal))
          hallowed

/-! ## Messages and fields -/

/-- An argument that `mapField` can use after a name. -/
def IsUsable (arg : Value) : Prop :=
  isString arg = true ∨ isBool arg = true ∨ arg.typeOf = "object" ∧
    (isMeta arg = true ∨ isLiteralMeta arg = true ∨ isConverter arg = true ∨
      isArrayOf isString arg = true)

namespace TableMapping

variable {mapping : TableMapping}

/-- A `mapField` with a new name and an argument that it cannot use. -/
def Slips (mapping : TableMapping) : Call → Prop
  | .mapField (.string name) args =>
      name ≠ "" ∧ mapping.getFieldMapping (.string name) = none ∧ ∃ arg ∈ args, ¬ IsUsable arg
  | _ => False

/-- The call leaves the fields alone if it adds a message. -/
def Quiet (texts : Texts) (mapping : TableMapping) (call : Call) : Prop :=
  (mapping.after texts call).error ≠ mapping.error →
    (mapping.after texts call).fields = mapping.fields

/-- What an argument does to the literal that is built up: it adds a property that is
accepted, or a message. -/
structure Adds (arg : Value) (built after : List (String × Value) × String) : Prop where
  property : after.1 = built.1 ∨ ∃ key value, after.1 = setProperty built.1 key value ∧
    key ≠ "fieldName" ∧ fieldMappingProperties.Accepts (key, value)
  message : ∃ message, after.2 = built.2 ++ message ∧ (message = "" ↔ IsUsable arg)

theorem adds_property {arg value : Value} {key : String} {check : Value → Bool}
    {built : List (String × Value) × String} (husable : IsUsable arg)
    (hkey : key ≠ "fieldName")
    (hlookup : fieldMappingProperties.properties.lookup key = some check)
    (hcheck : check value = true) : Adds arg built (setProperty built.1 key value, built.2) :=
  ⟨.inr ⟨key, value, rfl, hkey, check, hlookup, hcheck⟩,
    "", String.append_empty.symm, iff_of_true rfl husable⟩

theorem adds_invalidArgument {arg : Value} {built : List (String × Value) × String}
    (husable : ¬ IsUsable arg) : Adds arg built (invalidArgument texts built arg) := by
  refine ⟨.inl rfl, _, rfl, iff_of_false ?_ husable⟩
  rw [String.append_eq_empty_iff]
  rintro ⟨h, -⟩
  exact absurd h (by decide)

theorem adds_objectArgument {arg : Value} {built : List (String × Value) × String}
    (htype : arg.typeOf = "object") (hstring : isString arg = false) (hbool : isBool arg = false) :
    Adds arg built (objectArgument texts built arg) := by
  unfold objectArgument
  split_ifs with hmeta hliteral hconverter harray
  · exact adds_property (.inr (.inr ⟨htype, .inl hmeta⟩)) (by decide) rfl
      (by simp [isMetaOrLiteral, hmeta])
  · exact adds_property (.inr (.inr ⟨htype, .inr (.inl hliteral)⟩)) (by decide) rfl rfl
  · exact adds_property (.inr (.inr ⟨htype, .inr (.inr (.inl hconverter))⟩)) (by decide) rfl
      hconverter
  · exact adds_property (.inr (.inr ⟨htype, .inr (.inr (.inr harray))⟩)) (by decide) rfl harray
  · apply adds_invalidArgument
    simp [IsUsable, hstring, hbool, hmeta, hliteral, hconverter, harray]

theorem adds_positionalArgument (texts : Texts) (built : List (String × Value) × String) (arg : Value) :
    Adds arg built (positionalArgument texts built arg) := by
  cases arg with
  | string value => exact adds_property (.inl rfl) (by decide) rfl rfl
  | boolean value => exact adds_property (.inr (.inl rfl)) (by decide) rfl rfl
  | null => exact adds_objectArgument rfl rfl rfl
  | array elements => exact adds_objectArgument rfl rfl rfl
  | object ctor own inherited metaMethod => exact adds_objectArgument rfl rfl rfl
  | undefined => exact adds_invalidArgument (by simp [IsUsable, isString, isBool, Value.typeOf])
  | number value => exact adds_invalidArgument (by simp [IsUsable, isString, isBool, Value.typeOf])
  | function name => exact adds_invalidArgument (by simp [IsUsable, isString, isBool, Value.typeOf])

/-- The literal that is built up for a name: the name, and properties that are accepted. -/
structure BuiltFor (name : String) (own : List (String × Value)) : Prop where
  accepted : ∀ property ∈ own, property = ("fieldName", .string name) ∨
    fieldMappingProperties.Accepts property
  lookup : own.lookup "fieldName" = some (.string name)

theorem Adds.builtFor {arg : Value} {built after : List (String × Value) × String} {name : String}
    (hadds : Adds arg built after) (hbuilt : BuiltFor name built.1) : BuiltFor name after.1 := by
  rcases hadds.property with hsame | ⟨key, value, hset, hkey, haccepts⟩
  · rw [hsame]
    exact hbuilt
  · rw [hset]
    constructor
    · intro property hproperty
      rcases mem_setProperty.mp hproperty with rfl | ⟨hproperty, -⟩
      · exact .inr haccepts
      · exact hbuilt.accepted property hproperty
    · rw [lookup_setProperty, if_neg hkey.symm]
      exact hbuilt.lookup

/-- The literal and the message after all arguments. -/
theorem foldl_positionalArgument (texts : Texts) {name : String}
    {built : List (String × Value) × String}
    (args : List Value) (hbuilt : BuiltFor name built.1) :
    BuiltFor name (args.foldl (positionalArgument texts) built).1 ∧
      ∃ message, (args.foldl (positionalArgument texts) built).2 = built.2 ++ message ∧
        (message = "" ↔ ∀ arg ∈ args, IsUsable arg) := by
  induction args generalizing built with
  | nil => exact ⟨hbuilt, "", String.append_empty.symm, by simp⟩
  | cons arg args ih =>
      have hadds := adds_positionalArgument texts built arg
      obtain ⟨first, hfirst, hfirstIff⟩ := hadds.message
      obtain ⟨hlast, rest, hrest, hrestIff⟩ := ih (hadds.builtFor hbuilt)
      refine ⟨hlast, first ++ rest, ?_, ?_⟩
      · rw [List.foldl_cons, hrest, hfirst, String.append_assoc]
      · rw [String.append_eq_empty_iff, List.forall_mem_cons, hfirstIff, hrestIff]

theorem checkProperty_of_accepts {verifier : LiteralObjectVerifier} {property : String × Value}
    (haccepts : verifier.Accepts property) :
    verifier.checkProperty texts property.1 property.2 = "" := by
  obtain ⟨check, hlookup, hcheck⟩ := haccepts
  unfold LiteralObjectVerifier.checkProperty
  rw [hlookup]
  exact if_pos hcheck

theorem accepts_fieldName {name : String} (hname : name ≠ "") :
    fieldMappingProperties.Accepts ("fieldName", .string name) :=
  ⟨isNonEmptyString, rfl, by simpa [isNonEmptyString] using hname⟩

/-- The literal for a name has errors only if the name is empty. -/
theorem BuiltFor.errorsOf_eq_empty_iff {name : String} {own : List (String × Value)}
    (hbuilt : BuiltFor name own) :
    fieldMappingProperties.errorsOf texts (.object .literal own [] false) = "" ↔ name ≠ "" := by
  have hmem := mem_of_lookup_eq_some hbuilt.lookup
  rw [LiteralObjectVerifier.errorsOf_eq_empty_iff]
  constructor
  · rintro ⟨hcheck, -⟩ rfl
    have haccepts := LiteralObjectVerifier.accepts_of_checkProperty
      (rfl : fieldMappingProperties.properties.lookup "fieldName" = some isNonEmptyString)
      (hcheck _ hmem)
    obtain ⟨check, hlookup, htrue⟩ := haccepts
    cases hlookup
    cases htrue
  · intro hname
    refine ⟨fun property hproperty => ?_, fun req hreq => ?_⟩
    · rcases hbuilt.accepted property hproperty with rfl | haccepts
      · exact checkProperty_of_accepts (accepts_fieldName hname)
      · exact checkProperty_of_accepts haccepts
    · rw [List.mem_singleton.mp hreq]
      exact List.any_eq_true.mpr ⟨_, hmem, rfl⟩

theorem quiet_of_fields {call : Call}
    (h : (mapping.after texts call).fields = mapping.fields) : mapping.Quiet texts call :=
  fun _ => h

/-- A literal either adds no message or leaves the fields alone. -/
theorem quiet_mapFieldLiteral (literal : Value) :
    ((mapping.mapFieldLiteral texts literal).getD mapping).error ≠ mapping.error →
      ((mapping.mapFieldLiteral texts literal).getD mapping).fields = mapping.fields := by
  cases hnext : mapping.mapFieldLiteral texts literal with
  | none => exact fun _ => rfl
  | some next =>
      rcases mapFieldLiteral_cases hnext with ⟨-, -, -, herror⟩ | ⟨-, hfields⟩
      · exact fun hne => absurd herror hne
      · exact fun _ => hfields

theorem quiet_mapRelationship (kind : Relationship) (literalMapping : Value) :
    mapping.Quiet texts (.mapRelationship kind literalMapping) := by
  have hliteral : (mapping.mapRelationshipLiteral texts kind literalMapping).error ≠
      mapping.error →
      (mapping.mapRelationshipLiteral texts kind literalMapping).fields = mapping.fields := by
    rcases mapRelationshipLiteral_cases texts kind literalMapping with ⟨-, -, hnext⟩ | hfields
    · rw [hnext]
      exact fun hne => absurd rfl hne
    · exact fun _ => hfields
  unfold Quiet after mapRelationship
  cases literalMapping with
  | array elements => exact hliteral
  | object ctor own inherited metaMethod => exact hliteral
  | _ => exact fun _ => rfl

/-- With a name, the field is made whatever the messages for the arguments are. -/
theorem quiet_mapField_name (name : String) (args : List Value) :
    mapping.Quiet texts (.mapField (.string name) args) ↔
      ¬ mapping.Slips (.mapField (.string name) args) := by
  have hstart : BuiltFor name ([("fieldName", Value.string name)], "").1 :=
    ⟨fun property hproperty => .inl (List.mem_singleton.mp hproperty), rfl⟩
  obtain ⟨hbuilt, message, hmessage, husable⟩ := foldl_positionalArgument texts args hstart
  rw [String.empty_append] at hmessage
  generalize hresult : args.foldl (positionalArgument texts) ([("fieldName", .string name)], "") =
    built at hbuilt hmessage
  have hafter : mapping.after texts (.mapField (.string name) args) =
      ((mapping.addError message).mapFieldLiteral texts
        (.object .literal built.1 [] false)).getD mapping := by
    rw [← hmessage, ← hresult]
    rfl
  have hget : (Value.object .literal built.1 [] false).get "fieldName" = .string name := by
    rw [Value.get, List.append_nil, hbuilt.lookup]
    rfl
  obtain ⟨next, hnext⟩ : ∃ next, (mapping.addError message).mapFieldLiteral texts
      (.object .literal built.1 [] false) = some next := ⟨_, rfl⟩
  unfold Quiet
  rw [hafter, hnext, Option.getD_some]
  rcases mapFieldLiteral_cases hnext with ⟨herrors, hnew, hfields, herror⟩ | ⟨hreason, hfields⟩
  · rw [hget] at hnew
    have hname : name ≠ "" := hbuilt.errorsOf_eq_empty_iff.mp herrors
    have hslips : mapping.Slips (.mapField (.string name) args) ↔ message ≠ "" := by
      rw [ne_eq, husable]
      constructor
      · rintro ⟨-, -, arg, harg, hno⟩ hall
        exact hno (hall arg harg)
      · intro hno
        exact ⟨hname, hnew, by simpa using hno⟩
    rw [hslips, not_not, herror, hfields]
    constructor
    · intro hquiet
      by_contra hmessage
      have hlength := congrArg List.length (hquiet (mt append_eq_self_iff.mp hmessage))
      simp [addError] at hlength
    · rintro rfl hne
      exact absurd String.append_empty hne
  · refine iff_of_true (fun _ => hfields) ?_
    rintro ⟨hname, hnew, -⟩
    rw [hget] at hreason
    rcases hreason with herrors | hduplicate
    · exact herrors (hbuilt.errorsOf_eq_empty_iff.mpr hname)
    · have hnone : (mapping.addError message).getFieldMapping (.string name) = none := hnew
      rw [hnone] at hduplicate
      cases hduplicate

/-- A call is quiet except for the slip of `mapField`. -/
theorem quiet_iff (texts : Texts) (call : Call) :
    mapping.Quiet texts call ↔ ¬ mapping.Slips call := by
  cases call with
  | mapField nameOrLiteral args =>
      cases nameOrLiteral with
      | string name => exact quiet_mapField_name name args
      | null => exact iff_of_true (quiet_mapFieldLiteral _) id
      | array elements => exact iff_of_true (quiet_mapFieldLiteral _) id
      | object ctor own inherited metaMethod => exact iff_of_true (quiet_mapFieldLiteral _) id
      | _ => exact iff_of_true (quiet_of_fields rfl) id
  | mapRelationship kind literalMapping => exact iff_of_true (quiet_mapRelationship _ _) id
  | excludeFields args => exact iff_of_true (quiet_of_fields (excludeFields_fields args)) id
  | mapSparseFields columnName args =>
      exact iff_of_true (quiet_of_fields (mapSparseFields_fields columnName args)) id

end TableMapping

/-! ## The theorem for runs -/

/-- In a run whose literals give sound fields and inherit nothing that is rejected, a valid
mapping has sound fields; and a call is quiet unless it is the slip of `mapField`. -/
theorem fieldsSound_of_run (texts : Texts) :
    (∀ events mappings,
      Guarded (step texts) (fun _ event => event.Allowed) [] events →
      run (step texts) [] events = some mappings →
      ∀ mapping ∈ mappings, mapping.isValid = true → FieldsSound mapping.fields) ∧
    ∀ mapping call, TableMapping.Quiet texts mapping call ↔ ¬ mapping.Slips call := by
  refine ⟨fun events mappings hguarded hrun mapping hmapping _ => ?_,
    fun mapping call => TableMapping.quiet_iff texts call⟩
  have hsound := invariant_of_guarded
    (fun mappings => ∀ mapping ∈ mappings, FieldsSound mapping.fields)
    (fun _ _ _ hsound hallowed hnext => fieldsSound_step hsound hallowed hnext)
    (fun _ h => by cases h) hguarded hrun
  exact hsound mapping hmapping

/-- Texts for values, as empty as possible. -/
def noTexts : Texts := ⟨fun _ => "", fun _ => "", fun _ => ""⟩

def literal (own : List (String × Value)) : Value := .object .literal own [] false

/-- A table with a field and a relationship, and its copy. -/
def sampleRun : List Event :=
  [.construct (.string "test.customer") [],
    .call 0 (.mapField (.string "id") [.string "customer_id", .boolean true]),
    .call 0 (.mapRelationship .oneToMany
      (literal [("fieldName", .string "orders"), ("target", .function "Order"),
        ("targetField", .string "customer")])),
    .copy 0 []]

theorem allowed_sampleRun : ∀ event ∈ sampleRun, event.Allowed := by
  intro event hevent
  simp only [sampleRun, List.mem_cons, List.not_mem_nil, or_false] at hevent
  rcases hevent with rfl | rfl | rfl | rfl
  · intro fields hfields
    have hnone : (TableMapping.wrapFields (.string "test.customer")).get "fields" = .undefined :=
      rfl
    rw [hnone] at hfields
    cases hfields
  · exact fun _ _ _ => .inl rfl
  · exact TableMapping.inheritsWell_of_own _ _
  · trivial

theorem fieldsSound_sampleRun :
    ∃ mappings, run (step noTexts) [] sampleRun = some mappings ∧ mappings.length = 2 ∧
      ∀ mapping ∈ mappings, mapping.isValid = true ∧ FieldsSound mapping.fields := by
  have hvalid : (run (step noTexts) [] sampleRun).map
      (fun mappings => mappings.map TableMapping.isValid) = some [true, true] := by rfl
  obtain ⟨mappings, hrun, hmap⟩ := Option.map_eq_some_iff.mp hvalid
  have hsound := (fieldsSound_of_run noTexts).1 sampleRun mappings
    (guarded_of_forall (fun event hevent _ => allowed_sampleRun event hevent) _) hrun
  refine ⟨mappings, hrun, ?_, fun mapping hmapping => ?_⟩
  · simpa using congrArg List.length hmap
  · have hmem : mapping.isValid ∈ [true, true] := hmap ▸ List.mem_map_of_mem hmapping
    have htrue : mapping.isValid = true := by simpa using hmem
    exact ⟨htrue, hsound mapping hmapping htrue⟩

/-- A literal with two fields of one name, the second with an unknown property. -/
def duplicates : Value :=
  literal [("table", .string "t"),
    ("fields", .array [literal [("fieldName", .string "a")],
      literal [("fieldName", .string "a"), ("colour", .string "red")]])]

/-- The constructor takes such fields, and `mapField("a", 3)` reports its argument and maps
the field. -/
theorem not_fieldsSound_duplicates :
    (∃ mapping, run (step noTexts) [] [.construct duplicates []] = some [mapping] ∧
      mapping.isValid = true ∧ ¬ (mapping.fields.map fun field => field.get "fieldName").Nodup ∧
      ¬ ∀ field ∈ mapping.fields, Verified field) ∧
    ¬ TableMapping.Quiet noTexts TableMapping.fresh (.mapField (.string "a") [.number 3]) := by
  refine ⟨⟨_, rfl, rfl, fun hnodup => ?_, fun hverified => ?_⟩, ?_⟩
  · have hnames : [Value.string "a", Value.string "a"].Nodup := hnodup
    exact (List.nodup_cons.mp hnames).1 List.mem_cons_self
  · have hsecond := (hverified (literal [("fieldName", .string "a"), ("colour", .string "red")])
      (List.mem_cons_of_mem _ List.mem_cons_self)).1 ("colour", .string "red")
      (List.mem_cons_of_mem _ List.mem_cons_self)
    rcases hsecond with hdefault | ⟨check, hlookup, -⟩
    · cases hdefault
    · cases hlookup
  · rw [TableMapping.quiet_iff, not_not]
    exact ⟨by decide, rfl, .number 3, List.mem_cons_self,
      by simp [IsUsable, isString, isBool, Value.typeOf]⟩

end DatabaseJones.Mapping
