import DatabaseJones.Library.Run
import DatabaseJones.Mapping.TableMapping

/-!
# Valid table mappings

A field is `Verified` if each of its own properties is accepted by the verifier of its kind
(or is still what the constructor of its kind gave it), and the required ones are there.
The calls keep the fields of a mapping verified and their names apart; the constructor does
not, since it looks no further into the `fields` of a literal than at their names.  What
`buildObjectFromLiteral` copies includes inherited properties, which `getErrors` does not
look at.  And a `mapField` with a name reports an argument that it cannot use, and maps the
field all the same.
-/

namespace DatabaseJones.Mapping

open Library

/-! ## Verified fields -/

namespace LiteralObjectVerifier

/-- The verifier knows the property and accepts its value. -/
def Accepts (verifier : LiteralObjectVerifier) (property : String × Value) : Prop :=
  ∃ check, verifier.properties.lookup property.1 = some check ∧ check property.2 = true

/-- The names of the verifier are distinct, and a required property is not undefined. -/
structure Strict (verifier : LiteralObjectVerifier) : Prop where
  nodup : (verifier.properties.map Prod.fst).Nodup
  required : ∀ name ∈ verifier.requiredProperties,
    ∃ check, verifier.properties.lookup name = some check ∧ check .undefined = false

/-- What the literal inherits of the known properties is accepted. -/
def InheritsWell (verifier : LiteralObjectVerifier) (literal : Value) : Prop :=
  ∀ property ∈ verifier.properties, literal.hasOwnProperty property.1 = false →
    (literal.get property.1).isUndefined = true ∨ property.2 (literal.get property.1) = true

end LiteralObjectVerifier

/-- The verifier of the fields of a class; a literal is one for a `FieldMapping`. -/
def Class.verifier : Class → LiteralObjectVerifier
  | .oneToOne => oneToOneMappingProperties
  | .oneToMany => oneToManyMappingProperties
  | .manyToOne => manyToOneMappingProperties
  | .manyToMany => manyToManyMappingProperties
  | _ => fieldMappingProperties

/-- Only known properties, each of the right type, and all that are required. -/
def Verified : Value → Prop
  | .object ctor own _ _ =>
      (∀ property ∈ own, property ∈ ctor.defaults ∨ ctor.verifier.Accepts property) ∧
        ∀ name ∈ ctor.verifier.requiredProperties,
          ∃ value, (name, value) ∈ own ∧ ctor.verifier.Accepts (name, value)
  | _ => False

/-- Fields with pairwise distinct names, each of them verified. -/
structure FieldsSound (fields : List Value) : Prop where
  nodup : (fields.map fun field => field.get "fieldName").Nodup
  verified : ∀ field ∈ fields, Verified field

theorem Class.strict_verifier (ctor : Class) : ctor.verifier.Strict := by
  cases ctor <;> exact ⟨by decide, by
    intro name hname
    fin_cases hname <;> exact ⟨_, rfl, rfl⟩⟩

/-! ## Errors of a literal -/

theorem join_eq_empty_iff {texts : List String} :
    String.join texts = "" ↔ ∀ text ∈ texts, text = "" := by
  induction texts with
  | nil => simp
  | cons text texts ih => simp [String.join_cons, String.append_eq_empty_iff, ih]

theorem append_eq_self_iff {text message : String} : text ++ message = text ↔ message = "" := by
  constructor
  · intro h
    have hlength := congrArg String.length h
    rw [String.length_append] at hlength
    exact String.length_eq_zero_iff.mp (by omega)
  · rintro rfl
    exact String.append_empty

namespace LiteralObjectVerifier

variable {texts : Texts} {verifier : LiteralObjectVerifier} {literal : Value}

theorem errorsOf_eq_empty_iff :
    verifier.errorsOf texts literal = "" ↔
      (∀ property ∈ literal.ownProperties,
        verifier.checkProperty texts property.1 property.2 = "") ∧
      ∀ req ∈ verifier.requiredProperties, literal.hasOwnProperty req = true := by
  unfold errorsOf
  rw [String.append_eq_empty_iff, join_eq_empty_iff, join_eq_empty_iff, List.forall_mem_map,
    List.forall_mem_map]
  refine and_congr Iff.rfl (forall₂_congr fun req _ => ?_)
  cases literal.hasOwnProperty req <;> simp [String.append_eq_empty_iff]

/-- A known property that gives no message is accepted. -/
theorem accepts_of_checkProperty {property : String × Value} {check : Value → Bool}
    (hknown : verifier.properties.lookup property.1 = some check)
    (hcheck : verifier.checkProperty texts property.1 property.2 = "") :
    verifier.Accepts property := by
  refine ⟨check, hknown, ?_⟩
  unfold checkProperty at hcheck
  rw [hknown] at hcheck
  by_contra hno
  simp [hno, String.append_eq_empty_iff] at hcheck

/-- The check of a required property takes no undefined value. -/
theorem Accepts.isUndefined {name : String} {value : Value} {check : Value → Bool}
    (h : verifier.Accepts (name, value)) (hlookup : verifier.properties.lookup name = some check)
    (hundefined : check .undefined = false) : value.isUndefined = false := by
  obtain ⟨other, hother, htrue⟩ := h
  obtain rfl : check = other := Option.some.inj (hlookup.symm.trans hother)
  cases value with
  | undefined =>
      rw [hundefined] at htrue
      cases htrue
  | _ => rfl

end LiteralObjectVerifier

/-! ## Properties of a list -/

theorem lookup_of_mem {α : Type} {entries : List (String × α)}
    (hnodup : (entries.map Prod.fst).Nodup) {entry : String × α} (h : entry ∈ entries) :
    entries.lookup entry.1 = some entry.2 := by
  induction entries with
  | nil => cases h
  | cons first rest ih =>
      obtain ⟨hfirst, hrest⟩ := List.nodup_cons.mp hnodup
      rcases List.mem_cons.mp h with rfl | h
      · exact List.lookup_cons_self
      · have hne : entry.1 ≠ first.1 := fun heq =>
          hfirst (heq ▸ List.mem_map_of_mem h)
        rw [List.lookup_cons, beq_eq_false_iff_ne.mpr hne]
        exact ih hrest h

theorem mem_of_lookup_eq_some {α : Type} {entries : List (String × α)} {name : String} {value : α}
    (h : entries.lookup name = some value) : (name, value) ∈ entries := by
  induction entries with
  | nil => cases h
  | cons first rest ih =>
      obtain ⟨key, old⟩ := first
      rw [List.lookup_cons] at h
      by_cases hkey : name = key
      · subst hkey
        rw [beq_self_eq_true] at h
        cases h
        exact List.mem_cons_self
      · rw [beq_eq_false_iff_ne.mpr hkey] at h
        exact List.mem_cons_of_mem _ (ih h)

/-- The value of an own property. -/
theorem Value.get_mem_ownProperties {literal : Value} {name : String}
    (h : literal.hasOwnProperty name = true) : (name, literal.get name) ∈ literal.ownProperties := by
  cases literal with
  | object ctor own inherited metaMethod =>
      obtain ⟨property, hmem, hname⟩ := List.any_eq_true.mp h
      cases hlookup : own.lookup name with
      | none =>
          have hne := List.lookup_eq_none_iff.mp hlookup property hmem
          exact absurd (beq_iff_eq.mp hname).symm (bne_iff_ne.mp hne)
      | some value =>
          have hget : (Value.object ctor own inherited metaMethod).get name = value := by
            rw [Value.get, List.lookup_append, hlookup]
            rfl
          rw [hget]
          exact mem_of_lookup_eq_some hlookup
  | _ => cases h

/-! ## Copied properties -/

theorem mem_setProperty {own : List (String × Value)} {key : String} {value : Value}
    {property : String × Value} :
    property ∈ setProperty own key value ↔
      property = (key, value) ∨ property ∈ own ∧ property.1 ≠ key := by
  unfold setProperty
  split
  · next hany =>
      obtain ⟨old, hold, hkey⟩ := List.any_eq_true.mp hany
      rw [List.mem_map]
      constructor
      · rintro ⟨other, hother, rfl⟩
        by_cases hsame : other.1 = key
        · exact .inl (if_pos hsame)
        · rw [if_neg hsame]
          exact .inr ⟨hother, hsame⟩
      · rintro (rfl | ⟨hproperty, hne⟩)
        · exact ⟨old, hold, if_pos (beq_iff_eq.mp hkey)⟩
        · exact ⟨property, hproperty, if_neg hne⟩
  · next hany =>
      have hne : ∀ other ∈ own, other.1 ≠ key := fun other hother heq =>
        hany (List.any_eq_true.mpr ⟨other, hother, beq_iff_eq.mpr heq⟩)
      rw [List.mem_append, List.mem_singleton]
      constructor
      · rintro (hproperty | rfl)
        · exact .inr ⟨hproperty, hne property hproperty⟩
        · exact .inl rfl
      · rintro (rfl | ⟨hproperty, -⟩)
        · exact .inr rfl
        · exact .inl hproperty

theorem lookup_map_replace {own : List (String × Value)} {key name : String} {value : Value} :
    (own.map fun property => if property.1 = key then (key, value) else property).lookup name =
      if name = key ∧ (own.any fun property => property.1 == key) = true then some value
      else own.lookup name := by
  induction own with
  | nil => simp
  | cons property own ih =>
      obtain ⟨first, old⟩ := property
      rw [List.map_cons]
      by_cases hkey : first = key
      · subst hkey
        by_cases hname : name = first
        · simp [hname]
        · simp [List.lookup_cons, ih, hname, beq_eq_false_iff_ne.mpr hname]
      · by_cases hname : name = first
        · subst hname
          simp [hkey]
        · rw [if_neg hkey, List.lookup_cons, List.lookup_cons, beq_eq_false_iff_ne.mpr hname, ih,
            List.any_cons, beq_eq_false_iff_ne.mpr hkey, Bool.false_or]

theorem lookup_setProperty {own : List (String × Value)} {key name : String} {value : Value} :
    (setProperty own key value).lookup name =
      if name = key then some value else own.lookup name := by
  unfold setProperty
  split
  · next hany =>
      rw [lookup_map_replace]
      simp [hany]
  · next hany =>
      have hne : ∀ other ∈ own, other.1 ≠ key := fun other hother heq =>
        hany (List.any_eq_true.mpr ⟨other, hother, beq_iff_eq.mpr heq⟩)
      rw [List.lookup_append]
      by_cases hname : name = key
      · subst hname
        have hnone : own.lookup name = none := by
          rw [List.lookup_eq_none_iff]
          intro other hother
          exact bne_iff_ne.mpr (Ne.symm (hne other hother))
        rw [hnone, Option.none_or, if_pos rfl, List.lookup_cons_self]
      · rw [if_neg hname, List.lookup_cons, beq_eq_false_iff_ne.mpr hname]
        simp

namespace LiteralObjectVerifier

variable {texts : Texts} {verifier : LiteralObjectVerifier} {literal : Value}
  {own : List (String × Value)}

theorem mem_foldl_copyProperty {keys : List String} {property : String × Value}
    (h : property ∈ keys.foldl (copyProperty literal) own) :
    property ∈ own ∨ property.1 ∈ keys ∧ property.2 = literal.get property.1 ∧
      (literal.get property.1).isUndefined = false := by
  induction keys generalizing own with
  | nil => exact .inl h
  | cons key keys ih =>
      rcases ih h with hown | ⟨hkey, hvalue⟩
      · unfold copyProperty at hown
        split at hown
        · exact .inl hown
        · next hdefined =>
            rcases mem_setProperty.mp hown with rfl | ⟨hown, -⟩
            · exact .inr ⟨List.mem_cons_self, rfl, Bool.eq_false_iff.mpr hdefined⟩
            · exact .inl hown
      · exact .inr ⟨List.mem_cons_of_mem _ hkey, hvalue⟩

theorem lookup_foldl_copyProperty (keys : List String) (name : String) :
    (keys.foldl (copyProperty literal) own).lookup name =
      if name ∈ keys ∧ (literal.get name).isUndefined = false then some (literal.get name)
      else own.lookup name := by
  induction keys generalizing own with
  | nil => simp
  | cons key keys ih =>
      rw [List.foldl_cons, ih]
      unfold copyProperty
      by_cases hname : name = key
      · subst hname
        cases hundefined : (literal.get name).isUndefined <;> simp [lookup_setProperty]
      · cases hundefined : (literal.get key).isUndefined <;> simp [lookup_setProperty, hname]

/-- What the object has that it had not before was copied. -/
theorem mem_copyProperties {property : String × Value}
    (h : property ∈ verifier.copyProperties own literal) :
    property ∈ own ∨ property.1 ∈ verifier.properties.map Prod.fst ∧
      property.2 = literal.get property.1 ∧ (literal.get property.1).isUndefined = false :=
  mem_foldl_copyProperty h

theorem lookup_copyProperties (name : String) :
    (verifier.copyProperties own literal).lookup name =
      if name ∈ verifier.properties.map Prod.fst ∧ (literal.get name).isUndefined = false then
        some (literal.get name)
      else own.lookup name :=
  lookup_foldl_copyProperty _ name

/-- A defined value of a known property is accepted if the literal has no errors and
inherits nothing that is wrong. -/
theorem accepts_get (hstrict : verifier.Strict) (herrors : verifier.errorsOf texts literal = "")
    (hinherits : verifier.InheritsWell literal) {name : String}
    (hknown : name ∈ verifier.properties.map Prod.fst)
    (hdefined : (literal.get name).isUndefined = false) :
    verifier.Accepts (name, literal.get name) := by
  obtain ⟨property, hmem, rfl⟩ := List.mem_map.mp hknown
  have hlookup := lookup_of_mem hstrict.nodup hmem
  cases hown : literal.hasOwnProperty property.1 with
  | true =>
      have hcheck := (errorsOf_eq_empty_iff.mp herrors).1 _ (Value.get_mem_ownProperties hown)
      exact accepts_of_checkProperty hlookup hcheck
  | false =>
      rcases hinherits property hmem hown with hundefined | haccepted
      · rw [hdefined] at hundefined
        cases hundefined
      · exact ⟨property.2, hlookup, haccepted⟩

end LiteralObjectVerifier

/-- An object to which the properties of a literal without errors are copied is verified. -/
theorem verified_copyProperties {texts : Texts} {ctor : Class} {own : List (String × Value)}
    {literal : Value}
    (hown : ∀ property ∈ own, property ∈ ctor.defaults ∨ ctor.verifier.Accepts property)
    (herrors : ctor.verifier.errorsOf texts literal = "")
    (hinherits : ctor.verifier.InheritsWell literal) :
    Verified (.object ctor (ctor.verifier.copyProperties own literal) [] false) := by
  have hstrict := ctor.strict_verifier
  constructor
  · intro property hproperty
    rcases LiteralObjectVerifier.mem_copyProperties hproperty with h | ⟨hknown, hvalue, hdefined⟩
    · exact hown property h
    · have haccepts :=
        LiteralObjectVerifier.accepts_get hstrict herrors hinherits hknown hdefined
      rw [← hvalue] at haccepts
      exact .inr haccepts
  · intro name hname
    have hhas := (LiteralObjectVerifier.errorsOf_eq_empty_iff.mp herrors).2 name hname
    obtain ⟨check, hlookup, hundefined⟩ := hstrict.required name hname
    have haccepts : ctor.verifier.Accepts (name, literal.get name) :=
      LiteralObjectVerifier.accepts_of_checkProperty hlookup
        ((LiteralObjectVerifier.errorsOf_eq_empty_iff.mp herrors).1 _
          (Value.get_mem_ownProperties hhas))
    have hdefined : (literal.get name).isUndefined = false := haccepts.isUndefined hlookup hundefined
    have hcopied : (ctor.verifier.copyProperties own literal).lookup name =
        some (literal.get name) := by
      rw [LiteralObjectVerifier.lookup_copyProperties, if_pos]
      exact ⟨List.mem_map_of_mem (f := Prod.fst) (mem_of_lookup_eq_some hlookup), hdefined⟩
    exact ⟨literal.get name, mem_of_lookup_eq_some hcopied, haccepts⟩

end DatabaseJones.Mapping
