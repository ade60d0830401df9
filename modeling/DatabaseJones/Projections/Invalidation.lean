import DatabaseJones.Library.Acyclic
import DatabaseJones.Library.BreadthFirst

/-!
# Changing a projection

The functions of `Projection.js` that change a projection, `addFields` and `addRelationship`.  Each
projection knows the projections that use it, and a change invalidates these with `invalidateAll`.
It takes them from a queue; a projection in error ends the loop, and nothing else but the end of
the queue does.
-/

namespace DatabaseJones.Projections

open DatabaseJones.Library Relation

/-- A projection; other projections are names.  `domainObjectName` is the name of the constructor
of its domain object. -/
structure Projection (ι : Type) where
  domainObjectName : String
  fields : List String
  relationships : List (String × ι)
  usedBy : List ι
  validated : Bool
  error : String
deriving DecidableEq, Repr

/-- The projections of a program. -/
abbrev Graph (ι : Type) : Type := ι → Projection ι

section
variable {ι : Type} [DecidableEq ι]

/-! ## The functions -/

/-- `projection.validated = false`. -/
def invalidate (graph : Graph ι) (projection : ι) : Graph ι :=
  Function.update graph projection { graph projection with validated := false }

def inError (graph : Graph ι) (projection : ι) : Bool := (graph projection).error ≠ ""

/-- `invalidateAll`; `none` if the number of calls is not enough. -/
def invalidateAll : ℕ → List ι → Graph ι → Option (Graph ι)
  | 0, _, _ => none
  | _ + 1, [], graph => some graph
  | fuel + 1, projection :: toBeInvalidated, graph =>
      if inError graph projection then some graph
      else
        invalidateAll fuel (toBeInvalidated ++ (graph projection).usedBy)
          (invalidate graph projection)

/-- An argument, or an element of one: a string, or a value that is made one for a message. -/
inductive FieldItem
  | string (field : String)
  | other (text : String)
deriving DecidableEq, Repr

inductive FieldArgument
  | single (item : FieldItem)
  | array (items : List FieldItem)
deriving DecidableEq, Repr

/-- The body of the loops of `addFields`. -/
def addFieldItem (projection : Projection ι) : FieldItem → Projection ι
  | .string field => { projection with fields := projection.fields ++ [field] }
  | .other text =>
      { projection with
        error := projection.error ++ "\nError in addFields for " ++ projection.domainObjectName ++
          " Field names must be strings or arrays of strings " ++ text }

def FieldArgument.items : FieldArgument → List FieldItem
  | .single item => [item]
  | .array items => items

/-- `addFields`, and `addField`, which is the same function. -/
def addFields (fuel : ℕ) (graph : Graph ι) (this : ι) (arguments : List FieldArgument) :
    Option (Graph ι) :=
  if inError graph this then some graph
  else do
    let invalidated ← invalidateAll fuel [this] graph
    pure (Function.update invalidated this
      ((arguments.flatMap FieldArgument.items).foldl addFieldItem (invalidated this)))

/-- The second argument of `addRelationship`.  The constructor of null cannot be read. -/
inductive RelationshipArgument (ι : Type)
  | projection (projection : ι)
  | other
  | null
deriving DecidableEq, Repr

/-- `relationships[fieldName] = relationshipProjection`. -/
def setRelationship (relationships : List (String × ι)) (fieldName : String) (projection : ι) :
    List (String × ι) :=
  if relationships.any fun entry => entry.1 = fieldName then
    relationships.map fun entry => if entry.1 = fieldName then (fieldName, projection) else entry
  else relationships ++ [(fieldName, projection)]

def addRelationshipErrors (projection : Projection ι) (fieldName : FieldItem)
    (relationshipProjection : RelationshipArgument ι) : Projection ι :=
  let named :=
    match fieldName with
    | .string _ => projection.error
    | .other text =>
        projection.error ++ "\nError in addRelationship for " ++ projection.domainObjectName ++
          "fieldName must be a string " ++ text
  let text :=
    match fieldName with
    | .string field => field
    | .other text => text
  { projection with
    error :=
      match relationshipProjection with
      | .other =>
          named ++ "\nError in addRelationship for " ++ projection.domainObjectName ++
            " parameter relationshipProjection must be a projection for field " ++ text
      | _ => named }

/-- `addRelationship`. -/
def addRelationship (fuel : ℕ) (graph : Graph ι) (this : ι) (fieldName : FieldItem)
    (relationshipProjection : RelationshipArgument ι) : Option (Graph ι) :=
  if inError graph this then some graph
  else do
    let invalidated ← invalidateAll fuel [this] graph
    let checked := addRelationshipErrors (invalidated this) fieldName relationshipProjection
    let after := Function.update invalidated this checked
    match fieldName, relationshipProjection with
    | .string field, .projection related =>
        let linked := Function.update after this
          { checked with relationships := setRelationship checked.relationships field related }
        pure (Function.update linked related
          { linked related with usedBy := (linked related).usedBy ++ [this] })
    | _, _ => pure after

/-- A call that changes a projection. -/
inductive Change (ι : Type)
  | addFields (arguments : List FieldArgument)
  | addRelationship (fieldName : FieldItem) (relationshipProjection : RelationshipArgument ι)
deriving DecidableEq, Repr

def change (fuel : ℕ) (graph : Graph ι) (this : ι) : Change ι → Option (Graph ι)
  | .addFields arguments => addFields fuel graph this arguments
  | .addRelationship fieldName related => addRelationship fuel graph this fieldName related

/-! ## What is expected of a change -/

/-- One projection uses another one, directly or through others. -/
def Uses (graph : Graph ι) (user used : ι) : Prop :=
  TransGen (Leads fun projection => (graph projection).usedBy) used user

/-- A change ends, and afterwards no projection that uses the changed one is validated.  A
projection in error is not changed. -/
def InvalidatesUsers (graph : Graph ι) (this : ι) (call : Change ι) : Prop :=
  (∃ fuel, (change fuel graph this call).isSome) ∧
    ∀ fuel after, inError graph this = false → change fuel graph this call = some after →
      ∀ user, Uses after user this → (after user).validated = false

/-- The queue of users ends, and a user that is validated comes before every one in error. -/
def UsersReached (graph : Graph ι) (this : ι) : Prop :=
  inError graph this = true ∨
    Ends (fun projection => (graph projection).usedBy) (inError graph) this ∧
      ∀ user, Uses graph user this → (graph user).validated = true →
        Visited (fun projection => (graph projection).usedBy) (inError graph) this user

/-! ## The loop -/

theorem usedBy_invalidate (graph : Graph ι) (projection : ι) :
    (fun other => (invalidate graph projection other).usedBy) =
      fun other => (graph other).usedBy := by
  funext other
  unfold invalidate
  by_cases h : other = projection
  · rw [h, Function.update_self]
  · rw [Function.update_of_ne h]

theorem inError_invalidate (graph : Graph ι) (projection : ι) :
    inError (invalidate graph projection) = inError graph := by
  funext other
  unfold inError invalidate
  by_cases h : other = projection
  · rw [h, Function.update_self]
  · rw [Function.update_of_ne h]

theorem validated_foldl_invalidate (visited : List ι) (graph : Graph ι) (projection : ι) :
    (visited.foldl invalidate graph projection).validated = true ↔
      projection ∉ visited ∧ (graph projection).validated = true := by
  induction visited generalizing graph with
  | nil => simp
  | cons first visited ih =>
      rw [List.foldl_cons, ih, List.mem_cons]
      unfold invalidate
      by_cases h : projection = first
      · rw [h, Function.update_self]
        simp
      · rw [Function.update_of_ne h]
        simp [h]

theorem usedBy_foldl_invalidate (visited : List ι) (graph : Graph ι) :
    (fun other => (visited.foldl invalidate graph other).usedBy) =
      fun other => (graph other).usedBy := by
  induction visited generalizing graph with
  | nil => rfl
  | cons first visited ih => rw [List.foldl_cons, ih, usedBy_invalidate]

theorem inError_foldl_invalidate (visited : List ι) (graph : Graph ι) :
    inError (visited.foldl invalidate graph) = inError graph := by
  induction visited generalizing graph with
  | nil => rfl
  | cons first visited ih => rw [List.foldl_cons, ih, inError_invalidate]

/-- The loop invalidates what the queue visits. -/
theorem invalidateAll_eq (fuel : ℕ) (queue : List ι) (graph : Graph ι) :
    invalidateAll fuel queue graph =
      (visit (fun projection => (graph projection).usedBy) (inError graph) fuel queue).map
        fun visited => visited.foldl invalidate graph := by
  induction fuel generalizing queue graph with
  | zero => rfl
  | succ fuel ih =>
      cases queue with
      | nil => rfl
      | cons projection queue =>
          rw [invalidateAll, visit]
          split_ifs
          · rfl
          · rw [ih, usedBy_invalidate, inError_invalidate, Option.map_map]
            rfl

/-- The loop ends where the queue does, and invalidates what is visited. -/
theorem isSome_invalidateAll_iff (graph : Graph ι) (this : ι) :
    (∃ fuel, (invalidateAll fuel [this] graph).isSome) ↔
      Ends (fun projection => (graph projection).usedBy) (inError graph) this := by
  constructor
  · rintro ⟨fuel, hsome⟩
    rw [invalidateAll_eq, Option.isSome_map] at hsome
    obtain ⟨visited, hvisited⟩ := Option.isSome_iff_exists.mp hsome
    exact ends_of_visit hvisited
  · intro hends
    obtain ⟨fuel, visited, hvisited, -⟩ := exists_visit hends
    exact ⟨fuel, by rw [invalidateAll_eq, hvisited]; rfl⟩

theorem validated_invalidateAll {fuel : ℕ} {graph invalidated : Graph ι} {this : ι}
    (h : invalidateAll fuel [this] graph = some invalidated) (projection : ι) :
    (invalidated projection).validated = true ↔
      ¬Visited (fun projection => (graph projection).usedBy) (inError graph) this projection ∧
        (graph projection).validated = true := by
  rw [invalidateAll_eq] at h
  obtain ⟨visited, hvisited, rfl⟩ := Option.map_eq_some_iff.mp h
  obtain ⟨fuel', visited', hvisited', hmem⟩ := exists_visit (ends_of_visit hvisited)
  -- The number of steps makes no difference.
  have hsame : visited = visited' := by
    have hmore := visit_of_le hvisited (le_max_left fuel fuel')
    rw [visit_of_le hvisited' (le_max_right fuel fuel')] at hmore
    exact (Option.some.inj hmore).symm
  rw [validated_foldl_invalidate, hsame, hmem]

theorem usedBy_invalidateAll {fuel : ℕ} {queue : List ι} {graph invalidated : Graph ι}
    (h : invalidateAll fuel queue graph = some invalidated) (projection : ι) :
    (invalidated projection).usedBy = (graph projection).usedBy := by
  rw [invalidateAll_eq] at h
  obtain ⟨visited, -, rfl⟩ := Option.map_eq_some_iff.mp h
  exact congrFun (usedBy_foldl_invalidate visited graph) projection

omit [DecidableEq ι] in
/-- The projection itself is visited. -/
theorem visited_self {graph : Graph ι} {this : ι} (h : inError graph this = false) :
    Visited (fun projection => (graph projection).usedBy) (inError graph) this this := by
  refine ⟨1, ?_⟩
  simp [levels, level, h]

/-! ## Changes -/

omit [DecidableEq ι] in
theorem foldl_addFieldItem (items : List FieldItem) (projection : Projection ι) :
    (items.foldl addFieldItem projection).usedBy = projection.usedBy ∧
      (items.foldl addFieldItem projection).validated = projection.validated := by
  induction items generalizing projection with
  | nil => exact ⟨rfl, rfl⟩
  | cons item items ih =>
      rw [List.foldl_cons, (ih _).1, (ih _).2]
      cases item <;> exact ⟨rfl, rfl⟩

/-- What a change does to links and marks: at most it adds the projection to the users of another
one. -/
structure Changed (invalidated after : Graph ι) (this : ι) : Prop where
  validated : ∀ projection, (after projection).validated = (invalidated projection).validated
  usedBy : ∀ projection user, user ∈ (after projection).usedBy →
    user ∈ (invalidated projection).usedBy ∨ user = this
  subset : ∀ projection user, user ∈ (invalidated projection).usedBy →
    user ∈ (after projection).usedBy

theorem Changed.update {invalidated after : Graph ι} {this : ι} (h : Changed invalidated after this)
    (place : ι) {projection : Projection ι}
    (hvalidated : projection.validated = (after place).validated)
    (husedBy : projection.usedBy = (after place).usedBy ∨
      projection.usedBy = (after place).usedBy ++ [this]) :
    Changed invalidated (Function.update after place projection) this := by
  have hmem : ∀ user, user ∈ projection.usedBy → user ∈ (after place).usedBy ∨ user = this := by
    intro user huser
    rcases husedBy with heq | heq
    · exact .inl (heq ▸ huser)
    · rw [heq, List.mem_append, List.mem_singleton] at huser
      exact huser
  have hsubset : ∀ user, user ∈ (after place).usedBy → user ∈ projection.usedBy := by
    intro user huser
    rcases husedBy with heq | heq
    · exact heq ▸ huser
    · exact heq ▸ List.mem_append_left _ huser
  constructor
  · intro other
    by_cases hother : other = place
    · rw [hother, Function.update_self, hvalidated, h.validated]
    · rw [Function.update_of_ne hother, h.validated]
  · intro other user huser
    by_cases hother : other = place
    · rw [hother, Function.update_self] at huser
      rw [hother]
      exact (hmem user huser).elim (h.usedBy place user) .inr
    · rw [Function.update_of_ne hother] at huser
      exact h.usedBy other user huser
  · intro other user huser
    by_cases hother : other = place
    · rw [hother, Function.update_self]
      exact hsubset user (h.subset place user (hother ▸ huser))
    · rw [Function.update_of_ne hother]
      exact h.subset other user huser

omit [DecidableEq ι] in
theorem Changed.refl (graph : Graph ι) (this : ι) : Changed graph graph this :=
  ⟨fun _ => rfl, fun _ _ h => .inl h, fun _ _ h => h⟩

/-- A change of a projection that is not in error is the loop and a change of links. -/
theorem change_spec {graph : Graph ι} {this : ι} (hgo : inError graph this = false)
    (call : Change ι) (fuel : ℕ) :
    (change fuel graph this call = none ∧ invalidateAll fuel [this] graph = none) ∨
      ∃ invalidated after, invalidateAll fuel [this] graph = some invalidated ∧
        change fuel graph this call = some after ∧ Changed invalidated after this := by
  cases hall : invalidateAll fuel [this] graph with
  | none =>
      refine .inl ⟨?_, rfl⟩
      cases call <;> simp [change, addFields, addRelationship, hgo, hall]
  | some invalidated =>
      refine .inr ⟨invalidated, ?_⟩
      cases call with
      | addFields arguments =>
          refine ⟨_, rfl, by simp only [change, addFields, hgo, hall]; rfl, ?_⟩
          have hfold := foldl_addFieldItem (arguments.flatMap FieldArgument.items)
            (invalidated this)
          exact (Changed.refl invalidated this).update this hfold.2 (.inl hfold.1)
      | addRelationship fieldName related =>
          have hchecked : Changed invalidated (Function.update invalidated this
              (addRelationshipErrors (invalidated this) fieldName related)) this :=
            (Changed.refl invalidated this).update this rfl (.inl rfl)
          cases fieldName with
          | other text =>
              exact ⟨_, rfl, by simp only [change, addRelationship, hgo, hall]; rfl, hchecked⟩
          | string field =>
              cases related with
              | other => exact ⟨_, rfl, by simp only [change, addRelationship, hgo, hall]; rfl, hchecked⟩
              | null => exact ⟨_, rfl, by simp only [change, addRelationship, hgo, hall]; rfl, hchecked⟩
              | projection related =>
                  refine ⟨_, rfl, by simp only [change, addRelationship, hgo, hall]; rfl, ?_⟩
                  refine (hchecked.update this ?_ (.inl ?_)).update related rfl (.inr rfl)
                  · rw [Function.update_self]
                  · rw [Function.update_self]

omit [DecidableEq ι] in
/-- A change makes no new users, but that the projection may come to use itself. -/
theorem Changed.uses {invalidated after : Graph ι} {this user : ι}
    (h : Changed invalidated after this) (huses : Uses after user this) :
    Uses invalidated user this ∨ user = this := by
  unfold Uses at huses ⊢
  induction huses with
  | single hleads => exact (h.usedBy _ _ hleads).imp_left .single
  | tail _ hleads ih =>
      rcases h.usedBy _ _ hleads with hold | rfl
      · rcases ih with ih | rfl
        · exact .inl (ih.tail hold)
        · exact .inl (.single hold)
      · exact .inr rfl

omit [DecidableEq ι] in
theorem Changed.uses_of_uses {invalidated after : Graph ι} {this user : ι}
    (h : Changed invalidated after this) (huses : Uses invalidated user this) :
    Uses after user this := by
  unfold Uses at huses ⊢
  induction huses with
  | single hleads => exact .single (h.subset _ _ hleads)
  | tail _ hleads ih => exact ih.tail (h.subset _ _ hleads)

omit [DecidableEq ι] in
theorem uses_congr {graph invalidated : Graph ι}
    (h : ∀ projection, (invalidated projection).usedBy = (graph projection).usedBy) (user used : ι) :
    Uses invalidated user used ↔ Uses graph user used := by
  have hsame : (fun projection => (invalidated projection).usedBy) =
      fun projection => (graph projection).usedBy := funext h
  unfold Uses
  rw [hsame]

/-- Users are invalidated exactly if the queue ends and comes to them first. -/
theorem invalidatesUsers_iff (graph : Graph ι) (this : ι) (call : Change ι) :
    InvalidatesUsers graph this call ↔ UsersReached graph this := by
  unfold InvalidatesUsers UsersReached
  cases hgo : inError graph this with
  | true =>
      refine iff_of_true ⟨⟨0, ?_⟩, fun _ _ h => nomatch h⟩ (.inl rfl)
      cases call <;> simp [change, addFields, addRelationship, hgo]
  | false =>
      rw [or_iff_right (by simp), ← isSome_invalidateAll_iff]
      have hends : (∃ fuel, (change fuel graph this call).isSome) ↔
          ∃ fuel, (invalidateAll fuel [this] graph).isSome := by
        refine exists_congr fun fuel => ?_
        rcases change_spec hgo call fuel with ⟨hnone, hloop⟩ | ⟨_, _, hloop, hsome, -⟩
        · rw [hnone, hloop]
        · rw [hsome, hloop, Option.isSome_some, Option.isSome_some]
      rw [hends]
      refine and_congr_right fun ⟨fuel, hsome⟩ => ?_
      obtain ⟨invalidated, hloop⟩ := Option.isSome_iff_exists.mp hsome
      constructor
      · intro hall user huses hvalidated
        by_contra hnot
        rcases change_spec hgo call fuel with ⟨-, hnone⟩ | ⟨_, after, hsame, hafter, hchanged⟩
        · rw [hnone] at hloop
          cases hloop
        · rw [hloop] at hsame
          cases hsame
          rw [← uses_congr (usedBy_invalidateAll hloop)] at huses
          have hcleared := hall fuel after rfl hafter user (hchanged.uses_of_uses huses)
          rw [hchanged.validated, ← Bool.not_eq_true, validated_invalidateAll hloop] at hcleared
          exact hcleared ⟨hnot, hvalidated⟩
      · intro hreached fuel' after _ hafter user huses
        rcases change_spec hgo call fuel' with ⟨hnone, -⟩ | ⟨_, _, hloop', hafter', hchanged⟩
        · rw [hnone] at hafter
          cases hafter
        · rw [hafter] at hafter'
          cases hafter'
          rw [hchanged.validated, ← Bool.not_eq_true, validated_invalidateAll hloop']
          rintro ⟨hnot, hvalidated⟩
          rcases hchanged.uses huses with huses | rfl
          · rw [uses_congr (usedBy_invalidateAll hloop')] at huses
            exact hnot (hreached user huses hvalidated)
          · exact hnot (visited_self hgo)

omit [DecidableEq ι] in
/-- Among finitely many projections, the queue of users ends exactly if there is no loop among them,
or one of them is in error. -/
theorem ends_iff_noLoopOfUsers [Finite ι] (graph : Graph ι) (this : ι) :
    Ends (fun projection => (graph projection).usedBy) (inError graph) this ↔
      NoLoop (Leads fun projection => (graph projection).usedBy) this ∨
        ∃ user, ReflTransGen (Leads fun projection => (graph projection).usedBy) this user ∧
          inError graph user = true := by
  unfold Ends
  rw [acc_iff_noLoop (Set.toFinite _)]

end

/-- A projection that is used by a projection in error and by a validated one. -/
def usedTwice : Graph ℕ
  | 0 => ⟨"Item", ["name"], [], [1, 2], true, ""⟩
  | 1 => ⟨"Cart", [], [("items", 0)], [], false, "\nError in addFields for Cart"⟩
  | _ => ⟨"Order", [], [("items", 0)], [], true, ""⟩

/-- The projection in error keeps the other one from being invalidated. -/
theorem not_invalidatesUsers_usedTwice :
    ¬ ∀ (graph : Graph ℕ) (this : ℕ) (call : Change ℕ), InvalidatesUsers graph this call := by
  intro hclaim
  have hcleared := (hclaim usedTwice 0 (.addFields [.single (.string "price")])).2 3 _ rfl rfl 2
    (.single (by decide : 2 ∈ [1, 2]))
  exact absurd hcleared (by decide)

end DatabaseJones.Projections
