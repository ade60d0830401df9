import DatabaseJones.Library.Run

/-!
# Versions of a projection

Each time `validateProjection` works on a projection, it gives the projection a new id, and the
MySQL adapter generates SQL for the projection when the id is not the one that it generated SQL for
last.  The id is taken modulo `2^24`, which is an exclusive or and makes 26.
-/

namespace DatabaseJones.Projections

open DatabaseJones.Library

/-- `2^24`. -/
def idModulus : ℕ := 2 ^^^ 24

/-- A projection, as `validateProjection` and the MySQL adapter see it.  The SQL is a function of
the sectors.  `earlierIds` are the ids that the projection had before the present one, since the
adapter last generated SQL for it. -/
structure Versioned (σ : Type) where
  id : ℕ
  sectors : σ
  validated : Bool
  mysql : Option (ℕ × σ)
  earlierIds : List ℕ
deriving DecidableEq, Repr

/-- What happens to a projection: it or a projection that it uses is changed; it is validated, with
new sectors if there are no errors; an operation is built for it. -/
inductive VersionEvent (σ : Type)
  | change
  | validate (sectors : Option σ)
  | buildOperation
deriving DecidableEq, Repr

section
variable {σ : Type}

/-- A new projection. -/
def newVersioned (sectors : σ) : Versioned σ :=
  { id := 0, sectors, validated := false, mysql := none, earlierIds := [] }

/-- `validateProjectionOnTableHandler`, and `createSector` where it is called. -/
def validate (projection : Versioned σ) (sectors : Option σ) : Versioned σ :=
  { projection with
    id := (projection.id + 1) % idModulus
    sectors := sectors.getD projection.sectors
    validated := sectors.isSome || projection.validated
    earlierIds := if projection.mysql.isSome then projection.earlierIds ++ [projection.id] else [] }

/-- `initializeProjection` of the MySQL adapter. -/
def initializeProjection (projection : Versioned σ) : Versioned σ :=
  { projection with mysql := some (projection.id, projection.sectors), earlierIds := [] }

/-- `buildReadProjectionOperation` and `buildScanOperation`: generate SQL if there is none, or none
for this id. -/
def buildOperation (projection : Versioned σ) : Versioned σ :=
  match projection.mysql with
  | none => initializeProjection projection
  | some (id, _) => if id ≠ projection.id then initializeProjection projection else projection

/-- An operation is built for a validated projection. -/
def versionStep (projection : Versioned σ) : VersionEvent σ → Option (Versioned σ)
  | .change => some { projection with validated := false }
  | .validate sectors => some (validate projection sectors)
  | .buildOperation => if projection.validated then some (buildOperation projection) else none

/-! ## What is expected of the ids -/

/-- The id is a new one, and what SQL was generated for under this id are the present sectors. -/
structure IdIsNew (projection : Versioned σ) : Prop where
  new : projection.id ∉ projection.earlierIds
  current : ∀ sectors, projection.mysql = some (projection.id, sectors) →
    sectors = projection.sectors

/-- With this validation, there are less than 26 since SQL was generated for the projection. -/
def FewValidations (projection : Versioned σ) : VersionEvent σ → Prop
  | .validate _ => projection.mysql = none ∨ projection.earlierIds.length + 1 < idModulus
  | _ => True

instance (projection : Versioned σ) (event : VersionEvent σ) :
    Decidable (FewValidations projection event) := by
  cases event <;> unfold FewValidations <;> infer_instance

/-! ## Runs -/

theorem idModulus_eq : idModulus = 26 := by decide

/-- The ids since SQL was generated follow one another. -/
structure Counted (projection : Versioned σ) : Prop where
  id_lt : projection.id < idModulus
  ungenerated : projection.mysql = none → projection.earlierIds = []
  generated : ∀ id sectors, projection.mysql = some (id, sectors) →
    projection.earlierIds =
        (List.range projection.earlierIds.length).map (fun i => (id + i) % idModulus) ∧
      projection.id = (id + projection.earlierIds.length) % idModulus ∧ id < idModulus
  current : ∀ id sectors, projection.mysql = some (id, sectors) → projection.earlierIds = [] →
    sectors = projection.sectors

theorem counted_newVersioned (sectors : σ) : Counted (newVersioned sectors) where
  id_lt := by
    rw [idModulus_eq]
    exact Nat.zero_lt_succ 25
  ungenerated _ := rfl
  generated _ _ h := nomatch h
  current _ _ h := nomatch h

theorem Counted.initializeProjection {projection : Versioned σ} (h : Counted projection) :
    Counted (initializeProjection projection) where
  id_lt := h.id_lt
  ungenerated hnone := nomatch hnone
  generated id sectors hsome := by
    cases Option.some.inj hsome
    exact ⟨rfl, (Nat.mod_eq_of_lt h.id_lt).symm, h.id_lt⟩
  current id sectors hsome _ := by
    cases Option.some.inj hsome
    rfl

theorem Counted.buildOperation {projection : Versioned σ} (h : Counted projection) :
    Counted (buildOperation projection) := by
  unfold Projections.buildOperation
  cases hmysql : projection.mysql with
  | none => exact h.initializeProjection
  | some cached =>
      dsimp only
      split_ifs
      · exact h.initializeProjection
      · exact h

theorem Counted.validate {projection : Versioned σ} (h : Counted projection)
    (sectors : Option σ) : Counted (validate projection sectors) := by
  have hpos : 0 < idModulus := by rw [idModulus_eq]; decide
  cases hmysql : projection.mysql with
  | none =>
      refine ⟨Nat.mod_lt _ hpos, fun _ => ?_, fun _ _ hsome => ?_, fun _ _ hsome => ?_⟩
      · simp [Projections.validate, hmysql]
      · exact nomatch hmysql.symm.trans hsome
      · exact nomatch hmysql.symm.trans hsome
  | some cached =>
      obtain ⟨hearlier, hid, hlt⟩ := h.generated cached.1 cached.2 hmysql
      have hids : (Projections.validate projection sectors).earlierIds =
          projection.earlierIds ++ [projection.id] := by
        simp [Projections.validate, hmysql]
      refine ⟨Nat.mod_lt _ hpos, fun hnone => ?_, fun id _ hsome => ?_, fun _ _ _ hnil => ?_⟩
      · exact nomatch hmysql.symm.trans hnone
      · cases Option.some.inj (hmysql.symm.trans hsome)
        refine ⟨?_, ?_, hlt⟩
        · rw [hids, List.length_append, List.length_singleton, List.range_succ, List.map_append,
            ← hearlier, List.map_singleton, ← hid]
        · rw [hids, List.length_append, List.length_singleton]
          change (projection.id + 1) % idModulus = _
          rw [hid, Nat.mod_add_mod, Nat.add_assoc]
      · rw [hids] at hnil
        exact absurd hnil (by simp)

theorem Counted.versionStep {projection next : Versioned σ} {event : VersionEvent σ}
    (h : Counted projection) (hstep : versionStep projection event = some next) : Counted next := by
  cases event with
  | change =>
      cases Option.some.inj hstep
      exact ⟨h.id_lt, h.ungenerated, h.generated, h.current⟩
  | validate sectors =>
      cases Option.some.inj hstep
      exact h.validate sectors
  | buildOperation =>
      unfold Projections.versionStep at hstep
      split_ifs at hstep
      cases Option.some.inj hstep
      exact h.buildOperation

/-- The id is new as long as there are not as many ids as the modulus. -/
theorem Counted.isNew_iff {projection : Versioned σ} (h : Counted projection) :
    IdIsNew projection ↔ projection.earlierIds.length < idModulus := by
  cases hmysql : projection.mysql with
  | none =>
      rw [h.ungenerated hmysql]
      refine iff_of_true ⟨?_, fun _ hsome => nomatch hmysql.symm.trans hsome⟩ (by
        rw [idModulus_eq]; decide)
      rw [h.ungenerated hmysql]
      exact List.not_mem_nil
  | some cached =>
      obtain ⟨hearlier, hid, hlt⟩ := h.generated cached.1 cached.2 hmysql
      rw [idModulus_eq] at hid hlt hearlier ⊢
      constructor
      · rintro ⟨hnew, -⟩
        by_contra hmany
        refine hnew ?_
        -- The id of 26 validations ago.
        rw [hearlier]
        refine List.mem_map.mpr ⟨projection.earlierIds.length - 26, List.mem_range.mpr (by omega), ?_⟩
        rw [hid]
        omega
      · intro hfew
        refine ⟨?_, fun sectors hsome => ?_⟩
        · rw [hearlier]
          intro hmem
          obtain ⟨i, hi, hsame⟩ := List.mem_map.mp hmem
          have hlt := List.mem_range.mp hi
          rw [hid] at hsame
          omega
        · cases Option.some.inj (hmysql.symm.trans hsome)
          refine h.current _ _ hmysql (List.length_eq_zero_iff.mp ?_)
          dsimp only at hid
          omega

theorem Counted.idIsNew_next_iff {projection next : Versioned σ} {event : VersionEvent σ}
    (h : Counted projection) (hnew : IdIsNew projection)
    (hstep : Projections.versionStep projection event = some next) :
    IdIsNew next ↔ FewValidations projection event := by
  have hnext := h.versionStep hstep
  rw [hnext.isNew_iff]
  rw [h.isNew_iff] at hnew
  have hpos : 0 < idModulus := by rw [idModulus_eq]; decide
  cases event with
  | change =>
      cases Option.some.inj hstep
      exact iff_of_true hnew trivial
  | validate sectors =>
      cases Option.some.inj hstep
      unfold FewValidations
      cases hmysql : projection.mysql with
      | none => simp [Projections.validate, hmysql, hpos]
      | some cached => simp [Projections.validate, hmysql]
  | buildOperation =>
      unfold Projections.versionStep at hstep
      split_ifs at hstep
      cases Option.some.inj hstep
      refine iff_of_true ?_ trivial
      unfold Projections.buildOperation
      cases hmysql : projection.mysql with
      | none => exact hpos
      | some cached =>
          dsimp only
          split_ifs
          · exact hpos
          · exact hnew

theorem idIsNew_iff_of_counted {projection : Versioned σ} (h : Counted projection)
    (hnew : IdIsNew projection) (events : List (VersionEvent σ)) :
    (∀ count reached, run versionStep projection (events.take count) = some reached →
        IdIsNew reached) ↔
      Guarded versionStep FewValidations projection events := by
  induction events generalizing projection with
  | nil =>
      refine iff_of_true (fun count reached hrun => ?_) trivial
      rw [List.take_nil] at hrun
      exact Option.some.inj hrun ▸ hnew
  | cons event events ih =>
      cases hstep : versionStep projection event with
      | none =>
          -- The event is not possible, so the run ends here.
          have hfew : FewValidations projection event := by
            cases event with
            | validate sectors => cases hstep
            | change => trivial
            | buildOperation => trivial
          refine iff_of_true (fun count reached hrun => ?_)
            ⟨hfew, fun next hnext => nomatch hstep.symm.trans hnext⟩
          cases count with
          | zero => exact Option.some.inj hrun ▸ hnew
          | succ count =>
              obtain ⟨next, hnext, -⟩ := run_cons_eq_some.mp hrun
              exact nomatch hstep.symm.trans hnext
      | some next =>
          have hnext := h.versionStep hstep
          have hiff := h.idIsNew_next_iff hnew hstep
          constructor
          · intro hall
            have hfirst : IdIsNew next := hall 1 next (by
              rw [List.take_succ_cons, List.take_zero]
              exact run_cons_eq_some.mpr ⟨next, hstep, rfl⟩)
            refine ⟨hiff.mp hfirst, fun other hother => ?_⟩
            cases Option.some.inj (hstep.symm.trans hother)
            refine (ih hnext hfirst).mp fun count reached hrun => hall (count + 1) reached ?_
            rw [List.take_succ_cons]
            exact run_cons_eq_some.mpr ⟨next, hstep, hrun⟩
          · rintro ⟨hfew, hrest⟩ count reached hrun
            cases count with
            | zero => exact Option.some.inj hrun ▸ hnew
            | succ count =>
                rw [List.take_succ_cons] at hrun
                obtain ⟨other, hother, hrun⟩ := run_cons_eq_some.mp hrun
                cases Option.some.inj (hstep.symm.trans hother)
                exact (ih hnext (hiff.mpr hfew)).mpr (hrest next hstep) count reached hrun

end

end DatabaseJones.Projections
