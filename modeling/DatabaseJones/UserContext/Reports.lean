import DatabaseJones.UserContext.Operations

/-!
# Which errors reach the user

A request is reported exactly if its keys and values are accepted and, when its operation is
executed, the result is delivered in the way that its completion function reads it.
-/

namespace DatabaseJones.UserContext

open DatabaseJones.TableHandler (Value Properties)

variable {ν S : Type}

/-! ## Outputs -/

/-- What a request that was executed has to do. -/
def Completes (noRow : Option (Answer ν)) (isActive : Bool) (delivered : Delivered ν)
    (result : Option (List (Output ν))) : Prop :=
  ∃ outputs err answer, result = some outputs ∧
    outputs.filter Output.isCallback = [.callback err answer] ∧
    err.isSome = fails noRow delivered ∧
    (delivered.missing = true → ∀ row, noRow = some row → answer = row) ∧
    (fails noRow delivered = true → isActive = true → .setRollbackOnly ∈ outputs)

variable {noRow : Option (Answer ν)} {isByKey isActive : Bool} {delivered : Delivered ν}
  {err : Option DBError} {answer : Answer ν}

theorem not_completes_none : ¬ Completes noRow isActive delivered none := by
  rintro ⟨_, _, _, hresult, -⟩
  exact nomatch hresult

theorem not_completes_nil : ¬ Completes noRow isActive delivered (some []) := by
  rintro ⟨_, _, _, hresult, honce, -⟩
  cases hresult
  exact nomatch honce

theorem completes_applyCallback_iff :
    Completes noRow isActive delivered (some (applyCallback err answer)) ↔
      err.isSome = fails noRow delivered ∧
      (delivered.missing = true → ∀ row, noRow = some row → answer = row) ∧
      ¬ (fails noRow delivered = true ∧ isActive = true) := by
  constructor
  · rintro ⟨_, _, _, hresult, honce, herror, hnull, hrollback⟩
    cases hresult
    cases honce
    refine ⟨herror, hnull, fun ⟨hfails, hactive⟩ => ?_⟩
    exact absurd (hrollback hfails hactive) (by simp [applyCallback])
  · rintro ⟨herror, hnull, hrollback⟩
    exact ⟨_, err, answer, rfl, rfl, herror, hnull,
      fun hfails hactive => absurd ⟨hfails, hactive⟩ hrollback⟩

theorem completes_rollback_iff :
    Completes noRow isActive delivered
        (some (rollbackIfActive isActive ++ applyCallback err answer)) ↔
      err.isSome = fails noRow delivered ∧
      (delivered.missing = true → ∀ row, noRow = some row → answer = row) := by
  constructor
  · rintro ⟨_, _, _, hresult, honce, herror, hnull, -⟩
    cases hresult
    cases isActive <;> cases honce <;> exact ⟨herror, hnull⟩
  · rintro ⟨herror, hnull⟩
    refine ⟨_, err, answer, rfl, ?_, herror, hnull, fun _ hactive => ?_⟩
    · cases isActive <;> rfl
    · rw [hactive]
      exact List.mem_cons_self

/-! ## What adapters deliver -/

/-- The three ways to deliver: an error; no error and success; no error and no success. -/
theorem Delivered.Proper.cases {motive : Prop} (h : delivered.Proper isByKey)
    (error : ∀ err, delivered.err = some err → motive)
    (success : ∀ result, delivered.err = none → delivered.dbOperation = some result →
      result.success = true → motive)
    (failure : ∀ result, delivered.err = none → delivered.dbOperation = some result →
      result.success = false → motive) : motive := by
  cases herr : delivered.err with
  | some err => exact error err herr
  | none =>
      obtain ⟨result, hresult⟩ := Option.isSome_iff_exists.mp (h.delivers herr)
      cases hsuccess : result.success with
      | true => exact success result herr hresult hsuccess
      | false => exact failure result herr hresult hsuccess

theorem failed_of_err {error : DBError} (h : delivered.err = some error) :
    delivered.failed = true := by
  simp [Delivered.failed, h]

theorem not_failed_of_success {result : Result ν} (herr : delivered.err = none)
    (hresult : delivered.dbOperation = some result) (hsuccess : result.success = true) :
    delivered.failed = false := by
  simp [Delivered.failed, herr, hresult, hsuccess]

theorem failed_of_failure {result : Result ν} (herr : delivered.err = none)
    (hresult : delivered.dbOperation = some result) (hsuccess : result.success = false) :
    delivered.failed = true := by
  simp [Delivered.failed, herr, hresult, hsuccess]

theorem not_missing_of_not_failed (h : delivered.failed = false) : delivered.missing = false := by
  simp [Delivered.missing, h]

theorem missing_of_err {error : DBError} (h : delivered.err = some error) :
    delivered.missing = (error.sqlstate == some "02000") := by
  simp [Delivered.missing, failed_of_err h, Delivered.error, h]

theorem missing_of_failure {result : Result ν} (herr : delivered.err = none)
    (hresult : delivered.dbOperation = some result) (hsuccess : result.success = false) :
    delivered.missing = result.error.any fun error => error.sqlstate == some "02000" := by
  simp [Delivered.missing, failed_of_failure herr hresult hsuccess, Delivered.error, herr, hresult]

/-- The error made for a result has the SQLState 02000 only if that is the result's. -/
theorem operationError_missing (error : Option DBError) :
    ((operationError error).sqlstate = some "02000") ↔
      error.any (fun error => error.sqlstate == some "02000") = true := by
  cases error with
  | none => simp [operationError]
  | some error => simp [operationError]

/-! ## Completion functions -/

theorem saveOnResult_completes (h : delivered.Proper false) :
    Completes none isActive delivered (saveOnResult isActive delivered) := by
  refine h.cases ?_ ?_ ?_
  · intro err herr
    have heq : saveOnResult isActive delivered =
        some (rollbackIfActive isActive ++ applyCallback (some err) .absent) := by
      simp [saveOnResult, checkOperation, herr]
    rw [heq, completes_rollback_iff]
    simp [fails, failed_of_err herr]
  · intro result herr hresult hsuccess
    have heq : saveOnResult isActive delivered = some (applyCallback none .absent) := by
      simp [saveOnResult, checkOperation, herr, hresult, hsuccess]
    rw [heq, completes_applyCallback_iff]
    simp [fails, not_failed_of_success herr hresult hsuccess]
  · intro result herr hresult hsuccess
    have heq : saveOnResult isActive delivered =
        some (rollbackIfActive isActive ++ applyCallback (some (operationError result.error)) .absent) := by
      simp [saveOnResult, checkOperation, herr, hresult, hsuccess]
    rw [heq, completes_rollback_iff]
    simp [fails, failed_of_failure herr hresult hsuccess]

theorem loadOnResult_completes_iff (h : delivered.Proper false) :
    Completes none isActive delivered (loadOnResult isActive delivered) ↔
      (delivered.failed = true → delivered.err.isSome = true) := by
  refine h.cases ?_ ?_ ?_
  · intro err herr
    have heq : loadOnResult isActive delivered =
        some (rollbackIfActive isActive ++ applyCallback (some err) .absent) := by
      simp [loadOnResult, checkOperation, herr]
    rw [heq, completes_rollback_iff]
    simp [fails, failed_of_err herr, herr]
  · intro result herr hresult hsuccess
    have heq : loadOnResult isActive delivered = some (applyCallback none .absent) := by
      simp [loadOnResult, checkOperation, herr, hresult, hsuccess]
    rw [heq, completes_applyCallback_iff]
    simp [fails, not_failed_of_success herr hresult hsuccess]
  · intro result herr hresult hsuccess
    have heq : loadOnResult isActive delivered =
        some (rollbackIfActive isActive ++ applyCallback none .absent) := by
      simp [loadOnResult, checkOperation, herr, hresult, hsuccess]
    rw [heq, completes_rollback_iff]
    simp [fails, failed_of_failure herr hresult hsuccess, herr]

theorem persistOnResult_completes_iff (autoIncFieldName : Option String) (values : Value S)
    (h : delivered.Proper false) :
    Completes none isActive delivered
        (persistOnResult autoIncFieldName values isActive delivered) ↔
      (delivered.failed = false →
        (delivered.dbOperation.bind Result.autoincrementValue).isSome = true →
          (setAutoincrement autoIncFieldName values).isSome = true) := by
  refine h.cases ?_ ?_ ?_
  · intro err herr
    have heq : persistOnResult autoIncFieldName values isActive delivered =
        some (rollbackIfActive isActive ++ applyCallback (some err) .absent) := by
      simp [persistOnResult, checkOperation, herr]
    rw [heq, completes_rollback_iff]
    simp [fails, failed_of_err herr]
  · intro result herr hresult hsuccess
    have hfailed := not_failed_of_success herr hresult hsuccess
    cases hvalue : result.autoincrementValue with
    | none =>
        have heq : persistOnResult autoIncFieldName values isActive delivered =
            some (applyCallback none .absent) := by
          simp [persistOnResult, checkOperation, herr, hresult, hsuccess, hvalue]
        rw [heq, completes_applyCallback_iff]
        simp [fails, hfailed, hresult, hvalue]
    | some value =>
        cases hset : setAutoincrement autoIncFieldName values with
        | none =>
            have heq : persistOnResult autoIncFieldName values isActive delivered = none := by
              simp [persistOnResult, checkOperation, herr, hresult, hsuccess, hvalue, hset]
            rw [heq]
            simp [not_completes_none, hfailed, hresult, hvalue]
        | some object =>
            have heq : persistOnResult autoIncFieldName values isActive delivered =
                some (applyCallback none .absent) := by
              simp [persistOnResult, checkOperation, herr, hresult, hsuccess, hset]
            rw [heq, completes_applyCallback_iff]
            simp [fails, hfailed]
  · intro result herr hresult hsuccess
    have heq : persistOnResult autoIncFieldName values isActive delivered =
        some (rollbackIfActive isActive ++ applyCallback (some (operationError result.error)) .absent) := by
      simp [persistOnResult, checkOperation, herr, hresult, hsuccess]
    rw [heq, completes_rollback_iff]
    simp [fails, failed_of_failure herr hresult hsuccess]

/-- A find whose result has an error. -/
theorem findOnResult_of_failed {result : Result ν} {error : DBError}
    (hfailed : delivered.failed = true) (hresult : delivered.dbOperation = some result)
    (herror : result.error = some error) :
    findOnResult isActive delivered =
      if error.sqlstate = some "02000" then some (applyCallback none (.ofValue result.value))
      else some (rollbackIfActive isActive ++ applyCallback delivered.err .null) := by
  cases herr : delivered.err with
  | some err => simp [findOnResult, checkOperation, herr, hresult, herror]
  | none =>
      have hsuccess : result.success = false := by
        simpa [Delivered.failed, herr, hresult] using hfailed
      simp [findOnResult, checkOperation, herr, hresult, herror, hsuccess]

theorem findOnResult_completes_iff (h : delivered.Proper true) :
    Completes (some .null) isActive delivered (findOnResult isActive delivered) ↔
      (delivered.failed = true → (delivered.dbOperation.bind Result.error).isSome = true ∧
        (delivered.missing = true ∨ delivered.err.isSome = true)) := by
  cases hfailed : delivered.failed with
  | false =>
      have hmissing := not_missing_of_not_failed hfailed
      refine h.cases ?_ ?_ ?_
      · intro err herr
        exact absurd (failed_of_err herr) (by simp [hfailed])
      · intro result herr hresult hsuccess
        have heq : findOnResult isActive delivered =
            some (applyCallback none (.ofValue result.value)) := by
          simp [findOnResult, checkOperation, herr, hresult, hsuccess]
        rw [heq, completes_applyCallback_iff]
        simp [fails, hfailed, hmissing]
      · intro result herr hresult hsuccess
        exact absurd (failed_of_failure herr hresult hsuccess) (by simp [hfailed])
  | true =>
      cases herror : delivered.dbOperation.bind Result.error with
      | none =>
          have heq : findOnResult isActive delivered = none := by
            cases hresult : delivered.dbOperation with
            | none => cases herr : delivered.err <;> simp [findOnResult, checkOperation, herr, hresult]
            | some result =>
                have hnone : result.error = none := by simpa [hresult] using herror
                cases herr : delivered.err with
                | some err => simp [findOnResult, checkOperation, herr, hresult, hnone]
                | none =>
                    have hsuccess : result.success = false := by
                      simpa [Delivered.failed, herr, hresult] using hfailed
                    simp [findOnResult, checkOperation, herr, hresult, hnone, hsuccess]
          rw [heq]
          simp [not_completes_none]
      | some error =>
          obtain ⟨result, hresult, herror⟩ := Option.bind_eq_some_iff.mp herror
          have hmissing : delivered.missing = (error.sqlstate == some "02000") := by
            cases herr : delivered.err with
            | some err => rw [missing_of_err herr, h.same err result error herr hresult herror]
            | none =>
                have hsuccess : result.success = false := by
                  simpa [Delivered.failed, herr, hresult] using hfailed
                rw [missing_of_failure herr hresult hsuccess, herror]
                rfl
          rw [findOnResult_of_failed hfailed hresult herror]
          by_cases hstate : error.sqlstate = some "02000"
          · have hmissing : delivered.missing = true := by simpa [hstate] using hmissing
            have hvalue : result.value = none := by
              simpa [hresult] using h.value_of_missing rfl hmissing
            rw [if_pos hstate, completes_applyCallback_iff]
            simp [fails, hmissing, hvalue, Answer.ofValue]
          · have hmissing : delivered.missing = false := by
              rw [hmissing]
              exact beq_false_of_ne hstate
            rw [if_neg hstate, completes_rollback_iff]
            simp [fails, hfailed, hmissing]

theorem executeQueryKeyOnResult_completes_iff (h : delivered.Proper true) :
    Completes (some (.list [])) isActive delivered (executeQueryKeyOnResult delivered) ↔
      (delivered.failed = true → delivered.missing = true ∨ isActive = false) := by
  refine h.cases ?_ ?_ ?_
  · intro err herr
    have hmissing := missing_of_err herr
    by_cases hstate : err.sqlstate = some "02000"
    · have heq : executeQueryKeyOnResult delivered = some (applyCallback none (.list [])) := by
        simp [executeQueryKeyOnResult, checkOperation, herr, hstate]
      rw [heq, completes_applyCallback_iff]
      simp [fails, hmissing, hstate]
    · have heq : executeQueryKeyOnResult delivered = some (applyCallback (some err) .null) := by
        simp [executeQueryKeyOnResult, checkOperation, herr, hstate]
      rw [heq, completes_applyCallback_iff]
      simp [fails, failed_of_err herr, hmissing, hstate]
  · intro result herr hresult hsuccess
    have heq : executeQueryKeyOnResult delivered =
        some (applyCallback none (.list result.value.toList)) := by
      simp [executeQueryKeyOnResult, checkOperation, herr, hresult, hsuccess]
    rw [heq, completes_applyCallback_iff]
    have hfailed := not_failed_of_success herr hresult hsuccess
    simp [fails, hfailed, not_missing_of_not_failed hfailed]
  · intro result herr hresult hsuccess
    have hmissing := missing_of_failure herr hresult hsuccess
    have hstate := operationError_missing result.error
    rw [← hmissing] at hstate
    cases hcase : delivered.missing with
    | true =>
        have heq : executeQueryKeyOnResult delivered = some (applyCallback none (.list [])) := by
          simp [executeQueryKeyOnResult, checkOperation, herr, hresult, hsuccess, hstate.mpr hcase]
        rw [heq, completes_applyCallback_iff]
        simp [fails, hcase]
    | false =>
        have hne : ¬ (operationError result.error).sqlstate = some "02000" := by
          rw [hstate, hcase]
          exact Bool.false_ne_true
        have heq : executeQueryKeyOnResult delivered =
            some (applyCallback (some (operationError result.error)) .null) := by
          simp [executeQueryKeyOnResult, checkOperation, herr, hresult, hsuccess, hne]
        rw [heq, completes_applyCallback_iff]
        simp [fails, failed_of_failure herr hresult hsuccess, hcase]

theorem executeQueryKeyProjectionOnResult_completes_iff (h : delivered.Proper true) :
    Completes (some (.list [])) isActive delivered (executeQueryKeyProjectionOnResult delivered) ↔
      if delivered.failed then
        delivered.err.isSome = true ∧ (delivered.missing = true ∨ isActive = false)
      else (delivered.dbOperation.bind Result.value).isSome = true := by
  cases herr : delivered.err with
  | some err =>
      have hmissing := missing_of_err herr
      by_cases hstate : err.sqlstate = some "02000"
      · have heq : executeQueryKeyProjectionOnResult delivered =
            some (applyCallback none (.list [])) := by
          simp [executeQueryKeyProjectionOnResult, herr, hstate]
        rw [heq, completes_applyCallback_iff]
        simp [fails, failed_of_err herr, hmissing, hstate]
      · have heq : executeQueryKeyProjectionOnResult delivered =
            some (applyCallback (some err) .null) := by
          simp [executeQueryKeyProjectionOnResult, herr, hstate]
        rw [heq, completes_applyCallback_iff]
        simp [fails, failed_of_err herr, hmissing, hstate]
  | none =>
      obtain ⟨result, hresult⟩ := Option.isSome_iff_exists.mp (h.delivers herr)
      cases hvalue : result.value with
      | none =>
          have heq : executeQueryKeyProjectionOnResult delivered = some [] := by
            simp [executeQueryKeyProjectionOnResult, herr, hresult, hvalue]
          rw [heq]
          simp [not_completes_nil, hresult, hvalue]
      | some value =>
          have heq : executeQueryKeyProjectionOnResult delivered =
              some (applyCallback none (.list [value])) := by
            simp [executeQueryKeyProjectionOnResult, herr, hresult, hvalue]
          have hmissing : delivered.missing = false := by
            by_contra hmissing
            have hnone := h.value_of_missing rfl (Bool.eq_true_of_not_eq_false hmissing)
            rw [hresult] at hnone
            exact nomatch hvalue.symm.trans hnone
          rw [heq, completes_applyCallback_iff]
          cases hfailed : delivered.failed <;> simp [fails, hfailed, hmissing, hresult, hvalue]

theorem executeQueryScanOnResult_completes_iff (h : delivered.Proper false) :
    Completes (some (.list [])) isActive delivered (executeQueryScanOnResult delivered) ↔
      (delivered.failed = true →
        delivered.err.isSome = true ∧ (delivered.missing = true ∨ isActive = false)) := by
  refine h.cases ?_ ?_ ?_
  · intro err herr
    have hmissing := missing_of_err herr
    by_cases hstate : err.sqlstate = some "02000"
    · have heq : executeQueryScanOnResult delivered = some (applyCallback none (.list [])) := by
        simp [executeQueryScanOnResult, checkOperation, herr, hstate]
      rw [heq, completes_applyCallback_iff]
      simp [fails, hmissing, hstate, herr]
    · have heq : executeQueryScanOnResult delivered = some (applyCallback (some err) .null) := by
        simp [executeQueryScanOnResult, checkOperation, herr, hstate]
      rw [heq, completes_applyCallback_iff]
      simp [fails, failed_of_err herr, hmissing, hstate, herr]
  · intro result herr hresult hsuccess
    have heq : executeQueryScanOnResult delivered =
        some (applyCallback none (.ofValue result.value)) := by
      simp [executeQueryScanOnResult, checkOperation, herr, hresult, hsuccess]
    rw [heq, completes_applyCallback_iff]
    have hfailed := not_failed_of_success herr hresult hsuccess
    simp [fails, hfailed, not_missing_of_not_failed hfailed]
  · intro result herr hresult hsuccess
    have heq : executeQueryScanOnResult delivered = none := by
      simp [executeQueryScanOnResult, checkOperation, herr, hresult, hsuccess]
    rw [heq]
    simp [not_completes_none, failed_of_failure herr hresult hsuccess, herr]

/-! ## Requests -/

variable {environment : Environment S} {handler : Except DBError DBTableHandler}
  {request : Request S}

/-- A step that is not a throw. -/
theorem build_isSome (index : Option DBIndexHandler) :
    (build environment request index).isSome = environment.builds request index := by
  unfold build
  cases environment.builds request index <;> rfl

theorem findOnTableHandler_isSome_iff (table : DBTableHandler) (keys : Value S) (message : String) :
    (findOnTableHandler environment table request keys message).isSome = true ↔
      Usable environment table request keys false false fun _ => true := by
  unfold findOnTableHandler Usable
  rcases table.chooseIndex environment.isSimple keys false with _ | _ | index
  · simp
  · simp [userError]
  · simp [build_isSome]

theorem saveOnTableHandler_isSome_iff (table : DBTableHandler) (values : Value S) :
    (saveOnTableHandler environment table values).isSome = true ↔
      Usable environment table (.save values) values false true DBIndexHandler.isPrimaryKey := by
  unfold saveOnTableHandler Usable
  rcases table.chooseIndex environment.isSimple values false with _ | _ | index
  · simp
  · simp
  · cases hprimary : index.isPrimaryKey <;> simp [hprimary, userError, build_isSome]

theorem updateObjectOnTableHandler_isSome_iff (table : DBTableHandler) (object : Value S) :
    (updateObjectOnTableHandler environment table object).isSome = true ↔
      Usable environment table (.updateObject object) object true true
        DBIndexHandler.isPrimaryKey := by
  unfold updateObjectOnTableHandler Usable
  rcases table.chooseIndex environment.isSimple object true with _ | _ | index
  · simp
  · simp
  · cases hprimary : index.isPrimaryKey <;> simp [hprimary, userError, build_isSome]

theorem updateOnTableHandler_isSome_iff (table : DBTableHandler) (keys values : Value S) :
    (updateOnTableHandler environment table keys values).isSome = true ↔
      Usable environment table (.update keys values) keys true true fun _ => true := by
  unfold updateOnTableHandler Usable
  rcases table.chooseIndex environment.isSimple keys true with _ | _ | index
  · simp
  · simp
  · simp [build_isSome]

/-- A request does not throw before its operation is executed. -/
theorem start_isSome_iff :
    (start environment handler request).isSome = true ↔ Accepted environment handler request := by
  cases request with
  | executeKeyQuery isProjection => exact iff_of_eq (congrArg (· = true) (build_isSome none))
  | executeScanQuery params =>
      simp only [start, Accepted]
      cases parameterError environment params with
      | some message => simp [userError]
      | none => simp [build_isSome]
  | find keys =>
      cases handler with
      | error err => cases keys <;> simp [start, Accepted, userError]
      | ok table =>
          cases keys with
          | undefined => simp [start, Accepted, userError]
          | _ => exact findOnTableHandler_isSome_iff table _ _
  | findWithProjection keys =>
      cases handler with
      | error err => cases keys <;> simp [start, Accepted, userError]
      | ok table =>
          cases keys with
          | undefined => simp [start, Accepted, userError]
          | _ => exact findOnTableHandler_isSome_iff table _ _
  | load isMapped keys =>
      cases isMapped with
      | false => cases keys <;> simp [start, Accepted, userError]
      | true =>
          cases handler with
          | error err => cases keys <;> simp [start, Accepted]
          | ok table =>
              cases keys with
              | undefined => simp [start, Accepted]
              | null => simp [start, Accepted]
              | _ => exact findOnTableHandler_isSome_iff table _ _
  | persist values =>
      cases handler with
      | error err => exact iff_of_true rfl trivial
      | ok table => exact iff_of_eq (congrArg (· = true) (build_isSome none))
  | save values =>
      cases handler with
      | error err => exact iff_of_true rfl trivial
      | ok table => exact saveOnTableHandler_isSome_iff table values
  | updateObject object =>
      cases handler with
      | error err => exact iff_of_true rfl trivial
      | ok table => exact updateObjectOnTableHandler_isSome_iff table object
  | update keys values =>
      cases handler with
      | error err => exact iff_of_true rfl trivial
      | ok table => exact updateOnTableHandler_isSome_iff table keys values
  | remove keys =>
      cases handler with
      | error err => exact iff_of_true rfl trivial
      | ok table => exact findOnTableHandler_isSome_iff table keys _

/-- What a request that is executed has to do is what its completion function does. -/
theorem onResult_completes_iff (h : delivered.Proper request.isByKey) :
    Completes request.noRow isActive delivered (onResult handler isActive delivered request) ↔
      Readable handler isActive delivered request := by
  cases request with
  | find keys => exact findOnResult_completes_iff h
  | findWithProjection keys => exact findOnResult_completes_iff h
  | load isMapped keys => exact loadOnResult_completes_iff h
  | persist values => exact persistOnResult_completes_iff _ values h
  | save values => exact iff_of_true (saveOnResult_completes h) trivial
  | updateObject object => exact iff_of_true (saveOnResult_completes h) trivial
  | update keys values => exact iff_of_true (saveOnResult_completes h) trivial
  | remove keys => exact iff_of_true (saveOnResult_completes h) trivial
  | executeKeyQuery isProjection =>
      cases isProjection with
      | false => exact executeQueryKeyOnResult_completes_iff h
      | true => exact executeQueryKeyProjectionOnResult_completes_iff h
  | executeScanQuery params => exact executeQueryScanOnResult_completes_iff h

theorem reported_of_answered {err : DBError} (isActive : Bool) (delivered : Delivered ν)
    (hstart : start environment handler request = some (.answered err)) :
    Reported environment handler isActive delivered request := by
  refine ⟨.answered err, applyCallback (some err) request.noAnswer, some err, request.noAnswer,
    hstart, ?_, rfl, rfl, ?_, ?_⟩
  · rw [operate, hstart]
    rfl
  · intro heq
    exact nomatch heq
  · intro heq
    exact nomatch heq

theorem reported_iff_completes (hstart : start environment handler request = some .executed) :
    Reported environment handler isActive delivered request ↔
      Completes request.noRow isActive delivered (onResult handler isActive delivered request) := by
  have hoperate : operate environment handler isActive delivered request =
      onResult handler isActive delivered request := by
    rw [operate, hstart]
    rfl
  constructor
  · rintro ⟨step, outputs, err, answer, hstep, hresult, honce, herror, hrow, hrollback⟩
    obtain rfl : .executed = step := Option.some.inj (hstart.symm.trans hstep)
    exact ⟨outputs, err, answer, hoperate.symm.trans hresult, honce, herror, hrow rfl, hrollback rfl⟩
  · rintro ⟨outputs, err, answer, hresult, honce, herror, hrow, hrollback⟩
    exact ⟨.executed, outputs, err, answer, hstart, hoperate.trans hresult, honce, herror,
      fun _ => hrow, fun _ => hrollback⟩

def peopleHandler : DBTableHandler where
  name := "people"
  dbIndexHandlers := [⟨true, true, true, [0]⟩]
  columnMaskForField name := if name = "id" then some [0] else none
  autoIncFieldName := none

/-- Scalars are numbers, and the adapter builds every operation. -/
def numbers : Environment ℕ where
  isSimple _ := true
  stringify _ := ""
  toUpperCase := id
  builds _ _ := true

/-- A person with the id 7. -/
def seven : Value ℕ := .object [("id", .scalar 7)]

/-- The MySQL adapter's result for a row that does not exist. -/
def noSuchRow : Delivered ℕ where
  dbOperation := some { success := false, error := some { sqlstate := some "02000" } }

theorem proper_noSuchRow : noSuchRow.Proper true where
  delivers _ := rfl
  same _ _ _ herr := nomatch herr
  value_of_missing _ _ := rfl

end DatabaseJones.UserContext
