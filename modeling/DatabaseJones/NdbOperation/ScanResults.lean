import Mathlib.Data.List.Basic
import Mathlib.Tactic

/-!
# The results of a scan

`getScanResults` of `NdbOperation.js`.  It asks NDB for one row after the other: `fetchResults`
waits for a batch of rows, and `nextResult` takes a row out of the batch.  It stops when it has
the rows that are skipped and as many rows as the limit says, and then drops the first ones.

`gather` looks for an error in what `fetchResults` reports only.  An error that `nextResult`
reports ends the scan as if there were no more rows.
-/

namespace DatabaseJones.NdbOperation.ScanResults

variable {R E : Type}

/-! ## The code -/

/-- What NDB answers: the statuses 0 with a row, 1, 2, and those below zero. -/
inductive Answer (R E : Type)
  | resultsReady (row : R)
  | scanFinished
  | cacheEmpty
  | error (error : E)
deriving DecidableEq, Repr

/-- What the callback is called with. -/
inductive Call (R E : Type)
  | error (error : E)
  | results (results : List R)
deriving DecidableEq, Repr

/-- `scanop.params`, as far as they say which rows are wanted. -/
structure Params where
  skip : Option ℤ := none
  limit : Option ℤ := none
deriving DecidableEq, Repr

/-- `nSkip`. -/
def Params.nSkip (params : Params) : ℕ := (params.skip.getD 0).toNat

/-- The limit that is obeyed. -/
def Params.limit? (params : Params) : Option ℕ :=
  (params.limit.filter fun limit => 0 ≤ limit).map Int.toNat

/-- `maxRow` where there is no limit. -/
def noLimit : ℕ := 100000000000

/-- `maxRow`. -/
def Params.maxRow (params : Params) : ℕ :=
  match params.limit? with
  | some limit => params.nSkip + limit
  | none => noLimit

/-- The end of the scan: the rows that should have been skipped are removed. -/
def endOfScan (nSkip : ℕ) (results : List R) : List (Call R E) := [.results (results.drop nSkip)]

/-- `gather` and its loop, for what NDB answers one after the other; `fetching` says that it is
`fetchResults` that has been called, and not `nextResult`.  Where NDB does not answer the
callback is not called. -/
def gather (nSkip maxRow : ℕ) : Bool → List R → List (Answer R E) → List (Call R E)
  | _, _, [] => []
  | true, _, .error error :: _ => [.error error]
  | false, results, .error _ :: _ => endOfScan nSkip results
  | _, results, .resultsReady row :: answers =>
      if results.length < maxRow then gather nSkip maxRow false (results ++ [row]) answers
      else endOfScan nSkip results
  | _, results, .cacheEmpty :: answers =>
      if results.length < maxRow then gather nSkip maxRow true results answers
      else endOfScan nSkip results
  | _, results, .scanFinished :: _ => endOfScan nSkip results

/-- `getScanResults(scanop, userCallback)`: the calls of the callback. -/
def getScanResults (params : Params) (answers : List (Answer R E)) : List (Call R E) :=
  gather params.nSkip params.maxRow true [] answers

/-! ## Result sets -/

/-- A result set, and how NDB delivers it: the rows, with `none` where the batch is empty, and
what comes at last. -/
structure ResultSet (R E : Type) where
  delivered : List (Option R)
  failure : Option E

namespace ResultSet

/-- The rows in their order. -/
def rows (resultSet : ResultSet R E) : List R := resultSet.delivered.filterMap id

/-- NDB's answers. -/
def answers (resultSet : ResultSet R E) : List (Answer R E) :=
  resultSet.delivered.map (fun row => row.elim .cacheEmpty .resultsReady) ++
    [resultSet.failure.elim .scanFinished .error]

/-- The failure comes right after a row, that is from `nextResult`. -/
def failsAfterRow (resultSet : ResultSet R E) : Prop :=
  ∃ row, resultSet.delivered.getLast? = some (some row)

end ResultSet

/-- The rows that are wanted. -/
def Params.page (params : Params) (rows : List R) : List R :=
  match params.limit? with
  | some limit => (rows.drop params.nSkip).take limit
  | none => rows.drop params.nSkip

/-- All rows that are needed for the page have been delivered before a failure. -/
def Params.Served (params : Params) (rows : List R) : Prop :=
  ∃ limit, params.limit? = some limit ∧ params.nSkip + limit ≤ rows.length

/-- The callback is called once, and results are always the page.  A failure before the last row
that is needed is reported; without a failure, and with one after some rows if they are enough,
the page is delivered. -/
structure Delivers (params : Params) (resultSet : ResultSet R E) (calls : List (Call R E)) :
    Prop where
  once : ∃ call, calls = [call]
  isPage : ∀ results, .results results ∈ calls → results = params.page resultSet.rows
  failed : ∀ error, resultSet.failure = some error → ¬ params.Served resultSet.rows →
    calls = [.error error]
  served : resultSet.failure = none ∨ params.Served resultSet.rows ∧ resultSet.rows ≠ [] →
    calls = [.results (params.page resultSet.rows)]

/-- When the page is delivered: without a limit the result set has not more rows than are
read at most, or all of them are skipped; and a failure comes after all rows that are needed, or
from `fetchResults`. -/
def Deliverable (params : Params) (resultSet : ResultSet R E) : Prop :=
  match resultSet.failure with
  | none => params.limit? = none → resultSet.rows.length ≤ noLimit ∨
      resultSet.rows.length ≤ params.nSkip
  | some _ => ¬ params.Served resultSet.rows →
      resultSet.rows.length < params.maxRow ∧ ¬ resultSet.failsAfterRow

/-! ## Runs of the loop -/

section
variable {nSkip maxRow : ℕ} {failure : Option E}

/-- The last answer is one to `fetchResults`. -/
def endsFetching (fetching : Bool) (delivered : List (Option R)) : Bool :=
  match delivered.getLast? with
  | none => fetching
  | some row => row.isNone

theorem endsFetching_cons (fetching : Bool) (row : Option R) (delivered : List (Option R)) :
    endsFetching fetching (row :: delivered) = endsFetching row.isNone delivered := by
  unfold endsFetching
  cases delivered with
  | nil => rfl
  | cons next delivered =>
      rw [List.getLast?_cons_cons]
      cases hlast : (next :: delivered).getLast? with
      | none => simp at hlast
      | some last => rfl

/-- With fewer rows than may be read all of them are read, and then the last answer counts. -/
theorem gather_of_lt (delivered : List (Option R)) :
    ∀ (fetching : Bool) (results : List R),
      (results ++ delivered.filterMap id).length < maxRow →
      gather nSkip maxRow fetching results (ResultSet.answers ⟨delivered, failure⟩) =
        match failure with
        | none => endOfScan nSkip (results ++ delivered.filterMap id)
        | some error =>
            if endsFetching fetching delivered then [.error error]
            else endOfScan nSkip (results ++ delivered.filterMap id) := by
  induction delivered with
  | nil =>
      intro fetching results hlt
      rw [List.filterMap_nil, List.append_nil]
      cases failure with
      | none => cases fetching <;> rfl
      | some error => cases fetching <;> rfl
  | cons row delivered ih =>
      intro fetching results hlt
      cases row with
      | none =>
          rw [endsFetching_cons]
          have hless : results.length < maxRow := by
            rw [List.length_append] at hlt
            omega
          have hgather : gather nSkip maxRow fetching results
              (ResultSet.answers ⟨none :: delivered, failure⟩) =
              gather nSkip maxRow true results (ResultSet.answers ⟨delivered, failure⟩) := by
            cases fetching <;> exact if_pos hless
          rw [hgather, ih true results hlt]
          rfl
      | some row =>
          rw [endsFetching_cons]
          have hrows : (some row :: delivered).filterMap id = row :: delivered.filterMap id := rfl
          rw [hrows, List.append_cons] at hlt
          rw [hrows, List.append_cons]
          have hless : results.length < maxRow := by
            simp only [List.length_append, List.length_cons] at hlt
            omega
          have hgather : gather nSkip maxRow fetching results
              (ResultSet.answers ⟨some row :: delivered, failure⟩) =
              gather nSkip maxRow false (results ++ [row])
                (ResultSet.answers ⟨delivered, failure⟩) := by
            cases fetching <;> exact if_pos hless
          rw [hgather, ih false (results ++ [row]) hlt]
          rfl

/-- With enough rows as many are read as may be, and the scan is ended; what comes next does not
count. -/
theorem gather_of_le (delivered : List (Option R)) :
    ∀ (fetching : Bool) (results : List R), results.length ≤ maxRow →
      maxRow ≤ (results ++ delivered.filterMap id).length →
      (failure = none ∨ fetching = false ∨ delivered ≠ []) →
      gather nSkip maxRow fetching results (ResultSet.answers ⟨delivered, failure⟩) =
        endOfScan nSkip ((results ++ delivered.filterMap id).take maxRow) := by
  induction delivered with
  | nil =>
      intro fetching results hle henough hlast
      rw [List.filterMap_nil, List.append_nil] at henough
      rw [List.filterMap_nil, List.append_nil, List.take_of_length_le hle]
      cases failure with
      | none => cases fetching <;> rfl
      | some error =>
          obtain rfl : fetching = false := by simpa using hlast
          rfl
  | cons row delivered ih =>
      intro fetching results hle henough _
      by_cases hless : results.length < maxRow
      · cases row with
        | none =>
            have hgather : gather nSkip maxRow fetching results
                (ResultSet.answers ⟨none :: delivered, failure⟩) =
                gather nSkip maxRow true results (ResultSet.answers ⟨delivered, failure⟩) := by
              cases fetching <;> exact if_pos hless
            rw [hgather]
            apply ih true results hle henough
            -- there are more rows to come
            refine .inr (.inr fun hnil => ?_)
            rw [hnil] at henough
            simp at henough
            omega
        | some row =>
            have hrows : (some row :: delivered).filterMap id = row :: delivered.filterMap id := rfl
            rw [hrows, List.append_cons] at henough
            rw [hrows, List.append_cons]
            have hgather : gather nSkip maxRow fetching results
                (ResultSet.answers ⟨some row :: delivered, failure⟩) =
                gather nSkip maxRow false (results ++ [row])
                  (ResultSet.answers ⟨delivered, failure⟩) := by
              cases fetching <;> exact if_pos hless
            rw [hgather]
            exact ih false (results ++ [row]) (by simpa using hless) henough (.inr (.inl rfl))
      · have hlength : results.length = maxRow := by omega
        have hgather : gather nSkip maxRow fetching results
            (ResultSet.answers ⟨row :: delivered, failure⟩) = endOfScan nSkip results := by
          cases row <;> cases fetching <;> exact if_neg hless
        rw [hgather, ← hlength, List.take_left]

end

/-! ## Pages -/

theorem page_of_limit {params : Params} {limit : ℕ} (h : params.limit? = some limit)
    (rows : List R) : params.page rows = (rows.take params.maxRow).drop params.nSkip := by
  unfold Params.page Params.maxRow
  rw [h]
  exact List.take_drop

theorem page_of_noLimit {params : Params} (h : params.limit? = none) (rows : List R) :
    params.page rows = rows.drop params.nSkip := by
  unfold Params.page
  rw [h]

theorem maxRow_of_noLimit {params : Params} (h : params.limit? = none) :
    params.maxRow = noLimit := by
  unfold Params.maxRow
  rw [h]

/-- The rows that are delivered are the page, unless there are too many without a limit. -/
theorem drop_take_eq_page (params : Params) (rows : List R) :
    (rows.take params.maxRow).drop params.nSkip = params.page rows ↔
      (params.limit? = none → rows.length ≤ noLimit ∨ rows.length ≤ params.nSkip) := by
  cases hlimit : params.limit? with
  | some limit => simp [page_of_limit hlimit]
  | none =>
      rw [page_of_noLimit hlimit, maxRow_of_noLimit hlimit]
      constructor
      · intro h _
        have hlength := congrArg List.length h
        simp only [List.length_drop, List.length_take] at hlength
        omega
      · intro h
        rcases h rfl with h | h
        · rw [List.take_of_length_le h]
        · rw [List.drop_eq_nil_of_le h, List.drop_eq_nil_of_le]
          exact (List.length_take_le' _ _).trans h

theorem endsFetching_iff {resultSet : ResultSet R E} :
    endsFetching true resultSet.delivered = true ↔ ¬ resultSet.failsAfterRow := by
  unfold endsFetching ResultSet.failsAfterRow
  cases resultSet.delivered.getLast? with
  | none => simp
  | some row => cases row <;> simp

/-- The scan ends in one of three ways: with what fits, because all rows were read, or with a
failure of `fetchResults`. -/
theorem getScanResults_cases (params : Params) (resultSet : ResultSet R E) :
    (getScanResults params resultSet.answers =
        [.results ((resultSet.rows.take params.maxRow).drop params.nSkip)] ∧
      (params.maxRow ≤ resultSet.rows.length ∨ resultSet.failure = none ∨
        resultSet.failsAfterRow)) ∨
    (∃ error, getScanResults params resultSet.answers = [.error error] ∧
      resultSet.failure = some error ∧ ¬ resultSet.failsAfterRow ∧
      (resultSet.rows.length < params.maxRow ∨ resultSet.rows = [])) := by
  by_cases hless : resultSet.rows.length < params.maxRow
  · have hrun : getScanResults params resultSet.answers = _ :=
      gather_of_lt resultSet.delivered true [] hless
    rw [hrun]
    have htake : resultSet.rows.take params.maxRow = resultSet.rows :=
      List.take_of_length_le hless.le
    cases hfailure : resultSet.failure with
    | none =>
        rw [htake]
        exact .inl ⟨rfl, .inr (.inl rfl)⟩
    | some error =>
        by_cases hafter : resultSet.failsAfterRow
        · have hends : endsFetching true resultSet.delivered = false := by
            rw [← Bool.not_eq_true, endsFetching_iff, not_not]
            exact hafter
          rw [htake]
          refine .inl ⟨?_, .inr (.inr hafter)⟩
          simp only [hends]
          rfl
        · have hends := endsFetching_iff.mpr hafter
          refine .inr ⟨error, ?_, rfl, hafter, .inl hless⟩
          simp only [hends]
          rfl
  · by_cases hfirst : resultSet.delivered = []
    · -- nothing is needed, and the first answer is the last
      obtain ⟨delivered, failure⟩ := resultSet
      obtain rfl : delivered = [] := hfirst
      cases failure with
      | none => exact .inl ⟨by simp [getScanResults, ResultSet.answers, ResultSet.rows, gather, endOfScan],
          .inr (.inl rfl)⟩
      | some error => exact .inr ⟨error, rfl, rfl, by simp [ResultSet.failsAfterRow], .inr rfl⟩
    · have hrun : getScanResults params resultSet.answers = _ :=
        gather_of_le resultSet.delivered true [] (Nat.zero_le _) (not_lt.mp hless)
          (.inr (.inr hfirst))
      exact .inl ⟨hrun, .inl (not_lt.mp hless)⟩

theorem served_of_le {params : Params} {rows : List R} (h : params.maxRow ≤ rows.length)
    (hlimit : params.limit? ≠ none) : params.Served rows := by
  obtain ⟨limit, hlimit⟩ := Option.ne_none_iff_exists'.mp hlimit
  refine ⟨limit, hlimit, ?_⟩
  unfold Params.maxRow at h
  rwa [hlimit] at h

theorem maxRow_le_of_served {params : Params} {rows : List R} (h : params.Served rows) :
    params.maxRow ≤ rows.length := by
  obtain ⟨limit, hlimit, hle⟩ := h
  unfold Params.maxRow
  rwa [hlimit]

example : getScanResults { skip := some 1, limit := some 2 } (E := String)
    (ResultSet.answers ⟨[some 10, none, some 11, some 12, some 13], none⟩) =
      [.results [11, 12]] := by decide

end DatabaseJones.NdbOperation.ScanResults
