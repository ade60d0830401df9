import Mathlib.Logic.Function.Basic
import Mathlib.Order.Basic
import Mathlib.Data.Nat.Notation

/-!
# The results of a joined query

A query operation keeps one list of results for all of its tables.  A result points to the one
before it in the same table and to that of its parent, and has an image of the row, which is stored
apart and freed again if the whole row turns out to be a duplicate.
-/

namespace DatabaseJones.QueryOperation

/-! ## Tables and tuples -/

/-- The row buffers of the tables of a query.  The parent of a table comes before it. -/
structure Buffers where
  size : ℕ
  parent : ℕ → ℕ
  tableIsJoinTable : ℕ → Bool
  size_pos : 0 < size
  parent_zero : parent 0 = 0
  parent_lt : ∀ level, 0 < level → parent level < level

/-- A row of the join: a row for each table, or NULL.  There is no row below NULL. -/
structure Tuple (buffers : Buffers) (Row : Type) where
  row : ℕ → Option Row
  null_of_parent : ∀ level, row (buffers.parent level) = none → row level = none

/-- `result_flags`, and the tags of results. -/
structure Flags where
  rowIsNull : Bool := false
  tableIsJoinTable : Bool := false
  rowIsDuplicate : Bool := false
deriving DecidableEq, Repr

/-- `data` of a result. -/
inductive Image (Row : Type)
  | null
  | stored (row : Row)
  | freed

/-- `QueryResultHeader`. -/
structure Header (Row : Type) where
  data : Image Row := .null
  parent : ℕ := 0
  previous : ℕ := 0
  sector : ℕ := 0
  tag : Flags := {}

/-- What changes while results are fetched: `result_flags` and `result` of the buffers, and the
headers.  The array of headers is zeroed when it is allocated. -/
structure State (Row : Type) where
  resultFlags : ℕ → Flags := fun _ => {}
  result : ℕ → ℕ := fun _ => 0
  results : ℕ → Header Row := fun _ => {}
  nresults : ℕ := 0

/-- What keeps a fetch from going on: an image that is not there is compared, an assertion fails,
or a loop does not end. -/
inductive Stop
  | deadImage
  | assertion
  | loops
deriving DecidableEq, Repr

variable {Row : Type} [DecidableEq Row]

/-! ## Comparing -/

/-- `compareTwoResults`. -/
def compareTwoResults (state : State Row) (level r1 r2 : ℕ) : Except Stop Bool :=
  if r1 = r2 then .ok true
  else if (state.results r1).sector ≠ level ∨ (state.results r2).sector ≠ level then
    .error .assertion
  else
    match (state.results r1).data, (state.results r2).data with
    | .stored first, .stored second => .ok (decide (first = second))
    | _, _ => .error .deadImage

/-- `compareFullRows`: the loop goes from a table to its parent, until the root is compared. -/
def compareFullRows (buffers : Buffers) (state : State Row) :
    ℕ → ℕ → ℕ → ℕ → Except Stop Bool
  | 0, _, _, _ => .error .loops
  | fuel + 1, level, r1, r2 =>
      match compareTwoResults state level r1 r2 with
      | .error stop => .error stop
      | .ok false => .ok false
      | .ok true =>
          if level = 0 then .ok true
          else compareFullRows buffers state fuel (buffers.parent level)
            (state.results r1).parent (state.results r2).parent

/-- The loop of `compareRowToAllPrevious`, from `r1` on. -/
def compareRowToPrevious (buffers : Buffers) (state : State Row) (level r2 : ℕ) :
    ℕ → ℕ → Except Stop Bool
  | 0, _ => .error .loops
  | fuel + 1, r1 =>
      if r1 < level then .ok false
      else
        match compareFullRows buffers state (level + 1) level r1 r2 with
        | .error stop => .error stop
        | .ok true => .ok true
        | .ok false =>
            compareRowToPrevious buffers state level r2 fuel (state.results r1).previous

/-- `compareRowToAllPrevious`. -/
def compareRowToAllPrevious (buffers : Buffers) (state : State Row) : Except Stop Bool :=
  let r2 := state.nresults - 1
  let r1 := (state.results r2).previous
  compareRowToPrevious buffers state (state.results r2).sector r2 (r2 + 1) r1

/-- `isDuplicate`, without the flag that it sets. -/
def isDuplicate (buffers : Buffers) (state : State Row) (level : ℕ) (row : Row) :
    Except Stop Bool :=
  let lastResult := state.result level
  if (level = 0 ∨ (state.resultFlags (buffers.parent level)).rowIsDuplicate = true) ∧
      state.nresults ≠ 0 ∧ level ≤ lastResult then
    match (state.results lastResult).data with
    | .stored last => .ok (decide (last = row))
    | _ => .error .deadImage
  else .ok false

/-! ## Pushing -/

/-- `newResultForTable`, and the image that is stored behind it. -/
def newResultForTable (buffers : Buffers) (state : State Row) (level : ℕ) (data : Image Row) :
    State Row :=
  let n := state.nresults
  let result := Function.update state.result level n
  { state with
    nresults := n + 1
    result := result
    results := Function.update state.results n
      { data, sector := level, previous := state.result level
        parent := result (buffers.parent level), tag := state.resultFlags level } }

/-- Set a flag of a table. -/
def State.flag (state : State Row) (level : ℕ) (change : Flags → Flags) : State Row :=
  { state with
    resultFlags := Function.update state.resultFlags level (change (state.resultFlags level)) }

/-- The flags of a new row of the root. -/
def State.resetFlags (buffers : Buffers) (state : State Row) : State Row :=
  { state with resultFlags := fun level => { tableIsJoinTable := buffers.tableIsJoinTable level } }

/-- The last result turns out to be a duplicate. -/
def State.prune (state : State Row) : State Row :=
  let r := state.nresults - 1
  let header := state.results r
  { state with
    results := Function.update state.results r
      { header with data := .freed, tag := { header.tag with rowIsDuplicate := true } } }

/-- The end of `pushResultForTable`, for a row that is not that of the result before it. -/
def pushResultValue (buffers : Buffers) (state : State Row) (level : ℕ) (row : Row) :
    Except Stop (State Row) :=
  let pushed := newResultForTable buffers state level (.stored row)
  if buffers.size < pushed.nresults then
    match compareRowToAllPrevious buffers pushed with
    | .error stop => .error stop
    | .ok true => .ok pushed.prune
    | .ok false => .ok pushed
  else .ok pushed

/-- `pushResultForTable`. -/
def pushResultForTable (buffers : Buffers) (tuple : Tuple buffers Row) (level : ℕ)
    (state : State Row) : Except Stop (State Row) :=
  let state := if level = 0 then state.resetFlags buffers else state
  match tuple.row level with
  | none =>
      let state := state.flag level fun flags => { flags with rowIsNull := true }
      if (state.resultFlags (buffers.parent level)).rowIsNull then .ok state
      else .ok (newResultForTable buffers state level .null)
  | some row =>
      match isDuplicate buffers state level row with
      | .error stop => .error stop
      | .ok true => .ok (state.flag level fun flags => { flags with rowIsDuplicate := true })
      | .ok false => pushResultValue buffers state level row

/-- New results at the first levels. -/
def pushResults (buffers : Buffers) (tuple : Tuple buffers Row) (state : State Row) :
    ℕ → Except Stop (State Row)
  | 0 => .ok state
  | levels + 1 =>
      match pushResults buffers tuple state levels with
      | .error stop => .error stop
      | .ok pushed => pushResultForTable buffers tuple levels pushed

/-- `fetchAllResults`, with the tuples that NDB returns. -/
def fetchAllResults (buffers : Buffers) (state : State Row) :
    List (Tuple buffers Row) → Except Stop (State Row)
  | [] => .ok state
  | tuple :: tuples =>
      match pushResults buffers tuple state buffers.size with
      | .error stop => .error stop
      | .ok pushed => fetchAllResults buffers pushed tuples

end DatabaseJones.QueryOperation
