import DatabaseJones.QueryOperation.Results
import Mathlib.Data.Nat.Find

/-!
# Images of compared rows

A result without an image stays linked from its table: the result of a NULL row, and a result whose
image is freed because its whole row was there before.  So an image that is not there is compared
unless neither happens: no row is NULL below a row that is not, and the tuples that have the same
rows down to some table come one after another.
-/

namespace DatabaseJones.QueryOperation

variable {Row : Type} [DecidableEq Row] {buffers : Buffers}

/-! ## What is expected of a fetch -/

/-- The results that the loop over the previous results reaches from one of them. -/
inductive OnChain (state : State Row) (level : ℕ) : ℕ → ℕ → Prop
  | here {start : ℕ} : level ≤ start → start < state.nresults → OnChain state level start start
  | previous {start r : ℕ} : level ≤ start → start < state.nresults →
      OnChain state level (state.results start).previous r → OnChain state level start r

def Image.IsStored : Image Row → Prop
  | .stored _ => True
  | _ => False

/-- The chain of previous results of each table has only images that are stored. -/
def ChainsLive (buffers : Buffers) (state : State Row) : Prop :=
  ∀ level < buffers.size, ∀ r, OnChain state level (state.result level) r →
    (state.results r).data.IsStored

/-- No image is compared that is not there, and the chains have only stored images whenever a
table is done. -/
structure ImagesLive (buffers : Buffers) (state : State Row) (tuples : List (Tuple buffers Row)) :
    Prop where
  compared : ∀ stop, fetchAllResults buffers state tuples = .error stop → stop = .loops
  chained : ∀ before tuple after, tuples = before ++ tuple :: after →
    ∀ fetched, fetchAllResults buffers state before = .ok fetched →
      ∀ levels ≤ buffers.size, ∀ pushed, pushResults buffers tuple fetched levels = .ok pushed →
        ChainsLive buffers pushed

/-! ## When a fetch does so -/

/-- A table, its parent, and so on up to the root. -/
inductive Above (buffers : Buffers) : ℕ → ℕ → Prop
  | self (level : ℕ) : Above buffers level level
  | parent {level above : ℕ} : level ≠ 0 → Above buffers (buffers.parent level) above →
      Above buffers level above

/-- Two tuples have the same rows from the root down to a table. -/
def SamePath (level : ℕ) (first second : Tuple buffers Row) : Prop :=
  ∀ above, Above buffers level above → first.row above = second.row above

/-- The row of a table is not NULL, and if an earlier tuple has the same rows down to this table
then so has the tuple just before. -/
structure FitsAt (before : List (Tuple buffers Row)) (tuple : Tuple buffers Row) (level : ℕ) :
    Prop where
  notNull : tuple.row level ≠ none
  grouped : ∀ earlier ∈ before, SamePath level earlier tuple →
    ∀ last, before.getLast? = some last → SamePath level last tuple

/-- A tuple fits behind other tuples. -/
def Fits (before : List (Tuple buffers Row)) (tuple : Tuple buffers Row) : Prop :=
  ∀ level < buffers.size, FitsAt before tuple level

/-- The tuples fit one after another, up to the first one that has another row of the root.
Tuples of NULL only do not count. -/
def AllFit : List (Tuple buffers Row) → List (Tuple buffers Row) → Prop
  | _, [] => True
  | before, tuple :: tuples =>
      if tuple.row 0 = none then AllFit before tuples
      else if ∃ earlier ∈ before, earlier.row 0 ≠ tuple.row 0 then True
      else Fits before tuple ∧ AllFit (before ++ [tuple]) tuples

/-! ## Paths -/

section
variable {first second third : Tuple buffers Row} {level : ℕ}

omit [DecidableEq Row]

theorem SamePath.row (h : SamePath level first second) : first.row level = second.row level :=
  h level (.self level)

theorem samePath_iff (hlevel : level ≠ 0) :
    SamePath level first second ↔
      first.row level = second.row level ∧ SamePath (buffers.parent level) first second := by
  constructor
  · exact fun h => ⟨h.row, fun above habove => h above (.parent hlevel habove)⟩
  · rintro ⟨hrow, hparent⟩ above habove
    cases habove with
    | self => exact hrow
    | parent _ habove => exact hparent above habove

theorem samePath_root : SamePath 0 first second ↔ first.row 0 = second.row 0 := by
  constructor
  · exact fun h => h.row
  · intro hrow above habove
    cases habove with
    | self => exact hrow
    | parent hne _ => exact absurd rfl hne

theorem SamePath.symm (h : SamePath level first second) : SamePath level second first :=
  fun above habove => (h above habove).symm

theorem SamePath.trans (h : SamePath level first second) (h' : SamePath level second third) :
    SamePath level first third :=
  fun above habove => (h above habove).trans (h' above habove)

theorem SamePath.refl (first : Tuple buffers Row) : SamePath level first first :=
  fun _ _ => rfl

theorem Above.root (level : ℕ) : Above buffers level 0 := by
  induction level using Nat.strongRecOn with
  | ind level ih =>
      by_cases hlevel : level = 0
      · rw [hlevel]
        exact .self 0
      · exact .parent hlevel (ih _ (buffers.parent_lt level (Nat.pos_of_ne_zero hlevel)))

theorem SamePath.root (h : SamePath level first second) : first.row 0 = second.row 0 :=
  h 0 (Above.root level)

end

/-! ## Results that show a tuple -/

/-- A result and the ones it points to have the rows of a tuple, from a table up to the root. -/
inductive Shows (state : State Row) (tuple : Tuple buffers Row) : ℕ → ℕ → Prop
  | intro {level r : ℕ} {row : Row} : r < state.nresults →
      (state.results r).sector = level → (state.results r).data = .stored row →
      tuple.row level = some row →
      (level ≠ 0 → Shows state tuple (buffers.parent level) (state.results r).parent) →
      Shows state tuple level r

section
variable {state other : State Row} {tuple first second : Tuple buffers Row} {level r : ℕ}

omit [DecidableEq Row]

/-- Results that were there before are as they were. -/
structure Extends (state other : State Row) : Prop where
  nresults : state.nresults ≤ other.nresults
  results : ∀ r < state.nresults, other.results r = state.results r

theorem Shows.mono (hext : Extends state other) (h : Shows state tuple level r) :
    Shows other tuple level r := by
  induction h with
  | intro hr hsector hdata hrow _ ih =>
      have hsame := hext.results _ hr
      refine .intro (Nat.lt_of_lt_of_le hr hext.nresults) ?_ ?_ hrow ?_
      · rw [hsame]
        exact hsector
      · rw [hsame]
        exact hdata
      · rw [hsame]
        exact ih

theorem Shows.samePath (h : Shows state first level r) :
    SamePath level first second → Shows state second level r := by
  induction h with
  | @intro level r row hr hsector hdata hrow _ ih =>
      intro hsame
      refine .intro hr hsector hdata ?_ fun hlevel => ?_
      · rw [← hsame.row]
        exact hrow
      · exact ih hlevel ((samePath_iff hlevel).mp hsame).2

theorem Shows.isStored (h : Shows state tuple level r) : (state.results r).data.IsStored := by
  cases h with
  | intro _ _ hdata _ _ =>
      rw [hdata]
      exact trivial

end

/-! ## Comparing results that show tuples -/

section
variable {state : State Row} {first second tuple : Tuple buffers Row} {level r1 r2 : ℕ}

theorem compareTwoResults_eq (h1 : Shows state first level r1) (h2 : Shows state second level r2) :
    compareTwoResults state level r1 r2 = .ok (decide (first.row level = second.row level)) := by
  cases h1 with
  | @intro _ _ row1 _ hsector1 hdata1 hrow1 _ =>
      cases h2 with
      | @intro _ _ row2 _ hsector2 hdata2 hrow2 _ =>
          unfold compareTwoResults
          by_cases heq : r1 = r2
          · subst heq
            have hrows : row1 = row2 := Image.stored.inj (hdata1.symm.trans hdata2)
            rw [if_pos rfl, hrow1, hrow2, hrows, decide_eq_true rfl]
          · rw [if_neg heq, if_neg (by simp [hsector1, hsector2]), hdata1, hdata2, hrow1, hrow2]
            simp only [Option.some.injEq]

/-- The whole rows are equal if and only if the tuples have the same rows up to the root. -/
theorem compareFullRows_eq (h1 : Shows state first level r1) (h2 : Shows state second level r2)
    {fuel : ℕ} (hfuel : level < fuel) :
    ∃ same, compareFullRows buffers state fuel level r1 r2 = .ok same ∧
      (same = true ↔ SamePath level first second) := by
  induction fuel generalizing level r1 r2 with
  | zero => exact absurd hfuel (Nat.not_lt_zero _)
  | succ fuel ih =>
      unfold compareFullRows
      rw [compareTwoResults_eq h1 h2]
      by_cases hrow : first.row level = second.row level
      · rw [decide_eq_true hrow]
        dsimp only
        by_cases hlevel : level = 0
        · subst hlevel
          exact ⟨true, if_pos rfl, iff_of_true rfl (samePath_root.mpr hrow)⟩
        · rw [if_neg hlevel]
          have hparent := buffers.parent_lt level (Nat.pos_of_ne_zero hlevel)
          cases h1 with
          | intro _ _ _ _ hup1 =>
              cases h2 with
              | intro _ _ _ _ hup2 =>
                  obtain ⟨same, hsame, hiff⟩ := ih (hup1 hlevel) (hup2 hlevel) (by omega)
                  refine ⟨same, hsame, hiff.trans ?_⟩
                  rw [samePath_iff hlevel]
                  exact (and_iff_right hrow).symm
      · rw [decide_eq_false hrow]
        exact ⟨false, rfl, iff_of_false Bool.false_ne_true fun h => hrow h.row⟩

/-- A result points to an earlier one, or both are the first. -/
def Descends (state : State Row) : Prop :=
  ∀ r < state.nresults, (state.results r).previous < r ∨ (state.results r).previous = 0

variable {before : List (Tuple buffers Row)} {start fuel : ℕ}

omit [DecidableEq Row] in
theorem Descends.previous_le (hdesc : Descends state) {r : ℕ} (hr : r < state.nresults) :
    (state.results r).previous ≤ r := by
  rcases hdesc r hr with hlt | hzero <;> omega

/-- The first result of the root, which points to itself, is compared again and again. -/
theorem compareRowToPrevious_self (hself : (state.results 0).previous = 0)
    (hdiffers : compareFullRows buffers state 1 0 0 r2 = .ok false) (fuel : ℕ) :
    compareRowToPrevious buffers state 0 r2 fuel 0 = .error .loops := by
  induction fuel with
  | zero => rfl
  | succ fuel ih =>
      unfold compareRowToPrevious
      rw [if_neg (Nat.not_lt_zero _), hdiffers, hself]
      exact ih

/-- Fuel beyond the number of the result is inert: what does not end with it never ends. -/
theorem compareRowToPrevious_eq_of_lt (hdesc : Descends state) (hstart : start < state.nresults)
    {larger : ℕ} (hfuel : start < fuel) (hlarger : start < larger) :
    compareRowToPrevious buffers state level r2 fuel start =
      compareRowToPrevious buffers state level r2 larger start := by
  induction fuel generalizing start larger with
  | zero => exact absurd hfuel (Nat.not_lt_zero _)
  | succ fuel ih =>
      obtain ⟨larger, rfl⟩ := Nat.exists_eq_succ_of_ne_zero (Nat.ne_zero_of_lt hlarger)
      unfold compareRowToPrevious
      by_cases hend : start < level
      · rw [if_pos hend, if_pos hend]
      · rw [if_neg hend, if_neg hend]
        cases hsame : compareFullRows buffers state (level + 1) level start r2 with
        | error stop => rfl
        | ok same =>
            cases same with
            | true => rfl
            | false =>
                by_cases hzero : start = 0
                · subst hzero
                  have hself : (state.results 0).previous = 0 := by
                    rcases hdesc 0 hstart with hlt | heq <;> omega
                  have hlevel : level = 0 := by omega
                  subst hlevel
                  rw [hself]
                  exact (compareRowToPrevious_self hself hsame fuel).trans
                    (compareRowToPrevious_self hself hsame larger).symm
                · have hprevious : (state.results start).previous < start := by
                    rcases hdesc start hstart with hlt | heq <;> omega
                  exact ih (by omega) (by omega) (by omega)

/-- The loop ends without a match if no tuple on the chain is the same. -/
theorem compareRowToPrevious_false (hdesc : Descends state) (hlevel : level ≠ 0)
    (hchain : ∀ r, OnChain state level start r → ∃ earlier ∈ before, Shows state earlier level r)
    (hlatest : Shows state tuple level r2)
    (hnew : ∀ earlier ∈ before, ¬ SamePath level earlier tuple)
    (hstart : start < state.nresults) (hfuel : start < fuel) :
    compareRowToPrevious buffers state level r2 fuel start = .ok false := by
  induction fuel generalizing start with
  | zero => exact absurd hfuel (Nat.not_lt_zero _)
  | succ fuel ih =>
      unfold compareRowToPrevious
      by_cases hend : start < level
      · rw [if_pos hend]
      · have hle : level ≤ start := Nat.le_of_not_lt hend
        obtain ⟨earlier, hearlier, hshows⟩ := hchain start (.here hle hstart)
        obtain ⟨same, hsame, hiff⟩ := compareFullRows_eq hshows hlatest (Nat.lt_succ_self level)
        have hfalse : same = false := by
          cases same with
          | false => rfl
          | true => exact absurd (hiff.mp rfl) (hnew earlier hearlier)
        rw [if_neg hend, hsame, hfalse]
        have hprevious : (state.results start).previous < start := by
          rcases hdesc start hstart with hlt | hzero <;> omega
        exact ih (fun r hr => hchain r (.previous hle hstart hr)) (by omega) (by omega)

/-- The loop finds a tuple on the chain that is the same. -/
theorem compareRowToPrevious_true (hdesc : Descends state) (hlevel : level ≠ 0)
    (hchain : ∀ r, OnChain state level start r → ∃ earlier ∈ before, Shows state earlier level r)
    (hlatest : Shows state tuple level r2) {r : ℕ} (hr : OnChain state level start r)
    {earlier : Tuple buffers Row} (hshows : Shows state earlier level r)
    (hsame : SamePath level earlier tuple) (hfuel : start < fuel) :
    compareRowToPrevious buffers state level r2 fuel start = .ok true := by
  induction fuel generalizing start with
  | zero => exact absurd hfuel (Nat.not_lt_zero _)
  | succ fuel ih =>
      unfold compareRowToPrevious
      cases hr with
      | here hle hstart =>
          obtain ⟨same, heq, hiff⟩ := compareFullRows_eq hshows hlatest (Nat.lt_succ_self level)
          rw [if_neg (Nat.not_lt.mpr hle), heq, hiff.mpr hsame]
      | previous hle hstart hr =>
          obtain ⟨other, _, hother⟩ := hchain start (.here hle hstart)
          obtain ⟨same, heq, _⟩ := compareFullRows_eq hother hlatest (Nat.lt_succ_self level)
          rw [if_neg (Nat.not_lt.mpr hle), heq]
          have hprevious : (state.results start).previous < start := by
            rcases hdesc start hstart with hlt | hzero <;> omega
          cases same with
          | true => rfl
          | false =>
              exact ih (fun r hr => hchain r (.previous hle hstart hr)) hr (by omega)

/-- At the root the loop comes back to the first result again and again. -/
theorem compareRowToPrevious_loops (hdesc : Descends state)
    (hchain : ∀ r, OnChain state 0 start r → ∃ earlier ∈ before, Shows state earlier 0 r)
    (hlatest : Shows state tuple 0 r2) (hnew : ∀ earlier ∈ before, ¬ SamePath 0 earlier tuple)
    (hstart : start < state.nresults) :
    compareRowToPrevious buffers state 0 r2 fuel start = .error .loops := by
  induction fuel generalizing start with
  | zero => rfl
  | succ fuel ih =>
      unfold compareRowToPrevious
      obtain ⟨earlier, hearlier, hshows⟩ := hchain start (.here (Nat.zero_le _) hstart)
      obtain ⟨same, hsame, hiff⟩ := compareFullRows_eq hshows hlatest (Nat.lt_succ_self 0)
      have hfalse : same = false := by
        cases same with
        | false => rfl
        | true => exact absurd (hiff.mp rfl) (hnew earlier hearlier)
      rw [if_neg (Nat.not_lt_zero _), hsame, hfalse]
      have hprevious := hdesc.previous_le hstart
      exact ih (fun r hr => hchain r (.previous (Nat.zero_le _) hstart hr)) (by omega)

end

/-! ## What is kept while all tuples fit -/

/-- The tuples whose row of a table has been taken. -/
def taken (before : List (Tuple buffers Row)) (tuple : Tuple buffers Row) (levels level : ℕ) :
    List (Tuple buffers Row) :=
  if level < levels then before ++ [tuple] else before

/-- The chain of a table shows the rows of the tuples so far, the latest one first. -/
structure Stored (before : List (Tuple buffers Row)) (tuple : Tuple buffers Row) (levels : ℕ)
    (state : State Row) : Prop where
  first : before = [] → state.nresults = levels
  later : before ≠ [] → buffers.size ≤ state.nresults
  result : ∀ level, state.result level < state.nresults ∨ state.result level = 0
  descends : Descends state
  latest : ∀ level < buffers.size, ∀ last, (taken before tuple levels level).getLast? = some last →
    Shows state last level (state.result level)
  sound : ∀ level < buffers.size, ∀ r, OnChain state level (state.result level) r →
    ∃ earlier ∈ taken before tuple levels level, Shows state earlier level r
  complete : ∀ level < buffers.size, ∀ earlier ∈ taken before tuple levels level,
    ∃ r, OnChain state level (state.result level) r ∧ Shows state earlier level r

/-- The flags of a tuple whose first rows have been taken. -/
structure Flagged (before : List (Tuple buffers Row)) (tuple : Tuple buffers Row) (levels : ℕ)
    (state : State Row) : Prop where
  notNull : ∀ level < levels, (state.resultFlags level).rowIsNull = false
  duplicate : ∀ level < levels, (state.resultFlags level).rowIsDuplicate = true ↔
    ∃ last, before.getLast? = some last ∧ SamePath level last tuple
  reset : ∀ level, levels ≤ level →
    state.resultFlags level = { tableIsJoinTable := buffers.tableIsJoinTable level }

section
variable {state : State Row} {before : List (Tuple buffers Row)} {tuple : Tuple buffers Row}
  {levels level start r : ℕ}

omit [DecidableEq Row]

theorem OnChain.lt (h : OnChain state level start r) : r < state.nresults := by
  induction h with
  | here _ hlt => exact hlt
  | previous _ _ _ ih => exact ih

theorem OnChain.le_start (h : OnChain state level start r) : level ≤ start := by
  cases h with
  | here hle _ => exact hle
  | previous hle _ _ => exact hle

theorem taken_of_lt (h : level < levels) : taken before tuple levels level = before ++ [tuple] :=
  if_pos h

theorem taken_self : taken before tuple levels levels = before :=
  if_neg (Nat.lt_irrefl _)

theorem taken_succ_of_ne (h : level ≠ levels) :
    taken before tuple (levels + 1) level = taken before tuple levels level := by
  unfold taken
  by_cases hlt : level < levels
  · rw [if_pos hlt, if_pos (by omega)]
  · rw [if_neg hlt, if_neg (by omega)]

/-- All chains are live as long as they show tuples. -/
theorem Stored.chainsLive (h : Stored before tuple levels state) : ChainsLive buffers state := by
  intro level hlevel r hr
  obtain ⟨earlier, _, hshows⟩ := h.sound level hlevel r hr
  exact hshows.isStored

end

section
variable {state : State Row} {before : List (Tuple buffers Row)} {tuple : Tuple buffers Row}
  {level : ℕ} {row : Row}

/-- A row is found to be a duplicate if the tuple before it has the same rows up to the root. -/
theorem isDuplicate_eq (h : Stored before tuple level state) (hf : Flagged before tuple level state)
    (hlevel : level < buffers.size) (hrow : tuple.row level = some row) :
    ∃ duplicate, isDuplicate buffers state level row = .ok duplicate ∧
      (duplicate = true ↔ ∃ last, before.getLast? = some last ∧ SamePath level last tuple) := by
  unfold isDuplicate
  dsimp only
  -- the flag of the parent says whether the rows above are the same
  have hparent : level ≠ 0 → ((state.resultFlags (buffers.parent level)).rowIsDuplicate = true ↔
      ∃ last, before.getLast? = some last ∧ SamePath (buffers.parent level) last tuple) :=
    fun hne => hf.duplicate _ (buffers.parent_lt level (Nat.pos_of_ne_zero hne))
  cases hlast : before.getLast? with
  | none =>
      have hnil : before = [] := List.getLast?_eq_none_iff.mp hlast
      refine ⟨false, if_neg ?_, iff_of_false Bool.false_ne_true (by simp)⟩
      rintro ⟨hup, hne, _⟩
      by_cases hzero : level = 0
      · exact hne (hzero ▸ h.first hnil)
      · obtain ⟨last, hsome, _⟩ := (hparent hzero).mp (hup.resolve_left hzero)
        rw [hlast] at hsome
        cases hsome
  | some last =>
      have hmem : last ∈ taken before tuple level level := by
        rw [taken_self]
        exact List.mem_of_getLast? hlast
      obtain ⟨r, hchain, _⟩ := h.complete level hlevel last hmem
      have hshows : Shows state last level (state.result level) :=
        h.latest level hlevel last (by rw [taken_self, hlast])
      have hsame : (∃ other, some last = some other ∧ SamePath level other tuple) ↔
          SamePath level last tuple :=
        ⟨fun ⟨_, heq, hsame⟩ => Option.some.inj heq ▸ hsame, fun hsame => ⟨last, rfl, hsame⟩⟩
      rw [hsame]
      cases hshows with
      | @intro _ _ latest hlt hsector hdata hlatest _ =>
          have hrows : (latest = row) ↔ last.row level = tuple.row level := by
            rw [hlatest, hrow, Option.some.injEq]
          have hnresults : state.nresults ≠ 0 := by omega
          by_cases hup : level = 0 ∨
              (state.resultFlags (buffers.parent level)).rowIsDuplicate = true
          · rw [if_pos ⟨hup, hnresults, hchain.le_start⟩, hdata]
            refine ⟨decide (latest = row), rfl, decide_eq_true_iff.trans (hrows.trans ?_)⟩
            by_cases hzero : level = 0
            · subst hzero
              exact samePath_root.symm
            · obtain ⟨other, heq, hpath⟩ := (hparent hzero).mp (hup.resolve_left hzero)
              rw [hlast] at heq
              cases heq
              rw [samePath_iff hzero]
              exact (and_iff_left hpath).symm
          · rw [if_neg fun hall => hup hall.1]
            refine ⟨false, rfl, iff_of_false Bool.false_ne_true fun hpath => hup ?_⟩
            by_cases hzero : level = 0
            · exact .inl hzero
            · exact .inr ((hparent hzero).mpr ⟨last, hlast, ((samePath_iff hzero).mp hpath).2⟩)

end

/-! ## Pushing a result -/

section
variable {state other : State Row} {before : List (Tuple buffers Row)} {tuple : Tuple buffers Row}
  {level levels start r : ℕ} {data : Image Row} {row : Row}

omit [DecidableEq Row]

theorem OnChain.mono (hext : Extends state other) (h : OnChain state level start r) :
    OnChain other level start r := by
  induction h with
  | here hle hlt => exact .here hle (Nat.lt_of_lt_of_le hlt hext.nresults)
  | previous hle hlt _ ih =>
      refine .previous hle (Nat.lt_of_lt_of_le hlt hext.nresults) ?_
      rw [hext.results _ hlt]
      exact ih

/-- From an old result, the chain reaches only old results. -/
theorem OnChain.of_extends (hext : Extends state other) (hdesc : Descends state)
    (h : OnChain other level start r) : start < state.nresults → OnChain state level start r := by
  induction h with
  | here hle _ => exact .here hle
  | previous hle _ _ ih =>
      intro hstart
      rw [hext.results _ hstart] at ih
      exact .previous hle hstart (ih (Nat.lt_of_le_of_lt (hdesc.previous_le hstart) hstart))

theorem results_newResultForTable :
    (newResultForTable buffers state level data).results state.nresults =
      { data, sector := level, previous := state.result level
        parent := Function.update state.result level state.nresults (buffers.parent level)
        tag := state.resultFlags level } :=
  Function.update_self ..

theorem result_newResultForTable :
    (newResultForTable buffers state level data).result level = state.nresults :=
  Function.update_self ..

theorem result_newResultForTable_of_ne {table : ℕ} (h : table ≠ level) :
    (newResultForTable buffers state level data).result table = state.result table :=
  Function.update_of_ne h ..

theorem extends_newResultForTable : Extends state (newResultForTable buffers state level data) where
  nresults := Nat.le_succ _
  results _ hr := Function.update_of_ne (Nat.ne_of_lt hr) ..

theorem data_prune : (state.prune.results (state.nresults - 1)).data = .freed := by
  unfold State.prune
  dsimp only
  rw [Function.update_self]

theorem extends_flags (flags : ℕ → Flags) : Extends state { state with resultFlags := flags } where
  nresults := Nat.le_refl _
  results _ _ := rfl

theorem Stored.level_le (h : Stored before tuple level state) (hlevel : level < buffers.size) :
    level ≤ state.nresults := by
  by_cases hnil : before = []
  · exact Nat.le_of_eq (h.first hnil).symm
  · have := h.later hnil
    omega

theorem Stored.descends_push (h : Stored before tuple levels state) :
    Descends (newResultForTable buffers state level data) := by
  intro r hr
  by_cases hold : r < state.nresults
  · rw [extends_newResultForTable.results r hold]
    exact h.descends r hold
  · have heq : r = state.nresults := by
      change r < state.nresults + 1 at hr
      omega
    rw [heq, results_newResultForTable]
    exact h.result level

/-- The chain of the table that gets a result goes on with the old chain. -/
theorem Stored.onChain_push (h : Stored before tuple levels state)
    (hr : OnChain (newResultForTable buffers state level data) level state.nresults r) :
    r = state.nresults ∨ OnChain state level (state.result level) r := by
  cases hr with
  | here _ _ => exact .inl rfl
  | previous hle _ hr =>
      rw [results_newResultForTable] at hr
      rcases h.result level with hlt | hzero
      · exact .inr (hr.of_extends extends_newResultForTable h.descends hlt)
      · by_cases hlt : state.result level < state.nresults
        · exact .inr (hr.of_extends extends_newResultForTable h.descends hlt)
        · have hle : r ≤ state.nresults := Nat.le_of_lt_succ hr.lt
          exact .inl (by omega)

/-- The new result shows the tuple. -/
theorem Stored.shows_push (h : Stored before tuple level state) (hlevel : level < buffers.size)
    (hrow : tuple.row level = some row) :
    Shows (newResultForTable buffers state level (.stored row)) tuple level state.nresults := by
  refine .intro (Nat.lt_succ_self _) ?_ ?_ hrow fun hne => ?_
  · rw [results_newResultForTable]
  · rw [results_newResultForTable]
  · have hparent := buffers.parent_lt level (Nat.pos_of_ne_zero hne)
    rw [results_newResultForTable]
    dsimp only
    rw [Function.update_of_ne (Nat.ne_of_lt hparent)]
    refine (h.latest _ (by omega) tuple ?_).mono extends_newResultForTable
    rw [taken_of_lt hparent]
    exact List.getLast?_concat

/-- The flags do not matter for what is stored. -/
theorem Stored.setFlags (h : Stored before tuple levels state) (flags : ℕ → Flags) :
    Stored before tuple levels { state with resultFlags := flags } where
  first := h.first
  later := h.later
  result := h.result
  descends := h.descends
  latest level hlevel last hlast := (h.latest level hlevel last hlast).mono (extends_flags flags)
  sound level hlevel r hr := by
    have hback : Extends { state with resultFlags := flags } state := ⟨Nat.le_refl _, fun _ _ => rfl⟩
    obtain ⟨earlier, hmem, hshows⟩ := h.sound level hlevel r (hr.mono hback)
    exact ⟨earlier, hmem, hshows.mono (extends_flags flags)⟩
  complete level hlevel earlier hmem := by
    obtain ⟨r, hr, hshows⟩ := h.complete level hlevel earlier hmem
    exact ⟨r, hr.mono (extends_flags flags), hshows.mono (extends_flags flags)⟩

/-- The latest result shows the tuple too if that has the same rows as the one before it. -/
theorem Stored.skip (h : Stored before tuple level state) {last : Tuple buffers Row}
    (hlast : before.getLast? = some last) (hsame : SamePath level last tuple) :
    Stored before tuple (level + 1) state := by
  have hmem : last ∈ before := List.mem_of_getLast? hlast
  have hne : before ≠ [] := List.ne_nil_of_mem hmem
  refine ⟨fun hnil => absurd hnil hne, h.later, h.result, h.descends, ?_, ?_, ?_⟩
  · intro table htable other hother
    by_cases heq : table = level
    · subst heq
      rw [taken_of_lt (Nat.lt_succ_self _), List.getLast?_concat] at hother
      cases hother
      exact (h.latest table htable last (by rw [taken_self, hlast])).samePath hsame
    · rw [taken_succ_of_ne heq] at hother
      exact h.latest table htable other hother
  · intro table htable r hr
    obtain ⟨earlier, hearlier, hshows⟩ := h.sound table htable r hr
    by_cases heq : table = level
    · subst heq
      rw [taken_self] at hearlier
      rw [taken_of_lt (Nat.lt_succ_self _)]
      exact ⟨earlier, List.mem_append_left _ hearlier, hshows⟩
    · rw [taken_succ_of_ne heq]
      exact ⟨earlier, hearlier, hshows⟩
  · intro table htable earlier hearlier
    by_cases heq : table = level
    · subst heq
      rw [taken_of_lt (Nat.lt_succ_self _), List.mem_append, List.mem_singleton] at hearlier
      rcases hearlier with hearlier | rfl
      · exact h.complete table htable earlier (by rwa [taken_self])
      · obtain ⟨r, hr, hshows⟩ := h.complete table htable last (by rwa [taken_self])
        exact ⟨r, hr, hshows.samePath hsame⟩
    · rw [taken_succ_of_ne heq] at hearlier
      exact h.complete table htable earlier hearlier

theorem Stored.push (h : Stored before tuple level state) (hlevel : level < buffers.size)
    (hrow : tuple.row level = some row) :
    Stored before tuple (level + 1) (newResultForTable buffers state level (.stored row)) := by
  have hext := @extends_newResultForTable Row buffers state level (.stored row)
  have hnew := h.shows_push hlevel hrow
  refine ⟨?_, ?_, ?_, h.descends_push, ?_, ?_, ?_⟩
  · intro hnil
    exact congrArg (· + 1) (h.first hnil)
  · intro hne
    exact Nat.le_succ_of_le (h.later hne)
  · intro table
    by_cases heq : table = level
    · subst heq
      rw [result_newResultForTable]
      exact .inl (Nat.lt_succ_self _)
    · rw [result_newResultForTable_of_ne heq]
      exact (h.result table).imp_left Nat.lt_succ_of_lt
  · intro table htable last hlast
    by_cases heq : table = level
    · subst heq
      rw [taken_of_lt (Nat.lt_succ_self _), List.getLast?_concat] at hlast
      cases hlast
      rw [result_newResultForTable]
      exact hnew
    · rw [taken_succ_of_ne heq] at hlast
      rw [result_newResultForTable_of_ne heq]
      exact (h.latest table htable last hlast).mono hext
  · intro table htable r hr
    by_cases heq : table = level
    · subst heq
      rw [taken_of_lt (Nat.lt_succ_self _)]
      rw [result_newResultForTable] at hr
      rcases h.onChain_push hr with rfl | hr
      · exact ⟨tuple, List.mem_append_right _ (List.mem_singleton_self _), hnew⟩
      · obtain ⟨earlier, hearlier, hshows⟩ := h.sound table htable r hr
        rw [taken_self] at hearlier
        exact ⟨earlier, List.mem_append_left _ hearlier, hshows.mono hext⟩
    · rw [taken_succ_of_ne heq]
      rw [result_newResultForTable_of_ne heq] at hr
      have hlt : state.result table < state.nresults := by
        have hle := hr.le_start
        have hlevels := h.level_le hlevel
        rcases h.result table with hlt | hzero <;> omega
      have hold : OnChain state table (state.result table) r :=
        hr.of_extends hext h.descends hlt
      obtain ⟨earlier, hearlier, hshows⟩ := h.sound table htable r hold
      exact ⟨earlier, hearlier, hshows.mono hext⟩
  · intro table htable earlier hearlier
    by_cases heq : table = level
    · subst heq
      rw [taken_of_lt (Nat.lt_succ_self _), List.mem_append, List.mem_singleton] at hearlier
      rw [result_newResultForTable]
      have hle := h.level_le hlevel
      rcases hearlier with hearlier | rfl
      · obtain ⟨r, hr, hshows⟩ := h.complete table htable earlier (by rwa [taken_self])
        refine ⟨r, .previous hle (Nat.lt_succ_self _) ?_, hshows.mono hext⟩
        rw [results_newResultForTable]
        exact hr.mono hext
      · exact ⟨state.nresults, .here hle (Nat.lt_succ_self _), hnew⟩
    · rw [taken_succ_of_ne heq] at hearlier
      rw [result_newResultForTable_of_ne heq]
      obtain ⟨r, hr, hshows⟩ := h.complete table htable earlier hearlier
      exact ⟨r, hr.mono hext, hshows.mono hext⟩

end

/-! ## One table of a tuple -/

section
variable {state : State Row} {before : List (Tuple buffers Row)} {tuple : Tuple buffers Row}
  {level : ℕ} {row : Row}

/-- The comparison with all previous rows after a push, for tables below the root. -/
theorem compareRowToAllPrevious_eq (h : Stored before tuple level state)
    (hlevel : level < buffers.size) (hrow : tuple.row level = some row) (hne : level ≠ 0)
    (hbefore : before ≠ []) :
    ∃ duplicate, compareRowToAllPrevious buffers
        (newResultForTable buffers state level (.stored row)) = .ok duplicate ∧
      (duplicate = true ↔ ∃ earlier ∈ before, SamePath level earlier tuple) := by
  have hext := @extends_newResultForTable Row buffers state level (.stored row)
  have hsize := h.later hbefore
  have hstart : state.result level < state.nresults := by
    rcases h.result level with hlt | hzero <;> omega
  have hchain : ∀ r, OnChain (newResultForTable buffers state level (.stored row)) level
      (state.result level) r → ∃ earlier ∈ before,
        Shows (newResultForTable buffers state level (.stored row)) earlier level r := by
    intro r hr
    obtain ⟨earlier, hearlier, hshows⟩ :=
      h.sound level hlevel r (hr.of_extends hext h.descends hstart)
    rw [taken_self] at hearlier
    exact ⟨earlier, hearlier, hshows.mono hext⟩
  have hlatest := h.shows_push hlevel hrow
  unfold compareRowToAllPrevious
  change ∃ duplicate, compareRowToPrevious buffers
    (newResultForTable buffers state level (.stored row))
    ((newResultForTable buffers state level (.stored row)).results state.nresults).sector
    state.nresults (state.nresults + 1)
    ((newResultForTable buffers state level (.stored row)).results state.nresults).previous =
      .ok duplicate ∧ _
  rw [results_newResultForTable]
  dsimp only
  by_cases hseen : ∃ earlier ∈ before, SamePath level earlier tuple
  · obtain ⟨earlier, hearlier, hsame⟩ := hseen
    obtain ⟨r, hr, hshows⟩ := h.complete level hlevel earlier (by rwa [taken_self])
    refine ⟨true, ?_, iff_of_true rfl ⟨earlier, hearlier, hsame⟩⟩
    exact compareRowToPrevious_true h.descends_push hne hchain hlatest (hr.mono hext)
      (hshows.mono hext) hsame (by omega)
  · refine ⟨false, ?_, iff_of_false Bool.false_ne_true hseen⟩
    exact compareRowToPrevious_false h.descends_push hne hchain hlatest
      (fun earlier hearlier hsame => hseen ⟨earlier, hearlier, hsame⟩)
      (Nat.lt_succ_of_lt hstart) (by omega)

/-- A new row of the root is compared with the first one again and again. -/
theorem compareRowToAllPrevious_root (h : Stored before tuple 0 state) (hsize : 0 < buffers.size)
    (hrow : tuple.row 0 = some row) (hnew : ∀ earlier ∈ before, ¬ SamePath 0 earlier tuple)
    (hbefore : before ≠ []) :
    compareRowToAllPrevious buffers (newResultForTable buffers state 0 (.stored row)) =
      .error .loops := by
  have hext := @extends_newResultForTable Row buffers state 0 (.stored row)
  have hlater := h.later hbefore
  have hstart : state.result 0 < state.nresults := by
    rcases h.result 0 with hlt | hzero <;> omega
  unfold compareRowToAllPrevious
  change compareRowToPrevious buffers (newResultForTable buffers state 0 (.stored row))
    ((newResultForTable buffers state 0 (.stored row)).results state.nresults).sector
    state.nresults (state.nresults + 1)
    ((newResultForTable buffers state 0 (.stored row)).results state.nresults).previous = _
  rw [results_newResultForTable]
  refine compareRowToPrevious_loops h.descends_push ?_ (h.shows_push hsize hrow) hnew
    (Nat.lt_succ_of_lt hstart)
  intro r hr
  obtain ⟨earlier, hearlier, hshows⟩ :=
    h.sound 0 hsize r (hr.of_extends hext h.descends hstart)
  rw [taken_self] at hearlier
  exact ⟨earlier, hearlier, hshows.mono hext⟩

/-- Pushing a row whose path is new keeps what is stored; a path that came earlier is pruned. -/
theorem pushResultValue_eq (h : Stored before tuple level state) (hlevel : level < buffers.size)
    (hrow : tuple.row level = some row) (hne : before ≠ [] → level ≠ 0) :
    (¬ (∃ earlier ∈ before, SamePath level earlier tuple) →
      pushResultValue buffers state level row =
        .ok (newResultForTable buffers state level (.stored row))) ∧
    ((∃ earlier ∈ before, SamePath level earlier tuple) →
      pushResultValue buffers state level row =
        .ok (newResultForTable buffers state level (.stored row)).prune) := by
  unfold pushResultValue
  dsimp only
  by_cases hnil : before = []
  · have hfew : ¬ buffers.size <
        (newResultForTable buffers state level (.stored row)).nresults := by
      change ¬ buffers.size < state.nresults + 1
      rw [h.first hnil]
      omega
    rw [if_neg hfew, hnil]
    exact ⟨fun _ => rfl, fun ⟨_, hmem, _⟩ => absurd hmem List.not_mem_nil⟩
  · have hmany : buffers.size <
        (newResultForTable buffers state level (.stored row)).nresults :=
      Nat.lt_succ_of_le (h.later hnil)
    obtain ⟨duplicate, heq, hiff⟩ :=
      compareRowToAllPrevious_eq h hlevel hrow (hne hnil) hnil
    rw [if_pos hmany, heq]
    constructor
    · intro hnew
      have hfalse : duplicate = false := by
        cases duplicate with
        | false => rfl
        | true => exact absurd (hiff.mp rfl) hnew
      rw [hfalse]
    · intro hseen
      rw [hiff.mpr hseen]

omit [DecidableEq Row] in
/-- A result without an image breaks the chain of its table. -/
theorem not_chainsLive_of_last {n : ℕ} (hlevel : level < buffers.size)
    (hresult : state.result level = n) (hn : n < state.nresults) (hle : level ≤ n)
    (hdata : ¬ (state.results n).data.IsStored) : ¬ ChainsLive buffers state := by
  intro hlive
  subst hresult
  exact hdata (hlive level hlevel _ (.here hle hn))

/-- The state in which the row of a table is looked at. -/
def ready (buffers : Buffers) (state : State Row) (level : ℕ) : State Row :=
  if level = 0 then state.resetFlags buffers else state

omit [DecidableEq Row] in
theorem stored_ready (h : Stored before tuple level state) :
    Stored before tuple level (ready buffers state level) := by
  unfold ready
  split_ifs
  · exact h.setFlags _
  · exact h

omit [DecidableEq Row] in
theorem flagged_ready (hf : level ≠ 0 → Flagged before tuple level state) :
    Flagged before tuple level (ready buffers state level) := by
  unfold ready
  split_ifs with hzero
  · subst hzero
    exact ⟨fun _ h => absurd h (Nat.not_lt_zero _), fun _ h => absurd h (Nat.not_lt_zero _),
      fun _ _ => rfl⟩
  · exact hf hzero

omit [DecidableEq Row] in
/-- The flags after a row, which is marked if it is a duplicate. -/
theorem Flagged.succ (hf : Flagged before tuple level state) {other : State Row}
    (hold : ∀ table, table ≠ level → other.resultFlags table = state.resultFlags table)
    (hnull : (other.resultFlags level).rowIsNull = false)
    (hdup : (other.resultFlags level).rowIsDuplicate = true ↔
      ∃ last, before.getLast? = some last ∧ SamePath level last tuple) :
    Flagged before tuple (level + 1) other := by
  refine ⟨?_, ?_, ?_⟩
  · intro table htable
    by_cases heq : table = level
    · rw [heq]
      exact hnull
    · rw [hold table heq]
      exact hf.notNull table (by omega)
  · intro table htable
    by_cases heq : table = level
    · rw [heq]
      exact hdup
    · rw [hold table heq]
      exact hf.duplicate table (by omega)
  · intro table htable
    rw [hold table (by omega)]
    exact hf.reset table (by omega)

/-- A row that fits is pushed or skipped. -/
theorem pushResultForTable_fits (h : Stored before tuple level state)
    (hf : level ≠ 0 → Flagged before tuple level state) (hlevel : level < buffers.size)
    (hroot : ∀ earlier ∈ before, earlier.row 0 = tuple.row 0) (hfits : FitsAt before tuple level) :
    ∃ next, pushResultForTable buffers tuple level state = .ok next ∧
      Stored before tuple (level + 1) next ∧ Flagged before tuple (level + 1) next := by
  obtain ⟨row, hrow⟩ := Option.ne_none_iff_exists'.mp hfits.notNull
  have hstored := stored_ready h
  have hflagged := flagged_ready hf
  have hreset := hflagged.reset level (Nat.le_refl _)
  obtain ⟨duplicate, hdup, hiff⟩ := isDuplicate_eq hstored hflagged hlevel hrow
  unfold pushResultForTable
  dsimp only
  rw [hrow]
  dsimp only
  rw [show (if level = 0 then state.resetFlags buffers else state) = ready buffers state level
    from rfl, hdup]
  cases duplicate with
  | true =>
      obtain ⟨last, hlast, hsame⟩ := hiff.mp rfl
      refine ⟨_, rfl, (hstored.skip hlast hsame).setFlags _, hflagged.succ ?_ ?_ ?_⟩
      · exact fun table hne => Function.update_of_ne hne ..
      · unfold State.flag
        dsimp only
        rw [Function.update_self, hreset]
      · unfold State.flag
        dsimp only
        rw [Function.update_self]
        exact iff_of_true rfl ⟨last, hlast, hsame⟩
  | false =>
      have hnot : ¬ ∃ last, before.getLast? = some last ∧ SamePath level last tuple :=
        fun hall => Bool.false_ne_true (hiff.mpr hall)
      have hnew : ¬ ∃ earlier ∈ before, SamePath level earlier tuple := by
        rintro ⟨earlier, hearlier, hsame⟩
        obtain ⟨last, hlast⟩ := Option.ne_none_iff_exists'.mp
          (mt List.getLast?_eq_none_iff.mp (List.ne_nil_of_mem hearlier))
        exact hnot ⟨last, hlast, hfits.grouped earlier hearlier hsame last hlast⟩
      have hbelow : before ≠ [] → level ≠ 0 := by
        rintro hne rfl
        obtain ⟨earlier, hearlier⟩ := List.exists_mem_of_ne_nil _ hne
        exact hnew ⟨earlier, hearlier, samePath_root.mpr (hroot earlier hearlier)⟩
      refine ⟨_, (pushResultValue_eq hstored hlevel hrow hbelow).1 hnew,
        hstored.push hlevel hrow, hflagged.succ (fun _ _ => rfl) ?_ ?_⟩
      · change ((ready buffers state level).resultFlags level).rowIsNull = false
        rw [hreset]
      · change ((ready buffers state level).resultFlags level).rowIsDuplicate = true ↔ _
        rw [hreset]
        exact iff_of_false Bool.false_ne_true hnot

/-- NULL below a row that is not leaves a result without an image. -/
theorem pushResultForTable_null (h : Stored before tuple level state)
    (hf : level ≠ 0 → Flagged before tuple level state) (hlevel : level < buffers.size)
    (hne : level ≠ 0) (hrow : tuple.row level = none) :
    ∃ next, pushResultForTable buffers tuple level state = .ok next ∧
      ¬ ChainsLive buffers next := by
  have hparent := buffers.parent_lt level (Nat.pos_of_ne_zero hne)
  have hnull : ((state.flag level fun flags =>
      { flags with rowIsNull := true }).resultFlags (buffers.parent level)).rowIsNull = false := by
    unfold State.flag
    dsimp only
    rw [Function.update_of_ne (Nat.ne_of_lt hparent)]
    exact (hf hne).notNull _ hparent
  unfold pushResultForTable
  rw [if_neg hne, hrow]
  dsimp only
  rw [hnull]
  refine ⟨_, rfl, ?_⟩
  refine not_chainsLive_of_last hlevel result_newResultForTable (Nat.lt_succ_self _)
    (h.level_le hlevel) ?_
  rw [results_newResultForTable]
  exact fun hstored => hstored

/-- A row whose path came earlier, but not just before, is pruned. -/
theorem pushResultForTable_seen (h : Stored before tuple level state)
    (hf : level ≠ 0 → Flagged before tuple level state) (hlevel : level < buffers.size)
    (hne : level ≠ 0) (hrow : tuple.row level ≠ none)
    (hseen : ∃ earlier ∈ before, SamePath level earlier tuple)
    (hlast : ∃ last, before.getLast? = some last ∧ ¬ SamePath level last tuple) :
    ∃ next, pushResultForTable buffers tuple level state = .ok next ∧
      ¬ ChainsLive buffers next := by
  obtain ⟨row, hrow⟩ := Option.ne_none_iff_exists'.mp hrow
  obtain ⟨duplicate, hdup, hiff⟩ := isDuplicate_eq h (hf hne) hlevel hrow
  have hfalse : duplicate = false := by
    cases duplicate with
    | false => rfl
    | true =>
        obtain ⟨last, hsome, hnot⟩ := hlast
        obtain ⟨other, hother, hsame⟩ := hiff.mp rfl
        rw [hsome] at hother
        cases hother
        exact absurd hsame hnot
  unfold pushResultForTable
  rw [if_neg hne, hrow]
  dsimp only
  rw [hdup, hfalse]
  have hresult : (newResultForTable buffers state level (.stored row)).prune.result level =
      state.nresults :=
    @result_newResultForTable Row buffers state level (.stored row)
  refine ⟨_, (pushResultValue_eq h hlevel hrow fun _ => hne).2 hseen, ?_⟩
  refine not_chainsLive_of_last hlevel hresult (Nat.lt_succ_self _) (h.level_le hlevel) ?_
  have hfreed := @data_prune Row (newResultForTable buffers state level (.stored row))
  rw [show (newResultForTable buffers state level (.stored row)).nresults - 1 = state.nresults
    from rfl] at hfreed
  rw [hfreed]
  exact fun hstored => hstored

end

/-! ## A whole tuple -/

section
variable {state : State Row} {before : List (Tuple buffers Row)} {tuple other : Tuple buffers Row}
  {levels : ℕ}

theorem pushResults_fits (h : Stored before tuple 0 state)
    (hroot : ∀ earlier ∈ before, earlier.row 0 = tuple.row 0)
    (hfits : ∀ level < levels, FitsAt before tuple level) (hlevels : levels ≤ buffers.size) :
    ∃ next, pushResults buffers tuple state levels = .ok next ∧
      Stored before tuple levels next ∧ (levels ≠ 0 → Flagged before tuple levels next) := by
  induction levels with
  | zero => exact ⟨state, rfl, h, fun hne => absurd rfl hne⟩
  | succ levels ih =>
      obtain ⟨pushed, hpushed, hstored, hflagged⟩ :=
        ih (fun level hlevel => hfits level (by omega)) (by omega)
      obtain ⟨next, hnext, hkept⟩ := pushResultForTable_fits hstored hflagged hlevels hroot
        (hfits levels (Nat.lt_succ_self _))
      refine ⟨next, ?_, hkept.1, fun _ => hkept.2⟩
      unfold pushResults
      rw [hpushed]
      exact hnext

/-- A tuple that does not fit leaves a result without an image. -/
theorem pushResults_not_fits (h : Stored before tuple 0 state)
    (hroot : ∀ earlier ∈ before, earlier.row 0 = tuple.row 0) (hrow : tuple.row 0 ≠ none)
    (hnot : ¬ Fits before tuple) :
    ∃ levels ≤ buffers.size, ∃ next, pushResults buffers tuple state levels = .ok next ∧
      ¬ ChainsLive buffers next := by
  classical
  -- the first table at which the tuple does not fit
  have hexists : ∃ level, level < buffers.size ∧ ¬ FitsAt before tuple level := by
    by_contra hall
    exact hnot fun level hlevel => not_not.mp fun hbad => hall ⟨level, hlevel, hbad⟩
  obtain ⟨level, ⟨hlevel, hbad⟩, hleast⟩ :
      ∃ level, (level < buffers.size ∧ ¬ FitsAt before tuple level) ∧
        ∀ above < level, FitsAt before tuple above := by
    refine ⟨Nat.find hexists, Nat.find_spec hexists, fun above habove => not_not.mp fun hbad => ?_⟩
    have hlevel := (Nat.find_spec hexists).1
    exact Nat.find_min hexists habove ⟨by omega, hbad⟩
  obtain ⟨pushed, hpushed, hstored, hflagged⟩ :=
    pushResults_fits h hroot hleast (Nat.le_of_lt hlevel)
  have hsucc : ∀ next, pushResultForTable buffers tuple level pushed = .ok next →
      pushResults buffers tuple state (level + 1) = .ok next := by
    intro next hnext
    unfold pushResults
    rw [hpushed]
    exact hnext
  have hne : level ≠ 0 := by
    rintro rfl
    refine hbad ⟨hrow, fun _ _ _ last hlast => samePath_root.mpr ?_⟩
    exact hroot last (List.mem_of_getLast? hlast)
  by_cases hnull : tuple.row level = none
  · obtain ⟨next, hnext, hdead⟩ := pushResultForTable_null hstored hflagged hlevel hne hnull
    exact ⟨level + 1, hlevel, next, hsucc next hnext, hdead⟩
  · obtain ⟨earlier, hearlier, hsame, last, hlast, hdiffers⟩ :
        ∃ earlier ∈ before, SamePath level earlier tuple ∧
          ∃ last, before.getLast? = some last ∧ ¬ SamePath level last tuple := by
      by_contra hall
      refine hbad ⟨hnull, fun earlier hearlier hsame last hlast => ?_⟩
      by_contra hdiffers
      exact hall ⟨earlier, hearlier, hsame, last, hlast, hdiffers⟩
    obtain ⟨next, hnext, hdead⟩ := pushResultForTable_seen hstored hflagged hlevel hne hnull
      ⟨earlier, hearlier, hsame⟩ ⟨last, hlast, hdiffers⟩
    exact ⟨level + 1, hlevel, next, hsucc next hnext, hdead⟩

/-- A new row of the root is never done. -/
theorem pushResults_root (h : Stored before tuple 0 state) (hrow : tuple.row 0 ≠ none)
    (hbefore : before ≠ []) (hnew : ∀ earlier ∈ before, earlier.row 0 ≠ tuple.row 0) :
    pushResults buffers tuple state (levels + 1) = .error .loops := by
  obtain ⟨row, hrow⟩ := Option.ne_none_iff_exists'.mp hrow
  have hnot : ∀ earlier ∈ before, ¬ SamePath 0 earlier tuple :=
    fun earlier hearlier hsame => hnew earlier hearlier hsame.row
  have hstored := stored_ready h
  have hflagged : Flagged before tuple 0 (ready buffers state 0) :=
    flagged_ready fun hne => absurd rfl hne
  induction levels with
  | zero =>
      obtain ⟨duplicate, hdup, hiff⟩ :=
        isDuplicate_eq hstored hflagged buffers.size_pos hrow
      have hfalse : duplicate = false := by
        cases duplicate with
        | false => rfl
        | true =>
            obtain ⟨last, hlast, hsame⟩ := hiff.mp rfl
            exact absurd hsame (hnot last (List.mem_of_getLast? hlast))
      change pushResultForTable buffers tuple 0 state = _
      unfold pushResultForTable
      rw [hrow]
      dsimp only
      rw [show (if 0 = 0 then state.resetFlags buffers else state) = ready buffers state 0 from rfl,
        hdup, hfalse]
      dsimp only
      unfold pushResultValue
      dsimp only
      have hmany : buffers.size <
          (newResultForTable buffers (ready buffers state 0) 0 (.stored row)).nresults :=
        Nat.lt_succ_of_le (hstored.later hbefore)
      rw [if_pos hmany, compareRowToAllPrevious_root hstored buffers.size_pos hrow hnot hbefore]
  | succ levels ih =>
      unfold pushResults
      rw [ih]

/-- A tuple of NULL only changes the flags. -/
theorem pushResults_null (hrow : tuple.row 0 = none) :
    ∃ flags : ℕ → Flags, pushResults buffers tuple state levels =
        .ok { state with resultFlags := flags } ∧
      ∀ level < levels, (flags level).rowIsNull = true := by
  have hnull : ∀ level, tuple.row level = none := by
    intro level
    induction level using Nat.strongRecOn with
    | ind level ih =>
        by_cases hzero : level = 0
        · rw [hzero]
          exact hrow
        · exact tuple.null_of_parent level
            (ih _ (buffers.parent_lt level (Nat.pos_of_ne_zero hzero)))
  induction levels with
  | zero => exact ⟨state.resultFlags, rfl, fun _ h => absurd h (Nat.not_lt_zero _)⟩
  | succ levels ih =>
      obtain ⟨flags, hpushed, hflags⟩ := ih
      have hready : ∃ now : ℕ → Flags, ready buffers { state with resultFlags := flags } levels =
          { state with resultFlags := now } ∧ ∀ level < levels, (now level).rowIsNull = true := by
        unfold ready
        split_ifs with hzero
        · exact ⟨_, rfl, fun level hlevel => by omega⟩
        · exact ⟨flags, rfl, hflags⟩
      obtain ⟨now, hready, hnow⟩ := hready
      have hparent : (Function.update now levels { now levels with rowIsNull := true }
          (buffers.parent levels)).rowIsNull = true := by
        by_cases hzero : levels = 0
        · rw [hzero, buffers.parent_zero, Function.update_self]
        · have hlt := buffers.parent_lt levels (Nat.pos_of_ne_zero hzero)
          rw [Function.update_of_ne (Nat.ne_of_lt hlt)]
          exact hnow _ hlt
      refine ⟨Function.update now levels { now levels with rowIsNull := true }, ?_, ?_⟩
      · unfold pushResults
        rw [hpushed]
        dsimp only
        unfold pushResultForTable
        rw [hnull levels]
        dsimp only
        rw [show (if levels = 0 then
            State.resetFlags buffers { state with resultFlags := flags }
          else { state with resultFlags := flags }) =
            ready buffers { state with resultFlags := flags } levels from rfl, hready]
        exact if_pos hparent
      · intro level hlevel
        by_cases heq : level = levels
        · rw [heq, Function.update_self]
        · rw [Function.update_of_ne heq]
          exact hnow level (by omega)

omit [DecidableEq Row] in
theorem taken_zero (level : ℕ) : taken before tuple 0 level = before :=
  if_neg (Nat.not_lt_zero _)

omit [DecidableEq Row] in
/-- Before its first row is taken, the tuple does not matter. -/
theorem Stored.next (h : Stored before tuple 0 state) : Stored before other 0 state := by
  refine ⟨h.first, h.later, h.result, h.descends, ?_, ?_, ?_⟩
  · intro level hlevel last hlast
    rw [taken_zero] at hlast
    exact h.latest level hlevel last (by rwa [taken_zero])
  · intro level hlevel r hr
    rw [taken_zero]
    obtain ⟨earlier, hearlier, hshows⟩ := h.sound level hlevel r hr
    rw [taken_zero] at hearlier
    exact ⟨earlier, hearlier, hshows⟩
  · intro level hlevel earlier hearlier
    rw [taken_zero] at hearlier
    exact h.complete level hlevel earlier (by rwa [taken_zero])

omit [DecidableEq Row] in
/-- After its last row is taken, the tuple is one of those before. -/
theorem Stored.done (h : Stored before tuple buffers.size state) :
    Stored (before ++ [tuple]) other 0 state := by
  refine ⟨fun hnil => absurd hnil (by simp), ?_, h.result, h.descends, ?_, ?_, ?_⟩
  · intro _
    by_cases hnil : before = []
    · exact Nat.le_of_eq (h.first hnil).symm
    · exact h.later hnil
  · intro level hlevel last hlast
    rw [taken_zero] at hlast
    exact h.latest level hlevel last (by rwa [taken_of_lt hlevel])
  · intro level hlevel r hr
    rw [taken_zero, ← taken_of_lt hlevel]
    exact h.sound level hlevel r hr
  · intro level hlevel earlier hearlier
    rw [taken_zero, ← taken_of_lt hlevel] at hearlier
    exact h.complete level hlevel earlier hearlier

end

/-! ## All tuples -/

section
variable {state : State Row} {before : List (Tuple buffers Row)} {tuple : Tuple buffers Row}
  {tuples : List (Tuple buffers Row)}

theorem imagesLive_nil : ImagesLive buffers state [] := by
  refine ⟨?_, ?_⟩
  · intro stop hstop
    cases hstop
  · intro before tuple after heq
    exact absurd heq.symm (by simp)

theorem imagesLive_cons :
    ImagesLive buffers state (tuple :: tuples) ↔
      (∀ levels ≤ buffers.size, ∀ pushed, pushResults buffers tuple state levels = .ok pushed →
        ChainsLive buffers pushed) ∧
      (∀ stop, pushResults buffers tuple state buffers.size = .error stop → stop = .loops) ∧
      ∀ next, pushResults buffers tuple state buffers.size = .ok next →
        ImagesLive buffers next tuples := by
  constructor
  · rintro ⟨hcompared, hchained⟩
    refine ⟨fun levels hlevels pushed hpushed =>
      hchained [] tuple tuples rfl state rfl levels hlevels pushed hpushed, ?_, ?_⟩
    · intro stop hstop
      refine hcompared stop ?_
      unfold fetchAllResults
      rw [hstop]
    · intro next hnext
      refine ⟨fun stop hstop => hcompared stop ?_, ?_⟩
      · unfold fetchAllResults
        rw [hnext]
        exact hstop
      · intro before other after heq fetched hfetched
        refine hchained (tuple :: before) other after (by rw [heq, List.cons_append]) fetched ?_
        unfold fetchAllResults
        rw [hnext]
        exact hfetched
  · rintro ⟨hfirst, hstops, hrest⟩
    cases hpushed : pushResults buffers tuple state buffers.size with
    | error stop =>
        refine ⟨?_, ?_⟩
        · intro other hother
          unfold fetchAllResults at hother
          rw [hpushed] at hother
          cases hother
          exact hstops stop hpushed
        · intro before other after heq fetched hfetched
          cases before with
          | nil =>
              cases heq
              cases hfetched
              exact hfirst
          | cons first before =>
              cases heq
              unfold fetchAllResults at hfetched
              rw [hpushed] at hfetched
              cases hfetched
    | ok next =>
        obtain ⟨hcompared, hchained⟩ := hrest next hpushed
        refine ⟨?_, ?_⟩
        · intro stop hstop
          unfold fetchAllResults at hstop
          rw [hpushed] at hstop
          exact hcompared stop hstop
        · intro before other after heq fetched hfetched
          cases before with
          | nil =>
              cases heq
              cases hfetched
              exact hfirst
          | cons first before =>
              cases heq
              unfold fetchAllResults at hfetched
              rw [hpushed] at hfetched
              exact hchained before other after rfl fetched hfetched

/-- From a state that shows the tuples before, images are live if and only if the others fit. -/
theorem imagesLive_iff_of_stored (h : ∀ tuple, Stored before tuple 0 state)
    (hsame : ∀ first ∈ before, ∀ second ∈ before, first.row 0 = second.row 0) :
    ImagesLive buffers state tuples ↔ AllFit before tuples := by
  induction tuples generalizing before state with
  | nil => exact iff_of_true imagesLive_nil trivial
  | cons tuple tuples ih =>
      rw [imagesLive_cons]
      unfold AllFit
      split_ifs with hnull hnew
      · -- a tuple of NULL only leaves what is stored as it is
        have hpushed := fun levels => @pushResults_null Row _ buffers state tuple levels hnull
        have hkept : ∀ levels pushed, pushResults buffers tuple state levels = .ok pushed →
            ∀ other, Stored before other 0 pushed := by
          intro levels pushed heq other
          obtain ⟨flags, hok, _⟩ := hpushed levels
          rw [hok] at heq
          cases heq
          exact (h other).setFlags flags
        obtain ⟨flags, hok, _⟩ := hpushed buffers.size
        rw [← ih (hkept _ _ hok) hsame]
        constructor
        · exact fun hall => hall.2.2 _ hok
        · intro hrest
          refine ⟨fun levels _ pushed heq => (hkept levels pushed heq tuple).chainsLive, ?_, ?_⟩
          · intro stop hstop
            rw [hok] at hstop
            cases hstop
          · intro next hnext
            rw [hok] at hnext
            cases hnext
            exact hrest
      · -- another root: the fetch does not come back
        obtain ⟨first, hfirst, hdiffers⟩ := hnew
        have hstop : ∀ levels, pushResults buffers tuple state (levels + 1) = .error .loops :=
          fun levels => pushResults_root (h tuple) hnull (List.ne_nil_of_mem hfirst)
            fun earlier hearlier heq => hdiffers ((hsame first hfirst earlier hearlier).trans heq)
        refine iff_of_true ⟨?_, ?_, ?_⟩ trivial
        · intro levels _ pushed hpushed
          cases levels with
          | zero =>
              cases hpushed
              exact (h tuple).chainsLive
          | succ levels =>
              rw [hstop] at hpushed
              cases hpushed
        · intro stop hstops
          obtain ⟨size, hsize⟩ := Nat.exists_eq_succ_of_ne_zero (Nat.pos_iff_ne_zero.mp
            buffers.size_pos)
          rw [hsize, hstop] at hstops
          cases hstops
          rfl
        · intro next hnext
          obtain ⟨size, hsize⟩ := Nat.exists_eq_succ_of_ne_zero (Nat.pos_iff_ne_zero.mp
            buffers.size_pos)
          rw [hsize, hstop] at hnext
          cases hnext
      · have hroot : ∀ earlier ∈ before, earlier.row 0 = tuple.row 0 := by
          intro earlier hearlier
          by_contra hdiffers
          exact hnew ⟨earlier, hearlier, hdiffers⟩
        by_cases hfits : Fits before tuple
        · have hpushed := fun levels (hlevels : levels ≤ buffers.size) =>
            pushResults_fits (h tuple) hroot (fun level hlevel => hfits level (by omega)) hlevels
          obtain ⟨next, hnext, hstored, _⟩ := hpushed buffers.size (Nat.le_refl _)
          have hsame' : ∀ first ∈ before ++ [tuple], ∀ second ∈ before ++ [tuple],
              first.row 0 = second.row 0 := by
            have hall : ∀ first ∈ before ++ [tuple], first.row 0 = tuple.row 0 := by
              intro first hfirst
              rcases List.mem_append.mp hfirst with hfirst | hfirst
              · exact hroot first hfirst
              · rw [List.mem_singleton.mp hfirst]
            exact fun first hfirst second hsecond =>
              (hall first hfirst).trans (hall second hsecond).symm
          rw [← ih (fun _ => hstored.done) hsame', and_iff_right hfits]
          constructor
          · exact fun hall => hall.2.2 next hnext
          · intro hrest
            refine ⟨?_, ?_, ?_⟩
            · intro levels hlevels pushed heq
              obtain ⟨other, hother, hkept, _⟩ := hpushed levels hlevels
              rw [hother] at heq
              cases heq
              exact hkept.chainsLive
            · intro stop hstop
              rw [hnext] at hstop
              cases hstop
            · intro other hother
              rw [hnext] at hother
              cases hother
              exact hrest
        · obtain ⟨levels, hlevels, next, hnext, hdead⟩ :=
            pushResults_not_fits (h tuple) hroot hnull hfits
          exact iff_of_false (fun hall => hdead (hall.1 levels hlevels next hnext))
            fun hall => hfits hall.1

omit [DecidableEq Row] in
theorem stored_init (tuple : Tuple buffers Row) : Stored [] tuple 0 ({} : State Row) where
  first _ := rfl
  later hne := absurd rfl hne
  result _ := .inr rfl
  descends r hr := absurd hr (Nat.not_lt_zero _)
  latest level _ last hlast := by
    rw [taken_zero] at hlast
    cases hlast
  sound level _ r hr := absurd hr.lt (Nat.not_lt_zero _)
  complete level _ earlier hearlier := by
    rw [taken_zero] at hearlier
    exact absurd hearlier List.not_mem_nil

end

/-- The images that a fetch compares are live if and only if the tuples fit. -/
theorem imagesLive_iff (buffers : Buffers) (tuples : List (Tuple buffers Row)) :
    ImagesLive buffers {} tuples ↔ AllFit [] tuples :=
  imagesLive_iff_of_stored stored_init fun _ hmem => absurd hmem List.not_mem_nil

/-- A root with two tables below it. -/
def twoTables : Buffers where
  size := 3
  parent _ := 0
  tableIsJoinTable _ := false
  size_pos := by decide
  parent_zero := rfl
  parent_lt _ h := h

/-- A root row with a row of each table. -/
def twoTables.tuple (first second : ℕ) : Tuple twoTables ℕ where
  row
    | 0 => some 0
    | 1 => some first
    | _ => some second
  null_of_parent _ h := nomatch h

/-- Two rows of each table: the second one of the last table is compared with a freed image. -/
theorem not_imagesLive_crossProduct :
    ¬ ∀ (buffers : Buffers) (tuples : List (Tuple buffers ℕ)), ImagesLive buffers {} tuples := by
  intro hclaim
  have hlive := (hclaim twoTables [twoTables.tuple 1 1, twoTables.tuple 1 2,
    twoTables.tuple 2 1, twoTables.tuple 2 2]).compared .deadImage rfl
  exact absurd hlive (by decide)

end DatabaseJones.QueryOperation
