import DatabaseJones.Promise.Promise
import Mathlib.Logic.Relation

/-!
# The Promise Resolution Procedure

What `thenPromiseFulfilledOrRejected` does with the value that a handler has returned, and what
section 2.3 of Promises/A+ prescribes.  Here the calls that a thenable makes of its callbacks are
seen one by one, and the objects that it hands on are followed.
-/

namespace DatabaseJones.Promise

open Relation

section
variable {ι : Type}

/-! ## Objects -/

/-- A value that a handler returns; objects and functions are names. -/
inductive Result (ι : Type)
  | undefined
  | null
  | primitive (isTruthy : Bool) (name : ℕ)
  | object (object : ι)
deriving DecidableEq, Repr

def Result.truthy : Result ι → Bool
  | .undefined => false
  | .null => false
  | .primitive isTruthy _ => isTruthy
  | .object _ => true

/-- A call of `resolvePromise` or `rejectPromise`, or how a promise has been settled. -/
inductive Notice (ι : Type)
  | fulfilled (value : Result ι)
  | rejected (reason : Result ι)
deriving DecidableEq, Repr

/-- What a method `then` does with its callbacks: the calls that it makes before it returns or
throws, and the calls that it makes later. -/
structure Thenable (ι : Type) where
  now : List (Notice ι)
  throws : Option (Result ι)
  later : List (Notice ι)
deriving DecidableEq, Repr

/-- What is found where the property `then` of an object is read.  Of a promise of this
implementation it counts how it is settled, if it ever is, and whether it is settled already. -/
inductive Kind (ι : Type)
  | plain
  | throwing (error : Result ι)
  | thenable (thenable : Thenable ι)
  | promise (settlement : Option (Notice ι)) (resolved : Bool)
deriving DecidableEq, Repr

/-- The objects of a program.  A handler of the original promise is called once this is settled,
while the new promise, which `then()` has returned, is pending. -/
structure Objects (ι : Type) where
  kind : ι → Kind ι
  originalPromise : ι
  newPromise : ι
  original_settled : ∃ settlement, kind originalPromise = .promise (some settlement) true
  new_pending : kind newPromise = .promise none false

/-- A reason is a value, or an error that is made where a promise is resolved. -/
inductive Reason (ι : Type)
  | value (value : Result ι)
  | error (error : ResolutionError)
deriving DecidableEq

/-- How the new promise is settled. -/
inductive Settling (ι : Type)
  | fulfilled (value : Result ι)
  | rejected (reason : Reason ι)
deriving DecidableEq

def Notice.settling : Notice ι → Settling ι
  | .fulfilled value => .fulfilled value
  | .rejected reason => .rejected (.value reason)

/-! ## What the code does -/

/-- The new promise, with the calls of `fulfill()` and `reject()`. -/
structure NewPromise (ι : Type) where
  resolved : Bool := false
  calls : List (Settling ι) := []
deriving DecidableEq

/-- `new_promise.fulfill(value)` or `new_promise.reject(reason)`. -/
def NewPromise.settle (promise : NewPromise ι) (settling : Settling ι) : NewPromise ι :=
  { resolved := true, calls := promise.calls ++ [settling] }

/-- The callbacks that are given to a thenable. -/
def NewPromise.notify (promise : NewPromise ι) (notice : Notice ι) : NewPromise ι :=
  if promise.resolved then promise else promise.settle notice.settling

/-- `then.call(new_result, resolvePromise, rejectPromise)` and what comes later. -/
def NewPromise.callThen (promise : NewPromise ι) (thenable : Thenable ι) : NewPromise ι :=
  let called := thenable.now.foldl NewPromise.notify promise
  let returned :=
    match thenable.throws with
    | some callE => if called.resolved then called else called.settle (.rejected (.value callE))
    | none => called
  thenable.later.foldl NewPromise.notify returned

/-- The method `then` of a promise of this implementation calls a callback on a later turn.  If the
promise is settled already, it takes a reason that is falsy for a fulfilled promise. -/
def promiseThen (settlement : Option (Notice ι)) (resolved : Bool) : Thenable ι :=
  let later :=
    match settlement with
    | none => []
    | some (.fulfilled value) => [.fulfilled value]
    | some (.rejected reason) =>
        if resolved && !reason.truthy then [.fulfilled .undefined] else [.rejected reason]
  { now := [], throws := none, later }

/-- `thenPromiseFulfilledOrRejected` for the result of a handler; `typeof null` is `'object'`. -/
def resolveResult [DecidableEq ι] (objects : Objects ι) (newResult : Result ι) : NewPromise ι :=
  let promise : NewPromise ι := {}
  match newResult with
  | .undefined => promise.settle (.fulfilled newResult)
  | .primitive _ _ => promise.settle (.fulfilled newResult)
  | .null => promise.settle (.rejected (.error .readThen))
  | .object object =>
      if object = objects.originalPromise then
        promise.settle (.rejected (.error .resolutionProcedure))
      else
        match objects.kind object with
        | .throwing thenE => promise.settle (.rejected (.value thenE))
        | .plain => promise.settle (.fulfilled newResult)
        | .thenable thenable => promise.callThen thenable
        | .promise settlement resolved => promise.callThen (promiseThen settlement resolved)

/-! ## What is prescribed -/

/-- The first call takes precedence, and an error that is thrown is one of `rejectPromise`. -/
def Thenable.firstCall (thenable : Thenable ι) : Option (Notice ι) :=
  (thenable.now ++ thenable.throws.toList.map Notice.rejected ++ thenable.later).head?

/-- `[[Resolve]](promise, x)` of section 2.3, where it comes to an end. -/
inductive Prescribes (objects : Objects ι) : Result ι → Settling ι → Prop
  | self : Prescribes objects (.object objects.newPromise) (.rejected (.error .resolutionProcedure))
  | adopt {object settlement resolved} (hne : object ≠ objects.newPromise)
      (hkind : objects.kind object = .promise (some settlement) resolved) :
      Prescribes objects (.object object) settlement.settling
  | throwing {object error} (hkind : objects.kind object = .throwing error) :
      Prescribes objects (.object object) (.rejected (.value error))
  | resolve {object thenable value outcome} (hkind : objects.kind object = .thenable thenable)
      (hcall : thenable.firstCall = some (.fulfilled value))
      (hvalue : Prescribes objects value outcome) : Prescribes objects (.object object) outcome
  | reject {object thenable reason} (hkind : objects.kind object = .thenable thenable)
      (hcall : thenable.firstCall = some (.rejected reason)) :
      Prescribes objects (.object object) (.rejected (.value reason))
  | plain {object} (hkind : objects.kind object = .plain) :
      Prescribes objects (.object object) (.fulfilled (.object object))
  | undefined : Prescribes objects .undefined (.fulfilled .undefined)
  | null : Prescribes objects .null (.fulfilled .null)
  | primitive (isTruthy : Bool) (name : ℕ) :
      Prescribes objects (.primitive isTruthy name) (.fulfilled (.primitive isTruthy name))

/-- The new promise is settled as prescribed, and at most once. -/
def SettlesAsPrescribed [DecidableEq ι] (objects : Objects ι) (newResult : Result ι) : Prop :=
  (resolveResult objects newResult).calls.length ≤ 1 ∧
    ∀ outcome, outcome ∈ (resolveResult objects newResult).calls ↔
      Prescribes objects newResult outcome

/-! ## The condition -/

/-- A value that is no promise, has no method `then`, and whose property `then` can be read. -/
def Plain (objects : Objects ι) : Result ι → Prop
  | .object object => objects.kind object = .plain
  | _ => True

/-- A thenable hands a value to `resolvePromise`. -/
def Hands (objects : Objects ι) (result value : Result ι) : Prop :=
  ∃ object thenable, result = .object object ∧ objects.kind object = .thenable thenable ∧
    thenable.firstCall = some (.fulfilled value)

/-- From thenable to thenable, a value leads to a promise that was fulfilled with this value. -/
def ComesBack (objects : Objects ι) (value : Result ι) : Prop :=
  ∃ promise resolved, ReflTransGen (Hands objects) value (.object promise) ∧
    objects.kind promise = .promise (some (.fulfilled value)) resolved

/-- The results that are resolved in one step. -/
def ResolvedDirectly (objects : Objects ι) : Result ι → Prop
  | .undefined => True
  | .primitive _ _ => True
  | .null => False
  | .object object =>
      object ≠ objects.originalPromise ∧ object ≠ objects.newPromise ∧
        (∀ reason, objects.kind object = .promise (some (.rejected reason)) true →
          reason.truthy = true) ∧
        ∀ value, Hands objects (.object object) value →
          Plain objects value ∨ ComesBack objects value

/-! ## One step -/

theorem foldl_notify_resolved (calls : List (Settling ι)) (notices : List (Notice ι)) :
    notices.foldl NewPromise.notify { resolved := true, calls } = { resolved := true, calls } := by
  induction notices with
  | nil => rfl
  | cons notice notices ih => exact ih

/-- Of several calls the first one counts. -/
theorem foldl_notify (notices : List (Notice ι)) :
    notices.foldl NewPromise.notify {} =
      match notices.head? with
      | none => {}
      | some notice => { resolved := true, calls := [notice.settling] } := by
  cases notices with
  | nil => rfl
  | cons notice notices => exact foldl_notify_resolved _ notices

theorem callThen_eq (thenable : Thenable ι) :
    NewPromise.callThen {} thenable =
      match thenable.firstCall with
      | none => {}
      | some notice => { resolved := true, calls := [notice.settling] } := by
  unfold NewPromise.callThen Thenable.firstCall
  rw [foldl_notify]
  cases hnow : thenable.now with
  | cons notice notices =>
      cases thenable.throws with
      | none => exact foldl_notify_resolved _ thenable.later
      | some error => exact foldl_notify_resolved _ thenable.later
  | nil =>
      cases thenable.throws with
      | none => exact foldl_notify thenable.later
      | some error => exact foldl_notify_resolved _ thenable.later

theorem firstCall_promiseThen (settlement : Option (Notice ι)) (resolved : Bool) :
    (promiseThen settlement resolved).firstCall =
      match settlement with
      | some (.rejected reason) =>
          if resolved && !reason.truthy then some (.fulfilled .undefined)
          else some (.rejected reason)
      | other => other := by
  cases settlement with
  | none => rfl
  | some notice =>
      cases notice with
      | fulfilled value => rfl
      | rejected reason =>
          unfold promiseThen Thenable.firstCall
          dsimp only
          split_ifs <;> rfl

variable {objects : Objects ι}

/-- At most one outcome is prescribed. -/
theorem Prescribes.unique {result : Result ι} {first second : Settling ι}
    (hfirst : Prescribes objects result first) (hsecond : Prescribes objects result second) :
    first = second := by
  have hpending := objects.new_pending
  induction hfirst with
  | self => cases hsecond <;> simp_all
  | adopt hne hkind => cases hsecond <;> simp_all
  | throwing hkind => cases hsecond <;> simp_all
  | resolve hkind hcall _ ih =>
      cases hsecond with
      | self => simp_all
      | adopt _ hkind' => simp_all
      | throwing hkind' => simp_all
      | reject hkind' hcall' => simp_all
      | plain hkind' => simp_all
      | resolve hkind' hcall' hvalue' =>
          rw [hkind] at hkind'
          cases hkind'
          rw [hcall] at hcall'
          cases hcall'
          exact ih hvalue'
  | reject hkind hcall => cases hsecond <;> simp_all
  | plain hkind => cases hsecond <;> simp_all
  | undefined => cases hsecond; rfl
  | null => cases hsecond; rfl
  | primitive => cases hsecond; rfl

/-- A value that is fulfilled with is found at the end of a way from thenable to thenable. -/
theorem prescribes_fulfilled_iff {result value : Result ι} :
    Prescribes objects result (.fulfilled value) ↔
      ReflTransGen (Hands objects) result value ∧ Plain objects value ∨
        ∃ promise resolved, ReflTransGen (Hands objects) result (.object promise) ∧
          objects.kind promise = .promise (some (.fulfilled value)) resolved := by
  have hpending := objects.new_pending
  constructor
  · generalize houtcome : Settling.fulfilled value = outcome
    intro h
    induction h with
    | self => cases houtcome
    | adopt hne hkind =>
        rename_i settlement resolved
        cases settlement with
        | rejected reason => cases houtcome
        | fulfilled other =>
            cases houtcome
            exact .inr ⟨_, _, .refl, hkind⟩
    | throwing hkind => cases houtcome
    | resolve hkind hcall _ ih =>
        have hhands := (⟨_, _, rfl, hkind, hcall⟩ : Hands objects _ _)
        rcases ih houtcome with ⟨hway, hplain⟩ | ⟨promise, resolved, hway, hpromise⟩
        · exact .inl ⟨.head hhands hway, hplain⟩
        · exact .inr ⟨promise, resolved, .head hhands hway, hpromise⟩
    | reject hkind hcall => cases houtcome
    | plain hkind =>
        cases houtcome
        exact .inl ⟨.refl, hkind⟩
    | undefined =>
        cases houtcome
        exact .inl ⟨.refl, trivial⟩
    | null =>
        cases houtcome
        exact .inl ⟨.refl, trivial⟩
    | primitive =>
        cases houtcome
        exact .inl ⟨.refl, trivial⟩
  · have hway : ∀ {last : Result ι}, ReflTransGen (Hands objects) result last →
        Prescribes objects last (.fulfilled value) →
        Prescribes objects result (.fulfilled value) := by
      intro last hway hlast
      induction hway using ReflTransGen.head_induction_on with
      | refl => exact hlast
      | head hhands _ ih =>
          obtain ⟨object, thenable, rfl, hkind, hcall⟩ := hhands
          exact .resolve hkind hcall ih
    rintro (⟨hreached, hplain⟩ | ⟨promise, resolved, hreached, hkind⟩)
    · refine hway hreached ?_
      cases value with
      | undefined => exact .undefined
      | null => exact .null
      | primitive isTruthy name => exact .primitive isTruthy name
      | object object => exact .plain hplain
    · refine hway hreached ?_
      have hne : promise ≠ objects.newPromise := by
        rintro rfl
        rw [hkind] at hpending
        cases hpending
      exact .adopt hne hkind

/-- A value is fulfilled with itself if it is plain or comes back. -/
theorem prescribes_self_iff {value : Result ι} :
    Prescribes objects value (.fulfilled value) ↔ Plain objects value ∨ ComesBack objects value := by
  rw [prescribes_fulfilled_iff]
  exact or_congr (and_iff_right .refl) Iff.rfl

/-! ## The procedure -/

variable [DecidableEq ι]

theorem settlesAsPrescribed_of_eq {result : Result ι} {settling : Settling ι}
    (hcalls : (resolveResult objects result).calls = [settling]) :
    SettlesAsPrescribed objects result ↔ Prescribes objects result settling := by
  unfold SettlesAsPrescribed
  rw [hcalls]
  simp only [List.length_singleton, le_refl, true_and, List.mem_singleton]
  constructor
  · intro h
    exact (h settling).mp rfl
  · intro h outcome
    constructor
    · rintro rfl
      exact h
    · exact fun houtcome => houtcome.unique h

theorem settlesAsPrescribed_of_nil {result : Result ι}
    (hcalls : (resolveResult objects result).calls = []) :
    SettlesAsPrescribed objects result ↔ ∀ outcome, ¬Prescribes objects result outcome := by
  unfold SettlesAsPrescribed
  rw [hcalls]
  simp

theorem resolveResult_object {object : ι} (h : object ≠ objects.originalPromise) :
    resolveResult objects (.object object) =
      match objects.kind object with
      | .throwing thenE => { resolved := true, calls := [.rejected (.value thenE)] }
      | .plain => { resolved := true, calls := [.fulfilled (.object object)] }
      | .thenable thenable => NewPromise.callThen {} thenable
      | .promise settlement resolved => NewPromise.callThen {} (promiseThen settlement resolved) := by
  rw [resolveResult, if_neg h]
  cases objects.kind object <;> rfl

/-- What the first call of a thenable is. -/
theorem settlesAsPrescribed_thenable_iff {object : ι} {thenable : Thenable ι}
    (hne : object ≠ objects.originalPromise) (hkind : objects.kind object = .thenable thenable) :
    SettlesAsPrescribed objects (.object object) ↔
      ∀ value, Hands objects (.object object) value →
        Plain objects value ∨ ComesBack objects value := by
  have hpending := objects.new_pending
  have hcalls : resolveResult objects (.object object) = NewPromise.callThen {} thenable := by
    rw [resolveResult_object hne, hkind]
  rw [callThen_eq] at hcalls
  have hhands : ∀ value, Hands objects (.object object) value ↔
      thenable.firstCall = some (.fulfilled value) := by
    intro value
    constructor
    · rintro ⟨other, thenable', heq, hkind', hcall⟩
      cases heq
      rw [hkind] at hkind'
      cases hkind'
      exact hcall
    · exact fun hcall => ⟨object, thenable, rfl, hkind, hcall⟩
  simp only [hhands]
  cases hcall : thenable.firstCall with
  | none =>
      rw [hcall] at hcalls
      rw [settlesAsPrescribed_of_nil (by rw [hcalls])]
      refine iff_of_true (fun outcome h => ?_) (fun _ h => nomatch h)
      cases h <;> simp_all
  | some notice =>
      rw [hcall] at hcalls
      cases notice with
      | rejected reason =>
          rw [settlesAsPrescribed_of_eq (by rw [hcalls])]
          exact iff_of_true (.reject hkind hcall) (fun _ h => nomatch h)
      | fulfilled value =>
          rw [settlesAsPrescribed_of_eq (by rw [hcalls]), Notice.settling]
          have hvalue : ∀ outcome, Prescribes objects (.object object) outcome ↔
              Prescribes objects value outcome := by
            intro outcome
            constructor
            · intro h
              cases h with
              | self => simp_all
              | adopt _ hkind' => simp_all
              | throwing hkind' => simp_all
              | reject hkind' hcall' => simp_all
              | resolve hkind' hcall' hvalue =>
                  rw [hkind] at hkind'
                  cases hkind'
                  rw [hcall] at hcall'
                  cases hcall'
                  exact hvalue
              | plain hkind' => simp_all
            · exact .resolve hkind hcall
          rw [hvalue, prescribes_self_iff]
          constructor
          · intro h other hother
            cases Option.some.inj hother
            exact h
          · exact fun h => h value rfl

/-- A promise of this implementation. -/
theorem settlesAsPrescribed_promise_iff {object : ι} {settlement : Option (Notice ι)}
    {resolved : Bool} (hne : object ≠ objects.originalPromise)
    (hkind : objects.kind object = .promise settlement resolved) :
    SettlesAsPrescribed objects (.object object) ↔
      object ≠ objects.newPromise ∧
        ∀ reason, settlement = some (.rejected reason) → resolved = true → reason.truthy = true := by
  have hpending := objects.new_pending
  have hcalls : resolveResult objects (.object object) =
      NewPromise.callThen {} (promiseThen settlement resolved) := by
    rw [resolveResult_object hne, hkind]
  rw [callThen_eq, firstCall_promiseThen] at hcalls
  cases settlement with
  | none =>
      rw [settlesAsPrescribed_of_nil (by rw [hcalls])]
      constructor
      · intro h
        refine ⟨?_, fun _ h => nomatch h⟩
        rintro rfl
        exact h _ .self
      · rintro ⟨hnew, -⟩ outcome h
        cases h <;> simp_all
  | some notice =>
      have hnew : object ≠ objects.newPromise := by
        rintro rfl
        rw [hkind] at hpending
        cases hpending
      rw [and_iff_right hnew]
      cases notice with
      | fulfilled value =>
          rw [settlesAsPrescribed_of_eq (by rw [hcalls])]
          exact iff_of_true (.adopt hnew hkind) (fun _ h => nomatch h)
      | rejected reason =>
          dsimp only at hcalls
          split_ifs at hcalls with hfalsy
          · -- A reason that is falsy was taken for a fulfilled promise.
            rw [Bool.and_eq_true, Bool.not_eq_true'] at hfalsy
            rw [settlesAsPrescribed_of_eq (by rw [hcalls])]
            refine iff_of_false (fun h => ?_) fun h => ?_
            · cases (h.unique (.adopt hnew hkind) : Settling.fulfilled _ = .rejected _)
            · rw [h reason rfl hfalsy.1] at hfalsy
              exact nomatch hfalsy.2
          · rw [settlesAsPrescribed_of_eq (by rw [hcalls])]
            refine iff_of_true (.adopt hnew hkind) fun other hother hresolved => ?_
            cases hother
            by_contra hnot
            rw [Bool.not_eq_true] at hnot
            exact hfalsy (by rw [hresolved, hnot]; rfl)

/-- The new promise is settled as prescribed exactly where one step is enough. -/
theorem settlesAsPrescribed_iff (objects : Objects ι) (newResult : Result ι) :
    SettlesAsPrescribed objects newResult ↔ ResolvedDirectly objects newResult := by
  have hpending := objects.new_pending
  cases newResult with
  | undefined => exact iff_of_true ((settlesAsPrescribed_of_eq rfl).mpr .undefined) trivial
  | primitive isTruthy name =>
      exact iff_of_true ((settlesAsPrescribed_of_eq rfl).mpr (.primitive isTruthy name)) trivial
  | null =>
      refine iff_of_false (fun h => ?_) id
      cases (settlesAsPrescribed_of_eq rfl).mp h
  | object object =>
      unfold ResolvedDirectly
      dsimp only
      by_cases horiginal : object = objects.originalPromise
      · refine iff_of_false (fun h => ?_) fun h => h.1 horiginal
        obtain ⟨settlement, hkind⟩ := objects.original_settled
        have hcalls : (resolveResult objects (.object object)).calls =
            [.rejected (.error .resolutionProcedure)] := by
          rw [resolveResult, if_pos horiginal]
          rfl
        have hnew : object ≠ objects.newPromise := by
          rintro rfl
          rw [horiginal, hkind] at hpending
          cases hpending
        rw [← horiginal] at hkind
        have hsame := ((settlesAsPrescribed_of_eq hcalls).mp h).unique (.adopt hnew hkind)
        cases settlement <;> cases hsame
      · rw [and_iff_right horiginal]
        cases hkind : objects.kind object with
        | plain =>
            rw [settlesAsPrescribed_of_eq (by rw [resolveResult_object horiginal, hkind])]
            refine iff_of_true (.plain hkind) ⟨?_, fun _ h => (nomatch h), ?_⟩
            · rintro rfl
              rw [hkind] at hpending
              cases hpending
            · rintro value ⟨other, thenable, heq, hkind', -⟩
              cases heq
              rw [hkind] at hkind'
              cases hkind'
        | throwing error =>
            rw [settlesAsPrescribed_of_eq (by rw [resolveResult_object horiginal, hkind])]
            refine iff_of_true (.throwing hkind) ⟨?_, fun _ h => (nomatch h), ?_⟩
            · rintro rfl
              rw [hkind] at hpending
              cases hpending
            · rintro value ⟨other, thenable, heq, hkind', -⟩
              cases heq
              rw [hkind] at hkind'
              cases hkind'
        | thenable thenable =>
            rw [settlesAsPrescribed_thenable_iff horiginal hkind]
            refine ⟨fun h => ⟨?_, fun _ h => (nomatch h), h⟩, fun h => h.2.2⟩
            rintro rfl
            rw [hkind] at hpending
            cases hpending
        | promise settlement resolved =>
            rw [settlesAsPrescribed_promise_iff horiginal hkind]
            refine and_congr_right fun _ => ⟨fun h => ⟨fun reason hreason => ?_, ?_⟩,
              fun h reason hsettlement hresolved => ?_⟩
            · cases hreason
              exact h reason rfl rfl
            · rintro value ⟨other, thenable, heq, hkind', -⟩
              cases heq
              rw [hkind] at hkind'
              cases hkind'
            · rw [hsettlement, hresolved] at h
              exact h.1 reason rfl

end

/-- A handler returns null: the promise is to be fulfilled with it, and is rejected. -/
theorem not_settlesAsPrescribed_null :
    ¬ ∀ (objects : Objects ℕ) (newResult : Result ℕ), SettlesAsPrescribed objects newResult := by
  intro hclaim
  let objects : Objects ℕ :=
    { kind := fun object =>
        if object = 0 then .promise (some (.fulfilled .undefined)) true else .promise none false
      originalPromise := 0
      newPromise := 1
      original_settled := ⟨.fulfilled .undefined, rfl⟩
      new_pending := rfl }
  exact absurd (((hclaim objects .null).2 (.fulfilled .null)).mpr .null) (by decide)

end DatabaseJones.Promise
