import Mathlib.Data.List.Basic
import Mathlib.Data.Nat.Notation

/-!
# Resolving a list of mappings

The mappings of `connect` and `openSession` are resolved one after another.  Errors are collected
twice: the first error of a table handler, and a message about all errors.  An element that is not a
mapping has a message only, so that the one caller throws and the other one sees no error; and
table mappings in an array, and what comes after 21 mappings, are not resolved at all.
-/

namespace DatabaseJones.TableMappings

/-! ## Mappings -/

/-- An error of a table handler, with what `util.inspect` shows of it. -/
structure TableError where
  inspect : String
  sqlstate : Option String
  code : Option String
  classification : Option String
  status : Option String
deriving DecidableEq, Repr

/-- A function, with its text and what its prototype has: the name of the constructor, and the table
of `jones.mapping` if it is annotated.  Some functions have no prototype. -/
structure Constructor where
  text : String
  name : String
  table : Option String
  hasPrototype : Bool
deriving DecidableEq, Repr

/-- A mappings argument, or an element of one, with what `util.inspect` shows of it if it is not a
mapping. -/
inductive Mapping
  | string (name : String)
  | function (constructor : Constructor)
  | tableMapping (table : String)
  | array (elements : List Mapping) (inspect : String)
  | object (inspect : String)
  | primitive (truthy : Bool) (inspect : String)

/-- What `typeofTableMapping` returns; nothing has the type `tableMapping`. -/
inductive MappingType
  | string
  | function
  | array
  | tablemapping
  | tableMapping
  | illegal
  | other
deriving DecidableEq, Repr

/-- `tableMappings.constructor.name === 'TableMapping'`. -/
def Mapping.isTableMapping : Mapping → Bool
  | .tableMapping _ => true
  | _ => false

/-- `typeofTableMapping(mapping)`, which looks at the constructor of the whole argument. -/
def typeofTableMapping (tableMappings : Mapping) : Mapping → MappingType
  | .string _ => .string
  | .function _ => .function
  | .array _ _ => .array
  | .tableMapping _ | .object _ => if tableMappings.isTableMapping then .tablemapping else .illegal
  | .primitive _ _ => .other

/-- Whether a value counts as true. -/
def Mapping.truthy : Mapping → Bool
  | .string name => name ≠ ""
  | .primitive truthy _ => truthy
  | _ => true

def Mapping.inspect : Mapping → String
  | .string name => name
  | .function constructor => constructor.text
  | .tableMapping table => table
  | .array _ inspect | .object inspect | .primitive _ inspect => inspect

/-! ## The user context -/

structure UserContext where
  firstError : Option TableError := none
  errorMessages : String := ""

def UserContext.appendErrorMessage (userContext : UserContext) (message : String) : UserContext :=
  { userContext with errorMessages := userContext.errorMessages ++ "\n" ++ message }

/-- The message of a mapping that is not resolved. -/
def Mapping.message : Mapping → String
  | .function ⟨_, name, some table, _⟩ => table ++ " for domain object " ++ name
  | .function ⟨text, _, none, _⟩ => text
  | .string name => name
  | _ => "[object Object]"

/-- What happens: a table handler is asked for, it calls back, and at last the callback is called,
or something throws. -/
inductive Step
  | getTableHandler (mapping : Mapping)
  | onTableHandler (err : Option TableError)
  | callback
  | threw

def Step.isCallback : Step → Bool
  | .callback => true
  | _ => false

/-- The errors in `resolveTableMappingsOnTableHandler`. -/
def UserContext.onTableHandler (userContext : UserContext) (mapping : Mapping) :
    Option TableError → UserContext
  | none => userContext
  | some err =>
      { userContext with firstError := userContext.firstError.or (some err) }.appendErrorMessage
        ("Error resolving table " ++ mapping.message ++ ": " ++ err.inspect)

/-- `getTableHandler` reads the prototype of a function. -/
def Mapping.throws : Mapping → Bool
  | .function constructor => !constructor.hasPrototype
  | _ => false

/-- `getTableHandler` and `resolveTableMappingsOnTableHandler`, from a mapping on.  The outcomes
are those of the mappings in their order. -/
def resolveNext (outcome : ℕ → Option TableError) :
    List Mapping → ℕ → UserContext → List Step × UserContext
  | [], _, userContext => ([.callback], userContext)
  | mapping :: mappings, mappingBeingResolved, userContext =>
      if mapping.throws then ([.getTableHandler mapping, .threw], userContext)
      else
        let err := outcome mappingBeingResolved
        let userContext := userContext.onTableHandler mapping err
        if mappings.isEmpty ∨ 20 < mappingBeingResolved + 1 then
          ([.getTableHandler mapping, .onTableHandler err, .callback], userContext)
        else
          let (steps, userContext) :=
            resolveNext outcome mappings (mappingBeingResolved + 1) userContext
          (.getTableHandler mapping :: .onTableHandler err :: steps, userContext)

/-- The loop over the elements of an array. -/
def pushMappings (tableMappings : Mapping) :
    List Mapping → UserContext → List Mapping × UserContext
  | [], userContext => ([], userContext)
  | tableMapping :: rest, userContext =>
      let tableMappingType := typeofTableMapping tableMappings tableMapping
      if tableMappingType = .function ∨ tableMappingType = .string ∨
          tableMappingType = .tableMapping then
        let (mappings, userContext) := pushMappings tableMappings rest userContext
        (tableMapping :: mappings, userContext)
      else
        pushMappings tableMappings rest
          (userContext.appendErrorMessage ("unknown table mapping" ++ tableMapping.inspect))

/-- `resolveTableMappings`. -/
def resolveTableMappings (tableMappings : Mapping) (outcome : ℕ → Option TableError) :
    List Step × UserContext :=
  let unknown := UserContext.appendErrorMessage {}
    ("unknown table mappings" ++ tableMappings.inspect)
  let (mappings, userContext) : List Mapping × UserContext :=
    match typeofTableMapping tableMappings tableMappings, tableMappings with
    | .string, _ | .function, _ | .tablemapping, _ => ([tableMappings], {})
    | .array, .array elements _ =>
        if elements.isEmpty then ([], unknown) else pushMappings tableMappings elements {}
    | .illegal, _ => ([], {})
    | _, _ => ([], unknown)
  resolveNext outcome mappings 0 userContext

/-! ## The callers -/

/-- The error of `reportFirstError`. -/
structure UserError where
  message : String
  sqlstate : Option String
  code : Option String
  classification : Option String
  status : Option String
deriving DecidableEq, Repr

/-- What the user gets. -/
inductive Result
  | error (error : UserError)
  | success
  | threw
deriving DecidableEq, Repr

/-- `reportFirstError`. -/
def reportFirstError (userContext : UserContext) : Result :=
  if userContext.errorMessages ≠ "" then
    match userContext.firstError with
    | some firstError => .error
        { message := userContext.errorMessages, sqlstate := firstError.sqlstate
          code := firstError.code, classification := firstError.classification
          status := firstError.status }
    | none => .threw
  else .success

/-- `onMappingsResolved` behind `connect`, when the session has been closed. -/
def onMappingsResolved (userContext : UserContext) : Result :=
  if userContext.errorMessages ≠ "" then reportFirstError userContext else .success

/-- `openSessionOnResolvedMappings` behind `openSession`. -/
def openSessionOnResolvedMappings (userContext : UserContext) : Result :=
  if userContext.firstError.isSome then reportFirstError userContext else .success

inductive Caller
  | connect
  | openSession
deriving DecidableEq, Repr

def Caller.onResolved : Caller → UserContext → Result
  | .connect => onMappingsResolved
  | .openSession => openSessionOnResolvedMappings

/-- What happens, and what the user gets, if the session of `connect` opens and closes.  The callback
is not called if something throws. -/
def resolve (caller : Caller) (tableMappings : Mapping) (outcome : ℕ → Option TableError) :
    List Step × Result :=
  if tableMappings.truthy then
    let (steps, userContext) := resolveTableMappings tableMappings outcome
    (steps, if steps.any Step.isCallback then caller.onResolved userContext else .threw)
  else ([], .success)

/-! ## What is expected -/

/-- The elements of an argument. -/
def Mapping.elements : Mapping → List Mapping
  | .array elements _ => elements
  | mapping => [mapping]

/-- Table names, functions and table mappings are mappings. -/
def Mapping.isMapping : Mapping → Bool
  | .string _ | .function _ | .tableMapping _ => true
  | _ => false

/-- By what an error names an element: a table mapping by its table. -/
def Mapping.named : Mapping → String
  | .function constructor => (Mapping.function constructor).message
  | mapping => mapping.inspect

/-- A text occurs in a message. -/
def Names (message text : String) : Prop :=
  ∃ before after, message = before ++ text ++ after

/-- The mappings of an argument with their outcomes. -/
def outcomes (tableMappings : Mapping) (outcome : ℕ → Option TableError) :
    List (Mapping × Option TableError) :=
  ((tableMappings.elements.filter Mapping.isMapping).zipIdx).map fun (mapping, index) =>
    (mapping, outcome index)

/-- The elements that are not mappings or not resolved. -/
def failed (tableMappings : Mapping) (outcome : ℕ → Option TableError) : List Mapping :=
  tableMappings.elements.filter (fun element => !element.isMapping) ++
    ((outcomes tableMappings outcome).filter fun (_, err) => err.isSome).map Prod.fst

/-- Each mapping is asked for when the one before has called back, and then the callback is called;
the user gets an error that names all elements that failed, or none if none failed. -/
structure ResolvesAll (caller : Caller) (tableMappings : Mapping)
    (outcome : ℕ → Option TableError) : Prop where
  steps : (resolve caller tableMappings outcome).1 =
    ((outcomes tableMappings outcome).flatMap fun (mapping, err) =>
      [.getTableHandler mapping, .onTableHandler err]) ++ [.callback]
  error : failed tableMappings outcome ≠ [] → ∃ error,
    (resolve caller tableMappings outcome).2 = .error error ∧
      ∀ mapping ∈ failed tableMappings outcome, Names error.message mapping.named
  success : failed tableMappings outcome = [] →
    (resolve caller tableMappings outcome).2 = .success

/-- An element that an array may have: a table name, a constructor, or what is not a mapping. -/
def Mapping.accepted : Mapping → Bool
  | .function constructor => constructor.hasPrototype
  | .tableMapping _ => false
  | _ => true

/-- When all is as expected: a table name, a constructor, a table mapping that is resolved, or an
array of at most 21 table names and constructors, with something else only if one of them is not
resolved.  `connect` does not take an empty array. -/
def Resolvable (caller : Caller) (tableMappings : Mapping) (outcome : ℕ → Option TableError) :
    Prop :=
  match tableMappings with
  | .string name => name ≠ ""
  | .function constructor => constructor.hasPrototype = true
  | .tableMapping table => ∀ err, outcome 0 = some err →
      Names ("\n" ++ ("Error resolving table " ++ "[object Object]" ++ ": " ++ err.inspect)) table
  | .array elements _ => (caller = .connect → elements ≠ []) ∧
      (∀ element ∈ elements, element.accepted = true) ∧
      (elements.filter Mapping.isMapping).length ≤ 21 ∧
      ((∃ element ∈ elements, element.isMapping = false) →
        ∃ index < (elements.filter Mapping.isMapping).length, (outcome index).isSome = true)
  | .object _ | .primitive _ _ => False

/-! ## Messages -/

section
variable {message text : String} {userContext : UserContext} {mapping : Mapping}
  {err : Option TableError} {answers : List (Mapping × Option TableError)}

theorem Names.append (h : Names message text) (after : String) : Names (message ++ after) text := by
  obtain ⟨before, rest, rfl⟩ := h
  exact ⟨before, rest ++ after, by simp only [String.append_assoc]⟩

theorem Names.right {first second : String} (h : Names message (first ++ second)) :
    Names message second := by
  obtain ⟨before, after, rfl⟩ := h
  exact ⟨before ++ first, after, by simp only [String.append_assoc]⟩

theorem Names.ne_empty (h : Names message text) (htext : text ≠ "") : message ≠ "" := by
  obtain ⟨before, after, rfl⟩ := h
  intro hempty
  simp only [String.append_eq_empty_iff] at hempty
  exact htext hempty.1.2

theorem names_appendErrorMessage (h : Names userContext.errorMessages text) (message : String) :
    Names (userContext.appendErrorMessage message).errorMessages text :=
  (h.append "\n").append message

/-- All table handlers have called back. -/
def UserContext.tell (userContext : UserContext) (answers : List (Mapping × Option TableError)) :
    UserContext :=
  answers.foldl (fun userContext (mapping, err) => userContext.onTableHandler mapping err) userContext

theorem tell_cons : userContext.tell ((mapping, err) :: answers) =
    (userContext.onTableHandler mapping err).tell answers := rfl

theorem names_onTableHandler (h : Names userContext.errorMessages text) :
    Names (userContext.onTableHandler mapping err).errorMessages text := by
  cases err with
  | none => exact h
  | some err => exact names_appendErrorMessage h _

theorem names_tell (h : Names userContext.errorMessages text) :
    Names (userContext.tell answers).errorMessages text := by
  induction answers generalizing userContext with
  | nil => exact h
  | cons answer answers ih => exact ih (names_onTableHandler h)

/-- The message of a mapping that is not resolved is in the messages. -/
theorem names_message {err : TableError} (h : (mapping, some err) ∈ answers) :
    Names (userContext.tell answers).errorMessages
      ("Error resolving table " ++ mapping.message) := by
  induction answers generalizing userContext with
  | nil => exact absurd h List.not_mem_nil
  | cons answer answers ih =>
      rcases List.mem_cons.mp h with rfl | h
      · have hnames : Names (userContext.onTableHandler mapping (some err)).errorMessages
            ("Error resolving table " ++ mapping.message) := by
          refine ⟨userContext.errorMessages ++ "\n", ": " ++ err.inspect, ?_⟩
          simp only [UserContext.onTableHandler, UserContext.appendErrorMessage,
            String.append_assoc]
        rw [tell_cons]
        exact names_tell hnames
      · exact ih h

/-- Without errors nothing changes. -/
theorem tell_of_resolved (h : ∀ answer ∈ answers, answer.2 = none) :
    userContext.tell answers = userContext := by
  induction answers generalizing userContext with
  | nil => rfl
  | cons answer answers ih =>
      obtain ⟨mapping, err⟩ := answer
      have herr : err = none := h _ List.mem_cons_self
      rw [tell_cons, herr]
      exact ih fun other hother => h other (List.mem_cons_of_mem _ hother)

theorem firstError_tell_of_isSome (h : userContext.firstError.isSome = true) :
    (userContext.tell answers).firstError.isSome = true := by
  induction answers generalizing userContext with
  | nil => exact h
  | cons answer answers ih =>
      obtain ⟨mapping, err⟩ := answer
      refine ih ?_
      cases err with
      | none => exact h
      | some err =>
          obtain ⟨first, hfirst⟩ := Option.isSome_iff_exists.mp h
          simp [UserContext.onTableHandler, UserContext.appendErrorMessage, hfirst]

/-- With an error there is a first one. -/
theorem firstError_tell {answer : Mapping × Option TableError} (h : answer ∈ answers)
    (herr : answer.2.isSome = true) : (userContext.tell answers).firstError.isSome = true := by
  induction answers generalizing userContext with
  | nil => exact absurd h List.not_mem_nil
  | cons other answers ih =>
      rcases List.mem_cons.mp h with rfl | h
      · obtain ⟨mapping, err⟩ := answer
        rw [tell_cons]
        refine firstError_tell_of_isSome ?_
        cases err with
        | none => cases herr
        | some err =>
            unfold UserContext.onTableHandler UserContext.appendErrorMessage
            cases userContext.firstError <;> rfl
      · exact ih h

end

/-! ## One mapping after another -/

section
variable {outcome : ℕ → Option TableError} {mappings : List Mapping} {index : ℕ}
  {userContext : UserContext}

/-- The mappings with their outcomes, from an index on. -/
def answersFrom (outcome : ℕ → Option TableError) (mappings : List Mapping) (index : ℕ) :
    List (Mapping × Option TableError) :=
  (mappings.zipIdx index).map fun (mapping, index) => (mapping, outcome index)

/-- At most 21 mappings that do not throw are resolved one after another. -/
theorem resolveNext_eq (hthrows : ∀ mapping ∈ mappings, mapping.throws = false)
    (hlength : index + mappings.length ≤ 21) :
    resolveNext outcome mappings index userContext =
      (((answersFrom outcome mappings index).flatMap fun (mapping, err) =>
          [.getTableHandler mapping, .onTableHandler err]) ++ [.callback],
        userContext.tell (answersFrom outcome mappings index)) := by
  induction mappings generalizing index userContext with
  | nil => rfl
  | cons mapping mappings ih =>
      have hmapping : mapping.throws = false := hthrows mapping List.mem_cons_self
      unfold resolveNext
      rw [hmapping]
      dsimp only
      rw [if_neg Bool.false_ne_true]
      cases mappings with
      | nil => rfl
      | cons next mappings =>
          rw [List.length_cons] at hlength
          have hgoes : ¬ ((next :: mappings).isEmpty = true ∨ 20 < index + 1) := by
            rintro (hempty | hmany)
            · cases hempty
            · rw [List.length_cons] at hlength
              omega
          rw [if_neg hgoes,
            ih (fun other hother => hthrows other (List.mem_cons_of_mem _ hother)) (by omega)]
          rfl

/-- Only mappings of the list are asked for. -/
theorem mem_of_getTableHandler {mapping : Mapping}
    (h : .getTableHandler mapping ∈ (resolveNext outcome mappings index userContext).1) :
    mapping ∈ mappings := by
  induction mappings generalizing index userContext with
  | nil => simp [resolveNext] at h
  | cons first mappings ih =>
      unfold resolveNext at h
      dsimp only at h
      split_ifs at h
      · simp at h
        exact h ▸ List.mem_cons_self
      · simp at h
        exact h ▸ List.mem_cons_self
      · simp only [List.mem_cons, Step.getTableHandler.injEq, reduceCtorEq, false_or] at h
        rcases h with rfl | h
        · exact List.mem_cons_self
        · exact List.mem_cons_of_mem _ (ih h)

/-- A mapping that throws is seen to throw when it is asked for. -/
theorem threw_of_getTableHandler {mapping : Mapping} (hthrows : mapping.throws = true)
    (h : .getTableHandler mapping ∈ (resolveNext outcome mappings index userContext).1) :
    .threw ∈ (resolveNext outcome mappings index userContext).1 := by
  induction mappings generalizing index userContext with
  | nil => simp [resolveNext] at h
  | cons first mappings ih =>
      unfold resolveNext at h ⊢
      dsimp only at h ⊢
      split_ifs at h ⊢ with hfirst hlast
      · simp
      · simp at h
        exact absurd (h ▸ hthrows) hfirst
      · simp only [List.mem_cons, Step.getTableHandler.injEq, reduceCtorEq, false_or] at h ⊢
        rcases h with rfl | h
        · exact absurd hthrows hfirst
        · exact ih h

def Step.isAsked : Step → Bool
  | .getTableHandler _ => true
  | _ => false

/-- No more than 21 mappings are asked for. -/
theorem countP_resolveNext_le (hindex : index ≤ 20) :
    index + (resolveNext outcome mappings index userContext).1.countP Step.isAsked ≤ 21 := by
  induction mappings generalizing index userContext with
  | nil => simp [resolveNext, Step.isAsked]; omega
  | cons first mappings ih =>
      unfold resolveNext
      dsimp only
      split_ifs with hfirst hlast
      · simp [Step.isAsked, List.countP_cons]; omega
      · simp [Step.isAsked, List.countP_cons]; omega
      · have hnext := @ih (index + 1) (userContext.onTableHandler first (outcome index)) (by omega)
        simp only [Step.isAsked, List.countP_cons, if_true, Bool.false_eq_true, if_false]
        omega

theorem countP_answers (answers : List (Mapping × Option TableError)) :
    ((answers.flatMap fun (mapping, err) =>
      [Step.getTableHandler mapping, .onTableHandler err]) ++ [Step.callback]).countP
        Step.isAsked =
        answers.length := by
  induction answers with
  | nil => rfl
  | cons answer answers ih =>
      simp only [List.flatMap_cons, List.cons_append, List.nil_append, List.countP_cons,
        List.length_cons, ih, Step.isAsked, if_true, Bool.false_eq_true, if_false]

theorem threw_not_mem_answers (answers : List (Mapping × Option TableError)) :
    Step.threw ∉ (answers.flatMap fun (mapping, err) =>
      [Step.getTableHandler mapping, .onTableHandler err]) ++ [Step.callback] := by
  simp

end

/-! ## Elements of an array -/

/-- The elements of an array that are resolved. -/
def Mapping.taken : Mapping → Bool
  | .string _ | .function _ => true
  | _ => false

section
variable {tableMappings : Mapping} {elements : List Mapping} {userContext : UserContext}

theorem typeofTableMapping_iff (h : tableMappings.isTableMapping = false) (element : Mapping) :
    (typeofTableMapping tableMappings element = .function ∨
      typeofTableMapping tableMappings element = .string ∨
      typeofTableMapping tableMappings element = .tableMapping) ↔ element.taken = true := by
  cases element <;> simp [typeofTableMapping, Mapping.taken, h]

theorem pushMappings_fst (h : tableMappings.isTableMapping = false) :
    (pushMappings tableMappings elements userContext).1 = elements.filter Mapping.taken := by
  induction elements generalizing userContext with
  | nil => rfl
  | cons element elements ih =>
      unfold pushMappings
      dsimp only
      simp only [typeofTableMapping_iff h]
      by_cases htaken : element.taken = true
      · rw [if_pos htaken, List.filter_cons_of_pos htaken]
        exact congrArg (element :: ·) ih
      · rw [if_neg htaken, List.filter_cons_of_neg htaken]
        exact ih

theorem firstError_pushMappings :
    (pushMappings tableMappings elements userContext).2.firstError = userContext.firstError := by
  induction elements generalizing userContext with
  | nil => rfl
  | cons element elements ih =>
      unfold pushMappings
      dsimp only
      split_ifs
      · exact ih
      · exact ih

theorem names_pushMappings {text : String} (h : Names userContext.errorMessages text) :
    Names (pushMappings tableMappings elements userContext).2.errorMessages text := by
  induction elements generalizing userContext with
  | nil => exact h
  | cons element elements ih =>
      unfold pushMappings
      dsimp only
      split_ifs
      · exact ih h
      · exact ih (names_appendErrorMessage h _)

/-- Each element that is not taken is named. -/
theorem names_inspect (h : tableMappings.isTableMapping = false) {element : Mapping}
    (hmem : element ∈ elements) (htaken : element.taken = false) :
    Names (pushMappings tableMappings elements userContext).2.errorMessages
      ("unknown table mapping" ++ element.inspect) := by
  induction elements generalizing userContext with
  | nil => exact absurd hmem List.not_mem_nil
  | cons first elements ih =>
      unfold pushMappings
      dsimp only
      simp only [typeofTableMapping_iff h]
      rcases List.mem_cons.mp hmem with rfl | hmem
      · rw [if_neg (by simp [htaken])]
        refine names_pushMappings ⟨userContext.errorMessages ++ "\n", "", ?_⟩
        simp only [UserContext.appendErrorMessage, String.append_empty]
      · split_ifs
        · exact ih hmem
        · exact ih hmem

theorem pushMappings_of_taken (h : tableMappings.isTableMapping = false)
    (htaken : ∀ element ∈ elements, element.taken = true) :
    (pushMappings tableMappings elements userContext).2 = userContext := by
  induction elements generalizing userContext with
  | nil => rfl
  | cons element elements ih =>
      unfold pushMappings
      dsimp only
      simp only [typeofTableMapping_iff h]
      rw [if_pos (htaken _ List.mem_cons_self)]
      exact ih fun other hother => htaken other (List.mem_cons_of_mem _ hother)

theorem throws_of_accepted {element : Mapping} (h : element.accepted = true) :
    element.throws = false := by
  cases element with
  | function constructor =>
      change (!constructor.hasPrototype) = false
      rw [show constructor.hasPrototype = true from h]
      rfl
  | _ => rfl

/-- What is accepted is taken exactly if it is a mapping. -/
theorem taken_of_accepted {element : Mapping} (h : element.accepted = true) :
    element.taken = element.isMapping := by
  cases element <;> first | rfl | cases h

end

/-! ## All mappings -/

section
variable {caller : Caller} {tableMappings : Mapping} {outcome : ℕ → Option TableError}

/-- The user gets the error of all messages if there is a first error. -/
theorem onResolved_of_firstError {userContext : UserContext} {first : TableError}
    (hfirst : userContext.firstError = some first) (hmessages : userContext.errorMessages ≠ "")
    (caller : Caller) : ∃ error, caller.onResolved userContext = .error error ∧
      error.message = userContext.errorMessages := by
  have hreport : ∃ error, reportFirstError userContext = .error error ∧
      error.message = userContext.errorMessages := by
    unfold reportFirstError
    rw [if_pos hmessages, hfirst]
    exact ⟨_, rfl, rfl⟩
  cases caller with
  | connect =>
      change ∃ error, onMappingsResolved userContext = .error error ∧ _
      unfold onMappingsResolved
      rw [if_pos hmessages]
      exact hreport
  | openSession =>
      change ∃ error, openSessionOnResolvedMappings userContext = .error error ∧ _
      unfold openSessionOnResolvedMappings
      rw [hfirst]
      exact hreport

theorem answersFrom_eq : answersFrom outcome (tableMappings.elements.filter Mapping.isMapping) 0 =
    outcomes tableMappings outcome := rfl

/-- All is as expected where the mappings are resolved behind what is said about the others. -/
theorem resolvesAll_of {userContext : UserContext} (htruthy : tableMappings.truthy = true)
    (hresolve : resolveTableMappings tableMappings outcome = resolveNext outcome
      (tableMappings.elements.filter Mapping.isMapping) 0 userContext)
    (hthrows : ∀ mapping ∈ tableMappings.elements.filter Mapping.isMapping,
      mapping.throws = false)
    (hlength : (tableMappings.elements.filter Mapping.isMapping).length ≤ 21)
    (hunknown : ∀ element ∈ tableMappings.elements, element.isMapping = false →
      Names userContext.errorMessages element.named ∧
        ∃ answer ∈ outcomes tableMappings outcome, answer.2.isSome = true)
    (hclean : (∀ element ∈ tableMappings.elements, element.isMapping = true) → userContext = {})
    (hnamed : ∀ mapping err, (mapping, some err) ∈ outcomes tableMappings outcome →
      Names (userContext.tell (outcomes tableMappings outcome)).errorMessages mapping.named) :
    ResolvesAll caller tableMappings outcome := by
  have hnext := @resolveNext_eq outcome (tableMappings.elements.filter Mapping.isMapping) 0
    userContext hthrows (by omega)
  rw [answersFrom_eq] at hnext
  have hcalled : (((outcomes tableMappings outcome).flatMap fun (mapping, err) =>
      [Step.getTableHandler mapping, .onTableHandler err]) ++ [Step.callback]).any
        Step.isCallback = true := by
    simp [Step.isCallback]
  have hresult : resolve caller tableMappings outcome =
      (((outcomes tableMappings outcome).flatMap fun (mapping, err) =>
          [Step.getTableHandler mapping, .onTableHandler err]) ++ [Step.callback],
        caller.onResolved (userContext.tell (outcomes tableMappings outcome))) := by
    unfold resolve
    rw [if_pos htruthy, hresolve, hnext]
    dsimp only
    rw [if_pos hcalled]
  refine ⟨?_, ?_, ?_⟩
  · rw [hresult]
  · intro hfailed
    -- some mapping is not resolved, and its error is the first one or comes after it
    obtain ⟨⟨mapping, err⟩, hanswer, herr⟩ :
        ∃ answer ∈ outcomes tableMappings outcome, answer.2.isSome = true := by
      obtain ⟨element, helement⟩ := List.exists_mem_of_ne_nil _ hfailed
      rcases List.mem_append.mp helement with hunmapped | hanswer
      · obtain ⟨hmem, hnot⟩ := List.mem_filter.mp hunmapped
        exact (hunknown element hmem (by simpa using hnot)).2
      · obtain ⟨answer, hanswer, _⟩ := List.mem_map.mp hanswer
        exact ⟨answer, (List.mem_filter.mp hanswer).1, (List.mem_filter.mp hanswer).2⟩
    obtain ⟨first, hfirst⟩ := Option.isSome_iff_exists.mp
      (@firstError_tell userContext (outcomes tableMappings outcome) _ hanswer herr)
    obtain ⟨err, rfl⟩ := Option.isSome_iff_exists.mp herr
    have hmessages : (userContext.tell (outcomes tableMappings outcome)).errorMessages ≠ "" :=
      (names_message hanswer).ne_empty (by simp)
    obtain ⟨error, herror, hmessage⟩ := onResolved_of_firstError hfirst hmessages caller
    refine ⟨error, by rw [hresult]; exact herror, ?_⟩
    intro other hother
    rw [hmessage]
    rcases List.mem_append.mp hother with hunmapped | hother
    · obtain ⟨hmem, hnot⟩ := List.mem_filter.mp hunmapped
      exact names_tell (hunknown other hmem (by simpa using hnot)).1
    · obtain ⟨⟨mapping, err⟩, hanswer, rfl⟩ := List.mem_map.mp hother
      obtain ⟨hmem, hsome⟩ := List.mem_filter.mp hanswer
      obtain ⟨err, rfl⟩ := Option.isSome_iff_exists.mp hsome
      exact hnamed _ _ hmem
  · intro hfailed
    have hall : ∀ element ∈ tableMappings.elements, element.isMapping = true := by
      intro element hmem
      by_contra hnot
      have hfailing : element ∈ failed tableMappings outcome :=
        List.mem_append_left _ (List.mem_filter.mpr ⟨hmem, by simpa using hnot⟩)
      rw [hfailed] at hfailing
      exact absurd hfailing List.not_mem_nil
    have hresolved : ∀ answer ∈ outcomes tableMappings outcome, answer.2 = none := by
      intro answer hanswer
      by_contra hnot
      have hfailing : answer.1 ∈ failed tableMappings outcome :=
        List.mem_append_right _ (List.mem_map_of_mem
          (List.mem_filter.mpr ⟨hanswer, Option.isSome_iff_ne_none.mpr hnot⟩))
      rw [hfailed] at hfailing
      exact absurd hfailing List.not_mem_nil
    rw [hresult, hclean hall, tell_of_resolved hresolved]
    cases caller <;> rfl

theorem fst_outcomes : (outcomes tableMappings outcome).map Prod.fst =
    tableMappings.elements.filter Mapping.isMapping := by
  unfold outcomes
  rw [List.map_map]
  exact List.zipIdx_map_fst 0 _

theorem length_outcomes : (outcomes tableMappings outcome).length =
    (tableMappings.elements.filter Mapping.isMapping).length := by
  rw [← fst_outcomes, List.length_map]

theorem mem_outcomes {answer : Mapping × Option TableError} :
    answer ∈ outcomes tableMappings outcome ↔
      ∃ index, (tableMappings.elements.filter Mapping.isMapping)[index]? = some answer.1 ∧
        answer.2 = outcome index := by
  unfold outcomes
  simp only [List.mem_map, Prod.exists, List.mem_zipIdx_iff_getElem?]
  constructor
  · rintro ⟨mapping, index, hmapping, rfl⟩
    exact ⟨index, hmapping, rfl⟩
  · rintro ⟨index, hmapping, herr⟩
    exact ⟨answer.1, index, hmapping, by rw [← herr]⟩

/-- Each mapping is expected to be asked for. -/
theorem getTableHandler_mem {mapping : Mapping}
    (h : mapping ∈ tableMappings.elements.filter Mapping.isMapping) :
    Step.getTableHandler mapping ∈ ((outcomes tableMappings outcome).flatMap fun (mapping, err) =>
      [Step.getTableHandler mapping, .onTableHandler err]) ++ [Step.callback] := by
  rw [← @fst_outcomes tableMappings outcome] at h
  obtain ⟨answer, hanswer, rfl⟩ := List.mem_map.mp h
  exact List.mem_append_left _ (List.mem_flatMap.mpr ⟨answer, hanswer, List.mem_cons_self⟩)

/-- An array goes on with the elements that are taken, and has said something about the others. -/
theorem resolveTableMappings_array (elements : List Mapping) (inspect : String) :
    ∃ userContext : UserContext,
      resolveTableMappings (.array elements inspect) outcome =
        resolveNext outcome (elements.filter Mapping.taken) 0 userContext ∧
      userContext.firstError = none ∧ (elements = [] → userContext.errorMessages ≠ "") ∧
      (∀ element ∈ elements, element.taken = false →
        Names userContext.errorMessages ("unknown table mapping" ++ element.inspect)) ∧
      (elements ≠ [] → (∀ element ∈ elements, element.taken = true) → userContext = {}) := by
  cases elements with
  | nil =>
      refine ⟨UserContext.appendErrorMessage {} ("unknown table mappings" ++ inspect), rfl, rfl,
        fun _ => ?_, fun _ h => absurd h List.not_mem_nil, fun h => absurd rfl h⟩
      simp [UserContext.appendErrorMessage]
  | cons element elements =>
      refine ⟨(pushMappings (.array (element :: elements) inspect) (element :: elements) {}).2,
        ?_, firstError_pushMappings, fun h => (nomatch h), ?_, ?_⟩
      · rw [← @pushMappings_fst (.array (element :: elements) inspect) (element :: elements) {} rfl]
        rfl
      · exact fun other hother htaken => names_inspect rfl hother htaken
      · exact fun _ htaken => pushMappings_of_taken rfl htaken

/-- A single mapping that is resolved without throwing. -/
theorem resolvesAll_single (htruthy : tableMappings.truthy = true)
    (helements : tableMappings.elements = [tableMappings])
    (hmapping : tableMappings.isMapping = true) (hthrows : tableMappings.throws = false)
    (hresolve : resolveTableMappings tableMappings outcome =
      resolveNext outcome [tableMappings] 0 {})
    (hnamed : ∀ err, outcome 0 = some err →
      Names (UserContext.onTableHandler {} tableMappings (some err)).errorMessages
        tableMappings.named) : ResolvesAll caller tableMappings outcome := by
  have hmappings : tableMappings.elements.filter Mapping.isMapping = [tableMappings] := by
    rw [helements, List.filter_cons_of_pos hmapping, List.filter_nil]
  have houtcomes : outcomes tableMappings outcome = [(tableMappings, outcome 0)] := by
    unfold outcomes
    rw [hmappings]
    rfl
  refine @resolvesAll_of caller tableMappings outcome {} htruthy ?_ ?_ ?_ ?_ (fun _ => rfl) ?_
  · rw [hmappings]
    exact hresolve
  · intro mapping hmem
    rw [hmappings] at hmem
    rw [List.mem_singleton.mp hmem]
    exact hthrows
  · rw [hmappings, List.length_singleton]
    omega
  · intro element hmem hnot
    rw [helements] at hmem
    rw [List.mem_singleton.mp hmem, hmapping] at hnot
    cases hnot
  · intro mapping err hmem
    rw [houtcomes] at hmem ⊢
    obtain ⟨rfl, herr⟩ := Prod.mk.inj (List.mem_singleton.mp hmem)
    rw [← herr]
    exact hnamed err herr.symm

/-- Messages without a first error are not reported: `connect` throws, `openSession` sees none. -/
theorem onResolved_of_none {userContext : UserContext} (hfirst : userContext.firstError = none)
    (hmessages : userContext.errorMessages ≠ "") (caller : Caller) :
    caller.onResolved userContext = if caller = .connect then .threw else .success := by
  cases caller with
  | connect =>
      change onMappingsResolved userContext = _
      unfold onMappingsResolved reportFirstError
      rw [if_pos hmessages, if_pos hmessages, hfirst]
      rfl
  | openSession =>
      change openSessionOnResolvedMappings userContext = _
      unfold openSessionOnResolvedMappings
      rw [hfirst]
      rfl

theorem resolve_eq {mappings : List Mapping} {userContext : UserContext}
    (htruthy : tableMappings.truthy = true)
    (hresolve : resolveTableMappings tableMappings outcome =
      resolveNext outcome mappings 0 userContext) :
    resolve caller tableMappings outcome =
      ((resolveNext outcome mappings 0 userContext).1,
        if (resolveNext outcome mappings 0 userContext).1.any Step.isCallback then
          caller.onResolved (resolveNext outcome mappings 0 userContext).2 else .threw) := by
  unfold resolve
  rw [if_pos htruthy, hresolve]

/-- An array that is accepted is resolved as expected. -/
theorem resolvesAll_array {elements : List Mapping} {inspect : String}
    (hne : caller = .connect → elements ≠ [])
    (haccepted : ∀ element ∈ elements, element.accepted = true)
    (hlength : (elements.filter Mapping.isMapping).length ≤ 21)
    (hunknown : (∃ element ∈ elements, element.isMapping = false) →
      ∃ index < (elements.filter Mapping.isMapping).length, (outcome index).isSome = true) :
    ResolvesAll caller (.array elements inspect) outcome := by
  by_cases hnil : elements = []
  · subst hnil
    cases caller with
    | connect => exact absurd rfl (hne rfl)
    | openSession => exact ⟨rfl, fun h => absurd rfl h, fun _ => rfl⟩
  · obtain ⟨userContext, hresolve, _, _, hinspect, hclean⟩ :=
      @resolveTableMappings_array outcome elements inspect
    have hfilter : elements.filter Mapping.taken = elements.filter Mapping.isMapping :=
      List.filter_congr fun element hmem => taken_of_accepted (haccepted element hmem)
    rw [hfilter] at hresolve
    refine resolvesAll_of rfl hresolve ?_ hlength ?_ ?_ ?_
    · exact fun mapping hmem => throws_of_accepted (haccepted mapping (List.mem_filter.mp hmem).1)
    · intro element hmem hnot
      have htaken : element.taken = false := (taken_of_accepted (haccepted element hmem)).trans hnot
      refine ⟨?_, ?_⟩
      · have hnamed : element.named = element.inspect := by
          cases element <;> first | rfl | cases hnot
        rw [hnamed]
        exact (hinspect element hmem htaken).right
      · obtain ⟨index, hindex, herr⟩ := hunknown ⟨element, hmem, hnot⟩
        refine ⟨((elements.filter Mapping.isMapping)[index], outcome index), ?_, herr⟩
        exact mem_outcomes.mpr ⟨index, List.getElem?_eq_getElem hindex, rfl⟩
    · intro hall
      exact hclean hnil fun element hmem =>
        (taken_of_accepted (haccepted element hmem)).trans (hall element hmem)
    · intro mapping err hmem
      have hmessage := (@names_message userContext mapping _ err hmem).right
      obtain ⟨index, hindex, _⟩ := mem_outcomes.mp hmem
      have hmapping := List.mem_filter.mp (List.mem_of_getElem? hindex)
      cases mapping with
      | string name => exact hmessage
      | function constructor => exact hmessage
      | tableMapping table => cases haccepted _ hmapping.1
      | _ => cases hmapping.2

/-- An array that is resolved as expected is accepted. -/
theorem resolvable_of_array {elements : List Mapping} {inspect : String}
    (h : ResolvesAll caller (.array elements inspect) outcome) :
    Resolvable caller (.array elements inspect) outcome := by
  obtain ⟨userContext, hresolve, hfirst, hempty, hinspect, _⟩ :=
    @resolveTableMappings_array outcome elements inspect
  have hsteps := h.steps
  have hresolved : (resolve caller (.array elements inspect) outcome).1 =
      (resolveNext outcome (elements.filter Mapping.taken) 0 userContext).1 := by
    rw [resolve_eq rfl hresolve]
  rw [hresolved] at hsteps
  have haccepted : ∀ element ∈ elements, element.accepted = true := by
    intro element hmem
    by_contra hnot
    have hmapping : element.isMapping = true := by
      cases element <;> first | rfl | exact absurd rfl hnot
    have hasked := @getTableHandler_mem (.array elements inspect) outcome element
      (List.mem_filter.mpr ⟨hmem, hmapping⟩)
    rw [← hsteps] at hasked
    cases element with
    | tableMapping table => cases (List.mem_filter.mp (mem_of_getTableHandler hasked)).2
    | function constructor =>
        have hthrows : (Mapping.function constructor).throws = true := by
          change (!constructor.hasPrototype) = true
          rw [show constructor.hasPrototype = false from Bool.eq_false_iff.mpr hnot]
          rfl
        have hthrew := threw_of_getTableHandler hthrows hasked
        rw [hsteps] at hthrew
        exact threw_not_mem_answers _ hthrew
    | _ => exact hnot rfl
  have hlength : (elements.filter Mapping.isMapping).length ≤ 21 := by
    have hcount := @countP_resolveNext_le outcome (elements.filter Mapping.taken) 0 userContext
      (by omega)
    rw [hsteps, countP_answers, length_outcomes] at hcount
    have : (Mapping.array elements inspect).elements = elements := rfl
    rw [this] at hcount
    omega
  refine ⟨?_, haccepted, hlength, ?_⟩
  · rintro rfl hnil
    have hsuccess := h.success (by rw [hnil]; rfl)
    rw [resolve_eq rfl hresolve, hnil] at hsuccess
    change onMappingsResolved userContext = .success at hsuccess
    have hthrew := onResolved_of_none hfirst (hempty hnil) .connect
    change onMappingsResolved userContext = .threw at hthrew
    rw [hsuccess] at hthrew
    cases hthrew
  · rintro ⟨element, hmem, hnot⟩
    by_contra hall
    -- without a first error the message is not reported
    have htaken : element.taken = false := (taken_of_accepted (haccepted element hmem)).trans hnot
    have hmessages := (hinspect element hmem htaken).ne_empty (by simp)
    have hfailed : failed (.array elements inspect) outcome ≠ [] := by
      refine List.ne_nil_of_mem (List.mem_append_left _ (List.mem_filter.mpr ⟨hmem, ?_⟩))
      rw [hnot]
      rfl
    obtain ⟨error, herror, _⟩ := h.error hfailed
    have hfilter : elements.filter Mapping.taken = elements.filter Mapping.isMapping :=
      List.filter_congr fun other hother => taken_of_accepted (haccepted other hother)
    have hresolvedAll : ∀ answer ∈ outcomes (.array elements inspect) outcome,
        answer.2 = none := by
      intro answer hanswer
      obtain ⟨index, hindex, herr⟩ := mem_outcomes.mp hanswer
      obtain ⟨hlt, _⟩ := List.getElem?_eq_some_iff.mp hindex
      by_contra hsome
      exact hall ⟨index, hlt, by rw [← herr]; exact Option.isSome_iff_ne_none.mpr hsome⟩
    have hcontext : (resolveNext outcome (elements.filter Mapping.taken) 0 userContext).2 =
        userContext := by
      rw [hfilter, resolveNext_eq ?_ (by omega)]
      · exact tell_of_resolved hresolvedAll
      · exact fun mapping hmapping =>
          throws_of_accepted (haccepted mapping (List.mem_filter.mp hmapping).1)
    rw [resolve_eq rfl hresolve, hcontext, onResolved_of_none hfirst hmessages] at herror
    dsimp only at herror
    split_ifs at herror

end

theorem errorMessages_tableMapping (table : String) (err : TableError) :
    (UserContext.onTableHandler {} (.tableMapping table) (some err)).errorMessages =
      "\n" ++ ("Error resolving table " ++ "[object Object]" ++ ": " ++ err.inspect) := by
  change "" ++ "\n" ++ ("Error resolving table " ++ "[object Object]" ++ ": " ++ err.inspect) = _
  rw [String.empty_append]

/-- A list of mappings is resolved as expected exactly if it has only what is taken. -/
theorem resolvesAll_iff (caller : Caller) (tableMappings : Mapping)
    (outcome : ℕ → Option TableError) :
    ResolvesAll caller tableMappings outcome ↔ Resolvable caller tableMappings outcome := by
  cases tableMappings with
  | string name =>
      constructor
      · rintro h rfl
        have := h.steps
        simp [resolve, Mapping.truthy] at this
      · intro hname
        have htruthy : (Mapping.string name).truthy = true := decide_eq_true hname
        refine resolvesAll_single htruthy rfl rfl rfl rfl ?_
        intro err _
        exact (@names_message {} _ [(Mapping.string name, some err)] err
          List.mem_cons_self).right
  | function constructor =>
      constructor
      · intro h
        by_contra hnot
        have hthrows : (Mapping.function constructor).throws = true := by
          change (!constructor.hasPrototype) = true
          rw [show constructor.hasPrototype = false from Bool.eq_false_iff.mpr hnot]
          rfl
        have hsteps := h.steps
        have hasked := @getTableHandler_mem (.function constructor) outcome (.function constructor)
          (List.mem_singleton_self _)
        rw [← hsteps, @resolve_eq caller (.function constructor) outcome
          [.function constructor] {} rfl rfl] at hasked
        have hthrew := threw_of_getTableHandler hthrows hasked
        rw [@resolve_eq caller (.function constructor) outcome [.function constructor] {} rfl rfl]
          at hsteps
        rw [hsteps] at hthrew
        exact threw_not_mem_answers _ hthrew
      · intro hprototype
        have hthrows : (Mapping.function constructor).throws = false := throws_of_accepted hprototype
        refine resolvesAll_single rfl rfl rfl hthrows rfl ?_
        intro err _
        exact (@names_message {} _ [(Mapping.function constructor, some err)] err
          List.mem_cons_self).right
  | tableMapping table =>
      constructor
      · intro h err herr
        have houtcomes : outcomes (.tableMapping table) outcome =
            [(.tableMapping table, some err)] := by
          rw [← herr]
          rfl
        have hmem : Mapping.tableMapping table ∈ failed (.tableMapping table) outcome := by
          unfold failed
          rw [houtcomes]
          exact List.mem_singleton_self _
        obtain ⟨error, herror, hnames⟩ := h.error (List.ne_nil_of_mem hmem)
        have hcontext : resolve caller (.tableMapping table) outcome =
            ([.getTableHandler (.tableMapping table), .onTableHandler (outcome 0), .callback],
              caller.onResolved (UserContext.onTableHandler {} (.tableMapping table) (outcome 0))) :=
          rfl
        obtain ⟨reported, hreported, hmessage⟩ := @onResolved_of_firstError
          (UserContext.onTableHandler {} (.tableMapping table) (some err)) err rfl
          (by simp [UserContext.onTableHandler, UserContext.appendErrorMessage]) caller
        rw [hcontext, herr, hreported] at herror
        cases herror
        have hnamed := hnames _ hmem
        rw [hmessage] at hnamed
        rw [errorMessages_tableMapping] at hnamed
        exact hnamed
      · intro h
        refine resolvesAll_single rfl rfl rfl rfl rfl ?_
        intro err herr
        rw [errorMessages_tableMapping]
        exact h err herr
  | array elements inspect =>
      constructor
      · exact resolvable_of_array
      · rintro ⟨hne, haccepted, hlength, hunknown⟩
        exact resolvesAll_array hne haccepted hlength hunknown
  | object inspect =>
      refine iff_of_false (fun h => ?_) not_false
      obtain ⟨error, herror, _⟩ := h.error (List.cons_ne_nil _ _)
      cases caller <;> cases herror
  | primitive truthy inspect =>
      refine iff_of_false (fun h => ?_) not_false
      obtain ⟨error, herror, _⟩ := h.error (List.cons_ne_nil _ _)
      cases truthy with
      | false => cases herror
      | true =>
          rw [@resolve_eq caller (.primitive true inspect) outcome [] _ rfl rfl] at herror
          change caller.onResolved (UserContext.appendErrorMessage {}
            ("unknown table mappings" ++ inspect)) = .error error at herror
          rw [onResolved_of_none rfl (by simp [UserContext.appendErrorMessage])] at herror
          split_ifs at herror

/-- Something that is no mapping in an array: the error has no first error to be copied from. -/
theorem not_resolvesAll_unknown :
    ¬ ∀ (caller : Caller) (tableMappings : Mapping) (outcome : ℕ → Option TableError),
      ResolvesAll caller tableMappings outcome := by
  intro hclaim
  have hresolves := hclaim .connect
    (.array [.string "t_basic", .primitive true "5"] "[ 't_basic', 5 ]") fun _ => none
  obtain ⟨error, herror, _⟩ := hresolves.error (List.cons_ne_nil _ _)
  have hthrew : (resolve .connect
      (.array [.string "t_basic", .primitive true "5"] "[ 't_basic', 5 ]") fun _ => none).2 =
        .threw := by decide
  rw [hthrew] at herror
  cases herror

end DatabaseJones.TableMappings
