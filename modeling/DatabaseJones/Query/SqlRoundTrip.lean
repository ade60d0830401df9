import DatabaseJones.Query.SqlText

/-!
# The SQL text of a predicate tree

`parse_tokens` reads the tokens of a tree back: the parser ends with the tree as a
condition, where placeholder `k` stands for the `k`-th formal parameter.  Broken
tokens are not a condition at all.  Together with `getSQL_lexes` this says exactly
which trees `getSQL` preserves.
-/

namespace DatabaseJones.Query

open DatabaseJones.Library

/-! ## The condition that a tree stands for -/

mutual

/-- The tree with binary AND and OR, which associate to the left. -/
def Predicate.toSql : Predicate Literal → SqlExpression (Parameter Literal)
  | .comparator comparator queryField parameter =>
      .comparison comparator (queryField.tableAlias ++ queryField.columnName) parameter
  | .between queryField parameter1 parameter2 =>
      .between (queryField.tableAlias ++ queryField.columnName) parameter1 parameter2
  | .unaryOperator operator queryField =>
      .nullTest operator (queryField.tableAlias ++ queryField.columnName)
  | .not predicate => .not predicate.toSql
  | .nary operator first rest => operandsToSql operator first.toSql rest

def operandsToSql (operator : NaryOperator) (left : SqlExpression (Parameter Literal)) :
    List (Predicate Literal) → SqlExpression (Parameter Literal)
  | [] => left
  | operand :: operands => operandsToSql operator (.binary operator left operand.toSql) operands

end

variable {V : Type}

/-- An interpretation of column texts interprets the fields of a tree. -/
def onFields (interpretation : Interpretation (List Char) (Parameter Literal) V) :
    Interpretation QueryField (Parameter Literal) V where
  column queryField := interpretation.column (queryField.tableAlias ++ queryField.columnName)
  value := interpretation.value
  compare := interpretation.compare

theorem eval_operandsToSql (interpretation : Interpretation (List Char) (Parameter Literal) V)
    {operator : NaryOperator} {operands : List (Predicate Literal)}
    (hoperands : ∀ operand ∈ operands,
      operand.toSql.eval interpretation = operand.eval (onFields interpretation))
    (left : SqlExpression (Parameter Literal)) :
    (operandsToSql operator left operands).eval interpretation =
      evalOperands (onFields interpretation) operator (left.eval interpretation) operands := by
  induction operands generalizing left with
  | nil => rfl
  | cons operand operands ih =>
      rw [List.forall_mem_cons] at hoperands
      rw [operandsToSql, evalOperands, ih hoperands.2, SqlExpression.eval, hoperands.1]

/-- The condition has the meaning of the tree. -/
theorem eval_toSql (interpretation : Interpretation (List Char) (Parameter Literal) V)
    (predicate : Predicate Literal) :
    predicate.toSql.eval interpretation = predicate.eval (onFields interpretation) := by
  induction predicate with
  | comparator => rfl
  | between => rfl
  | unaryOperator => rfl
  | not predicate ih => rw [Predicate.toSql, SqlExpression.eval, ih, Predicate.eval]
  | nary operator first rest ihFirst ihRest =>
      rw [Predicate.toSql, eval_operandsToSql _ ihRest, ihFirst, Predicate.eval]

theorem values_operandsToSql {operator : NaryOperator} {operands : List (Predicate Literal)}
    (hoperands : ∀ operand ∈ operands,
      operand.toSql.values = operand.atoms.flatMap Predicate.parameters)
    (left : SqlExpression (Parameter Literal)) :
    (operandsToSql operator left operands).values =
      left.values ++ (atomsOfOperands operands).flatMap Predicate.parameters := by
  induction operands generalizing left with
  | nil => simp [operandsToSql, atomsOfOperands]
  | cons operand operands ih =>
      rw [List.forall_mem_cons] at hoperands
      rw [operandsToSql, atomsOfOperands, ih hoperands.2, SqlExpression.values, hoperands.1,
        List.flatMap_append, List.append_assoc]

/-- The condition has the comparands of the tree, in their order. -/
theorem values_toSql (predicate : Predicate Literal) :
    predicate.toSql.values = predicate.atoms.flatMap Predicate.parameters := by
  induction predicate with
  | comparator => rfl
  | between => rfl
  | unaryOperator => rfl
  | not predicate ih => exact ih
  | nary operator first rest ihFirst ihRest =>
      rw [Predicate.toSql, values_operandsToSql ihRest, ihFirst, Predicate.atoms,
        List.flatMap_append]

variable {ω ω' : Type}

theorem values_map (f : ω → ω') (expression : SqlExpression ω) :
    (expression.map f).values = expression.values.map f := by
  induction expression with
  | comparison => rfl
  | between => rfl
  | nullTest => rfl
  | not expression ih => exact ih
  | binary operator left right ihLeft ihRight =>
      rw [SqlExpression.map, SqlExpression.values, SqlExpression.values, ihLeft, ihRight,
        List.map_append]

/-- Values can be replaced in the condition or in the interpretation. -/
theorem eval_map (f : ω → ω') (interpretation : Interpretation (List Char) ω' V)
    (expression : SqlExpression ω) : (expression.map f).eval interpretation =
      expression.eval ⟨interpretation.column, interpretation.value ∘ f, interpretation.compare⟩ := by
  induction expression with
  | comparison => rfl
  | between => rfl
  | nullTest => rfl
  | not expression ih => rw [SqlExpression.map, SqlExpression.eval, SqlExpression.eval, ih]
  | binary operator left right ihLeft ihRight =>
      rw [SqlExpression.map, SqlExpression.eval, SqlExpression.eval, ihLeft, ihRight]

/-! ## Reading the tokens of a tree -/

/-- What a value of the text stands for, given the formal parameters. -/
def resolve (formalParameters : List (Parameter Literal)) : Value → Option (Parameter Literal)
  | .placeholder number => formalParameters[number]?
  | .literal value => some (.literal value)

variable {marks : ℕ} {predicate : Predicate Literal}

/-- A token that reads as a value.  `added` are the formal parameters it stands for. -/
def ReadsValue (token : Token) (parameter : Parameter Literal) (added : List (Parameter Literal)) :
    Prop :=
  ∀ (parser : Parser) (phase : Value → Phase), ∃ value,
    parser.value phase token = some { parser with
      phase := phase value, placeholders := parser.placeholders + added.length } ∧
    ∀ formalParameters more, formalParameters.drop parser.placeholders = added ++ more →
      resolve formalParameters value = some parameter

theorem readsValue_valueToken {parameter : Parameter Literal} (hplain : parameter.IsPlain)
    {isConstant : Bool} (hconstant : isConstant = true → isQueryParameter parameter = false) :
    ReadsValue (valueToken isConstant parameter) parameter
      (comparandParameters isConstant parameter) := by
  intro parser phase
  cases isConstant with
  | false =>
      have htoken : valueToken false parameter = .placeholder := by
        rcases parameter with name | text | text <;> rfl
      refine ⟨.placeholder parser.placeholders, by rw [htoken]; rfl, fun formalParameters more h => ?_⟩
      have hnext : (formalParameters.drop parser.placeholders)[0]? = some parameter := by
        rw [h]
        rfl
      simpa [resolve] using hnext
  | true =>
      rcases parameter with name | text | text
      · exact absurd (hconstant rfl) (by simp [isQueryParameter])
      · exact ⟨.literal (.string text), rfl, fun _ _ _ => rfl⟩
      · refine ⟨.literal (.other text), ?_, fun _ _ _ => rfl⟩
        simp [valueToken, Parser.value, hplain.2.2.2, comparandParameters]

/-- The parser reads the tokens of a tree in an empty level as one condition. -/
def Reads (marks : ℕ) (predicate : Predicate Literal) : Prop :=
  ∀ outer placeholders, ∃ level operand,
    run Parser.step ⟨.empty, outer, .operand, placeholders⟩ (predicate.tokens marks) =
      some ⟨level, outer, .complete operand,
        placeholders + (predicate.formalParameters marks).length⟩ ∧
    ∀ formalParameters more,
      formalParameters.drop placeholders = predicate.formalParameters marks ++ more →
        (level.close operand).map (resolve formalParameters) = predicate.toSql.map some

/-- A tree in parentheses is read as an operand. -/
theorem Reads.parenthesized (h : Reads marks predicate) (level : Level) (outer : List Level)
    (placeholders : ℕ) : ∃ operand,
    run Parser.step ⟨level, outer, .operand, placeholders⟩
        (.opening :: predicate.tokens marks ++ [.closing]) =
      some ⟨level, outer, .complete operand,
        placeholders + (predicate.formalParameters marks).length⟩ ∧
    ∀ formalParameters more,
      formalParameters.drop placeholders = predicate.formalParameters marks ++ more →
        operand.map (resolve formalParameters) = predicate.toSql.map some := by
  obtain ⟨inner, operand, hrun, hresolve⟩ := h (level :: outer) placeholders
  refine ⟨inner.close operand, ?_, hresolve⟩
  rw [List.cons_append, run]
  change run Parser.step ⟨.empty, level :: outer, .operand, placeholders⟩ _ = _
  rw [run_append, hrun]
  rfl

theorem reads_comparator {comparator : Comparator} {queryField : QueryField}
    {parameter : Parameter Literal}
    (hplain : (Predicate.comparator comparator queryField parameter).IsPlain) :
    Reads marks (.comparator comparator queryField parameter) := by
  intro outer placeholders
  obtain ⟨-, hparameters⟩ := hplain _ (List.mem_singleton_self _)
  set column := queryField.tableAlias ++ queryField.columnName with hcolumn
  obtain ⟨value, hvalue, hresolve⟩ := readsValue_valueToken
    (hparameters parameter (List.mem_singleton_self _))
    (isQueryParameter_of_comparatorIsConstant marks)
    ⟨.empty, outer, .comparison comparator column, placeholders⟩
    (fun value => .complete (.comparison comparator column value))
  refine ⟨.empty, .comparison comparator column value, ?_, fun formalParameters more h => ?_⟩
  · simp only [Predicate.tokens, run, Parser.step, Option.bind_some, ← hcolumn, hvalue]
    simp [Predicate.formalParameters, Predicate.atoms, Predicate.atomParameters]
  · have hparameter := hresolve formalParameters more
      (by simpa [Predicate.formalParameters, Predicate.atoms, Predicate.atomParameters] using h)
    change SqlExpression.comparison _ _ (resolve formalParameters value) = _
    rw [hparameter]
    rfl

theorem reads_between {queryField : QueryField} {parameter1 parameter2 : Parameter Literal}
    (hplain : (Predicate.between queryField parameter1 parameter2).IsPlain) :
    Reads marks (.between queryField parameter1 parameter2) := by
  intro outer placeholders
  obtain ⟨-, hparameters⟩ := hplain _ (List.mem_singleton_self _)
  obtain ⟨hplain1, hplain2, -⟩ := by
    simpa only [Predicate.parameters, List.forall_mem_cons] using hparameters
  set column := queryField.tableAlias ++ queryField.columnName with hcolumn
  obtain ⟨low, hlow, hresolveLow⟩ := readsValue_valueToken hplain1
    (isQueryParameter_of_betweenIsConstant_zero marks parameter1 parameter2)
    ⟨.empty, outer, .betweenLow column, placeholders⟩ (fun low => .betweenAnd column low)
  set added := comparandParameters (betweenIsConstant marks parameter1 parameter2 0) parameter1
    with hadded
  obtain ⟨high, hhigh, hresolveHigh⟩ := readsValue_valueToken hplain2
    (isQueryParameter_of_betweenIsConstant_one marks parameter1 parameter2)
    ⟨.empty, outer, .betweenHigh column low, placeholders + added.length⟩
    (fun high => .complete (.between column low high))
  refine ⟨.empty, .between column low high, ?_, fun formalParameters more h => ?_⟩
  · simp only [Predicate.tokens, run, Parser.step, Option.bind_some, ← hcolumn, hlow, hhigh]
    simp [Predicate.formalParameters, Predicate.atoms, Predicate.atomParameters, hadded,
      Nat.add_assoc]
  · simp only [Predicate.formalParameters, Predicate.atoms, Predicate.atomParameters,
      List.flatMap_cons, List.flatMap_nil, List.append_nil, List.append_assoc, ← hadded] at h
    have hlowParameter := hresolveLow formalParameters _ h
    have hhighParameter := hresolveHigh formalParameters more (by
      rw [← List.drop_drop, h, List.drop_left])
    change SqlExpression.between _ (resolve formalParameters low) (resolve formalParameters high) = _
    rw [hlowParameter, hhighParameter]
    rfl

theorem reads_unaryOperator {operator : UnaryOperator} {queryField : QueryField} :
    Reads marks (.unaryOperator operator queryField) := by
  intro outer placeholders
  exact ⟨.empty, .nullTest operator (queryField.tableAlias ++ queryField.columnName),
    by cases operator <;> rfl, fun _ _ _ => rfl⟩

theorem Reads.not (h : Reads marks predicate) : Reads marks (.not predicate) := by
  intro outer placeholders
  obtain ⟨operand, hrun, hresolve⟩ := h.parenthesized { Level.empty with nots := 1 } outer placeholders
  refine ⟨_, operand, hrun, fun formalParameters more hdrop => ?_⟩
  change SqlExpression.not (operand.map _) = _
  rw [hresolve formalParameters more hdrop]
  rfl

/-- An operator puts the next operand to the right of the level so far, unless an AND
follows an OR. -/
theorem close_after {level : Level} {operator : NaryOperator}
    (hlevel : operator = .and → level.disjunction = none) (operand next : SqlExpression Value) :
    (level.after operand operator).close next = .binary operator (level.close operand) next := by
  cases operator with
  | and => simp [Level.after, Level.close, Level.conjoin, join, hlevel rfl]
  | or => rfl

/-- The operands of AND or OR from the second on. -/
theorem run_operandTokens (operator : NaryOperator) {operands : List (Predicate Literal)}
    (hreads : ∀ operand ∈ operands, Reads marks operand) (level : Level)
    (hlevel : operator = .and → level.disjunction = none) (outer : List Level)
    (operand : SqlExpression Value) (placeholders : ℕ) : ∃ level' operand',
    run Parser.step ⟨level, outer, .complete operand, placeholders⟩
        (operandTokens marks operator operands) =
      some ⟨level', outer, .complete operand', placeholders +
        (operands.flatMap (Predicate.formalParameters marks)).length⟩ ∧
    ∀ formalParameters more, formalParameters.drop placeholders =
        operands.flatMap (Predicate.formalParameters marks) ++ more →
      ∀ left, (level.close operand).map (resolve formalParameters) = left.map some →
        (level'.close operand').map (resolve formalParameters) =
          (operandsToSql operator left operands).map some := by
  induction operands generalizing level operand placeholders with
  | nil => exact ⟨level, operand, rfl, fun _ _ _ _ h => h⟩
  | cons next operands ih =>
      rw [List.forall_mem_cons] at hreads
      obtain ⟨right, hright, hresolveRight⟩ :=
        hreads.1.parenthesized (level.after operand operator) outer placeholders
      have hafter : operator = .and → (level.after operand operator).disjunction = none := by
        rintro rfl
        exact hlevel rfl
      obtain ⟨level', operand', hrun, hresolve⟩ := ih hreads.2 _ hafter right
        (placeholders + (next.formalParameters marks).length)
      refine ⟨level', operand', ?_, fun formalParameters more hdrop left hleft => ?_⟩
      · have hoperator : Parser.step ⟨level, outer, .complete operand, placeholders⟩
            (.keyword operator.keyword) =
              some ⟨level.after operand operator, outer, .operand, placeholders⟩ := by
          cases operator <;> rfl
        rw [operandTokens, List.cons_append, run, hoperator, Option.bind_some, run_append, hright,
          Option.bind_some, hrun, List.flatMap_cons, List.length_append, Nat.add_assoc]
      · rw [List.flatMap_cons, List.append_assoc] at hdrop
        rw [operandsToSql]
        refine hresolve formalParameters more ?_ _ ?_
        · rw [← List.drop_drop, hdrop, List.drop_left]
        · rw [close_after hlevel, SqlExpression.map, hleft, hresolveRight formalParameters _ hdrop]
          rfl

/-- The tokens of a tree are read back as the tree. -/
theorem reads_tokens (marks : ℕ) (hplain : predicate.IsPlain) : Reads marks predicate := by
  induction predicate with
  | comparator => exact reads_comparator hplain
  | between => exact reads_between hplain
  | unaryOperator => exact reads_unaryOperator
  | not predicate ih => exact (ih hplain).not
  | nary operator first rest ihFirst ihRest =>
      intro outer placeholders
      obtain ⟨hfirst, hrest⟩ := isPlain_nary hplain
      obtain ⟨operand, hrun, hresolve⟩ := (ihFirst hfirst).parenthesized .empty outer placeholders
      obtain ⟨level', operand', hrun', hresolve'⟩ := run_operandTokens operator
        (fun operand hoperand => ihRest operand hoperand (hrest operand hoperand))
        .empty (fun _ => rfl) outer operand
        (placeholders + (first.formalParameters marks).length)
      refine ⟨level', operand', ?_, fun formalParameters more hdrop => ?_⟩
      · rw [Predicate.tokens, run_append, hrun, Option.bind_some, hrun', formalParameters_nary,
          List.length_append, Nat.add_assoc]
      · rw [formalParameters_nary, List.append_assoc] at hdrop
        rw [Predicate.toSql]
        refine hresolve' formalParameters more ?_ _ (hresolve formalParameters _ hdrop)
        rw [← List.drop_drop, hdrop, List.drop_left]

/-- No condition has a closing parenthesis right before an opening one. -/
theorem run_eq_none_of_broken {tokens : List Token} (h : Broken tokens) (parser : Parser) :
    run Parser.step parser tokens = none := by
  obtain ⟨before, after, rfl⟩ := h
  rw [run_append]
  cases run Parser.step parser before with
  | none => rfl
  | some parser =>
      obtain ⟨level, outer, phase, placeholders⟩ := parser
      cases phase with
      | complete operand => cases outer <;> rfl
      | _ => rfl

/-! ## What `getSQL` preserves -/

/-- The values of a text are those of the parameters they stand for. -/
def onText {V : Type} (interpretation : Interpretation (List Char) (Parameter Literal) V)
    (formalParameters : List (Parameter Literal)) : Interpretation (List Char) Value V where
  column := interpretation.column
  value value := (resolve formalParameters value).bind interpretation.value
  compare := interpretation.compare

/-- The text of a tree parses to a condition with the meaning of the tree.  It has as
many placeholders as there are formal parameters, and each stands where the tree has
the formal parameter with its number. -/
def PreservedBySQL (marks : ℕ) (texts : SqlObject → List Char) (predicate : Predicate Literal) :
    Prop :=
  ∃ condition, parse (getSQL marks texts predicate).sqlText =
      some (condition, (getSQL marks texts predicate).formalParameters.length) ∧
    condition.values.map (resolve (getSQL marks texts predicate).formalParameters) =
      (predicate.atoms.flatMap Predicate.parameters).map some ∧
    ∀ (V : Type) (interpretation : Interpretation (List Char) (Parameter Literal) V),
      condition.eval (onText interpretation (getSQL marks texts predicate).formalParameters) =
        predicate.eval (onFields interpretation)

/-- A text that is kept is read back as the tree. -/
theorem preservedBySQL_of_keepsText (hplain : predicate.IsPlain) (texts : SqlObject → List Char)
    (hkeeps : predicate.RootKeepsText) : PreservedBySQL marks texts predicate := by
  obtain ⟨hformal, tokens, hlex, hkept⟩ := getSQL_lexes marks hplain texts
  obtain ⟨level, operand, hrun, hresolve⟩ := reads_tokens marks hplain [] 0
  have hcondition := hresolve (predicate.formalParameters marks) [] (by simp)
  rw [PreservedBySQL, hformal]
  refine ⟨level.close operand, ?_, ?_, fun V interpretation => ?_⟩
  · rw [parse, hlex, Option.bind_some, hkept.1 hkeeps]
    change (run Parser.step ⟨.empty, [], .operand, 0⟩ _).bind _ = _
    rw [hrun, Nat.zero_add]
    rfl
  · rw [← values_map, hcondition, values_map, values_toSql]
  · let lifted : Interpretation (List Char) (Option (Parameter Literal)) V :=
      ⟨interpretation.column, fun parameter => parameter.bind interpretation.value,
        interpretation.compare⟩
    calc (level.close operand).eval (onText interpretation (predicate.formalParameters marks))
        = ((level.close operand).map (resolve (predicate.formalParameters marks))).eval lifted :=
          (eval_map _ lifted _).symm
      _ = predicate.toSql.eval interpretation := by rw [hcondition, eval_map]; rfl
      _ = predicate.eval (onFields interpretation) := eval_toSql interpretation predicate

/-- A literal with a quote is not escaped: `a = 'it's'` is no condition. -/
example : parse (getSQL 1 (fun _ => [])
    (.comparator .eq ⟨[], ['a'], 0⟩ (.literal (.string "it's".toList)))).sqlText = none := by
  decide +kernel

end DatabaseJones.Query
