import DatabaseJones.Query.SqlGrammar

/-!
# The text that the SQL visitor leaves

A node other than the root loses its text when an operand after its first one
contains AND or OR: the visit of the operand overwrites the object that both
share.  `Predicate.KeepsText` says that this happens nowhere.  `getSQL_lexes`
says what `getSQL` gives: the tokens of the tree if the text is kept, and
otherwise tokens with a closing parenthesis right before an opening one.
-/

namespace DatabaseJones.Query

open DatabaseJones.Library

/-! ## Where the text is kept -/

section
variable {ν : Type*}

/-- The tree contains AND or OR. -/
def Predicate.hasNary : Predicate ν → Bool
  | .not predicate => predicate.hasNary
  | .nary .. => true
  | _ => false

/-- The text of a node other than the root, and of all nodes below it, is kept. -/
def Predicate.KeepsText : Predicate ν → Prop
  | .not predicate => predicate.KeepsText
  | .nary _ first rest => first.KeepsText ∧ ∀ operand ∈ rest, operand.hasNary = false
  | _ => True

/-- The text of the root, which has an object of its own, and of all nodes below it
is kept. -/
def Predicate.RootKeepsText : Predicate ν → Prop
  | .not predicate => predicate.KeepsText
  | .nary _ first rest => first.KeepsText ∧ ∀ operand ∈ rest, operand.KeepsText
  | _ => True

instance decidableKeepsText : DecidablePred (Predicate.KeepsText (ν := ν))
  | .comparator .. => .isTrue trivial
  | .between .. => .isTrue trivial
  | .unaryOperator .. => .isTrue trivial
  | .not predicate => decidableKeepsText predicate
  | .nary _ first rest =>
      have := decidableKeepsText first
      inferInstanceAs (Decidable (first.KeepsText ∧ ∀ operand ∈ rest, operand.hasNary = false))

instance : DecidablePred (Predicate.RootKeepsText (ν := ν))
  | .comparator .. => .isTrue trivial
  | .between .. => .isTrue trivial
  | .unaryOperator .. => .isTrue trivial
  | .not predicate => inferInstanceAs (Decidable predicate.KeepsText)
  | .nary _ first rest =>
      inferInstanceAs (Decidable (first.KeepsText ∧ ∀ operand ∈ rest, operand.KeepsText))

theorem keepsText_of_hasNary {predicate : Predicate ν} (h : predicate.hasNary = false) :
    predicate.KeepsText := by
  induction predicate with
  | comparator => trivial
  | between => trivial
  | unaryOperator => trivial
  | not predicate ih => exact ih h
  | nary => simp [Predicate.hasNary] at h

/-- An operand after the first leaves the text in the object `sql` as it is. -/
def Predicate.KeepsTextIn (sql : SqlObject) (operand : Predicate ν) : Prop :=
  operand.KeepsText ∧ (sql = .nary → operand.hasNary = false)

theorem keepsText_nary (operator : NaryOperator) {first : Predicate ν} {rest : List (Predicate ν)} :
    (Predicate.nary operator first rest).KeepsText ↔
      first.KeepsText ∧ ∀ operand ∈ rest, operand.KeepsTextIn .nary := by
  refine and_congr_right fun _ => forall₂_congr fun operand _ => ?_
  exact ⟨fun h => ⟨keepsText_of_hasNary h, fun _ => h⟩, fun h => h.2 rfl⟩

theorem rootKeepsText_nary (operator : NaryOperator) {first : Predicate ν}
    {rest : List (Predicate ν)} : (Predicate.nary operator first rest).RootKeepsText ↔
      first.KeepsText ∧ ∀ operand ∈ rest, operand.KeepsTextIn .root := by
  refine and_congr_right fun _ => forall₂_congr fun operand _ => ?_
  exact ⟨fun h => ⟨h, nofun⟩, fun h => h.1⟩

end

/-! ## The tokens of a tree -/

section
variable (marks : ℕ)

/-- What the marking of a tree says about the comparand of a comparator. -/
def comparatorIsConstant (parameter : Parameter Literal) : Bool :=
  (markComparator parameter)^[marks] 0 != 0

/-- What the marking of a tree says about a comparand of BETWEEN. -/
def betweenIsConstant (parameter1 parameter2 : Parameter Literal) (bit : ℕ) : Bool :=
  ((markBetween parameter1 parameter2)^[marks] 0).testBit bit

mutual

/-- The tokens of a tree, with every operand of NOT, AND and OR in parentheses. -/
def Predicate.tokens : Predicate Literal → List Token
  | .comparator comparator queryField parameter =>
      [.word (queryField.tableAlias ++ queryField.columnName), .comparator comparator,
        valueToken (comparatorIsConstant marks parameter) parameter]
  | .between queryField parameter1 parameter2 =>
      [.word (queryField.tableAlias ++ queryField.columnName), .keyword .between,
        valueToken (betweenIsConstant marks parameter1 parameter2 0) parameter1, .keyword .and,
        valueToken (betweenIsConstant marks parameter1 parameter2 1) parameter2]
  | .unaryOperator operator queryField =>
      .word (queryField.tableAlias ++ queryField.columnName) :: operator.tokens
  | .not predicate => .keyword .not :: .opening :: predicate.tokens ++ [.closing]
  | .nary operator first rest =>
      .opening :: first.tokens ++ [.closing] ++ operandTokens operator rest

/-- The tokens of the operands from the second on. -/
def operandTokens (operator : NaryOperator) : List (Predicate Literal) → List Token
  | [] => []
  | operand :: operands =>
      .keyword operator.keyword :: (.opening :: operand.tokens ++ [.closing]) ++
        operandTokens operator operands

end

/-- The formal parameters that one comparand adds. -/
def comparandParameters (isConstant : Bool) (parameter : Parameter Literal) :
    List (Parameter Literal) :=
  if isConstant then [] else [parameter]

/-- The formal parameters that a comparison adds. -/
def Predicate.atomParameters : Predicate Literal → List (Parameter Literal)
  | .comparator _ _ parameter => comparandParameters (comparatorIsConstant marks parameter) parameter
  | .between _ parameter1 parameter2 =>
      comparandParameters (betweenIsConstant marks parameter1 parameter2 0) parameter1 ++
        comparandParameters (betweenIsConstant marks parameter1 parameter2 1) parameter2
  | _ => []

/-- The formal parameters of a tree, in the order of its comparisons. -/
def Predicate.formalParameters (predicate : Predicate Literal) : List (Parameter Literal) :=
  predicate.atoms.flatMap (Predicate.atomParameters marks)

end

variable {marks : ℕ} {tokens tokens' : List Token} {predicate : Predicate Literal}

/-! ## Constants are literals -/

theorem isQueryParameter_of_comparatorIsConstant (marks : ℕ) {parameter : Parameter Literal}
    (h : comparatorIsConstant marks parameter = true) : isQueryParameter parameter = false := by
  by_contra hparameter
  rw [Bool.not_eq_false] at hparameter
  have hmark : markComparator parameter = id := by
    funext constants
    simp [markComparator, hparameter]
  simp [comparatorIsConstant, hmark] at h

theorem isQueryParameter_of_betweenIsConstant_zero (marks : ℕ)
    (parameter1 parameter2 : Parameter Literal)
    (h : betweenIsConstant marks parameter1 parameter2 0 = true) :
    isQueryParameter parameter1 = false := by
  by_contra hparameter
  rw [Bool.not_eq_false] at hparameter
  -- the constants stay even
  have heven : ∀ marks, (markBetween parameter1 parameter2)^[marks] 0 % 2 = 0 := by
    intro marks
    induction marks with
    | zero => rfl
    | succ marks ih =>
        rw [Function.iterate_succ_apply']
        simp only [markBetween, hparameter, if_true]
        split_ifs <;> omega
  simp [betweenIsConstant, Nat.testBit_zero, heven] at h

theorem isQueryParameter_of_betweenIsConstant_one (marks : ℕ)
    (parameter1 parameter2 : Parameter Literal)
    (h : betweenIsConstant marks parameter1 parameter2 1 = true) :
    isQueryParameter parameter2 = false := by
  by_contra hparameter
  rw [Bool.not_eq_false] at hparameter
  have hsmall : ∀ marks, (markBetween parameter1 parameter2)^[marks] 0 < 2 := by
    intro marks
    induction marks with
    | zero => exact Nat.zero_lt_two
    | succ marks ih =>
        rw [Function.iterate_succ_apply']
        simp only [markBetween, hparameter, if_true]
        split_ifs <;> omega
  rw [betweenIsConstant, Nat.testBit_lt_two_pow (hsmall marks)] at h
  exact absurd h (by decide)

/-! ## Broken texts -/

/-- A closing parenthesis right before an opening one. -/
def Broken (tokens : List Token) : Prop :=
  ∃ before after, tokens = before ++ .closing :: .opening :: after

theorem Broken.append_left (h : Broken tokens) (before : List Token) : Broken (before ++ tokens) := by
  obtain ⟨first, after, rfl⟩ := h
  exact ⟨before ++ first, after, by simp⟩

theorem Broken.append_right (h : Broken tokens) (after : List Token) : Broken (tokens ++ after) := by
  obtain ⟨before, last, rfl⟩ := h
  exact ⟨before, last ++ after, by simp⟩

theorem Broken.parenthesized (h : Broken tokens) : Broken (.opening :: tokens ++ [.closing]) :=
  (h.append_left [.opening]).append_right [.closing]

/-- The tokens of a text are the expected ones if it was kept, and broken otherwise. -/
def KeptOrBroken (kept : Prop) (expected tokens : List Token) : Prop :=
  (kept → tokens = expected) ∧ (¬ kept → Broken tokens)

theorem KeptOrBroken.parenthesized {kept : Prop} {expected : List Token}
    (h : KeptOrBroken kept expected tokens) :
    KeptOrBroken kept (.opening :: expected ++ [.closing]) (.opening :: tokens ++ [.closing]) :=
  ⟨fun hkept => by rw [h.1 hkept], fun hlost => (h.2 hlost).parenthesized⟩

/-! ## Visiting a tree -/

/-- What the visit of a node other than the root does. -/
structure Visits (marks : ℕ) (predicate : Predicate Literal) (visitor : SQLVisitor)
    (final : SQLVisitor) : Prop where
  formalParameters :
    final.formalParameters = visitor.formalParameters ++ predicate.formalParameters marks
  text : ∃ tokens, Lexes (final.sqlText predicate.sql) tokens ∧
    KeptOrBroken predicate.KeepsText (predicate.tokens marks) tokens
  nary_of_hasNary : predicate.hasNary = true →
    ∃ tokens, LexesToGap (final.sqlText .nary) (tokens ++ [.closing])
  nary_of_not_hasNary : predicate.hasNary = false → final.sqlText .nary = visitor.sqlText .nary
  root : final.sqlText .root = visitor.sqlText .root

theorem comparand_snd (visitor : SQLVisitor) (isConstant : Bool) (parameter : Parameter Literal) :
    (visitor.comparand isConstant parameter).2 = { visitor with
      formalParameters := visitor.formalParameters ++ comparandParameters isConstant parameter } := by
  cases isConstant <;> simp [SQLVisitor.comparand, comparandParameters, SQLVisitor.addParameter]

/-- What the visit of a comparison or a null test does: it writes one text. -/
def VisitsAtom (marks : ℕ) (predicate : Predicate Literal) : Prop :=
  ∀ sql visitor, ∃ text, Lexes text (predicate.tokens marks) ∧
    visit marks sql predicate visitor =
      { sqlText := Function.update visitor.sqlText sql text
        formalParameters := visitor.formalParameters ++ predicate.atomParameters marks }

theorem visitsAtom_comparator (marks : ℕ) {comparator : Comparator} {queryField : QueryField}
    {parameter : Parameter Literal}
    (hplain : (Predicate.comparator comparator queryField parameter).IsPlain) :
    VisitsAtom marks (.comparator comparator queryField parameter) := by
  intro sql visitor
  obtain ⟨hfield, hparameters⟩ := hplain _ (List.mem_singleton_self _)
  have hcolumn := lexes_identifier (hfield queryField rfl)
  have hcompared : LexesToGap _ _ := hcolumn.append_toGap (by cases comparator <;> rfl)
    (lexesToGap_comparator comparator)
  have hvalue := lexes_comparand (hparameters parameter (List.mem_singleton_self _))
    (isQueryParameter_of_comparatorIsConstant marks) visitor
  refine ⟨_, hcompared.append hvalue, ?_⟩
  simp only [visit, visitQueryComparator, SQLVisitor.setText, comparand_snd]
  rfl

theorem visitsAtom_between (marks : ℕ) {queryField : QueryField} {parameter1 parameter2 : Parameter Literal}
    (hplain : (Predicate.between queryField parameter1 parameter2).IsPlain) :
    VisitsAtom marks (.between queryField parameter1 parameter2) := by
  intro sql visitor
  obtain ⟨hfield, hparameters⟩ := hplain _ (List.mem_singleton_self _)
  obtain ⟨hplain1, hplain2, -⟩ := by
    simpa only [Predicate.parameters, List.forall_mem_cons] using hparameters
  have hcolumn := lexes_identifier (hfield queryField rfl)
  have hcompared : LexesToGap _ _ := hcolumn.append_toGap rfl lexesToGap_between
  have hleft := lexes_comparand hplain1
    (isQueryParameter_of_betweenIsConstant_zero marks parameter1 parameter2) visitor
  have hright := lexes_comparand hplain2
    (isQueryParameter_of_betweenIsConstant_one marks parameter1 parameter2)
    (visitor.comparand (betweenIsConstant marks parameter1 parameter2 0) parameter1).2
  have hand : LexesToGap _ _ :=
    (hcompared.append hleft).append_toGap rfl (lexesToGap_operator .and)
  refine ⟨_, hand.append hright, ?_⟩
  simp only [visit, visitQueryBetweenOperator, SQLVisitor.setText, comparand_snd,
    Predicate.atomParameters, List.append_assoc]
  rfl

theorem visitsAtom_unaryOperator (marks : ℕ) {operator : UnaryOperator} {queryField : QueryField}
    (hplain : (Predicate.unaryOperator (ν := Literal) operator queryField).IsPlain) :
    VisitsAtom marks (.unaryOperator operator queryField) := by
  intro sql visitor
  obtain ⟨hfield, -⟩ := hplain _ (List.mem_singleton_self _)
  have hcolumn := lexes_identifier (hfield queryField rfl)
  refine ⟨_, hcolumn.append (by cases operator <;> rfl) (lexes_unaryOperator operator), ?_⟩
  simp only [visit, visitQueryUnaryOperator, SQLVisitor.setText, Predicate.atomParameters,
    List.append_nil]
  rfl

/-- An atom other than the root is visited as the specification says. -/
theorem VisitsAtom.visits (h : VisitsAtom marks predicate) (hatoms : predicate.atoms = [predicate])
    (hnary : predicate.hasNary = false) (hkeeps : predicate.KeepsText)
    (hsql : predicate.sql ≠ .nary) (hroot : predicate.sql ≠ .root) (visitor : SQLVisitor) :
    Visits marks predicate visitor (visit marks predicate.sql predicate visitor) := by
  obtain ⟨text, hlexes, hvisit⟩ := h predicate.sql visitor
  rw [hvisit]
  refine ⟨?_, ⟨_, ?_, fun _ => rfl, fun hlost => absurd hkeeps hlost⟩, ?_, ?_, ?_⟩
  · simp [Predicate.formalParameters, hatoms]
  · simpa using hlexes
  · simp [hnary]
  · exact fun _ => Function.update_of_ne (Ne.symm hsql) _ _
  · exact Function.update_of_ne (Ne.symm hroot) _ _

/-- One operand after the first: the text so far is kept, or replaced by a text that
ends with a closing parenthesis right before that of the operand. -/
theorem appendOperand_spec {sql : SqlObject} {operator : NaryOperator}
    {operand : Predicate Literal} (hsql : sql = .root ∨ sql = .nary) {visitor final : SQLVisitor}
    (hvisits : Visits marks operand
      (visitor.setText sql (visitor.sqlText sql ++ operator.operator)) final) {tokens : List Token}
    (htext : LexesToGap (visitor.sqlText sql) (tokens ++ [.closing])) :
    ∃ tokens',
      LexesToGap (final.sqlText sql ++ '(' :: final.sqlText operand.sql ++ [')'])
        (tokens' ++ [.closing]) ∧
      (operand.KeepsTextIn sql → tokens' ++ [.closing] = tokens ++ [.closing] ++
        .keyword operator.keyword :: (.opening :: operand.tokens marks ++ [.closing])) ∧
      (Broken (tokens ++ [.closing]) ∨ ¬ operand.KeepsTextIn sql → Broken (tokens' ++ [.closing])) := by
  obtain ⟨own, hown, hkept, hlost⟩ := hvisits.text
  have hparenthesized := hown.parenthesized
  by_cases hoverwritten : sql = .nary ∧ operand.hasNary = true
  · obtain ⟨rfl, hnary⟩ := hoverwritten
    obtain ⟨inner, hinner⟩ := hvisits.nary_of_hasNary hnary
    have hreplaced := hinner.append_toGap hparenthesized
    refine ⟨inner ++ [.closing] ++ .opening :: own, by simpa using hreplaced, fun hkeeps => ?_,
      fun _ => ⟨inner, own ++ [.closing], by simp⟩⟩
    exact absurd (hnary.symm.trans (hkeeps.2 rfl)) (by decide)
  · have hsame : final.sqlText sql = visitor.sqlText sql ++ operator.operator := by
      rcases hsql with rfl | rfl
      · rw [hvisits.root, SQLVisitor.sqlText_setText_self]
      · rw [hvisits.nary_of_not_hasNary (by simpa using hoverwritten),
          SQLVisitor.sqlText_setText_self]
    have hkeeps : operand.KeepsTextIn sql ↔ operand.KeepsText :=
      ⟨fun h => h.1, fun h => ⟨h, fun hsql => by simpa [hsql] using hoverwritten⟩⟩
    have happended : LexesToGap (final.sqlText sql ++ '(' :: final.sqlText operand.sql ++ [')'])
        (tokens ++ [.closing] ++ [.keyword operator.keyword] ++ (.opening :: own ++ [.closing])) := by
      rw [hsame, List.append_assoc]
      exact (htext.append_toGap (lexesToGap_operator operator)).append_toGap hparenthesized
    refine ⟨tokens ++ [.closing] ++ [.keyword operator.keyword] ++ .opening :: own,
      by simpa using happended, fun h => ?_, ?_⟩
    · rw [hkept (hkeeps.mp h)]
      simp
    · rintro (hbroken | hnot)
      · exact ((hbroken.append_right _).append_right _).append_right _
      · rw [hkeeps] at hnot
        have hown := ((hlost hnot).append_right [.closing]).append_left
          (tokens ++ [.closing] ++ [.keyword operator.keyword] ++ [.opening])
        simpa using hown

/-- The loop over the operands from the second on, in the object of the root or in
the one that all AND and OR nodes share. -/
theorem visitOperands_spec {sql : SqlObject} (operator : NaryOperator)
    {operands : List (Predicate Literal)} (hsql : sql = .root ∨ sql = .nary)
    (hoperands : ∀ operand ∈ operands, ∀ visitor,
      Visits marks operand visitor (visit marks operand.sql operand visitor))
    (visitor : SQLVisitor) {tokens : List Token}
    (htext : LexesToGap (visitor.sqlText sql) (tokens ++ [.closing])) :
    (visitOperands marks sql operator operands visitor).formalParameters =
        visitor.formalParameters ++ operands.flatMap (Predicate.formalParameters marks) ∧
      (sql = .nary → (visitOperands marks sql operator operands visitor).sqlText .root =
        visitor.sqlText .root) ∧
      ∃ tokens',
        LexesToGap ((visitOperands marks sql operator operands visitor).sqlText sql)
          (tokens' ++ [.closing]) ∧
        ((∀ operand ∈ operands, operand.KeepsTextIn sql) →
          tokens' ++ [.closing] = tokens ++ [.closing] ++ operandTokens marks operator operands) ∧
        (Broken (tokens ++ [.closing]) ∨ (∃ operand ∈ operands, ¬ operand.KeepsTextIn sql) →
          Broken (tokens' ++ [.closing])) := by
  induction operands generalizing visitor tokens with
  | nil => exact ⟨by simp [visitOperands], fun _ => rfl, tokens, htext, by simp [operandTokens], by simp⟩
  | cons operand operands ih =>
      rw [List.forall_mem_cons] at hoperands
      obtain ⟨hoperand, hoperands⟩ := hoperands
      have hvisits := hoperand (visitor.setText sql (visitor.sqlText sql ++ operator.operator))
      obtain ⟨middle, hmiddle, hkept, hbroken⟩ := appendOperand_spec hsql hvisits htext
      rw [visitOperands]
      set visited := visit marks operand.sql operand
        (visitor.setText sql (visitor.sqlText sql ++ operator.operator)) with hvisited
      obtain ⟨hformal, hroot, final, hfinal, hkept', hbroken'⟩ :=
        ih hoperands (visited.setText sql
          (visited.sqlText sql ++ '(' :: visited.sqlText operand.sql ++ [')']))
          (by simpa using hmiddle)
      refine ⟨?_, fun hnary => ?_, final, hfinal, fun hkeeps => ?_, ?_⟩
      · rw [hformal, SQLVisitor.formalParameters_setText, hvisits.formalParameters,
          SQLVisitor.formalParameters_setText, List.flatMap_cons, List.append_assoc]
      · subst hnary
        rw [hroot rfl, SQLVisitor.sqlText_setText_of_ne _ (by decide), hvisits.root,
          SQLVisitor.sqlText_setText_of_ne _ (by decide)]
      · rw [List.forall_mem_cons] at hkeeps
        rw [hkept' hkeeps.2, hkept hkeeps.1, operandTokens]
        simp
      · intro h
        refine hbroken' ?_
        rcases h with h | ⟨lost, hmem, hlost⟩
        · exact .inl (hbroken (.inl h))
        · rcases List.mem_cons.mp hmem with rfl | hmem
          · exact .inl (hbroken (.inr hlost))
          · exact .inr ⟨lost, hmem, hlost⟩

theorem formalParameters_nary {operator : NaryOperator} {first : Predicate Literal}
    {rest : List (Predicate Literal)} :
    (Predicate.nary operator first rest).formalParameters marks =
      first.formalParameters marks ++ rest.flatMap (Predicate.formalParameters marks) := by
  rw [Predicate.formalParameters, Predicate.atoms, atomsOfOperands_eq, List.flatMap_append,
    List.flatMap_assoc]
  rfl

/-- The visit of AND or OR, in the object of the root or in the one that they share. -/
theorem visitNary_spec (marks : ℕ) {sql : SqlObject} (operator : NaryOperator) {first : Predicate Literal}
    {rest : List (Predicate Literal)} (hsql : sql = .root ∨ sql = .nary)
    (hfirst : ∀ visitor, Visits marks first visitor (visit marks first.sql first visitor))
    (hrest : ∀ operand ∈ rest, ∀ visitor,
      Visits marks operand visitor (visit marks operand.sql operand visitor))
    (visitor : SQLVisitor) :
    (visit marks sql (.nary operator first rest) visitor).formalParameters =
        visitor.formalParameters ++ (Predicate.nary operator first rest).formalParameters marks ∧
      (sql = .nary → (visit marks sql (.nary operator first rest) visitor).sqlText .root =
        visitor.sqlText .root) ∧
      ∃ tokens,
        LexesToGap ((visit marks sql (.nary operator first rest) visitor).sqlText sql)
          (tokens ++ [.closing]) ∧
        KeptOrBroken (first.KeepsText ∧ ∀ operand ∈ rest, operand.KeepsTextIn sql)
          ((Predicate.nary operator first rest).tokens marks) (tokens ++ [.closing]) := by
  obtain ⟨own, hown, hkept, hlost⟩ := (hfirst visitor).text
  rw [visit]
  set visited := visit marks first.sql first visitor with hvisited
  obtain ⟨hformal, hroot, final, hfinal, hkept', hbroken'⟩ :=
    visitOperands_spec operator hsql hrest (visited.setText sql
      ('(' :: visited.sqlText first.sql ++ [')']))
      (show LexesToGap _ (.opening :: own ++ [.closing]) by simpa using hown.parenthesized)
  refine ⟨?_, fun hnary => ?_, final, hfinal, fun hkeeps => ?_, fun hnot => hbroken' ?_⟩
  · rw [hformal, SQLVisitor.formalParameters_setText, (hfirst visitor).formalParameters,
      formalParameters_nary, List.append_assoc]
  · subst hnary
    rw [hroot rfl, SQLVisitor.sqlText_setText_of_ne _ (by decide), (hfirst visitor).root]
  · rw [hkept' hkeeps.2, hkept hkeeps.1, Predicate.tokens]
  · by_cases hfirstKeeps : first.KeepsText
    · refine .inr ?_
      by_contra hall
      exact hnot ⟨hfirstKeeps, by simpa using hall⟩
    · exact .inl (hlost hfirstKeeps).parenthesized

/-- The visit of NOT, in either object. -/
theorem visitNot_text (sql : SqlObject) {visitor : SQLVisitor}
    (hvisits : Visits marks predicate visitor (visit marks predicate.sql predicate visitor)) :
    ∃ tokens, Lexes ((visit marks sql (.not predicate) visitor).sqlText sql) tokens ∧
      KeptOrBroken predicate.KeepsText ((Predicate.not predicate).tokens marks) tokens := by
  obtain ⟨own, hown, hkept⟩ := hvisits.text
  have hnot := lexesToGap_not.append_toGap hown.parenthesized
  rw [visit, SQLVisitor.sqlText_setText_self]
  refine ⟨[.keyword .not] ++ (.opening :: own ++ [.closing]), by simpa using hnot.lexes,
    fun hkeeps => ?_, fun hlost => ?_⟩
  · rw [hkept.parenthesized.1 hkeeps]
    rfl
  · exact (hkept.parenthesized.2 hlost).append_left _

/-- Every node other than the root is visited as the specification says. -/
theorem visit_spec (marks : ℕ) (hplain : predicate.IsPlain) (visitor : SQLVisitor) :
    Visits marks predicate visitor (visit marks predicate.sql predicate visitor) := by
  induction predicate generalizing visitor with
  | comparator comparator queryField parameter =>
      exact (visitsAtom_comparator marks hplain).visits rfl rfl trivial nofun nofun visitor
  | between queryField parameter1 parameter2 =>
      exact (visitsAtom_between marks hplain).visits rfl rfl trivial nofun nofun visitor
  | unaryOperator operator queryField =>
      exact (visitsAtom_unaryOperator marks hplain).visits rfl rfl trivial nofun nofun visitor
  | not predicate ih =>
      have hvisits := ih hplain visitor
      exact ⟨hvisits.formalParameters, visitNot_text .unary hvisits,
        fun hnary => hvisits.nary_of_hasNary hnary, fun hnary => hvisits.nary_of_not_hasNary hnary,
        hvisits.root⟩
  | nary operator first rest ihFirst ihRest =>
      obtain ⟨hfirst, hrest⟩ := isPlain_nary hplain
      obtain ⟨hformal, hroot, tokens, htext, hkept⟩ := visitNary_spec marks operator
        (.inr rfl) (ihFirst hfirst)
        (fun operand hoperand => ihRest operand hoperand (hrest operand hoperand)) visitor
      rw [← keepsText_nary operator] at hkept
      exact ⟨hformal, ⟨_, htext.lexes, hkept⟩, fun _ => ⟨_, htext⟩, nofun, hroot rfl⟩

/-- What `getSQL` returns: the tokens of the tree, or a broken text, with the formal
parameters in the order of the comparisons. -/
theorem getSQL_lexes (marks : ℕ) (hplain : predicate.IsPlain) (texts : SqlObject → List Char) :
    (getSQL marks texts predicate).formalParameters = predicate.formalParameters marks ∧
      ∃ tokens, lex (getSQL marks texts predicate).sqlText = some tokens ∧
        KeptOrBroken predicate.RootKeepsText (predicate.tokens marks) tokens := by
  rw [getSQL]
  have hempty : (SQLVisitor.create texts).formalParameters = [] := rfl
  set start := SQLVisitor.create texts with hstart
  cases predicate with
  | comparator comparator queryField parameter =>
      obtain ⟨text, hlexes, hvisit⟩ := visitsAtom_comparator marks hplain .root start
      rw [hvisit]
      exact ⟨by simp [hempty, Predicate.formalParameters, Predicate.atoms], _,
        by simpa using hlexes.lex_eq, fun _ => rfl, fun h => absurd trivial h⟩
  | between queryField parameter1 parameter2 =>
      obtain ⟨text, hlexes, hvisit⟩ := visitsAtom_between marks hplain .root start
      rw [hvisit]
      exact ⟨by simp [hempty, Predicate.formalParameters, Predicate.atoms], _,
        by simpa using hlexes.lex_eq, fun _ => rfl, fun h => absurd trivial h⟩
  | unaryOperator operator queryField =>
      obtain ⟨text, hlexes, hvisit⟩ := visitsAtom_unaryOperator marks hplain .root start
      rw [hvisit]
      exact ⟨by simp [hempty, Predicate.formalParameters, Predicate.atoms], _,
        by simpa using hlexes.lex_eq, fun _ => rfl, fun h => absurd trivial h⟩
  | not predicate =>
      have hvisits := visit_spec marks (show predicate.IsPlain from hplain) start
      obtain ⟨tokens, htext, hkept⟩ := visitNot_text .root hvisits
      refine ⟨?_, tokens, htext.lex_eq, hkept⟩
      rw [visit, SQLVisitor.formalParameters_setText, hvisits.formalParameters, hempty]
      rfl
  | nary operator first rest =>
      obtain ⟨hfirst, hrest⟩ := isPlain_nary hplain
      obtain ⟨hformal, -, tokens, htext, hkept⟩ := visitNary_spec marks operator
        (.inl rfl) (visit_spec marks hfirst)
        (fun operand hoperand => visit_spec marks (hrest operand hoperand)) start
      rw [← rootKeepsText_nary operator] at hkept
      exact ⟨by rw [hformal, hempty, List.nil_append], _, htext.lexes.lex_eq, hkept⟩

end DatabaseJones.Query
