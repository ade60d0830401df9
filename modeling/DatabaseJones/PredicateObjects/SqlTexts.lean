import DatabaseJones.PredicateObjects.Trees

/-!
# Texts of predicate objects

`getSQL()` gives an object an `sql` object of its own.  From then on it leaves its text there
when it is an operand, too, and no longer in the object that it shares with others of its
kind.  The text of a tree is the same before and after, if no AND or OR of the tree loses the
text that it has begun to an operand.
-/

namespace DatabaseJones.PredicateObjects

open DatabaseJones.Query

/-- The `sql` objects that the nodes of a tree write to. -/
def Tree.sqls (hasSql : ℕ → Bool) (tree : Tree) : List SqlRef :=
  tree.subtrees.map fun subtree => subtree.sql hasSql

/-- The operands that are visited after the text of the node has been begun. -/
def Tree.later : Tree → List Tree
  | .nary _ _ _ rest => rest
  | _ => []

/-- No AND or OR of the tree loses the text that it has begun: no later operand writes to the
`sql` object that holds it. -/
def Tree.KeepsTexts (hasSql : ℕ → Bool) (tree : Tree) : Prop :=
  ∀ subtree ∈ tree.subtrees, ∀ operand ∈ subtree.later, subtree.sql hasSql ∉ operand.sqls hasSql

instance (hasSql : ℕ → Bool) (tree : Tree) : Decidable (tree.KeepsTexts hasSql) :=
  inferInstanceAs (Decidable (∀ subtree ∈ tree.subtrees, ∀ operand ∈ subtree.later, _))

variable {constants : ℕ → ℕ} {hasSql : ℕ → Bool} {tree operand head : Tree} {tail : List Tree}
  {id : ℕ} {operator : NaryOperator} {sqls sqls' : SqlObjects}

theorem Tree.sql_mem_sqls (hasSql : ℕ → Bool) (tree : Tree) : tree.sql hasSql ∈ tree.sqls hasSql :=
  List.mem_map_of_mem tree.self_mem_subtrees

theorem Tree.sqls_not : (Tree.not id operand).sqls hasSql =
    (Tree.not id operand).sql hasSql :: operand.sqls hasSql := rfl

theorem Tree.sqls_nary : (Tree.nary id operator head tail).sqls hasSql =
    (Tree.nary id operator head tail).sql hasSql ::
      (head.sqls hasSql ++ tail.flatMap (Tree.sqls hasSql)) := by
  simp only [Tree.sqls, Tree.subtrees_nary, List.map_cons, List.map_append, List.map_flatMap]
  rfl

theorem Tree.mem_sqls_rest {sql : SqlRef} (hoperand : operand ∈ tail) (hsql : sql ∈ operand.sqls hasSql) :
    sql ∈ (Tree.nary id operator head tail).sqls hasSql := by
  rw [Tree.sqls_nary]
  exact List.mem_cons_of_mem _
    (List.mem_append_right _ (List.mem_flatMap.mpr ⟨operand, hoperand, hsql⟩))

@[simp] theorem SqlObjects.sqlText_setText_self (sqls : SqlObjects) (sql : SqlRef)
    (text : List Char) : (sqls.setText sql text).sqlText sql = text :=
  Function.update_self ..

theorem SqlObjects.sqlText_setText_of_ne (sqls : SqlObjects) {sql other : SqlRef} (hne : other ≠ sql)
    (text : List Char) : (sqls.setText sql text).sqlText other = sqls.sqlText other :=
  Function.update_of_ne hne ..

@[simp] theorem SqlObjects.formalParameters_setText (sqls : SqlObjects) (sql : SqlRef)
    (text : List Char) : (sqls.setText sql text).formalParameters = sqls.formalParameters := rfl

/-! ## The objects that are not visited -/

/-- The visit of a tree leaves the other `sql` objects alone. -/
theorem sqlText_writeSql {other : SqlRef} (hother : other ∉ tree.sqls hasSql) (sqls : SqlObjects) :
    (writeSql constants hasSql tree sqls).sqlText other = sqls.sqlText other := by
  induction tree generalizing sqls with
  | comparator id comparator queryField parameter =>
      exact SqlObjects.sqlText_setText_of_ne _ (fun heq => hother (List.mem_singleton.mpr heq)) _
  | between id queryField parameter1 parameter2 =>
      exact SqlObjects.sqlText_setText_of_ne _ (fun heq => hother (List.mem_singleton.mpr heq)) _
  | unaryOperator id operator queryField =>
      exact SqlObjects.sqlText_setText_of_ne _ (fun heq => hother (List.mem_singleton.mpr heq)) _
  | not id operand ih =>
      rw [Tree.sqls_not, List.mem_cons, not_or] at hother
      exact (SqlObjects.sqlText_setText_of_ne _ hother.1 _).trans (ih hother.2 sqls)
  | nary id operator first rest ihfirst ihrest =>
      rw [Tree.sqls_nary, List.mem_cons, List.mem_append, not_or, not_or] at hother
      obtain ⟨hne, hfirst, hrest⟩ := hother
      have hloop : ∀ operands, (∀ operand ∈ operands, operand ∈ rest) → ∀ sqls,
          (writeOperands constants hasSql ((Tree.nary id operator first rest).sql hasSql) operator
            operands sqls).sqlText other = sqls.sqlText other := by
        intro operands hmem
        induction operands with
        | nil => exact fun _ => rfl
        | cons operand operands ih =>
            intro sqls
            have hoperand := hmem operand List.mem_cons_self
            have hkept := ihrest operand hoperand
              (fun hsql => hrest (List.mem_flatMap.mpr ⟨operand, hoperand, hsql⟩))
            rw [writeOperands, ih fun other hother => hmem other (List.mem_cons_of_mem _ hother)]
            exact (SqlObjects.sqlText_setText_of_ne _ hne _).trans
              ((hkept _).trans (SqlObjects.sqlText_setText_of_ne _ hne _))
      rw [writeSql, hloop rest fun _ hmem => hmem]
      exact (SqlObjects.sqlText_setText_of_ne _ hne _).trans (ihfirst hfirst sqls)

/-! ## Independence of older texts -/

/-- The `sql` objects hold the same texts, as far as `places` goes. -/
structure SqlObjects.AgreeOn (places : SqlRef → Prop) (sqls sqls' : SqlObjects) : Prop where
  formalParameters : sqls.formalParameters = sqls'.formalParameters
  sqlText : ∀ sql, places sql → sqls.sqlText sql = sqls'.sqlText sql

theorem SqlObjects.AgreeOn.setText {places : SqlRef → Prop} (h : sqls.AgreeOn places sqls')
    (sql : SqlRef) {text text' : List Char} (htext : text = text') :
    (sqls.setText sql text).AgreeOn (fun other => other = sql ∨ places other)
      (sqls'.setText sql text') := by
  refine ⟨h.formalParameters, fun other hother => ?_⟩
  by_cases heq : other = sql
  · subst heq
    rw [SqlObjects.sqlText_setText_self, SqlObjects.sqlText_setText_self, htext]
  · rw [SqlObjects.sqlText_setText_of_ne _ heq, SqlObjects.sqlText_setText_of_ne _ heq]
    exact h.sqlText other (hother.resolve_left heq)

theorem SqlObjects.AgreeOn.mono {places fewer : SqlRef → Prop} (h : sqls.AgreeOn places sqls')
    (hfewer : ∀ sql, fewer sql → places sql) : sqls.AgreeOn fewer sqls' :=
  ⟨h.formalParameters, fun sql hsql => h.sqlText sql (hfewer sql hsql)⟩

theorem SqlObjects.AgreeOn.withParameters {places : SqlRef → Prop} (h : sqls.AgreeOn places sqls')
    (formalParameters : List (Parameter Literal)) :
    SqlObjects.AgreeOn places { sqls with formalParameters } { sqls' with formalParameters } :=
  ⟨rfl, h.sqlText⟩

/-- What a visit writes does not depend on the texts that were there before. -/
theorem writeSql_agreeOn {places : SqlRef → Prop} (h : sqls.AgreeOn places sqls') :
    (writeSql constants hasSql tree sqls).AgreeOn
      (fun sql => sql ∈ tree.sqls hasSql ∨ places sql) (writeSql constants hasSql tree sqls') := by
  induction tree generalizing places sqls sqls' with
  | comparator id comparator queryField parameter =>
      simp only [writeSql, writeComparator, h.formalParameters]
      exact ((h.withParameters _).setText _ rfl).mono
        fun sql hsql => hsql.imp_left List.mem_singleton.mp
  | between id queryField parameter1 parameter2 =>
      simp only [writeSql, writeBetween, h.formalParameters]
      exact ((h.withParameters _).setText _ rfl).mono
        fun sql hsql => hsql.imp_left List.mem_singleton.mp
  | unaryOperator id operator queryField =>
      exact (h.setText _ rfl).mono fun sql hsql => hsql.imp_left List.mem_singleton.mp
  | not id operand ih =>
      have hoperand := ih h
      have htext := hoperand.sqlText _ (.inl (operand.sql_mem_sqls hasSql))
      refine (hoperand.setText ((Tree.not id operand).sql hasSql)
        (congrArg (fun text => " NOT ".toList ++ '(' :: text ++ [')']) htext)).mono
          fun sql hsql => ?_
      rw [Tree.sqls_not, List.mem_cons] at hsql
      tauto
  | nary id operator first rest ihfirst ihrest =>
      have hloop : ∀ operands, (∀ operand ∈ operands, operand ∈ rest) →
          ∀ {places : SqlRef → Prop} {sqls sqls' : SqlObjects}, sqls.AgreeOn places sqls' →
          ∀ sql, places sql →
          (writeOperands constants hasSql sql operator operands sqls).AgreeOn
            (fun other => other ∈ operands.flatMap (Tree.sqls hasSql) ∨ places other)
            (writeOperands constants hasSql sql operator operands sqls') := by
        intro operands hmem
        induction operands with
        | nil => exact fun h _ _ => h.mono fun other hother => hother.resolve_left List.not_mem_nil
        | cons operand operands ih =>
            intro places sqls sqls' h sql hsql
            have hbegun := h.setText sql (congrArg (· ++ operator.operator) (h.sqlText sql hsql))
            have hoperand := ihrest operand (hmem operand List.mem_cons_self) hbegun
            have htext := hoperand.sqlText _ (.inl (operand.sql_mem_sqls hasSql))
            have hown := hoperand.sqlText sql (.inr (.inl rfl))
            have hnext := hoperand.setText sql
              (congrArg₂ (fun before text => before ++ '(' :: text ++ [')']) hown htext)
            refine (ih (fun other hother => hmem other (List.mem_cons_of_mem _ hother)) hnext sql
              (.inl rfl)).mono fun other hother => ?_
            rw [List.flatMap_cons, List.mem_append] at hother
            tauto
      have hfirst := ihfirst h
      have htext := hfirst.sqlText _ (.inl (first.sql_mem_sqls hasSql))
      have hbegun := hfirst.setText ((Tree.nary id operator first rest).sql hasSql)
        (congrArg (fun text => [] ++ '(' :: text ++ [')']) htext)
      refine (hloop rest (fun _ hmem => hmem) hbegun _ (.inl rfl)).mono fun other hother => ?_
      rw [Tree.sqls_nary, List.mem_cons, List.mem_append] at hother
      tauto

/-! ## Dependence on the nodes -/

theorem Tree.sql_congr {hasSql' : ℕ → Bool} (h : hasSql tree.id = hasSql' tree.id) :
    tree.sql hasSql = tree.sql hasSql' := by
  unfold Tree.sql
  rw [h]

/-- What a visit writes depends on the marks and the `sql` objects of the nodes only. -/
theorem writeSql_congr {constants' : ℕ → ℕ} {hasSql' : ℕ → Bool}
    (hconstants : ∀ n ∈ tree.ids, constants n = constants' n)
    (hhasSql : ∀ n ∈ tree.ids, hasSql n = hasSql' n) (sqls : SqlObjects) :
    writeSql constants hasSql tree sqls = writeSql constants' hasSql' tree sqls := by
  have hroot := Tree.sql_congr (hhasSql _ tree.id_mem_ids)
  induction tree generalizing sqls with
  | comparator id comparator queryField parameter =>
      have hmark : constants id = constants' id := hconstants id List.mem_cons_self
      rw [writeSql, writeSql, hroot, hmark]
  | between id queryField parameter1 parameter2 =>
      have hmark : constants id = constants' id := hconstants id List.mem_cons_self
      rw [writeSql, writeSql, hroot, hmark]
  | unaryOperator id operator queryField => rw [writeSql, writeSql, hroot]
  | not id operand ih =>
      have hoperand := Tree.sql_congr (hhasSql _ (List.mem_cons_of_mem _ operand.id_mem_ids))
      rw [writeSql, writeSql, hroot, hoperand, ih (fun n hn => hconstants n (List.mem_cons_of_mem _ hn))
        (fun n hn => hhasSql n (List.mem_cons_of_mem _ hn)) _ hoperand]
  | nary id operator first rest ihfirst ihrest =>
      have hmemfirst := fun n => @Tree.mem_ids_first id operator first rest n
      have hloop : ∀ operands, (∀ operand ∈ operands, operand ∈ rest) → ∀ sql sqls,
          writeOperands constants hasSql sql operator operands sqls =
            writeOperands constants' hasSql' sql operator operands sqls := by
        intro operands hmem
        induction operands with
        | nil => exact fun _ _ => rfl
        | cons operand operands ih =>
            intro sql sqls
            have hin := fun n =>
              @Tree.mem_ids_rest id operator first rest operand (hmem operand List.mem_cons_self) n
            have hoperand := Tree.sql_congr (hhasSql _ (hin _ operand.id_mem_ids))
            have hvisit := ihrest operand (hmem operand List.mem_cons_self)
              (fun n hn => hconstants n (hin n hn)) (fun n hn => hhasSql n (hin n hn))
              (sqls.setText sql (sqls.sqlText sql ++ operator.operator)) hoperand
            rw [writeOperands, writeOperands, hvisit, hoperand]
            exact ih (fun other hother => hmem other (List.mem_cons_of_mem _ hother)) sql _
      have hfirst := Tree.sql_congr (hhasSql _ (hmemfirst _ first.id_mem_ids))
      rw [writeSql, writeSql, hroot, hfirst, hloop rest fun _ hmem => hmem,
        ihfirst (fun n hn => hconstants n (hmemfirst n hn)) (fun n hn => hhasSql n (hmemfirst n hn)) _ hfirst]

/-! ## Texts that are kept -/

theorem Tree.KeepsTexts.not (h : (Tree.not id operand).KeepsTexts hasSql) : operand.KeepsTexts hasSql :=
  fun subtree hmem => h subtree (List.mem_cons_of_mem _ hmem)

theorem Tree.KeepsTexts.first (h : (Tree.nary id operator head tail).KeepsTexts hasSql) :
    head.KeepsTexts hasSql :=
  fun subtree hmem => h subtree (Tree.mem_subtrees_first id operator head tail hmem)

theorem Tree.KeepsTexts.rest (h : (Tree.nary id operator head tail).KeepsTexts hasSql)
    (hoperand : operand ∈ tail) : operand.KeepsTexts hasSql :=
  fun subtree hmem => h subtree (Tree.mem_subtrees_rest id operator head hoperand hmem)

/-- Where no text is lost, it does not matter which objects hold the texts. -/
theorem writeSql_of_keepsTexts {hasSql' : ℕ → Bool} (hkeeps : tree.KeepsTexts hasSql)
    (hkeeps' : tree.KeepsTexts hasSql') (hparameters : sqls.formalParameters = sqls'.formalParameters) :
    (writeSql constants hasSql tree sqls).sqlText (tree.sql hasSql) =
        (writeSql constants hasSql' tree sqls').sqlText (tree.sql hasSql') ∧
      (writeSql constants hasSql tree sqls).formalParameters =
        (writeSql constants hasSql' tree sqls').formalParameters := by
  induction tree generalizing sqls sqls' with
  | comparator id comparator queryField parameter =>
      simp only [writeSql, writeComparator, hparameters, SqlObjects.sqlText_setText_self,
        SqlObjects.formalParameters_setText, and_self]
  | between id queryField parameter1 parameter2 =>
      simp only [writeSql, writeBetween, hparameters, SqlObjects.sqlText_setText_self,
        SqlObjects.formalParameters_setText, and_self]
  | unaryOperator id operator queryField =>
      simp only [writeSql, writeUnaryOperator, hparameters, SqlObjects.sqlText_setText_self,
        SqlObjects.formalParameters_setText, and_self]
  | not id operand ih =>
      obtain ⟨htext, hafter⟩ := ih hkeeps.not hkeeps'.not hparameters
      simp only [writeSql, SqlObjects.enclose, SqlObjects.sqlText_setText_self,
        SqlObjects.formalParameters_setText, htext, hafter, and_self]
  | nary id operator first rest ihfirst ihrest =>
      have hroot := hkeeps _ (Tree.self_mem_subtrees _)
      have hroot' := hkeeps' _ (Tree.self_mem_subtrees _)
      rw [writeSql, writeSql]
      generalize (Tree.nary id operator first rest).sql hasSql = sql at hroot ⊢
      generalize (Tree.nary id operator first rest).sql hasSql' = sql' at hroot' ⊢
      have hloop : ∀ operands, (∀ operand ∈ operands, operand ∈ rest) →
          ∀ {sqls sqls' : SqlObjects}, sqls.sqlText sql = sqls'.sqlText sql' →
          sqls.formalParameters = sqls'.formalParameters →
          (writeOperands constants hasSql sql operator operands sqls).sqlText sql =
              (writeOperands constants hasSql' sql' operator operands sqls').sqlText sql' ∧
            (writeOperands constants hasSql sql operator operands sqls).formalParameters =
              (writeOperands constants hasSql' sql' operator operands sqls').formalParameters := by
        intro operands hmem
        induction operands with
        | nil => exact fun htext hparameters => ⟨htext, hparameters⟩
        | cons operand operands ih =>
            intro sqls sqls' htext hparameters
            have hoperand := hmem operand List.mem_cons_self
            -- the text so far is kept while the operand is visited
            have hown := @sqlText_writeSql constants _ _ _ (hroot operand hoperand)
            have hown' := @sqlText_writeSql constants _ _ _ (hroot' operand hoperand)
            have hbegun : (sqls.setText sql (sqls.sqlText sql ++ operator.operator)).formalParameters =
                (sqls'.setText sql' (sqls'.sqlText sql' ++ operator.operator)).formalParameters :=
              hparameters
            obtain ⟨hinner, hafter⟩ :=
              ihrest operand hoperand (hkeeps.rest hoperand) (hkeeps'.rest hoperand) hbegun
            rw [writeOperands, writeOperands]
            apply ih fun other hother => hmem other (List.mem_cons_of_mem _ hother)
            · simp only [SqlObjects.enclose, SqlObjects.sqlText_setText_self]
              rw [hinner, hown, hown', SqlObjects.sqlText_setText_self, SqlObjects.sqlText_setText_self,
                htext]
            · exact hafter
      obtain ⟨htext, hafter⟩ := ihfirst hkeeps.first hkeeps'.first hparameters
      apply hloop rest fun _ hmem => hmem
      · simp only [SqlObjects.enclose, SqlObjects.sqlText_setText_self, htext]
      · exact hafter

/-- A text that is kept is still kept when one more node has an `sql` object of its own. -/
theorem Tree.KeepsTexts.update {objects : List PredicateObject} (hordered : Ordered objects)
    (hdenotes : Denotes objects tree) (hkeeps : tree.KeepsTexts hasSql) (q : ℕ) :
    tree.KeepsTexts (Function.update hasSql q true) := by
  intro subtree hsubtree operand hoperand hmem
  have hbelow := hdenotes.of_mem hsubtree
  obtain ⟨node, hnode, heq⟩ := List.mem_map.mp hmem
  have hne : node.id ≠ subtree.id := by
    cases subtree with
    | nary id operator first rest =>
        have hlt := (hbelow.operand_lt hordered).2 operand hoperand
        have hle := (hbelow.rest hoperand).ids_le hordered node.id (List.mem_map_of_mem hnode)
        exact (hle.trans_lt hlt).ne
    | comparator | between | unaryOperator | not => exact absurd hoperand List.not_mem_nil
  have hbefore : node.sql hasSql ≠ subtree.sql hasSql :=
    fun heq => hkeeps subtree hsubtree operand hoperand (heq ▸ List.mem_map_of_mem hnode)
  unfold Tree.sql at heq hbefore
  rw [Function.update_apply, Function.update_apply] at heq
  split_ifs at heq hbefore <;> simp_all

/-! ## The generated SQL -/

theorem sql_update_self (hasSql : ℕ → Bool) (tree : Tree) :
    tree.sql (Function.update hasSql tree.id true) = .own tree.id := by
  rw [Tree.sql, Function.update_self, if_pos rfl]

/-- The generated SQL depends on the marks, and on the `sql` objects below the root, only. -/
theorem generateSql_congr {constants' : ℕ → ℕ} {hasSql' : ℕ → Bool} {sqlText sqlText' : SqlRef → List Char}
    (hconstants : ∀ n ∈ tree.ids, constants n = constants' n)
    (hhasSql : ∀ n ∈ tree.ids, n ≠ tree.id → hasSql n = hasSql' n) :
    (generateSql constants hasSql tree sqlText).sqlText (.own tree.id) =
        (generateSql constants' hasSql' tree sqlText').sqlText (.own tree.id) ∧
      (generateSql constants hasSql tree sqlText).formalParameters =
        (generateSql constants' hasSql' tree sqlText').formalParameters := by
  have hagree : ∀ n ∈ tree.ids, Function.update hasSql tree.id true n =
      Function.update hasSql' tree.id true n := by
    intro n hn
    by_cases hne : n = tree.id
    · rw [hne, Function.update_self, Function.update_self]
    · rw [Function.update_of_ne hne, Function.update_of_ne hne, hhasSql n hn hne]
  have hstart : SqlObjects.AgreeOn (fun _ => False)
      { sqlText := Function.update sqlText (.own tree.id) "initialized".toList, formalParameters := [] }
      { sqlText := Function.update sqlText' (.own tree.id) "initialized".toList, formalParameters := [] } :=
    ⟨rfl, nofun⟩
  have hvisit := @writeSql_agreeOn constants' (Function.update hasSql' tree.id true) tree _ _ _ hstart
  unfold generateSql
  rw [writeSql_congr hconstants hagree]
  refine ⟨hvisit.sqlText _ (.inl ?_), hvisit.formalParameters⟩
  rw [← sql_update_self hasSql' tree]
  exact tree.sql_mem_sqls _

/-- Where no text is lost, the generated SQL does not depend on the `sql` objects. -/
theorem generateSql_of_keepsTexts {hasSql' : ℕ → Bool} {sqlText sqlText' : SqlRef → List Char}
    (hkeeps : tree.KeepsTexts (Function.update hasSql tree.id true))
    (hkeeps' : tree.KeepsTexts (Function.update hasSql' tree.id true)) :
    (generateSql constants hasSql tree sqlText).sqlText (.own tree.id) =
        (generateSql constants hasSql' tree sqlText').sqlText (.own tree.id) ∧
      (generateSql constants hasSql tree sqlText).formalParameters =
        (generateSql constants hasSql' tree sqlText').formalParameters := by
  have hroot := sql_update_self hasSql tree
  have hroot' := sql_update_self hasSql' tree
  have hstart : ({ sqlText := Function.update sqlText (.own tree.id) "initialized".toList
                   formalParameters := [] } : SqlObjects).formalParameters =
      ({ sqlText := Function.update sqlText' (.own tree.id) "initialized".toList
         formalParameters := [] } : SqlObjects).formalParameters := rfl
  obtain ⟨htext, hparameters⟩ := @writeSql_of_keepsTexts constants _ _ _ _ _ hkeeps hkeeps' hstart
  rw [hroot, hroot'] at htext
  exact ⟨htext, hparameters⟩

end DatabaseJones.PredicateObjects

/-!
## Notes for scan filters

Preparing a filter overwrites the notes of all nodes of its tree.  What it writes depends on
the tree and its marks, and not on the notes that were there before.
-/

namespace DatabaseJones.PredicateObjects

open DatabaseJones.Query

variable {constants : ℕ → ℕ} {columnSpace : ℕ → ℕ} {tree : Tree} {layout layout' : Layout} {base : Notes}

theorem Layout.notes_markNode (layout : Layout) (id size : ℕ) (sources : List Source) (n : ℕ) :
    (layout.markNode id size sources).notes n = if n = id then some sources else layout.notes n :=
  Function.update_apply ..

/-- One layout is the other one over older notes. -/
structure Layout.Over (base : Notes) (layout layout' : Layout) : Prop where
  size : layout.size = layout'.size
  notes : ∀ n, layout.notes n = (layout'.notes n).or (base n)

theorem Layout.Over.markNode (h : layout.Over base layout') (id size : ℕ) (sources : List Source) :
    (layout.markNode id size sources).Over base (layout'.markNode id size sources) := by
  refine ⟨rfl, fun n => ?_⟩
  rw [Layout.notes_markNode, Layout.notes_markNode]
  split
  · rfl
  · exact h.notes n

/-- The older notes stay below what is written. -/
theorem layOut_over (h : layout.Over base layout') :
    (layOut constants columnSpace tree layout).Over base (layOut constants columnSpace tree layout') := by
  induction tree generalizing layout layout' with
  | comparator id comparator queryField parameter =>
      simp only [layOut, h.size]
      exact h.markNode ..
  | between id queryField parameter1 parameter2 =>
      simp only [layOut, h.size]
      exact h.markNode ..
  | unaryOperator id operator queryField =>
      simp only [layOut, h.size]
      exact h.markNode ..
  | not id operand ih =>
      simp only [layOut, h.size]
      exact ih (h.markNode ..)
  | nary id operator first rest ihfirst ihrest =>
      have hloop : ∀ operands, (∀ operand ∈ operands, operand ∈ rest) → ∀ {layout layout' : Layout},
          layout.Over base layout' → (layOutOperands constants columnSpace operands layout).Over base
            (layOutOperands constants columnSpace operands layout') := by
        intro operands hmem
        induction operands with
        | nil => exact fun h => h
        | cons operand operands ih =>
            intro layout layout' h
            apply ih fun other hother => hmem other (List.mem_cons_of_mem _ hother)
            exact ihrest operand (hmem operand List.mem_cons_self) h
      simp only [layOut, h.size]
      apply hloop rest fun _ hmem => hmem
      exact ihfirst (h.markNode ..)

/-- What is written for a tree, over older notes. -/
theorem notes_layOut (constants columnSpace : ℕ → ℕ) (tree : Tree) (base : Notes) (n : ℕ) :
    (layOut constants columnSpace tree { size := 0, notes := base }).notes n =
      (notesOf constants columnSpace tree n).or (base n) := by
  have hstart : Layout.Over base { size := 0, notes := base } { size := 0, notes := fun _ => none } :=
    ⟨rfl, fun _ => rfl⟩
  exact (layOut_over hstart).notes n

/-- The layout depends on the marks of the nodes only. -/
theorem layOut_congr {constants' : ℕ → ℕ} (h : ∀ n ∈ tree.ids, constants n = constants' n)
    (layout : Layout) :
    layOut constants columnSpace tree layout = layOut constants' columnSpace tree layout := by
  induction tree generalizing layout with
  | comparator id comparator queryField parameter =>
      have hmark : constants id = constants' id := h id List.mem_cons_self
      rw [layOut, layOut, hmark]
  | between id queryField parameter1 parameter2 =>
      have hmark : constants id = constants' id := h id List.mem_cons_self
      rw [layOut, layOut, hmark]
  | unaryOperator id operator queryField => rfl
  | not id operand ih =>
      rw [layOut, layOut]
      exact ih (fun n hn => h n (List.mem_cons_of_mem _ hn)) _
  | nary id operator first rest ihfirst ihrest =>
      have hloop : ∀ operands, (∀ operand ∈ operands, operand ∈ rest) → ∀ layout,
          layOutOperands constants columnSpace operands layout =
            layOutOperands constants' columnSpace operands layout := by
        intro operands hmem
        induction operands with
        | nil => exact fun _ => rfl
        | cons operand operands ih =>
            intro layout
            have hin := fun n =>
              @Tree.mem_ids_rest id operator first rest operand (hmem operand List.mem_cons_self) n
            rw [layOutOperands, layOutOperands,
              ihrest operand (hmem operand List.mem_cons_self) fun n hn => h n (hin n hn)]
            exact ih (fun other hother => hmem other (List.mem_cons_of_mem _ hother)) _
      rw [layOut, layOut, ihfirst fun n hn => h n (Tree.mem_ids_first id operator first rest hn)]
      exact hloop rest (fun _ hmem => hmem) _

theorem notesOf_congr {constants' : ℕ → ℕ} (h : ∀ n ∈ tree.ids, constants n = constants' n) :
    notesOf constants columnSpace tree = notesOf constants' columnSpace tree := by
  unfold notesOf
  rw [layOut_congr h]

/-- The nodes of the tree get notes; other notes stay. -/
theorem isSome_layOut (constants columnSpace : ℕ → ℕ) (tree : Tree) (layout : Layout) (n : ℕ) :
    ((layOut constants columnSpace tree layout).notes n).isSome ↔
      n ∈ tree.ids ∨ (layout.notes n).isSome := by
  have hmark : ∀ (layout : Layout) (id size : ℕ) (sources : List Source),
      ((layout.markNode id size sources).notes n).isSome ↔ n = id ∨ (layout.notes n).isSome := by
    intro layout id size sources
    rw [Layout.notes_markNode]
    by_cases hn : n = id
    · simp [hn]
    · simp [hn]
  induction tree generalizing layout with
  | comparator id comparator queryField parameter =>
      rw [Tree.ids_comparator, List.mem_singleton]
      exact hmark ..
  | between id queryField parameter1 parameter2 =>
      rw [Tree.ids_between, List.mem_singleton]
      exact hmark ..
  | unaryOperator id operator queryField =>
      rw [Tree.ids_unaryOperator, List.mem_singleton]
      exact hmark ..
  | not id operand ih =>
      refine (ih _).trans ?_
      rw [hmark, Tree.ids_not, List.mem_cons]
      tauto
  | nary id operator first rest ihfirst ihrest =>
      have hloop : ∀ operands, (∀ operand ∈ operands, operand ∈ rest) → ∀ layout : Layout,
          ((layOutOperands constants columnSpace operands layout).notes n).isSome ↔
            n ∈ idsOf operands ∨ (layout.notes n).isSome := by
        intro operands hmem
        induction operands with
        | nil => exact fun layout => by simp [layOutOperands]
        | cons operand operands ih =>
            intro layout
            have hoperand := ihrest operand (hmem operand List.mem_cons_self) layout
            refine (ih (fun other hother => hmem other (List.mem_cons_of_mem _ hother)) _).trans ?_
            rw [idsOf_cons, List.mem_append]
            tauto
      have hfirst := ihfirst (layout.markNode id layout.size [])
      have hown := hmark layout id layout.size []
      refine (hloop rest (fun _ hmem => hmem) _).trans ?_
      rw [Tree.ids_nary, List.mem_cons, List.mem_append]
      tauto

/-- The notes for one filter are those of the nodes of its tree. -/
theorem isSome_notesOf (constants columnSpace : ℕ → ℕ) (tree : Tree) (n : ℕ) :
    (notesOf constants columnSpace tree n).isSome ↔ n ∈ tree.ids := by
  unfold notesOf
  rw [isSome_layOut]
  simp

/-- A node of the tree gets the note for this filter. -/
theorem notes_layOut_of_mem (constants columnSpace : ℕ → ℕ) (base : Notes) {n : ℕ} (hn : n ∈ tree.ids) :
    (layOut constants columnSpace tree { size := 0, notes := base }).notes n =
      notesOf constants columnSpace tree n := by
  obtain ⟨note, hnote⟩ := Option.isSome_iff_exists.mp
    ((isSome_notesOf constants columnSpace tree n).mpr hn)
  rw [notes_layOut, hnote, Option.some_or]

/-- Another node keeps its note. -/
theorem notes_layOut_of_notMem (constants columnSpace : ℕ → ℕ) (base : Notes) {n : ℕ}
    (hn : n ∉ tree.ids) :
    (layOut constants columnSpace tree { size := 0, notes := base }).notes n = base n := by
  have hnone : notesOf constants columnSpace tree n = none := by
    rw [← Option.not_isSome_iff_eq_none, isSome_notesOf]
    exact hn
  rw [notes_layOut, hnone, Option.none_or]

end DatabaseJones.PredicateObjects
