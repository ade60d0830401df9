import DatabaseJones.PredicateObjects.Marks
import DatabaseJones.PredicateObjects.SqlTexts
import DatabaseJones.Library.Run

/-!
# Predicates as values

A predicate that was built keeps its meaning, its marks and its SQL, and a filter that was
prepared keeps reading its parameters where they are, in every run that avoids four things:
`and()` of an AND and `or()` of an OR, which change the receiver; a BETWEEN from a parameter to
a literal; `getSQL()` of an operand of a predicate whose text gets lost; and a filter that puts
the parameters of a shared node in another place.
-/

namespace DatabaseJones.PredicateObjects

open DatabaseJones.Query DatabaseJones.TableHandler DatabaseJones.Library

/-! ## What is expected -/

/-- The truth value of a predicate object. -/
def Objects.meaning (state : Objects) {V : Type}
    (interpretation : Interpretation QueryField (Parameter Literal) V) (predicate : ℕ) :
    Option (Option Bool) :=
  (treeOf state.objects predicate).map fun tree => tree.predicate.eval interpretation

/-- What `getSQL()` returns. -/
def Objects.getSQL (state : Objects) (predicate : ℕ) : Option Sql :=
  (treeOf state.objects predicate).map fun tree =>
    let sqls := generateSql state.constants state.hasSql tree state.sqlText
    { sqlText := sqls.sqlText (.own tree.id), formalParameters := sqls.formalParameters }

/-- What `FilterBuildingVisitor` finds in the notes of the nodes. -/
def Objects.filterSources (state : Objects) (filterSpec : FilterSpec) :
    Option (List (Option (List Source))) :=
  (treeOf state.objects filterSpec.predicate).map fun tree => tree.ids.map state.notes

/-- A predicate object is as it was.  Marks and SQL are those of a predicate that `where()`
has been called with, directly or as a part of another one. -/
structure Unchanged (state state' : Objects) (predicate : ℕ) : Prop where
  meaning : ∀ {V : Type} (interpretation : Interpretation QueryField (Parameter Literal) V),
    state'.meaning interpretation predicate = state.meaning interpretation predicate
  marks : (state.masks predicate).isSome →
    state'.masks predicate = state.masks predicate ∧
      state'.constants predicate = state.constants predicate
  getSQL : (state.masks predicate).isSome → state'.getSQL predicate = state.getSQL predicate

/-- All predicates that were built, and all filters that were prepared, are as they were. -/
structure ValuesKept (state state' : Objects) : Prop where
  predicates : ∀ predicate < state.objects.length, Unchanged state state' predicate
  filterSpecs : ∀ filterSpec ∈ state.filterSpecs, filterSpec ∈ state'.filterSpecs ∧
    state'.filterSources filterSpec = state.filterSources filterSpec

/-- The marking visitors give the same marks when they are applied twice. -/
def Objects.MarksOnce (state : Objects) : Prop :=
  ∀ predicate, (step state (.where predicate)).bind (fun marked => step marked (.where predicate)) =
    step state (.where predicate)

/-- The text of a marked predicate is kept, if the operand is a part of it. -/
def Objects.KeepsTextAbove (state : Objects) (operand predicate : ℕ) : Prop :=
  predicate ≠ operand ∧ (state.masks predicate).isSome → ∀ tree ∈ treeOf state.objects predicate,
    operand ∈ tree.ids → tree.KeepsTexts (Function.update state.hasSql predicate true)

instance (state : Objects) (operand predicate : ℕ) : Decidable (state.KeepsTextAbove operand predicate) :=
  inferInstanceAs (Decidable (_ → ∀ tree ∈ treeOf state.objects predicate, _ → Tree.KeepsTexts _ tree))

/-- The nodes that the filters for two predicates share have the same place in both. -/
def Objects.SamePlaces (state : Objects) (filterSpec other : FilterSpec) : Prop :=
  ∀ tree ∈ treeOf state.objects filterSpec.predicate, ∀ tree' ∈ treeOf state.objects other.predicate,
    ∀ n ∈ tree.ids, n ∈ tree'.ids → notesOf state.constants filterSpec.columnSpace tree n =
      notesOf state.constants other.columnSpace tree' n

instance (state : Objects) (filterSpec other : FilterSpec) :
    Decidable (state.SamePlaces filterSpec other) :=
  inferInstanceAs (Decidable (∀ tree ∈ treeOf state.objects filterSpec.predicate,
    ∀ tree' ∈ treeOf state.objects other.predicate, ∀ n ∈ tree.ids, n ∈ tree'.ids → _ = _))

/-- The operations that leave the predicates that were built alone. -/
def Allowed (state : Objects) : Operation → Prop
  | .between queryField parameter1 parameter2 =>
      (PredicateObject.between queryField parameter1 parameter2).countsTwice = false
  | .combine operator receiver _ => (state.objects[receiver]?).any (·.isNary operator) = false
  | .getSQL operand => ∀ predicate < state.objects.length, state.KeepsTextAbove operand predicate
  | .prepareFilterSpec predicate columnSpace =>
      ∀ filterSpec ∈ state.filterSpecs, state.SamePlaces { predicate, columnSpace } filterSpec
  | _ => True

instance (state : Objects) : ∀ operation, Decidable (Allowed state operation)
  | .comparator .. => inferInstanceAs (Decidable True)
  | .between .. => inferInstanceAs (Decidable (_ = _))
  | .unaryOperator .. => inferInstanceAs (Decidable True)
  | .combine .. => inferInstanceAs (Decidable (_ = _))
  | .combineNot .. => inferInstanceAs (Decidable True)
  | .not _ => inferInstanceAs (Decidable True)
  | .where _ => inferInstanceAs (Decidable True)
  | .getSQL operand => inferInstanceAs
      (Decidable (∀ predicate < state.objects.length, state.KeepsTextAbove operand predicate))
  | .prepareFilterSpec predicate columnSpace => inferInstanceAs (Decidable
      (∀ filterSpec ∈ state.filterSpecs, state.SamePlaces { predicate, columnSpace } filterSpec))

/-! ## The invariant -/

/-- The marks of an object: none yet, or those of its predicate, with marks in all nodes. -/
def Marked (state : Objects) (tree : Tree) : Prop :=
  (state.masks tree.id = none ∧ state.constants tree.id = tree.object.constants) ∨
    (state.masks tree.id = some tree.predicate.masks ∧
      state.constants tree.id = constantsOf tree.predicate ∧
      ∀ n ∈ tree.ids, (state.masks n).isSome)

/-- What holds in all states that allowed operations lead to. -/
structure Kept (state : Objects) : Prop where
  ordered : Ordered state.objects
  once : ∀ (id : ℕ) (object : PredicateObject), state.objects[id]? = some object →
    object.countsTwice = false
  marked : ∀ tree, Denotes state.objects tree → Marked state tree
  notes : ∀ filterSpec ∈ state.filterSpecs, (state.masks filterSpec.predicate).isSome ∧
    ∃ tree, treeOf state.objects filterSpec.predicate = some tree ∧ ∀ n ∈ tree.ids,
      state.notes n = notesOf state.constants filterSpec.columnSpace tree n

theorem kept_empty : Kept .empty :=
  ⟨nofun, nofun, fun _ hdenotes => absurd hdenotes.root nofun, nofun⟩

variable {state state' : Objects} {tree : Tree} {id : ℕ}

/-- The marks of an object that has been marked. -/
theorem Kept.marks (h : Kept state) (hdenotes : Denotes state.objects tree)
    (hmasks : (state.masks tree.id).isSome) :
    state.masks tree.id = some tree.predicate.masks ∧
      state.constants tree.id = constantsOf tree.predicate ∧
      ∀ n ∈ tree.ids, (state.masks n).isSome := by
  rcases h.marked tree hdenotes with ⟨hnone, -⟩ | hmarked
  · rw [hnone] at hmasks
    cases hmasks
  · exact hmarked

/-- All constants in a tree that has been marked. -/
theorem Kept.constants_eq (h : Kept state) (hdenotes : Denotes state.objects tree)
    (hmasks : (state.masks tree.id).isSome) :
    ∀ subtree ∈ tree.subtrees, state.constants subtree.id = constantsOf subtree.predicate := by
  intro subtree hsubtree
  have hinner := (h.marks hdenotes hmasks).2.2 subtree.id (List.mem_map_of_mem hsubtree)
  exact (h.marks (hdenotes.of_mem hsubtree) hinner).2.1

/-- A state has the objects of another one, and more; marks are not taken away. -/
structure Extends (state state' : Objects) : Prop where
  objects : state.objects <+: state'.objects
  masks : ∀ id < state.objects.length, (state.masks id).isSome → (state'.masks id).isSome
  filterSpecs : state.filterSpecs ⊆ state'.filterSpecs

theorem Extends.denotes (h : Extends state state') (hdenotes : Denotes state.objects tree) :
    Denotes state'.objects tree := by
  obtain ⟨more, hmore⟩ := h.objects
  rw [← hmore]
  exact hdenotes.mono

theorem Extends.treeOf (h : Extends state state') (hkept' : Kept state')
    (htree : treeOf state.objects id = some tree) : PredicateObjects.treeOf state'.objects id = some tree := by
  obtain ⟨rfl, hdenotes⟩ := denotes_of_treeOf htree
  exact (h.denotes hdenotes).treeOf hkept'.ordered

theorem Denotes.id_lt (h : Denotes state.objects tree) : tree.id < state.objects.length :=
  (List.getElem?_eq_some_iff.mp h.root).1

/-- The constants of a tree that has been marked stay. -/
theorem Extends.constants_eq (h : Extends state state') (hkept : Kept state) (hkept' : Kept state')
    (hdenotes : Denotes state.objects tree) (hmasks : (state.masks tree.id).isSome) :
    ∀ n ∈ tree.ids, state'.constants n = state.constants n := by
  intro n hn
  obtain ⟨subtree, hsubtree, rfl⟩ := List.mem_map.mp hn
  rw [hkept.constants_eq hdenotes hmasks subtree hsubtree,
    hkept'.constants_eq (h.denotes hdenotes) (h.masks _ hdenotes.id_lt hmasks) subtree hsubtree]

/-- In states that keep the invariant, only the SQL can change. -/
theorem valuesKept_of_extends (hkept : Kept state) (hkept' : Kept state')
    (hextends : Extends state state')
    (hgetSQL : ∀ tree, Denotes state.objects tree → (state.masks tree.id).isSome →
      state'.getSQL tree.id = state.getSQL tree.id) : ValuesKept state state' := by
  refine ⟨fun predicate hpredicate => ?_, fun filterSpec hmem => ?_⟩
  · obtain ⟨tree, htree⟩ := exists_treeOf hkept.ordered hpredicate
    have htree' := hextends.treeOf hkept' htree
    obtain ⟨rfl, hdenotes⟩ := denotes_of_treeOf htree
    refine ⟨fun interpretation => ?_, fun hmasks => ?_, hgetSQL tree hdenotes⟩
    · rw [Objects.meaning, Objects.meaning, htree, htree']
    · have hmasks' := hextends.masks _ hpredicate hmasks
      obtain ⟨hmask, hconstants, -⟩ := hkept.marks hdenotes hmasks
      obtain ⟨hmask', hconstants', -⟩ := hkept'.marks (hextends.denotes hdenotes) hmasks'
      exact ⟨hmask'.trans hmask.symm, hconstants'.trans hconstants.symm⟩
  · have hmem' := hextends.filterSpecs hmem
    obtain ⟨hmasks, tree, htree, hnotes⟩ := hkept.notes filterSpec hmem
    obtain ⟨hmasks', tree', htree', hnotes'⟩ := hkept'.notes filterSpec hmem'
    have hsame := hextends.treeOf hkept' htree
    obtain rfl : tree = tree' := Option.some.inj (hsame.symm.trans htree')
    obtain ⟨hid, hdenotes⟩ := denotes_of_treeOf htree
    have hconstants := hextends.constants_eq hkept hkept' hdenotes (hid ▸ hmasks)
    refine ⟨hmem', ?_⟩
    rw [Objects.filterSources, Objects.filterSources, htree, htree', Option.map_some, Option.map_some,
      List.map_congr_left fun n hn => ?_]
    rw [hnotes n hn, hnotes' n hn, notesOf_congr hconstants]

/-- The SQL of a tree that has been marked changes only with the `sql` objects below it. -/
theorem getSQL_congr (hkept : Kept state) (hkept' : Kept state') (hextends : Extends state state')
    (hdenotes : Denotes state.objects tree) (hmasks : (state.masks tree.id).isSome)
    (hhasSql : ∀ n ∈ tree.ids, n ≠ tree.id → state'.hasSql n = state.hasSql n) :
    state'.getSQL tree.id = state.getSQL tree.id := by
  have htree := hdenotes.treeOf hkept.ordered
  have htree' := hextends.treeOf hkept' htree
  have hconstants := hextends.constants_eq hkept hkept' hdenotes hmasks
  obtain ⟨htext, hparameters⟩ := @generateSql_congr state'.constants state'.hasSql tree
    state.constants state.hasSql state'.sqlText state.sqlText hconstants hhasSql
  rw [Objects.getSQL, Objects.getSQL, htree, htree', Option.map_some, Option.map_some]
  simp only [htext, hparameters]

/-! ## Making objects -/

variable {object : PredicateObject}

theorem extends_create (state : Objects) (object : PredicateObject) :
    Extends state (state.create object) := by
  refine ⟨List.prefix_append _ _, fun id hid hmasks => ?_, fun _ hmem => hmem⟩
  change (Function.update state.masks state.objects.length none id).isSome
  rw [Function.update_of_ne hid.ne]
  exact hmasks

/-- A tree whose root is older than the last object is a tree of the older objects. -/
theorem Denotes.of_append {objects : List PredicateObject} (hordered : Ordered (objects ++ [object]))
    (h : Denotes (objects ++ [object]) tree) (hid : tree.id < objects.length) : Denotes objects tree := by
  intro subtree hsubtree
  have hle := h.ids_le hordered subtree.id (List.mem_map_of_mem hsubtree)
  rw [← h subtree hsubtree, List.getElem?_append_left (hle.trans_lt hid)]

theorem Denotes.ids_lt (h : Denotes state.objects tree) (hkept : Kept state) :
    ∀ n ∈ tree.ids, n < state.objects.length :=
  fun n hn => (h.ids_le hkept.ordered n hn).trans_lt h.id_lt

theorem Kept.create (hkept : Kept state) (honce : object.countsTwice = false)
    (hoperands : ∀ operand ∈ object.predicates, operand < state.objects.length) :
    Kept (state.create object) := by
  have hordered : Ordered (state.create object).objects := hkept.ordered.append hoperands
  have hextends := extends_create state object
  refine ⟨hordered, fun id found hfound => ?_, fun tree hdenotes => ?_, fun filterSpec hmem => ?_⟩
  · change (state.objects ++ [object])[id]? = some found at hfound
    rw [List.getElem?_append] at hfound
    split at hfound
    · exact hkept.once id found hfound
    · have hmem := List.mem_of_getElem? hfound
      exact List.mem_singleton.mp hmem ▸ honce
  · have hlength : (state.create object).objects.length = state.objects.length + 1 :=
      List.length_append
    have hid : tree.id < state.objects.length + 1 := hlength ▸ hdenotes.id_lt
    rcases Nat.lt_succ_iff_lt_or_eq.mp hid with hlt | heq
    · have hold := Denotes.of_append hordered hdenotes hlt
      have hmasks : (state.create object).masks tree.id = state.masks tree.id :=
        Function.update_of_ne hlt.ne ..
      have hconstants : (state.create object).constants tree.id = state.constants tree.id :=
        Function.update_of_ne hlt.ne ..
      unfold Marked
      rw [hmasks, hconstants]
      refine (hkept.marked tree hold).imp_right fun ⟨hmask, hconstant, hall⟩ =>
        ⟨hmask, hconstant, fun n hn => ?_⟩
      exact hextends.masks n (hold.ids_lt hkept n hn) (hall n hn)
    · have hroot : (state.objects ++ [object])[tree.id]? = some tree.object := hdenotes.root
      rw [heq, List.getElem?_concat_length] at hroot
      left
      rw [heq]
      refine ⟨Function.update_self .., ?_⟩
      rw [← Option.some.inj hroot]
      exact Function.update_self ..
  · obtain ⟨hmasks, tree, htree, hnotes⟩ := hkept.notes filterSpec hmem
    obtain ⟨hid, hdenotes⟩ := denotes_of_treeOf htree
    refine ⟨hextends.masks _ (hid ▸ hdenotes.id_lt) hmasks, tree, treeOf_append hordered htree,
      fun n hn => ?_⟩
    have hlt := hdenotes.ids_lt hkept
    have hconstants : ∀ n ∈ tree.ids, (state.create object).constants n = state.constants n :=
      fun n hn => Function.update_of_ne (hlt n hn).ne ..
    rw [notesOf_congr hconstants, ← hnotes n hn]
    exact Function.update_of_ne (hlt n hn).ne ..

theorem valuesKept_create (hkept : Kept state) (hkept' : Kept (state.create object)) :
    ValuesKept state (state.create object) := by
  have hextends := extends_create state object
  apply valuesKept_of_extends hkept hkept' hextends
  intro tree hdenotes hmasks
  apply getSQL_congr hkept hkept' hextends hdenotes hmasks
  exact fun n hn _ => Function.update_of_ne (hdenotes.ids_lt hkept n hn).ne ..

/-! ## Marking -/

/-- The constants that a mark of each object would be. -/
def Objects.constantsIn (state : Objects) (id : ℕ) : ℕ :=
  ((treeOf state.objects id).map fun tree => constantsOf tree.predicate).getD 0

/-- The masks that a mark of each object would be. -/
def Objects.masksIn (state : Objects) (id : ℕ) : Option PredicateMasks :=
  (treeOf state.objects id).map fun tree => tree.predicate.masks

theorem constantsIn_eq (hkept : Kept state) (hdenotes : Denotes state.objects tree) :
    state.constantsIn tree.id = constantsOf tree.predicate := by
  rw [Objects.constantsIn, hdenotes.treeOf hkept.ordered]
  rfl

theorem masksIn_eq (hkept : Kept state) (hdenotes : Denotes state.objects tree) :
    state.masksIn tree.id = some tree.predicate.masks := by
  rw [Objects.masksIn, hdenotes.treeOf hkept.ordered]
  rfl

theorem Kept.markable (hkept : Kept state) (hdenotes : Denotes state.objects tree) :
    Markable state.constantsIn state.constants tree := by
  refine ⟨fun subtree hmem => constantsIn_eq hkept (hdenotes.of_mem hmem), fun subtree hmem => ?_,
    fun subtree hmem => hkept.once _ _ (hdenotes subtree hmem)⟩
  have hsubtree := hdenotes.of_mem hmem
  rw [constantsIn_eq hkept hsubtree]
  exact (hkept.marked subtree hsubtree).imp (·.2) (·.2.1)

theorem Kept.writesConstants (hkept : Kept state) (hdenotes : Denotes state.objects tree) :
    Writes state.constantsIn tree.ids state.constants (state.mark tree).constants :=
  writes_markConstants hkept.ordered hdenotes (hkept.markable hdenotes)

theorem Kept.writesMasks (hkept : Kept state) (hdenotes : Denotes state.objects tree) :
    Writes state.masksIn tree.ids state.masks (state.mark tree).masks :=
  writes_markMasks hkept.ordered hdenotes
    (fun _ hmem => masksIn_eq hkept (hdenotes.of_mem hmem)) state.masks

theorem isSome_masks_mark (hkept : Kept state) (hdenotes : Denotes state.objects tree) {n : ℕ}
    (hn : n ∈ tree.ids ∨ (state.masks n).isSome) : ((state.mark tree).masks n).isSome := by
  have hwrites := hkept.writesMasks hdenotes
  by_cases hmem : n ∈ tree.ids
  · obtain ⟨subtree, hsubtree, rfl⟩ := List.mem_map.mp hmem
    rw [hwrites.written _ hmem, masksIn_eq hkept (hdenotes.of_mem hsubtree)]
    rfl
  · rw [hwrites.kept n hmem]
    exact hn.resolve_left hmem

theorem extends_mark (hkept : Kept state) (hdenotes : Denotes state.objects tree) :
    Extends state (state.mark tree) :=
  ⟨List.prefix_rfl, fun _ _ hmasks => isSome_masks_mark hkept hdenotes (.inr hmasks),
    fun _ hmem => hmem⟩

theorem Kept.mark (hkept : Kept state) (hdenotes : Denotes state.objects tree) :
    Kept (state.mark tree) := by
  have hconstants := hkept.writesConstants hdenotes
  have hmasks := hkept.writesMasks hdenotes
  refine ⟨hkept.ordered, hkept.once, fun other hother => ?_, fun filterSpec hmem => ?_⟩
  · by_cases hin : other.id ∈ tree.ids
    · right
      refine ⟨?_, ?_, fun n hn => isSome_masks_mark hkept hdenotes (.inl ?_)⟩
      · rw [hmasks.written _ hin, masksIn_eq hkept hother]
      · rw [hconstants.written _ hin, constantsIn_eq hkept hother]
      · -- the node of the tree with this number is the other tree
        obtain ⟨subtree, hsubtree, hid⟩ := List.mem_map.mp hin
        have hsame : some subtree = some other := by
          rw [← (hdenotes.of_mem hsubtree).treeOf hkept.ordered, hid, hother.treeOf hkept.ordered]
        obtain rfl := Option.some.inj hsame
        obtain ⟨part, hpart, rfl⟩ := List.mem_map.mp hn
        exact List.mem_map_of_mem (Tree.subtrees_trans hsubtree hpart)
    · unfold Marked
      rw [hmasks.kept _ hin, hconstants.kept _ hin]
      exact (hkept.marked other hother).imp_right fun ⟨hmask, hconstant, hall⟩ =>
        ⟨hmask, hconstant, fun n hn => isSome_masks_mark hkept hdenotes (.inr (hall n hn))⟩
  · obtain ⟨hmarked, other, hother, hnotes⟩ := hkept.notes filterSpec hmem
    obtain ⟨hid, hdenotes'⟩ := denotes_of_treeOf hother
    refine ⟨isSome_masks_mark hkept hdenotes (.inr hmarked), other, hother, fun n hn => ?_⟩
    have hsame : ∀ n ∈ other.ids, (state.mark tree).constants n = state.constants n := by
      intro n hn
      obtain ⟨part, hpart, rfl⟩ := List.mem_map.mp hn
      rcases hconstants.eq_or_eq part.id with heq | heq
      · rw [heq, constantsIn_eq hkept (hdenotes'.of_mem hpart),
          hkept.constants_eq hdenotes' (hid ▸ hmarked) part hpart]
      · exact heq
    rw [notesOf_congr hsame]
    exact hnotes n hn

theorem valuesKept_mark (hkept : Kept state) (hdenotes : Denotes state.objects tree) :
    ValuesKept state (state.mark tree) := by
  have hextends := extends_mark hkept hdenotes
  have hkept' := hkept.mark hdenotes
  apply valuesKept_of_extends hkept hkept' hextends
  intro other hother hmasks
  exact getSQL_congr hkept hkept' hextends hother hmasks fun _ _ _ => rfl

/-- Marking again changes nothing. -/
theorem mark_mark (hkept : Kept state) (hdenotes : Denotes state.objects tree) :
    (state.mark tree).mark tree = state.mark tree := by
  have hkept' := hkept.mark hdenotes
  have hconstants := (hkept.writesConstants hdenotes).again (hkept'.writesConstants hdenotes)
  have hmasks := (hkept.writesMasks hdenotes).again (hkept'.writesMasks hdenotes)
  have hwhole : (state.mark tree).mark tree = { state.mark tree with
      constants := ((state.mark tree).mark tree).constants
      masks := ((state.mark tree).mark tree).masks } := rfl
  rw [hwhole, hconstants, hmasks]

theorem Kept.marksOnce (hkept : Kept state) : state.MarksOnce := by
  intro predicate
  cases htree : treeOf state.objects predicate with
  | none => simp only [step, htree, Option.map_none, Option.bind_none]
  | some tree =>
      have hmark := mark_mark hkept (denotes_of_treeOf htree).2
      have htree' : treeOf (state.mark tree).objects predicate = some tree := htree
      simp only [step, htree, htree', Option.map_some, Option.bind_some, hmark]

/-! ## Generating SQL and preparing filters -/

theorem Kept.writeSql (hkept : Kept state) (tree : Tree) : Kept (state.writeSql tree) :=
  ⟨hkept.ordered, hkept.once, hkept.marked, hkept.notes⟩

theorem extends_writeSql (state : Objects) (tree : Tree) : Extends state (state.writeSql tree) :=
  ⟨List.prefix_rfl, fun _ _ hmasks => hmasks, fun _ hmem => hmem⟩

theorem valuesKept_writeSql (hkept : Kept state)
    (hkeeps : ∀ predicate < state.objects.length, state.KeepsTextAbove tree.id predicate) :
    ValuesKept state (state.writeSql tree) := by
  have hkept' := hkept.writeSql tree
  have hextends := extends_writeSql state tree
  apply valuesKept_of_extends hkept hkept' hextends
  intro other hother hmasks
  by_cases hinner : tree.id ∈ other.ids ∧ other.id ≠ tree.id
  · -- the tree is a part of the other one, whose text is kept in any case
    have htree := hother.treeOf hkept.ordered
    have htree' := hextends.treeOf hkept' htree
    have hbefore := hkeeps other.id hother.id_lt ⟨hinner.2, hmasks⟩ other htree hinner.1
    have hafter := hbefore.update hkept.ordered hother tree.id
    rw [Function.update_comm hinner.2] at hafter
    obtain ⟨htext, hparameters⟩ := @generateSql_of_keepsTexts state.constants
      (Function.update state.hasSql tree.id true) other state.hasSql
      (state.writeSql tree).sqlText state.sqlText hafter hbefore
    rw [Objects.getSQL, Objects.getSQL, htree, htree', Option.map_some, Option.map_some]
    exact congrArg some (Sql.mk.injEq .. |>.mpr ⟨htext, hparameters⟩)
  · apply getSQL_congr hkept hkept' hextends hother hmasks
    intro n hn hne
    have hne : n ≠ tree.id := fun heq => hinner ⟨heq ▸ hn, fun hid => hne (heq.trans hid.symm)⟩
    exact Function.update_of_ne hne ..

theorem extends_prepareFilterSpec (state : Objects) (tree : Tree) (columnSpace : ℕ → ℕ) :
    Extends state (state.prepareFilterSpec tree columnSpace) :=
  ⟨List.prefix_rfl, fun _ _ hmasks => hmasks, fun _ hmem => List.mem_append_left _ hmem⟩

theorem Kept.prepareFilterSpec {columnSpace : ℕ → ℕ} (hkept : Kept state)
    (hdenotes : Denotes state.objects tree) (hmasks : (state.masks tree.id).isSome)
    (hplaces : ∀ filterSpec ∈ state.filterSpecs,
      state.SamePlaces { predicate := tree.id, columnSpace } filterSpec) :
    Kept (state.prepareFilterSpec tree columnSpace) := by
  refine ⟨hkept.ordered, hkept.once, hkept.marked, fun filterSpec hmem => ?_⟩
  have htree := hdenotes.treeOf hkept.ordered
  rcases List.mem_append.mp hmem with hold | hnew
  · obtain ⟨hmarked, other, hother, hnotes⟩ := hkept.notes filterSpec hold
    refine ⟨hmarked, other, hother, fun n hn => ?_⟩
    by_cases hin : n ∈ tree.ids
    · refine (notes_layOut_of_mem state.constants columnSpace state.notes hin).trans ?_
      exact hplaces filterSpec hold tree htree other hother n hin hn
    · exact (notes_layOut_of_notMem state.constants columnSpace state.notes hin).trans (hnotes n hn)
  · obtain rfl := List.mem_singleton.mp hnew
    exact ⟨hmasks, tree, htree,
      fun n hn => notes_layOut_of_mem state.constants columnSpace state.notes hn⟩

theorem valuesKept_prepareFilterSpec {columnSpace : ℕ → ℕ} (hkept : Kept state)
    (hkept' : Kept (state.prepareFilterSpec tree columnSpace)) :
    ValuesKept state (state.prepareFilterSpec tree columnSpace) := by
  have hextends := extends_prepareFilterSpec state tree columnSpace
  apply valuesKept_of_extends hkept hkept' hextends
  intro other hother hmasks
  exact getSQL_congr hkept hkept' hextends hother hmasks fun _ _ _ => rfl

/-! ## Runs -/

theorem Extends.trans {middle : Objects} (hfirst : Extends state middle)
    (hsecond : Extends middle state') : Extends state state' :=
  ⟨hfirst.objects.trans hsecond.objects, fun id hid hmasks =>
    hsecond.masks id (hid.trans_le hfirst.objects.length_le) (hfirst.masks id hid hmasks),
    fun _ hmem => hsecond.filterSpecs (hfirst.filterSpecs hmem)⟩

theorem ValuesKept.trans {middle : Objects} (hextends : Extends state middle)
    (hfirst : ValuesKept state middle) (hsecond : ValuesKept middle state') :
    ValuesKept state state' := by
  refine ⟨fun predicate hpredicate => ?_, fun filterSpec hmem => ?_⟩
  · have hold := hfirst.predicates predicate hpredicate
    have hnew := hsecond.predicates predicate (hpredicate.trans_le hextends.objects.length_le)
    have hmasks := hextends.masks predicate hpredicate
    exact ⟨fun interpretation => (hnew.meaning interpretation).trans (hold.meaning interpretation),
      fun h => ⟨(hnew.marks (hmasks h)).1.trans (hold.marks h).1,
        (hnew.marks (hmasks h)).2.trans (hold.marks h).2⟩,
      fun h => (hnew.getSQL (hmasks h)).trans (hold.getSQL h)⟩
  · obtain ⟨hmiddle, hold⟩ := hfirst.filterSpecs filterSpec hmem
    obtain ⟨hafter, hnew⟩ := hsecond.filterSpecs filterSpec hmiddle
    exact ⟨hafter, hnew.trans hold⟩

theorem ValuesKept.refl (state : Objects) : ValuesKept state state :=
  ⟨fun _ _ => ⟨fun _ => rfl, fun _ => ⟨rfl, rfl⟩, fun _ => rfl⟩, fun _ hmem => ⟨hmem, rfl⟩⟩

/-- What a state is to one that allowed operations lead to from it. -/
structure Continues (state state' : Objects) : Prop where
  kept : Kept state'
  extension : Extends state state'
  values : ValuesKept state state'

theorem Continues.trans {middle : Objects} (hfirst : Continues state middle)
    (hsecond : Continues middle state') : Continues state state' :=
  ⟨hsecond.kept, hfirst.extension.trans hsecond.extension, hfirst.values.trans hfirst.extension hsecond.values⟩

theorem continues_create (hkept : Kept state) (honce : object.countsTwice = false)
    (hoperands : ∀ operand ∈ object.predicates, operand < state.objects.length) :
    Continues state (state.create object) :=
  have hkept' := hkept.create honce hoperands
  ⟨hkept', extends_create state object, valuesKept_create hkept hkept'⟩

/-- One allowed operation. -/
theorem Kept.step {operation : Operation} (hkept : Kept state) (hallowed : Allowed state operation)
    (hstep : step state operation = some state') : Continues state state' := by
  cases operation with
  | comparator comparator queryField parameter =>
      cases hstep
      exact continues_create hkept rfl nofun
  | between queryField parameter1 parameter2 =>
      cases hstep
      exact continues_create hkept hallowed nofun
  | unaryOperator operator queryField =>
      cases hstep
      exact continues_create hkept rfl nofun
  | combine operator receiver predicate =>
      obtain ⟨⟨hreceiver, hpredicate⟩, hsome⟩ := Option.ite_none_right_eq_some.mp hstep
      cases hsome
      change (state.objects[receiver]?).any (·.isNary operator) = false at hallowed
      rw [Objects.combine, hallowed]
      exact continues_create hkept rfl
        (List.forall_mem_cons.mpr ⟨hreceiver, List.forall_mem_singleton.mpr hpredicate⟩)
  | combineNot operator receiver predicate =>
      obtain ⟨⟨hreceiver, hpredicate⟩, hsome⟩ := Option.ite_none_right_eq_some.mp hstep
      cases hsome
      have hfirst : Continues state (state.create (.not predicate)) :=
        continues_create hkept rfl (List.forall_mem_singleton.mpr hpredicate)
      have hlength : (state.create (.not predicate)).objects.length = state.objects.length + 1 :=
        List.length_append
      refine hfirst.trans (continues_create hfirst.kept rfl ?_)
      refine List.forall_mem_cons.mpr ⟨?_, List.forall_mem_singleton.mpr ?_⟩ <;> omega
  | not predicate =>
      obtain ⟨hpredicate, hsome⟩ := Option.ite_none_right_eq_some.mp hstep
      cases hsome
      exact continues_create hkept rfl (List.forall_mem_singleton.mpr hpredicate)
  | «where» predicate =>
      obtain ⟨tree, htree, rfl⟩ := Option.map_eq_some_iff.mp hstep
      have hdenotes := (denotes_of_treeOf htree).2
      exact ⟨hkept.mark hdenotes, extends_mark hkept hdenotes, valuesKept_mark hkept hdenotes⟩
  | getSQL predicate =>
      obtain ⟨tree, htree, rfl⟩ := Option.map_eq_some_iff.mp hstep
      obtain ⟨rfl, -⟩ := denotes_of_treeOf htree
      exact ⟨hkept.writeSql tree, extends_writeSql state tree, valuesKept_writeSql hkept hallowed⟩
  | prepareFilterSpec predicate columnSpace =>
      obtain ⟨hmasks, hsome⟩ := Option.ite_none_right_eq_some.mp hstep
      obtain ⟨tree, htree, rfl⟩ := Option.map_eq_some_iff.mp hsome
      obtain ⟨rfl, hdenotes⟩ := denotes_of_treeOf htree
      have hkept' := hkept.prepareFilterSpec hdenotes hmasks hallowed
      exact ⟨hkept', extends_prepareFilterSpec state tree columnSpace,
        valuesKept_prepareFilterSpec hkept hkept'⟩

/-- Allowed operations keep everything that was built before them. -/
theorem continues_of_guarded {operations : List Operation} (hkept : Kept state)
    (hguarded : Guarded PredicateObjects.step Allowed state operations)
    (hrun : run PredicateObjects.step state operations = some state') : Continues state state' := by
  apply invariant_of_guarded (Continues state) _ ⟨hkept, ⟨List.prefix_rfl, fun _ _ h => h, fun _ h => h⟩,
    ValuesKept.refl state⟩ hguarded hrun
  exact fun middle operation next hbefore hallowed hstep =>
    hbefore.trans (hbefore.kept.step hallowed hstep)

/-- A field of the queried table. -/
def exampleField (number : ℕ) : QueryField :=
  { tableAlias := [], field := { columnName := ['c'], columnNumber := number } }

/-- `a.eq(param)` as 0, `b.lt('x')` as 1 and `a.and(b)` as 2, given to `where()`. -/
def exampleQuery : List Operation :=
  [.comparator .eq (exampleField 0) (.parameter "p"),
    .comparator .lt (exampleField 1) (.literal (.string ['x'])), .combine .and 0 1, .where 2]

/-- The negation of the query, executed before the query itself. -/
def exampleNegation : List Operation :=
  [.not 2, .where 3, .getSQL 3, .prepareFilterSpec 3 fun _ => 4, .getSQL 2,
    .prepareFilterSpec 2 fun _ => 4]

/-- Three comparisons, and the AND of the first two. -/
def exampleConjunction : List Operation :=
  [.comparator .lt (exampleField 0) (.parameter "p"),
    .comparator .lt (exampleField 1) (.parameter "p"),
    .comparator .lt (exampleField 2) (.parameter "p"), .combine .and 0 1]

/-- Each column holds its number, and all parameters are 2. -/
def exampleInterpretation : Interpretation QueryField (Parameter Literal) ℕ :=
  { column := fun queryField => some queryField.field.columnNumber
    value := fun _ => some 2
    compare := fun _ left right => left < right }

end DatabaseJones.PredicateObjects
