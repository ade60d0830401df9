import DatabaseJones.PredicateObjects.Objects
import DatabaseJones.Library.OptionLists

/-!
# Trees of predicate objects

As long as every operand is older than the object that refers to it, each object has a tree,
and the tree of an object is the same wherever the object occurs.
-/

namespace DatabaseJones.PredicateObjects

open DatabaseJones.Query DatabaseJones.Library

/-- Induction over trees, with a hypothesis for every operand. -/
@[elab_as_elim, induction_eliminator]
theorem Tree.induct {motive : Tree → Prop}
    (comparator : ∀ id comparator queryField parameter,
      motive (.comparator id comparator queryField parameter))
    (between : ∀ id queryField parameter1 parameter2,
      motive (.between id queryField parameter1 parameter2))
    (unaryOperator : ∀ id operator queryField, motive (.unaryOperator id operator queryField))
    (not : ∀ id predicate, motive predicate → motive (.not id predicate))
    (nary : ∀ id operator first rest, motive first → (∀ operand ∈ rest, motive operand) →
      motive (.nary id operator first rest))
    (tree : Tree) : motive tree :=
  @Tree.rec motive (fun operands => ∀ operand ∈ operands, motive operand)
    comparator between unaryOperator not nary nofun
    (fun _ _ hhead htail => List.forall_mem_cons.mpr ⟨hhead, htail⟩) tree

theorem predicatesOf_eq_map (operands : List Tree) :
    predicatesOf operands = operands.map Tree.predicate := by
  induction operands with
  | nil => rfl
  | cons operand operands ih => rw [predicatesOf, ih, List.map_cons]

theorem subtreesOf_eq_flatMap (operands : List Tree) :
    subtreesOf operands = operands.flatMap Tree.subtrees := by
  induction operands with
  | nil => rfl
  | cons operand operands ih => rw [subtreesOf, ih, List.flatMap_cons]

theorem Tree.self_mem_subtrees (tree : Tree) : tree ∈ tree.subtrees := by
  cases tree <;> exact List.mem_cons_self

theorem Tree.id_mem_ids (tree : Tree) : tree.id ∈ tree.ids :=
  List.mem_map_of_mem tree.self_mem_subtrees

/-- The numbers of the nodes of a list of trees. -/
def idsOf (operands : List Tree) : List ℕ := operands.flatMap Tree.ids

section
variable (id : ℕ) (operator : NaryOperator) (operand first : Tree) (rest : List Tree)

@[simp] theorem Tree.subtrees_not :
    (Tree.not id operand).subtrees = .not id operand :: operand.subtrees := rfl

@[simp] theorem Tree.subtrees_nary : (Tree.nary id operator first rest).subtrees =
    .nary id operator first rest :: (first.subtrees ++ rest.flatMap Tree.subtrees) := by
  rw [Tree.subtrees, subtreesOf_eq_flatMap]

theorem Tree.mem_subtrees_first {subtree : Tree} (hsubtree : subtree ∈ first.subtrees) :
    subtree ∈ (Tree.nary id operator first rest).subtrees := by
  rw [Tree.subtrees_nary]
  exact List.mem_cons_of_mem _ (List.mem_append_left _ hsubtree)

theorem Tree.mem_subtrees_rest {rest : List Tree} {operand subtree : Tree} (hoperand : operand ∈ rest)
    (hsubtree : subtree ∈ operand.subtrees) :
    subtree ∈ (Tree.nary id operator first rest).subtrees := by
  rw [Tree.subtrees_nary]
  exact List.mem_cons_of_mem _
    (List.mem_append_right _ (List.mem_flatMap.mpr ⟨operand, hoperand, hsubtree⟩))

/-- A node below a node of a tree is a node of the tree. -/
theorem Tree.subtrees_trans {tree subtree part : Tree} (hsubtree : subtree ∈ tree.subtrees)
    (hpart : part ∈ subtree.subtrees) : part ∈ tree.subtrees := by
  induction tree with
  | comparator => exact List.mem_singleton.mp hsubtree ▸ hpart
  | between => exact List.mem_singleton.mp hsubtree ▸ hpart
  | unaryOperator => exact List.mem_singleton.mp hsubtree ▸ hpart
  | not id operand ih =>
      rcases List.mem_cons.mp hsubtree with rfl | hmem
      · exact hpart
      · exact List.mem_cons_of_mem _ (ih hmem)
  | nary id operator first rest ihfirst ihrest =>
      rw [Tree.subtrees_nary, List.mem_cons, List.mem_append, List.mem_flatMap] at hsubtree
      rcases hsubtree with rfl | hmem | ⟨operand, hoperand, hmem⟩
      · exact hpart
      · exact Tree.mem_subtrees_first id operator first rest (ihfirst hmem)
      · exact Tree.mem_subtrees_rest id operator first hoperand (ihrest operand hoperand hmem)

@[simp] theorem Tree.ids_comparator (comparator : Comparator) (queryField : QueryField)
    (parameter : Parameter Literal) :
    (Tree.comparator id comparator queryField parameter).ids = [id] := rfl

@[simp] theorem Tree.ids_between (queryField : QueryField) (parameter1 parameter2 : Parameter Literal) :
    (Tree.between id queryField parameter1 parameter2).ids = [id] := rfl

@[simp] theorem Tree.ids_unaryOperator (operator : UnaryOperator) (queryField : QueryField) :
    (Tree.unaryOperator id operator queryField).ids = [id] := rfl

@[simp] theorem Tree.ids_not : (Tree.not id operand).ids = id :: operand.ids := rfl

@[simp] theorem Tree.ids_nary :
    (Tree.nary id operator first rest).ids = id :: (first.ids ++ idsOf rest) := by
  simp only [Tree.ids, Tree.subtrees_nary, List.map_cons, List.map_append, List.map_flatMap, idsOf]
  rfl

theorem Tree.mem_ids_first {n : ℕ} (hn : n ∈ first.ids) :
    n ∈ (Tree.nary id operator first rest).ids := by
  rw [Tree.ids_nary]
  exact List.mem_cons_of_mem _ (List.mem_append_left _ hn)

theorem Tree.mem_ids_rest {rest : List Tree} {operand : Tree} (hoperand : operand ∈ rest) {n : ℕ}
    (hn : n ∈ operand.ids) : n ∈ (Tree.nary id operator first rest).ids := by
  rw [Tree.ids_nary]
  exact List.mem_cons_of_mem _
    (List.mem_append_right _ (List.mem_flatMap.mpr ⟨operand, hoperand, hn⟩))

@[simp] theorem idsOf_nil : idsOf [] = [] := rfl

@[simp] theorem idsOf_cons : idsOf (operand :: rest) = operand.ids ++ idsOf rest := rfl

theorem mem_idsOf {n : ℕ} : n ∈ idsOf rest ↔ ∃ operand ∈ rest, n ∈ operand.ids := List.mem_flatMap

end

/-! ## Objects and trees -/

/-- The object at the root of a tree. -/
def Tree.object : Tree → PredicateObject
  | .comparator _ code queryField parameter => .comparator code queryField parameter
  | .between _ queryField parameter1 parameter2 => .between queryField parameter1 parameter2
  | .unaryOperator _ operator queryField => .unaryOperator operator queryField
  | .not _ operand => .not operand.id
  | .nary _ operator first rest => .nary operator first.id (rest.map Tree.id)

variable {objects : List PredicateObject} {tree operand head : Tree} {tail : List Tree}
  {id fuel : ℕ} {operator : NaryOperator}

/-- Every node of the tree is the object with its number. -/
def Denotes (objects : List PredicateObject) (tree : Tree) : Prop :=
  ∀ subtree ∈ tree.subtrees, objects[subtree.id]? = some subtree.object

theorem Denotes.root (h : Denotes objects tree) : objects[tree.id]? = some tree.object :=
  h tree tree.self_mem_subtrees

theorem Denotes.of_mem {subtree : Tree} (h : Denotes objects tree) (hsubtree : subtree ∈ tree.subtrees) :
    Denotes objects subtree :=
  fun part hpart => h part (Tree.subtrees_trans hsubtree hpart)

theorem Denotes.not (h : Denotes objects (.not id operand)) : Denotes objects operand :=
  fun subtree hsubtree => h subtree (List.mem_cons_of_mem _ hsubtree)

theorem Denotes.first (h : Denotes objects (.nary id operator head tail)) :
    Denotes objects head :=
  fun subtree hsubtree => h subtree (Tree.mem_subtrees_first id operator head tail hsubtree)

theorem Denotes.rest (h : Denotes objects (.nary id operator head tail)) (hoperand : operand ∈ tail) :
    Denotes objects operand :=
  fun subtree hsubtree => h subtree (Tree.mem_subtrees_rest id operator head hoperand hsubtree)

theorem Denotes.mono {more : List PredicateObject}
    (h : Denotes objects tree) : Denotes (objects ++ more) tree := by
  intro subtree hsubtree
  have hobject := h subtree hsubtree
  have hlt : subtree.id < objects.length := (List.getElem?_eq_some_iff.mp hobject).1
  rw [List.getElem?_append_left hlt, hobject]

theorem denotes_leaf (hroot : objects[tree.id]? = some tree.object)
    (hleaf : tree.subtrees = [tree]) : Denotes objects tree := by
  intro subtree hsubtree
  rw [hleaf, List.mem_singleton] at hsubtree
  exact hsubtree ▸ hroot

theorem denotes_not (hroot : objects[id]? = some (.not operand.id)) (h : Denotes objects operand) :
    Denotes objects (.not id operand) :=
  List.forall_mem_cons.mpr ⟨by exact hroot, h⟩

theorem denotes_nary (hroot : objects[id]? = some (.nary operator head.id (tail.map Tree.id)))
    (hfirst : Denotes objects head) (hrest : ∀ operand ∈ tail, Denotes objects operand) :
    Denotes objects (.nary id operator head tail) := by
  intro subtree hsubtree
  rw [Tree.subtrees_nary, List.mem_cons, List.mem_append, List.mem_flatMap] at hsubtree
  rcases hsubtree with rfl | hmem | ⟨operand, hoperand, hmem⟩
  · exact hroot
  · exact hfirst subtree hmem
  · exact hrest operand hoperand subtree hmem

/-- The trees of a list of objects, one by one. -/
theorem denotes_of_forall₂ {ids : List ℕ} {trees : List Tree}
    (hall : List.Forall₂ (fun id tree => tree.id = id ∧ Denotes objects tree) ids trees) :
    trees.map Tree.id = ids ∧ ∀ tree ∈ trees, Denotes objects tree := by
  induction hall with
  | nil => exact ⟨rfl, nofun⟩
  | cons htree _ ih =>
      obtain ⟨rfl, hdenotes⟩ := htree
      exact ⟨by rw [List.map_cons, ih.1], List.forall_mem_cons.mpr ⟨hdenotes, ih.2⟩⟩

/-- What is found by following the references is a tree of the objects. -/
theorem denotes_of_tree? (h : tree? objects fuel id = some tree) :
    tree.id = id ∧ Denotes objects tree := by
  induction fuel generalizing id tree with
  | zero => cases h
  | succ fuel ih =>
      unfold tree? at h
      cases hobject : objects[id]? with
      | none =>
          rw [hobject] at h
          cases h
      | some object =>
          rw [hobject] at h
          cases object with
          | comparator comparator queryField parameter =>
              cases h
              exact ⟨rfl, denotes_leaf hobject rfl⟩
          | between queryField parameter1 parameter2 =>
              cases h
              exact ⟨rfl, denotes_leaf hobject rfl⟩
          | unaryOperator operator queryField =>
              cases h
              exact ⟨rfl, denotes_leaf hobject rfl⟩
          | not predicate =>
              obtain ⟨operand, hoperand, rfl⟩ := Option.map_eq_some_iff.mp h
              obtain ⟨rfl, hdenotes⟩ := ih hoperand
              exact ⟨rfl, denotes_not hobject hdenotes⟩
          | nary operator first rest =>
              obtain ⟨head, hhead, h⟩ := Option.bind_eq_some_iff.mp h
              obtain ⟨trees, htrees, rfl⟩ := Option.map_eq_some_iff.mp h
              obtain ⟨rfl, hdenotes⟩ := ih hhead
              have hall := (mapM_eq_some_iff.mp htrees).imp fun _ _ htree => ih htree
              obtain ⟨rfl, htail⟩ := denotes_of_forall₂ hall
              exact ⟨rfl, denotes_nary hobject hdenotes htail⟩

/-! ## Older operands -/

/-- Every operand is older than the object that refers to it. -/
def Ordered (objects : List PredicateObject) : Prop :=
  ∀ (id : ℕ) (object : PredicateObject), objects[id]? = some object →
    ∀ operand ∈ object.predicates, operand < id

theorem Ordered.append {object : PredicateObject} (h : Ordered objects)
    (hobject : ∀ operand ∈ object.predicates, operand < objects.length) :
    Ordered (objects ++ [object]) := by
  intro id found hfound
  rcases Nat.lt_trichotomy id objects.length with hlt | heq | hgt
  · rw [List.getElem?_append_left hlt] at hfound
    exact h id found hfound
  · subst heq
    rw [List.getElem?_concat_length] at hfound
    cases hfound
    exact hobject
  · rw [List.getElem?_eq_none (by rw [List.length_append, List.length_singleton]; omega)] at hfound
    cases hfound

section
variable (hordered : Ordered objects)
include hordered

/-- The number of an operand is below the one of its object. -/
theorem Denotes.operand_lt (h : Denotes objects (.nary id operator head tail)) :
    head.id < id ∧ ∀ operand ∈ tail, operand.id < id := by
  have hbelow := hordered id _ h.root
  refine ⟨hbelow _ List.mem_cons_self, fun operand hoperand => hbelow _ ?_⟩
  exact List.mem_cons_of_mem _ (List.mem_map_of_mem hoperand)

theorem Denotes.not_lt (h : Denotes objects (.not id operand)) : operand.id < id :=
  hordered id _ h.root _ List.mem_cons_self

/-- The numbers of all nodes are at most the one of the root. -/
theorem Denotes.ids_le (h : Denotes objects tree) : ∀ n ∈ tree.ids, n ≤ tree.id := by
  induction tree with
  | comparator id comparator queryField parameter => simp [Tree.id]
  | between id queryField parameter1 parameter2 => simp [Tree.id]
  | unaryOperator id operator queryField => simp [Tree.id]
  | not id operand ih =>
      have hlt := h.not_lt hordered
      intro n hn
      rcases List.mem_cons.mp (Tree.ids_not id operand ▸ hn) with rfl | hmem
      · exact le_rfl
      · exact ((ih h.not n hmem).trans_lt hlt).le
  | nary id operator first rest ihfirst ihrest =>
      obtain ⟨hfirst, hrest⟩ := h.operand_lt hordered
      intro n hn
      rw [Tree.ids_nary, List.mem_cons, List.mem_append, mem_idsOf] at hn
      rcases hn with rfl | hmem | ⟨operand, hoperand, hmem⟩
      · exact le_rfl
      · exact ((ihfirst h.first n hmem).trans_lt hfirst).le
      · exact ((ihrest operand hoperand (h.rest hoperand) n hmem).trans_lt (hrest operand hoperand)).le

/-- An object is not a node below itself. -/
theorem Denotes.id_notMem_not (h : Denotes objects (.not id operand)) : id ∉ operand.ids :=
  fun hmem => absurd (h.not.ids_le hordered id hmem) (h.not_lt hordered).not_ge

theorem Denotes.id_notMem_first (h : Denotes objects (.nary id operator head tail)) :
    id ∉ head.ids :=
  fun hmem => absurd (h.first.ids_le hordered id hmem) (h.operand_lt hordered).1.not_ge

theorem Denotes.id_notMem_rest (h : Denotes objects (.nary id operator head tail)) :
    id ∉ idsOf tail := by
  intro hmem
  obtain ⟨operand, hoperand, hmem⟩ := (mem_idsOf tail).mp hmem
  exact absurd ((h.rest hoperand).ids_le hordered id hmem)
    ((h.operand_lt hordered).2 operand hoperand).not_ge

/-- A tree of the objects is found by following the references. -/
theorem Denotes.tree? (h : Denotes objects tree) (hfuel : tree.id < fuel) :
    tree? objects fuel tree.id = some tree := by
  induction tree generalizing fuel with
  | comparator id comparator queryField parameter =>
      obtain ⟨fuel, rfl⟩ := Nat.exists_eq_add_of_lt hfuel
      have hroot : objects[id]? = _ := h.root
      simp only [Tree.id, PredicateObjects.tree?, hroot, Tree.object]
  | between id queryField parameter1 parameter2 =>
      obtain ⟨fuel, rfl⟩ := Nat.exists_eq_add_of_lt hfuel
      have hroot : objects[id]? = _ := h.root
      simp only [Tree.id, PredicateObjects.tree?, hroot, Tree.object]
  | unaryOperator id operator queryField =>
      obtain ⟨fuel, rfl⟩ := Nat.exists_eq_add_of_lt hfuel
      have hroot : objects[id]? = _ := h.root
      simp only [Tree.id, PredicateObjects.tree?, hroot, Tree.object]
  | not id operand ih =>
      have hlt := h.not_lt hordered
      cases fuel with
      | zero => exact absurd hfuel (Nat.not_lt_zero _)
      | succ fuel =>
          have hroot : objects[id]? = some (.not operand.id) := h.root
          have hoperand := ih h.not (hlt.trans_le (Nat.lt_succ_iff.mp hfuel))
          change PredicateObjects.tree? objects (fuel + 1) id = _
          simp only [PredicateObjects.tree?, hroot, hoperand, Option.map_some]
  | nary id operator first rest ihfirst ihrest =>
      obtain ⟨hfirst, hrest⟩ := h.operand_lt hordered
      cases fuel with
      | zero => exact absurd hfuel (Nat.not_lt_zero _)
      | succ fuel =>
          have hroot : objects[id]? = some (.nary operator first.id (rest.map Tree.id)) := h.root
          have hle : id ≤ fuel := Nat.lt_succ_iff.mp hfuel
          have hfound := ihfirst h.first (hfirst.trans_le hle)
          have hall : (rest.map Tree.id).mapM (PredicateObjects.tree? objects fuel) = some rest := by
            rw [mapM_eq_some_iff, List.forall₂_map_left_iff, List.forall₂_same]
            exact fun operand hoperand =>
              ihrest operand hoperand (h.rest hoperand) ((hrest operand hoperand).trans_le hle)
          change PredicateObjects.tree? objects (fuel + 1) id = _
          simp only [PredicateObjects.tree?, hroot, hfound, hall, Option.bind_some, Option.map_some]

/-- A tree of the objects is the tree of its root. -/
theorem Denotes.treeOf (h : Denotes objects tree) : treeOf objects tree.id = some tree :=
  h.tree? hordered (List.getElem?_eq_some_iff.mp h.root).1

/-- Every object has a tree. -/
theorem exists_tree? (hid : id < objects.length) (hfuel : id < fuel) :
    ∃ tree, tree? objects fuel id = some tree := by
  induction fuel generalizing id with
  | zero => exact absurd hfuel (Nat.not_lt_zero _)
  | succ fuel ih =>
      have hobject := List.getElem?_eq_getElem hid
      have hbelow := hordered id _ hobject
      unfold PredicateObjects.tree?
      rw [hobject]
      cases hkind : objects[id] with
      | comparator comparator queryField parameter => exact ⟨_, rfl⟩
      | between queryField parameter1 parameter2 => exact ⟨_, rfl⟩
      | unaryOperator operator queryField => exact ⟨_, rfl⟩
      | not predicate =>
          rw [hkind] at hbelow
          have hlt := hbelow predicate List.mem_cons_self
          obtain ⟨operand, hoperand⟩ := ih (hlt.trans hid) (by omega)
          exact ⟨.not id operand, by simp only [hoperand, Option.map_some]⟩
      | nary operator first rest =>
          rw [hkind] at hbelow
          have hfirst := hbelow first List.mem_cons_self
          obtain ⟨firstTree, hfound⟩ := ih (hfirst.trans hid) (by omega)
          obtain ⟨trees, htrees⟩ := @exists_mapM_eq_some _ _ (tree? objects fuel) rest fun n hn => by
            have hlt := hbelow n (List.mem_cons_of_mem _ hn)
            exact Option.isSome_iff_exists.mpr (ih (hlt.trans hid) (by omega))
          exact ⟨.nary id operator firstTree trees, by
            simp only [hfound, htrees, Option.bind_some, Option.map_some]⟩

theorem exists_treeOf (hid : id < objects.length) : ∃ tree, treeOf objects id = some tree :=
  exists_tree? hordered hid hid

end

theorem denotes_of_treeOf (h : treeOf objects id = some tree) :
    tree.id = id ∧ Denotes objects tree :=
  denotes_of_tree? h

/-- Trees stay when a younger object is made. -/
theorem treeOf_append {object : PredicateObject} (hordered : Ordered (objects ++ [object]))
    (h : treeOf objects id = some tree) : treeOf (objects ++ [object]) id = some tree := by
  obtain ⟨rfl, hdenotes⟩ := denotes_of_treeOf h
  exact hdenotes.mono.treeOf hordered

end DatabaseJones.PredicateObjects
