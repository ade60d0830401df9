import DatabaseJones.IndexBounds.LineMeaning

/-!
# Unions and intersections of number lines

`NumberLineStack` merges the sorted transition points of its lines into one sorted list
and sweeps over it.  For at least one well-formed line the union and the intersection
denote the union and the intersection of what the lines denote.
-/

namespace DatabaseJones.IndexBounds

open DatabaseJones.Library

variable {α : Type} [LinearOrder α]

namespace Heap

variable (heap : Heap α)

/-- The transition of a point. -/
def transitionAt (point : ℕ) : Transition (Cut α) := (heap.endpoints point).transition

/-- Points in ascending order. -/
def Sorted (points : List ℕ) : Prop :=
  points.Pairwise fun point point' => heap.transitionAt point ≤ heap.transitionAt point'

omit [LinearOrder α] in
theorem transitions_pointsOf (line : ℕ) :
    (heap.pointsOf line).map Endpoint.transition = (heap.lines line).map heap.transitionAt :=
  List.map_map

variable {heap}

theorem sorted_cons {point : ℕ} {points : List ℕ} :
    heap.Sorted (point :: points) ↔
      (∀ point' ∈ points, heap.transitionAt point ≤ heap.transitionAt point') ∧
        heap.Sorted points := List.pairwise_cons

/-! ## Merging -/

/-- The head of the first list goes after the points of the second that are not beyond it,
if the rest of the first list can be merged with what remains. -/
theorem mergeFrom_spec {point : ℕ} {list1 list2 : List ℕ}
    {merged : List ℕ → Option (List ℕ)} (hsorted1 : heap.Sorted (point :: list1))
    (hmerged : ∀ list2, heap.Sorted list2 → (∀ p ∈ list2, (heap.endpoints p).Plain) →
      ∃ result, merged list2 = some result ∧ result.Perm (list1 ++ list2) ∧ heap.Sorted result)
    (hplain : (heap.endpoints point).Plain) (hplain2 : ∀ p ∈ list2, (heap.endpoints p).Plain)
    (hsorted2 : heap.Sorted list2) :
    ∃ result, heap.mergeFrom point list1 merged list2 = some result ∧
      result.Perm (point :: list1 ++ list2) ∧ heap.Sorted result := by
  induction list2 with
  | nil => exact ⟨_, rfl, by simp, hsorted1⟩
  | cons point2 list2 ih =>
      obtain ⟨hle1, -⟩ := sorted_cons.mp hsorted1
      obtain ⟨hle2, hrest2⟩ := sorted_cons.mp hsorted2
      obtain ⟨cmp, hcompare, horder⟩ := hplain.compare_spec (hplain2 point2 List.mem_cons_self)
      rw [mergeFrom, hcompare]
      dsimp only [Option.bind_eq_bind, Option.bind_some]
      by_cases hcmp : cmp = .gt
      · -- the point of the second list goes first
        rw [if_pos hcmp] at horder
        obtain ⟨result, hresult, hperm, hsorted⟩ :=
          ih (fun p hp => hplain2 p (List.mem_cons_of_mem _ hp)) hrest2
        refine ⟨point2 :: result, ?_, ?_, ?_⟩
        · rw [if_neg (not_not.mpr hcmp), hresult, Option.map_some]
        · exact (hperm.cons point2).trans List.perm_middle.symm
        · refine sorted_cons.mpr ⟨fun p hp => ?_, hsorted⟩
          rcases List.mem_append.mp (hperm.mem_iff.mp hp) with hp1 | hp2
          · rcases List.mem_cons.mp hp1 with rfl | hp1
            · exact horder
            · exact le_trans horder (hle1 p hp1)
          · exact hle2 p hp2
      · rw [if_neg hcmp] at horder
        obtain ⟨result, hresult, hperm, hsorted⟩ := hmerged (point2 :: list2) hsorted2 hplain2
        refine ⟨point :: result, ?_, ?_, ?_⟩
        · rw [if_pos hcmp, hresult, Option.map_some]
        · exact hperm.cons point
        · refine sorted_cons.mpr ⟨fun p hp => ?_, hsorted⟩
          rcases List.mem_append.mp (hperm.mem_iff.mp hp) with hp1 | hp2
          · exact hle1 p hp1
          · rcases List.mem_cons.mp hp2 with rfl | hp2
            · exact horder
            · exact le_trans horder (hle2 p hp2)

/-- `mergeSortEndpoints` merges sorted lists into a sorted list. -/
theorem mergeSortEndpoints_spec {list1 : List ℕ} (hsorted1 : heap.Sorted list1)
    (hplain1 : ∀ p ∈ list1, (heap.endpoints p).Plain) :
    ∀ list2, heap.Sorted list2 → (∀ p ∈ list2, (heap.endpoints p).Plain) →
      ∃ result, heap.mergeSortEndpoints list1 list2 = some result ∧
        result.Perm (list1 ++ list2) ∧ heap.Sorted result := by
  induction list1 with
  | nil => exact fun list2 hsorted2 _ => ⟨list2, rfl, List.Perm.refl _, hsorted2⟩
  | cons point list1 ih =>
      intro list2 hsorted2 hplain2
      exact mergeFrom_spec hsorted1
        (ih (sorted_cons.mp hsorted1).2 fun p hp => hplain1 p (List.mem_cons_of_mem _ hp))
        (hplain1 point List.mem_cons_self) hplain2 hsorted2

/-- The list of a stack of at least one line. -/
theorem mergeLines_spec {lists : List (List ℕ)} (hlists : lists ≠ [])
    (hsorted : ∀ list ∈ lists, heap.Sorted list)
    (hplain : ∀ list ∈ lists, ∀ p ∈ list, (heap.endpoints p).Plain) :
    ∃ result, heap.mergeLines lists = some result ∧ result.Perm lists.flatten ∧
      heap.Sorted result := by
  induction lists with
  | nil => exact absurd rfl hlists
  | cons list lists ih =>
      cases lists with
      | nil => exact ⟨list, rfl, by simp, hsorted list List.mem_cons_self⟩
      | cons next lists =>
          obtain ⟨merged, hmerged, hperm, hsortedMerged⟩ := ih (List.cons_ne_nil _ _)
            (fun other hother => hsorted other (List.mem_cons_of_mem _ hother))
            (fun other hother => hplain other (List.mem_cons_of_mem _ hother))
          have hplainMerged : ∀ p ∈ merged, (heap.endpoints p).Plain := by
            intro p hp
            obtain ⟨other, hother, hp⟩ := List.mem_flatten.mp (hperm.mem_iff.mp hp)
            exact hplain other (List.mem_cons_of_mem _ hother) p hp
          obtain ⟨result, hresult, hpermResult, hsortedResult⟩ :=
            mergeSortEndpoints_spec hsortedMerged hplainMerged list
              (hsorted list List.mem_cons_self) (hplain list List.mem_cons_self)
          refine ⟨result, ?_, ?_, hsortedResult⟩
          · rw [mergeLines, hmerged]
            · exact hresult
            · exact fun hnil => List.cons_ne_nil _ _ hnil
          · rw [List.flatten_cons]
            exact hpermResult.trans ((hperm.append_right list).trans List.perm_append_comm)

/-! ## Sweeping -/

omit [LinearOrder α] in
/-- The sweep over points is the sweep over their transitions. -/
theorem sweep_spec {points : List ℕ}
    (hside : ∀ p ∈ points, (heap.endpoints p).isLow.isSome = true) (target depth : ℤ) :
    ∃ result, heap.sweep target depth points = some result ∧ result.Sublist points ∧
      result.map heap.transitionAt = Library.sweep target depth (points.map heap.transitionAt) := by
  induction points generalizing depth with
  | nil => exact ⟨[], rfl, List.Sublist.refl _, rfl⟩
  | cons point points ih =>
      obtain ⟨low, hlow⟩ := Option.isSome_iff_exists.mp (hside point List.mem_cons_self)
      have hisLow : (heap.transitionAt point).isLow = low := by
        rw [transitionAt, Endpoint.isLow_transition, hlow]
        cases low <;> rfl
      have hnext : depth + (heap.transitionAt point).change =
          if low then depth + 1 else depth - 1 := by
        rw [Transition.change, hisLow]
        cases low <;> rfl
      obtain ⟨result, hresult, hsublist, htransitions⟩ :=
        ih (fun p hp => hside p (List.mem_cons_of_mem _ hp)) (if low then depth + 1 else depth - 1)
      have hrecord : Records target depth (heap.transitionAt point) ↔
          (if low = true then (if low = true then depth + 1 else depth - 1) else depth) =
            target := by
        rw [Records, hisLow]
        cases low <;> rfl
      rw [sweep, hlow, List.map_cons, Library.sweep, hnext, ← htransitions]
      dsimp only [Option.bind_eq_bind, Option.bind_some]
      rw [hresult, Option.bind_some]
      by_cases htarget : Records target depth (heap.transitionAt point)
      · rw [if_pos htarget, if_pos (hrecord.mp htarget)]
        exact ⟨point :: result, rfl, hsublist.cons_cons point, rfl⟩
      · rw [if_neg htarget, if_neg (mt hrecord.mpr htarget)]
        exact ⟨result, rfl, hsublist.cons point, rfl⟩

/-! ## Unions and intersections -/

theorem WellFormed.isLine_transitions {line : ℕ} (h : heap.WellFormed line) :
    IsLine ((heap.lines line).map heap.transitionAt) := by
  rw [← transitions_pointsOf]
  exact h.isLine

theorem WellFormed.plain_point {line : ℕ} (h : heap.WellFormed line) :
    ∀ p ∈ heap.lines line, (heap.endpoints p).Plain := fun _ hp =>
  h.plain _ (List.mem_map_of_mem hp)

theorem WellFormed.sorted {line : ℕ} (h : heap.WellFormed line) :
    heap.Sorted (heap.lines line) :=
  (List.pairwise_map.mp h.isLine_transitions.sorted).imp le_of_lt

/-- What a stack of at least one well-formed line makes for a target: a well-formed new
line, whose transitions are those of the sweep. -/
theorem sweepLines_spec {lines : List ℕ} (hlines : lines ≠ [])
    (hwell : ∀ line ∈ lines, heap.WellFormed line) {target : ℕ} (htarget : 0 < target) :
    ∃ line next, heap.sweepLines target lines = some (line, next) ∧ next.WellFormed line ∧
      ∀ point, point ∈ next.denotes line ↔
        target ≤ lines.countP fun line =>
          Covers (cutBefore point) false ((heap.lines line).map heap.transitionAt) := by
  obtain ⟨merged, hmerged, hperm, hsorted⟩ : ∃ merged,
      heap.mergeLines (lines.map heap.lines) = some merged ∧
        merged.Perm (lines.map heap.lines).flatten ∧ heap.Sorted merged := by
    apply mergeLines_spec
    · exact fun hnil => hlines (List.map_eq_nil_iff.mp hnil)
    · simpa using fun line hline => (hwell line hline).sorted
    · simpa using fun line hline => (hwell line hline).plain_point
  have hmem : ∀ p ∈ merged, ∃ line ∈ lines, p ∈ heap.lines line := by
    intro p hp
    obtain ⟨list, hlist, hp⟩ := List.mem_flatten.mp (hperm.mem_iff.mp hp)
    obtain ⟨line, hline, rfl⟩ := List.mem_map.mp hlist
    exact ⟨line, hline, hp⟩
  have hplain : ∀ p ∈ merged, (heap.endpoints p).Plain := by
    intro p hp
    obtain ⟨line, hline, hp⟩ := hmem p hp
    exact (hwell line hline).plain_point p hp
  obtain ⟨result, hresult, hsublist, htransitions⟩ :=
    sweep_spec (fun p hp => (hplain p hp).side) target 0
  -- the transitions of the lines, and those of the merged list
  have hisLine : ∀ ps ∈ lines.map fun line => (heap.lines line).map heap.transitionAt,
      IsLine ps := by
    simpa using fun line hline => (hwell line hline).isLine_transitions
  have hpermMap : (merged.map heap.transitionAt).Perm
      (lines.map fun line => (heap.lines line).map heap.transitionAt).flatten := by
    have hmap := hperm.map heap.transitionAt
    rwa [List.map_flatten, List.map_map] at hmap
  have hsortedMap : (merged.map heap.transitionAt).Pairwise (· ≤ ·) := List.pairwise_map.mpr hsorted
  have hline := isLine_sweep hisLine hpermMap hsortedMap (Nat.cast_pos.mpr htarget)
  rw [← htransitions] at hline
  have hself : (heap.addLine result).2.lines (heap.addLine result).1 = result :=
    Function.update_self ..
  have htransitionsOf : ((heap.addLine result).2.pointsOf (heap.addLine result).1).map
      Endpoint.transition = result.map heap.transitionAt := by
    rw [transitions_pointsOf, hself]
    rfl
  have hwellResult : (heap.addLine result).2.WellFormed (heap.addLine result).1 := by
    refine ⟨?_, ?_, ?_⟩
    · rw [hself]
      intro p hp
      obtain ⟨line, hline, hp⟩ := hmem p (hsublist.mem hp)
      exact (hwell line hline).allocated p hp
    · intro endpoint hendpoint
      rw [pointsOf, hself] at hendpoint
      obtain ⟨p, hp, rfl⟩ := List.mem_map.mp hendpoint
      exact hplain p (hsublist.mem hp)
    · rw [htransitionsOf]
      exact hline
  refine ⟨_, _, ?_, hwellResult, fun point => ?_⟩
  · rw [sweepLines, hmerged]
    dsimp only [Option.bind_eq_bind, Option.bind_some]
    rw [hresult]
    rfl
  · rw [hwellResult.mem_denotes_iff, htransitionsOf, htransitions,
      covers_sweep_iff hisLine hpermMap hsortedMap htarget, List.countP_map]
    rfl

/-- The union of well-formed lines denotes the union of what they denote. -/
theorem union_spec {lines : List ℕ} (hlines : lines ≠ [])
    (hwell : ∀ line ∈ lines, heap.WellFormed line) :
    ∃ line next, heap.union lines = some (line, next) ∧ next.WellFormed line ∧
      next.denotes line = {point | ∃ line ∈ lines, point ∈ heap.denotes line} := by
  obtain ⟨line, next, hunion, hnext, hdenotes⟩ := sweepLines_spec hlines hwell Nat.one_pos
  refine ⟨line, next, hunion, hnext, ?_⟩
  ext point
  rw [hdenotes, Nat.one_le_iff_ne_zero, ← Nat.pos_iff_ne_zero, List.countP_pos_iff]
  refine exists_congr fun other => and_congr_right fun hother => ?_
  rw [decide_eq_true_eq, (hwell other hother).mem_denotes_iff, transitions_pointsOf]

/-- Their intersection denotes the intersection. -/
theorem intersection_spec {lines : List ℕ} (hlines : lines ≠ [])
    (hwell : ∀ line ∈ lines, heap.WellFormed line) :
    ∃ line next, heap.intersection lines = some (line, next) ∧ next.WellFormed line ∧
      next.denotes line = {point | ∀ line ∈ lines, point ∈ heap.denotes line} := by
  obtain ⟨line, next, hintersection, hnext, hdenotes⟩ :=
    sweepLines_spec hlines hwell (List.length_pos_iff.mpr hlines)
  refine ⟨line, next, hintersection, hnext, ?_⟩
  ext point
  rw [hdenotes, List.countP_le_length.ge_iff_eq, List.countP_eq_length]
  refine forall_congr' fun other => forall_congr' fun hother => ?_
  rw [decide_eq_true_eq, (hwell other hother).mem_denotes_iff, transitions_pointsOf]

end Heap

end DatabaseJones.IndexBounds

/-!
## Complements of number lines

`complement()` changes the endpoints of a line in place.  On the endpoints themselves it
is a function of lists; this function exchanges the covered and the other points of a line
that has a finite endpoint and none at NULL, and undoes itself there.  It fails on the
empty line, and an endpoint at NULL, which is not finite, is dropped or keeps its inclusion.
-/

namespace DatabaseJones.IndexBounds

open DatabaseJones.Library

/-! ## The complement of a list of endpoints -/

section

variable {α : Type*}

/-- The first endpoint goes if it is not finite; otherwise the line now begins at
`-Infinity`. -/
def complementLow (endpoints : List (Endpoint α)) : Option (List (Endpoint α)) :=
  endpoints.head?.map fun lowerBound =>
    if !lowerBound.value.isFinite then endpoints.tail else negInf :: endpoints

/-- The same at the other end. -/
def complementHigh (endpoints : List (Endpoint α)) : List (Endpoint α) :=
  if !(endpoints.getLast?.any fun upperBound => upperBound.value.isFinite) then endpoints.dropLast
  else endpoints ++ [posInf]

/-- What `complement()` makes of the endpoints of a line. -/
def complementOf (endpoints : List (Endpoint α)) : Option (List (Endpoint α)) :=
  (complementLow (endpoints.map Endpoint.complement)).bind fun endpoints =>
    if (complementHigh endpoints).length % 2 = 0 then some (complementHigh endpoints) else none

end

/-! ## The heap -/

namespace Heap

variable {α : Type} {heap : Heap α}

/-- Different points, which hold these endpoints. -/
structure Holds (heap : Heap α) (points : List ℕ) (endpoints : List (Endpoint α)) : Prop where
  values : points.map heap.endpoints = endpoints
  nodup : points.Nodup
  allocated : ∀ point ∈ points, point < heap.endpointCount

theorem endpoints_foldl_modify {points : List ℕ} (hnodup : points.Nodup)
    (f : Endpoint α → Endpoint α) (point : ℕ) :
    (points.foldl (fun heap point => heap.modifyEndpoint point f) heap).endpoints point =
      if point ∈ points then f (heap.endpoints point) else heap.endpoints point := by
  induction points generalizing heap with
  | nil => rfl
  | cons head points ih =>
      obtain ⟨hhead, hrest⟩ := List.nodup_cons.mp hnodup
      rw [List.foldl_cons, ih hrest]
      simp only [modifyEndpoint, List.mem_cons]
      rcases eq_or_ne point head with rfl | hne
      · rw [if_neg hhead, Function.update_self, if_pos (Or.inl rfl)]
      · rw [Function.update_of_ne hne]
        simp only [hne, false_or]

theorem foldl_modify_count (points : List ℕ) (f : Endpoint α → Endpoint α) :
    (points.foldl (fun heap point => heap.modifyEndpoint point f) heap).endpointCount =
      heap.endpointCount := by
  induction points generalizing heap with
  | nil => rfl
  | cons head points ih => exact ih

theorem foldl_modify_lines (points : List ℕ) (f : Endpoint α → Endpoint α) :
    (points.foldl (fun heap point => heap.modifyEndpoint point f) heap).lines = heap.lines := by
  induction points generalizing heap with
  | nil => rfl
  | cons head points ih => exact ih

/-- Every endpoint is complemented once. -/
theorem Holds.modify {points : List ℕ} {endpoints : List (Endpoint α)}
    (h : heap.Holds points endpoints) (f : Endpoint α → Endpoint α) :
    (points.foldl (fun heap point => heap.modifyEndpoint point f) heap).Holds points
      (endpoints.map f) where
  values := by
    rw [← h.values, List.map_map]
    refine List.map_congr_left fun point hpoint => ?_
    rw [endpoints_foldl_modify h.nodup, if_pos hpoint]
    rfl
  nodup := h.nodup
  allocated := by
    rw [foldl_modify_count]
    exact h.allocated

theorem Holds.add {points : List ℕ} {endpoints : List (Endpoint α)}
    (h : heap.Holds points endpoints) (endpoint : Endpoint α) :
    (heap.addEndpoint endpoint).2.Holds points endpoints ∧
      (heap.addEndpoint endpoint).2.endpoints (heap.addEndpoint endpoint).1 = endpoint ∧
        (heap.addEndpoint endpoint).1 ∉ points := by
  have hfresh : heap.endpointCount ∉ points := fun hmem =>
    absurd (h.allocated _ hmem) (lt_irrefl _)
  refine ⟨⟨?_, h.nodup, fun point hpoint => Nat.lt_succ_of_lt (h.allocated point hpoint)⟩,
    Function.update_self .., hfresh⟩
  rw [← h.values]
  refine List.map_congr_left fun point hpoint => ?_
  have hne : point ≠ heap.endpointCount := fun heq => hfresh (heq ▸ hpoint)
  exact Function.update_of_ne hne ..

/-- A new first point. -/
theorem Holds.cons {points : List ℕ} {endpoints : List (Endpoint α)}
    (h : heap.Holds points endpoints) (endpoint : Endpoint α) :
    (heap.addEndpoint endpoint).2.Holds ((heap.addEndpoint endpoint).1 :: points)
      (endpoint :: endpoints) := by
  obtain ⟨hrest, hself, hfresh⟩ := h.add endpoint
  refine ⟨?_, List.nodup_cons.mpr ⟨hfresh, h.nodup⟩, ?_⟩
  · rw [List.map_cons, hself, hrest.values]
  · intro point hpoint
    rcases List.mem_cons.mp hpoint with rfl | hpoint
    · exact Nat.lt_succ_self _
    · exact hrest.allocated point hpoint

/-- A new last point. -/
theorem Holds.concat {points : List ℕ} {endpoints : List (Endpoint α)}
    (h : heap.Holds points endpoints) (endpoint : Endpoint α) :
    (heap.addEndpoint endpoint).2.Holds (points ++ [(heap.addEndpoint endpoint).1])
      (endpoints ++ [endpoint]) := by
  obtain ⟨hrest, hself, hfresh⟩ := h.add endpoint
  refine ⟨?_, ?_, ?_⟩
  · rw [List.map_append, hrest.values, List.map_cons, List.map_nil, hself]
  · rw [List.nodup_append_comm]
    exact List.nodup_cons.mpr ⟨hfresh, h.nodup⟩
  · intro point hpoint
    rcases List.mem_append.mp hpoint with hpoint | hpoint
    · exact hrest.allocated point hpoint
    · rw [List.mem_singleton.mp hpoint]
      exact Nat.lt_succ_self _

theorem Holds.tail {points : List ℕ} {endpoints : List (Endpoint α)}
    (h : heap.Holds points endpoints) : heap.Holds points.tail endpoints.tail where
  values := by rw [← h.values, List.map_tail]
  nodup := h.nodup.tail
  allocated point hpoint := h.allocated point (List.mem_of_mem_tail hpoint)

theorem Holds.dropLast {points : List ℕ} {endpoints : List (Endpoint α)}
    (h : heap.Holds points endpoints) : heap.Holds points.dropLast endpoints.dropLast where
  values := by rw [← h.values, List.map_dropLast]
  nodup := h.nodup.sublist (List.dropLast_sublist _)
  allocated point hpoint := h.allocated point (List.mem_of_mem_dropLast hpoint)

/-- The points after the lower bound was looked at. -/
def adjustLow (heap : Heap α) (points : List ℕ) : Option (List ℕ × Heap α) :=
  points.head?.map fun lowerBound =>
    if !(heap.endpoints lowerBound).value.isFinite then (points.tail, heap)
    else ((heap.addEndpoint negInf).1 :: points, (heap.addEndpoint negInf).2)

/-- The points after the upper bound was looked at. -/
def adjustHigh (heap : Heap α) (points : List ℕ) : List ℕ × Heap α :=
  if !(points.getLast?.any fun point => (heap.endpoints point).value.isFinite) then
    (points.dropLast, heap)
  else (points ++ [(heap.addEndpoint posInf).1], (heap.addEndpoint posInf).2)

/-- `complement()` in its parts. -/
theorem complement_eq (heap : Heap α) (line : ℕ) :
    heap.complement line =
      (((heap.lines line).foldl (fun heap point => heap.modifyEndpoint point Endpoint.complement)
        heap).adjustLow (heap.lines line)).bind fun low =>
          if (low.2.adjustHigh low.1).1.length % 2 = 0 then
            some ((low.2.adjustHigh low.1).2.setLine line (low.2.adjustHigh low.1).1)
          else none := by
  unfold Heap.complement adjustLow
  cases heap.lines line with
  | nil => rfl
  | cons point points => rfl

theorem Holds.adjustLow {points : List ℕ} {endpoints : List (Endpoint α)}
    (h : heap.Holds points endpoints) :
    (heap.adjustLow points = none ∧ complementLow endpoints = none) ∨
      ∃ low next, heap.adjustLow points = some low ∧ complementLow endpoints = some next ∧
        low.2.Holds low.1 next := by
  cases points with
  | nil =>
      obtain rfl : [] = endpoints := h.values
      exact Or.inl ⟨rfl, rfl⟩
  | cons point points =>
      obtain ⟨lowerBound, rest, rfl⟩ : ∃ lowerBound rest, lowerBound :: rest = endpoints :=
        ⟨_, _, h.values⟩
      obtain ⟨hvalue, -⟩ := List.cons_eq_cons.mp h.values
      refine Or.inr ⟨_, _, rfl, rfl, ?_⟩
      dsimp only
      rw [hvalue]
      split_ifs with hfinite
      · exact h.tail
      · exact h.cons negInf

theorem Holds.adjustHigh {points : List ℕ} {endpoints : List (Endpoint α)}
    (h : heap.Holds points endpoints) :
    (heap.adjustHigh points).2.Holds (heap.adjustHigh points).1 (complementHigh endpoints) := by
  have hlast : (points.getLast?.any fun point => (heap.endpoints point).value.isFinite) =
      endpoints.getLast?.any fun upperBound => upperBound.value.isFinite := by
    rw [← h.values, List.getLast?_map, Option.any_map]
  unfold Heap.adjustHigh complementHigh
  rw [hlast]
  split_ifs with hfinite
  · exact h.dropLast
  · exact h.concat posInf

/-- `complement()` of a line, on the endpoints it holds. -/
theorem Holds.complement {line : ℕ} {endpoints : List (Endpoint α)}
    (h : heap.Holds (heap.lines line) endpoints) :
    (heap.complement line = none ∧ complementOf endpoints = none) ∨
      ∃ heap' next, heap.complement line = some heap' ∧ complementOf endpoints = some next ∧
        heap'.Holds (heap'.lines line) next := by
  rw [complement_eq, complementOf]
  rcases (h.modify Endpoint.complement).adjustLow with
    ⟨hpoints, hendpoints⟩ | ⟨low, next, hpoints, hendpoints, hlow⟩
  · rw [hpoints, hendpoints]
    exact Or.inl ⟨rfl, rfl⟩
  · have hhigh := hlow.adjustHigh
    have hlength : (low.2.adjustHigh low.1).1.length = (complementHigh next).length := by
      rw [← hhigh.values, List.length_map]
    rw [hpoints, hendpoints, Option.bind_some, Option.bind_some, hlength]
    split_ifs with heven
    · refine Or.inr ⟨_, _, rfl, rfl, ?_⟩
      have hself : ((low.2.adjustHigh low.1).2.setLine line (low.2.adjustHigh low.1).1).lines line =
          (low.2.adjustHigh low.1).1 := Function.update_self ..
      rw [hself]
      exact ⟨hhigh.values, hhigh.nodup, hhigh.allocated⟩
    · exact Or.inl ⟨rfl, rfl⟩

end Heap

end DatabaseJones.IndexBounds
