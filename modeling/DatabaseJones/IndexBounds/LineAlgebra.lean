import DatabaseJones.IndexBounds.LineStack

/-!
# The algebra of number lines

Unions and intersections of well-formed lines are always right, complements of lines with a
finite endpoint and none at NULL.
-/

namespace DatabaseJones.IndexBounds

open DatabaseJones.Library

/-! ## The ends of the key space -/

section

variable {α : Type*}

/-- An end of the key space, if the line reaches it. -/
def ends (reached : Bool) (endpoint : Endpoint α) : List (Endpoint α) :=
  if reached then [endpoint] else []

/-- A line has a finite endpoint, and none at NULL. -/
structure Proper (endpoints : List (Endpoint α)) : Prop where
  finite : ∃ endpoint ∈ endpoints, endpoint.value.isFinite = true
  nonNull : ∀ endpoint ∈ endpoints, endpoint.part ≠ .null

theorem Endpoint.Plain.isFinite_iff {endpoint : Endpoint α} (h : endpoint.Plain) :
    endpoint.value.isFinite = true ↔
      endpoint.part ≠ .negInf ∧ endpoint.part ≠ .null ∧ endpoint.part ≠ .posInf := by
  rw [h.value, Value.isFinite]
  cases endpoint.part <;> simp [KeyPart.isFinite]

/-! ## Complements between the ends -/

theorem Endpoint.complement_complement (endpoint : Endpoint α) :
    endpoint.complement.complement = endpoint := by
  obtain ⟨value, inclusive, isLow⟩ := endpoint
  unfold Endpoint.complement
  cases hfinite : value.isFinite <;> cases isLow <;> simp

theorem complementLow_ends (low : Bool) {endpoints : List (Endpoint α)}
    (hfinite : ∃ e ∈ endpoints.head?, e.value.isFinite = true) :
    complementLow ((ends low negInf).map Endpoint.complement ++ endpoints) =
      some (ends (!low) negInf ++ endpoints) := by
  obtain ⟨e, he, hfin⟩ := hfinite
  cases low with
  | false =>
      rw [complementLow, ends]
      simp only [Bool.false_eq_true, if_false, List.map_nil, List.nil_append]
      rw [Option.mem_def.mp he, Option.map_some, hfin]
      rfl
  | true => rfl

theorem complementHigh_ends (high : Bool) {endpoints : List (Endpoint α)}
    (hfinite : ∃ e ∈ endpoints.getLast?, e.value.isFinite = true) :
    complementHigh (endpoints ++ (ends high posInf).map Endpoint.complement) =
      endpoints ++ ends (!high) posInf := by
  obtain ⟨e, he, hfin⟩ := hfinite
  cases high with
  | false =>
      rw [complementHigh, ends]
      simp only [Bool.false_eq_true, if_false, List.map_nil, List.append_nil]
      rw [Option.mem_def.mp he, Option.any_some, hfin]
      rfl
  | true =>
      have hlast : (endpoints ++ (ends true posInf).map Endpoint.complement).getLast? =
          some (Endpoint.complement posInf) := List.getLast?_concat
      rw [complementHigh, hlast]
      change (endpoints ++ [Endpoint.complement posInf]).dropLast = endpoints ++ []
      rw [List.dropLast_concat, List.append_nil]

theorem length_ends (reached : Bool) (endpoint : Endpoint α) :
    (ends reached endpoint).length = if reached then 1 else 0 := by
  cases reached <;> rfl

/-- A line that has the other ends has as many endpoints, or two more or less. -/
theorem even_ends {low high : Bool} {middle : List (Endpoint α)}
    (heven : (ends low negInf ++ middle ++ ends high posInf).length % 2 = 0) :
    (ends (!low) negInf ++ middle.map Endpoint.complement ++ ends (!high) posInf).length % 2 =
      0 := by
  simp only [List.length_append, List.length_map, length_ends] at heven ⊢
  cases low <;> cases high <;> simp at heven ⊢ <;> omega

/-- The complement has the other ends, and the finite endpoints complemented. -/
theorem complementOf_ends {low high : Bool} {middle : List (Endpoint α)} (hmiddle : middle ≠ [])
    (hfinite : ∀ e ∈ middle, e.value.isFinite = true)
    (heven : (ends low negInf ++ middle ++ ends high posInf).length % 2 = 0) :
    complementOf (ends low negInf ++ middle ++ ends high posInf) =
      some (ends (!low) negInf ++ middle.map Endpoint.complement ++ ends (!high) posInf) := by
  have hne : middle.map Endpoint.complement ≠ [] := by simpa using hmiddle
  have hfiniteMap : ∀ e ∈ middle.map Endpoint.complement, e.value.isFinite = true := by
    intro e he
    obtain ⟨e, hmem, rfl⟩ := List.mem_map.mp he
    exact hfinite e hmem
  have hhead : ∃ e ∈ (middle.map Endpoint.complement ++
      (ends high posInf).map Endpoint.complement).head?, e.value.isFinite = true := by
    obtain ⟨e, rest, hcons⟩ := List.exists_cons_of_ne_nil hne
    rw [hcons] at hfiniteMap ⊢
    exact ⟨e, rfl, hfiniteMap e List.mem_cons_self⟩
  have hlast : ∃ e ∈ (ends (!low) negInf ++ middle.map Endpoint.complement).getLast?,
      e.value.isFinite = true := by
    refine ⟨(middle.map Endpoint.complement).getLast hne, ?_,
      hfiniteMap _ (List.getLast_mem hne)⟩
    rw [List.getLast?_append, List.getLast?_eq_some_getLast hne]
    rfl
  rw [complementOf, List.map_append, List.map_append, List.append_assoc,
    complementLow_ends low hhead, Option.bind_some, ← List.append_assoc,
    complementHigh_ends high hlast, if_pos (even_ends heven)]

theorem transition_complement {endpoint : Endpoint α} (hfinite : endpoint.value.isFinite = true)
    (hside : endpoint.isLow.isSome = true) :
    endpoint.complement.transition = endpoint.transition.flip := by
  obtain ⟨value, inclusive, isLow⟩ := endpoint
  obtain ⟨low, rfl⟩ := Option.isSome_iff_exists.mp hside
  simp only [Endpoint.complement, Endpoint.transition, Transition.flip, Transition.cut,
    Transition.isLow, Endpoint.part] at hfinite ⊢
  rw [hfinite]
  cases inclusive <;> cases low <;> rfl

/-- The other ends and the complements have the flipped transitions. -/
theorem transitions_ends {low high : Bool} {middle : List (Endpoint α)}
    (hfinite : ∀ e ∈ middle, e.value.isFinite = true)
    (hside : ∀ e ∈ middle, e.isLow.isSome = true) :
    (ends (!low) negInf ++ middle.map Endpoint.complement ++ ends (!high) posInf).map
        Endpoint.transition =
      (ends (!low) negInf).map Endpoint.transition ++
        (middle.map Endpoint.transition).map Transition.flip ++
          (ends (!high) posInf).map Endpoint.transition := by
  rw [List.map_append, List.map_append, List.map_map, List.map_map]
  congr 2
  exact List.map_congr_left fun e he => transition_complement (hfinite e he) (hside e he)

/-- The other ends and the flipped transitions take turns as well. -/
theorem alternates_ends {low high : Bool} {middle : List (Transition (Cut α))}
    (h : Alternates false ((ends low negInf).map Endpoint.transition ++ middle ++
      (ends high posInf).map Endpoint.transition)) :
    Alternates false ((ends (!low) negInf).map Endpoint.transition ++
      middle.map Transition.flip ++ (ends (!high) posInf).map Endpoint.transition) := by
  have hmiddle : Alternates low (middle ++ (ends high posInf).map Endpoint.transition) := by
    rw [List.append_assoc] at h
    cases low with
    | false => exact h
    | true => exact h.2
  have hflip : Alternates (!low) (middle.map Transition.flip ++
      (ends (!high) posInf).map Endpoint.transition) := by
    clear h
    induction middle generalizing low with
    | nil =>
        cases high with
        | false =>
            obtain rfl : low = false := hmiddle
            exact ⟨rfl, rfl⟩
        | true =>
            obtain rfl : low = true := by
              have hturn : false = !low := hmiddle.1
              simpa using hturn.symm
            exact rfl
    | cons p middle ih =>
        refine ⟨?_, ih hmiddle.2⟩
        rw [Transition.isLow_flip, hmiddle.1]
  rw [List.append_assoc]
  cases low with
  | false => exact ⟨rfl, hflip⟩
  | true => exact hflip

/-! ## Proper lines -/

variable [LinearOrder α]

instance (endpoints : List (Endpoint α)) : Decidable (Proper endpoints) :=
  decidable_of_iff ((∃ endpoint ∈ endpoints, endpoint.value.isFinite = true) ∧
      ∀ endpoint ∈ endpoints, endpoint.part ≠ .null)
    ⟨fun ⟨finite, nonNull⟩ => ⟨finite, nonNull⟩, fun ⟨finite, nonNull⟩ => ⟨finite, nonNull⟩⟩

theorem Endpoint.part_le_of_lt {this that : Endpoint α} (h : this.transition < that.transition) :
    this.part ≤ that.part := by
  have hcut : this.transition.cut ≤ that.transition.cut := Transition.cut_le_of_le h.le
  rw [Endpoint.cut_transition, Endpoint.cut_transition] at hcut
  rcases Prod.Lex.le_iff.mp hcut with hlt | ⟨heq, -⟩
  · exact hlt.le
  · exact heq.le

/-- Only the first endpoint is at `-Infinity`. -/
theorem part_ne_negInf {endpoint : Endpoint α} {endpoints : List (Endpoint α)}
    (hplain : ∀ e ∈ endpoint :: endpoints, e.Plain)
    (hsorted : ((endpoint :: endpoints).map Endpoint.transition).Pairwise (· < ·)) :
    ∀ e ∈ endpoints, e.part ≠ .negInf := by
  intro e he hpart
  have hlt : endpoint.transition < e.transition :=
    (List.pairwise_cons.mp hsorted).1 _ (List.mem_map_of_mem he)
  have hfirst : endpoint.part = .negInf :=
    le_antisymm (hpart ▸ Endpoint.part_le_of_lt hlt) (KeyPart.negInf_le _)
  rw [(hplain endpoint List.mem_cons_self).negInf hfirst,
    (hplain e (List.mem_cons_of_mem _ he)).negInf hpart] at hlt
  exact lt_irrefl _ hlt

/-- Only the last endpoint is at `Infinity`. -/
theorem part_ne_posInf {endpoint : Endpoint α} {endpoints : List (Endpoint α)}
    (hplain : ∀ e ∈ endpoints ++ [endpoint], e.Plain)
    (hsorted : ((endpoints ++ [endpoint]).map Endpoint.transition).Pairwise (· < ·)) :
    ∀ e ∈ endpoints, e.part ≠ .posInf := by
  intro e he hpart
  rw [List.map_append] at hsorted
  have hlt : e.transition < endpoint.transition :=
    (List.pairwise_append.mp hsorted).2.2 _ (List.mem_map_of_mem he) _ (by simp)
  have hlast : endpoint.part = .posInf :=
    le_antisymm (KeyPart.le_posInf _) (hpart ▸ Endpoint.part_le_of_lt hlt)
  rw [(hplain endpoint (by simp)).posInf hlast,
    (hplain e (List.mem_append_left _ he)).posInf hpart] at hlt
  exact lt_irrefl _ hlt

/-- A proper line is made of finite endpoints between the ends that it reaches. -/
theorem Proper.decompose {endpoints : List (Endpoint α)} (h : Proper endpoints)
    (hplain : ∀ e ∈ endpoints, e.Plain)
    (hsorted : (endpoints.map Endpoint.transition).Pairwise (· < ·)) :
    ∃ low high middle, endpoints = ends low negInf ++ middle ++ ends high posInf ∧
      middle ≠ [] ∧ ∀ e ∈ middle, e.value.isFinite = true := by
  obtain ⟨low, rest, hlow, hrest⟩ : ∃ low rest, endpoints = ends low negInf ++ rest ∧
      ∀ e ∈ rest, e.part ≠ .negInf := by
    cases endpoints with
    | nil => exact ⟨false, [], rfl, by simp⟩
    | cons endpoint endpoints =>
        have hothers := part_ne_negInf hplain hsorted
        by_cases hpart : endpoint.part = .negInf
        · refine ⟨true, endpoints, ?_, hothers⟩
          rw [(hplain endpoint List.mem_cons_self).negInf hpart]
          rfl
        · refine ⟨false, endpoint :: endpoints, rfl, ?_⟩
          rw [List.forall_mem_cons]
          exact ⟨hpart, hothers⟩
  subst hlow
  have hplainRest : ∀ e ∈ rest, e.Plain := fun e he => hplain e (List.mem_append_right _ he)
  obtain ⟨high, middle, hhigh, hmiddle⟩ : ∃ high middle, rest = middle ++ ends high posInf ∧
      ∀ e ∈ middle, e.part ≠ .posInf := by
    rcases List.eq_nil_or_concat rest with rfl | ⟨middle, endpoint, rfl⟩
    · exact ⟨false, [], rfl, by simp⟩
    · have hsortedRest := (List.pairwise_append.mp (List.map_append ▸ hsorted)).2.1
      rw [List.concat_eq_append] at hplainRest hsortedRest ⊢
      have hothers := part_ne_posInf hplainRest hsortedRest
      by_cases hpart : endpoint.part = .posInf
      · refine ⟨true, middle, ?_, hothers⟩
        rw [(hplainRest endpoint (by simp)).posInf hpart]
        rfl
      · refine ⟨false, middle ++ [endpoint], (List.append_nil _).symm, ?_⟩
        rw [List.forall_mem_append]
        exact ⟨hothers, by simpa using hpart⟩
  subst hhigh
  have hfinite : ∀ e ∈ middle, e.value.isFinite = true := by
    intro e he
    refine (hplainRest e (List.mem_append_left _ he)).isFinite_iff.mpr
      ⟨hrest e (List.mem_append_left _ he), h.nonNull e ?_, hmiddle e he⟩
    exact List.mem_append_right _ (List.mem_append_left _ he)
  refine ⟨low, high, middle, (List.append_assoc ..).symm, ?_, hfinite⟩
  rintro rfl
  obtain ⟨e, he, hfin⟩ := h.finite
  rcases List.mem_append.mp he with hend | hend
  · cases low with
    | false => exact List.not_mem_nil hend
    | true =>
        rw [List.mem_singleton.mp hend] at hfin
        exact absurd hfin Bool.false_ne_true
  · cases high with
    | false => exact List.not_mem_nil hend
    | true =>
        rw [List.mem_singleton.mp hend] at hfin
        exact absurd hfin Bool.false_ne_true

theorem cut_negInf_le (cut : Cut α) : (negInf : Endpoint α).transition.cut ≤ cut := by
  rw [Endpoint.cut_transition, Prod.Lex.le_iff]
  rcases eq_or_lt_of_le (KeyPart.negInf_le (ofLex cut).1) with heq | hlt
  · exact Or.inr ⟨heq, Bool.false_le _⟩
  · exact Or.inl hlt

theorem cut_le_posInf (cut : Cut α) : cut ≤ (posInf : Endpoint α).transition.cut := by
  rw [Endpoint.cut_transition, Prod.Lex.le_iff]
  rcases eq_or_lt_of_le (KeyPart.le_posInf (ofLex cut).1) with heq | hlt
  · exact Or.inr ⟨heq, Bool.le_true _⟩
  · exact Or.inl hlt

theorem lt_cut_posInf (point : KeyPart α) :
    cutBefore point < (posInf : Endpoint α).transition.cut := by
  rw [Endpoint.cut_transition, cutBefore, Prod.Lex.lt_iff]
  rcases eq_or_lt_of_le (KeyPart.le_posInf point) with heq | hlt
  · exact Or.inr ⟨heq, Bool.false_lt_true⟩
  · exact Or.inl hlt

/-- What a line with these ends covers is decided by the endpoints between them. -/
theorem covers_ends (point : KeyPart α) (low high : Bool) (middle : List (Transition (Cut α))) :
    Covers (cutBefore point) false
        ((ends low negInf).map Endpoint.transition ++ middle ++
          (ends high posInf).map Endpoint.transition) ↔
      Covers (cutBefore point) low middle := by
  have hhigh : Covers (cutBefore point) low
      (middle ++ (ends high posInf).map Endpoint.transition) ↔
        Covers (cutBefore point) low middle := by
    cases high with
    | false => rw [ends, if_neg Bool.false_ne_true, List.map_nil, List.append_nil]
    | true => exact covers_concat (lt_cut_posInf point) low middle
  rw [List.append_assoc, ← hhigh]
  cases low with
  | false => rfl
  | true => exact iff_of_eq (if_pos (cut_negInf_le _))

/-- The cuts of the flipped transitions ascend between the ends. -/
theorem sorted_ends (low high : Bool) {middle : List (Transition (Cut α))}
    (hsorted : middle.Pairwise (· < ·)) :
    ((ends low negInf).map Endpoint.transition ++ middle.map Transition.flip ++
      (ends high posInf).map Endpoint.transition).Pairwise
        fun (p q : Transition (Cut α)) => p.cut ≤ q.cut := by
  have hmiddle : (middle.map Transition.flip).Pairwise
      fun (p q : Transition (Cut α)) => p.cut ≤ q.cut :=
    List.pairwise_map.mpr (hsorted.imp fun {p q} hlt =>
      Transition.cut_le_of_le (p := p) (q := q) (le_of_lt hlt))
  have hhigh : (middle.map Transition.flip ++ (ends high posInf).map Endpoint.transition).Pairwise
      fun (p q : Transition (Cut α)) => p.cut ≤ q.cut := by
    cases high with
    | false => rwa [ends, if_neg Bool.false_ne_true, List.map_nil, List.append_nil]
    | true =>
        refine List.pairwise_append.mpr ⟨hmiddle, List.pairwise_singleton _ _, ?_⟩
        intro p _ q hq
        rw [List.mem_singleton.mp hq]
        exact cut_le_posInf _
  rw [List.append_assoc]
  cases low with
  | false => exact hhigh
  | true => exact List.pairwise_cons.mpr ⟨fun p _ => cut_negInf_le _, hhigh⟩

/-- The complement of a proper line denotes the other points, and its complement is the line
again. -/
theorem Proper.complementOf_spec {endpoints : List (Endpoint α)} (h : Proper endpoints)
    (hplain : ∀ e ∈ endpoints, e.Plain)
    (hline : IsLine (endpoints.map Endpoint.transition)) :
    ∃ next, complementOf endpoints = some next ∧ denotes next = (denotes endpoints)ᶜ ∧
      complementOf next = some endpoints := by
  obtain ⟨low, high, middle, rfl, hmiddle, hfinite⟩ := h.decompose hplain hline.sorted
  have hside : ∀ e ∈ middle, e.isLow.isSome = true := fun e he =>
    (hplain e (List.mem_append_left _ (List.mem_append_right _ he))).side
  have heven : (ends low negInf ++ middle ++ ends high (posInf : Endpoint α)).length % 2 = 0 := by
    have hlength := hline.alternates.length_even
    rw [List.length_map] at hlength
    exact hlength
  have hparts : (ends low negInf ++ middle ++ ends high posInf).map Endpoint.transition =
      (ends low negInf).map Endpoint.transition ++ middle.map Endpoint.transition ++
        (ends high posInf).map Endpoint.transition := by
    rw [List.map_append, List.map_append]
  refine ⟨_, complementOf_ends hmiddle hfinite heven, ?_, ?_⟩
  · ext point
    have hmiddleSorted : (middle.map Endpoint.transition).Pairwise (· < ·) := by
      have hall := hline.sorted
      rw [hparts] at hall
      exact (List.pairwise_append.mp (List.pairwise_append.mp hall).1).2.1
    have hsorted := sorted_ends (!low) (!high) hmiddleSorted
    rw [← transitions_ends hfinite hside] at hsorted
    have halternates := hline.alternates
    rw [hparts] at halternates
    rw [mem_denotes_iff ?_ hsorted, transitions_ends hfinite hside, covers_ends, covers_flip,
      Set.mem_compl_iff, mem_denotes_iff hline.alternates
        (hline.sorted.imp fun hlt => Transition.cut_le_of_le hlt.le), hparts, covers_ends]
    rw [transitions_ends hfinite hside]
    exact alternates_ends halternates
  · have hne : middle.map Endpoint.complement ≠ [] := by simpa using hmiddle
    have hfiniteMap : ∀ e ∈ middle.map Endpoint.complement, e.value.isFinite = true := by
      intro e he
      obtain ⟨e, hmem, rfl⟩ := List.mem_map.mp he
      exact hfinite e hmem
    rw [complementOf_ends hne hfiniteMap, Bool.not_not, Bool.not_not, List.map_map]
    · congr 3
      have hid : (Endpoint.complement ∘ Endpoint.complement : Endpoint α → Endpoint α) = id :=
        funext Endpoint.complement_complement
      rw [hid, List.map_id]
    · exact even_ends heven

/-! ## Other lines -/

theorem exists_negInf_of_mem_denotes {endpoints : List (Endpoint α)}
    (h : .negInf ∈ denotes endpoints) : ∃ e ∈ endpoints, e.part = .negInf := by
  match endpoints, h with
  | low :: high :: endpoints, h =>
      rcases h with ⟨hlow, -⟩ | hrest
      · refine ⟨low, List.mem_cons_self, le_antisymm ?_ (KeyPart.negInf_le _)⟩
        unfold Endpoint.FromOn at hlow
        split_ifs at hlow with hinclusive
        · exact hlow
        · exact hlow.le
      · obtain ⟨e, he, hpart⟩ := exists_negInf_of_mem_denotes hrest
        exact ⟨e, List.mem_cons_of_mem _ (List.mem_cons_of_mem _ he), hpart⟩

omit [LinearOrder α] in
/-- `complement()` adds no value but `Infinity`. -/
theorem part_of_mem_complementHigh {endpoints : List (Endpoint α)} {e : Endpoint α}
    (he : e ∈ complementHigh endpoints) : e ∈ endpoints ∨ e = posInf := by
  unfold complementHigh at he
  split_ifs at he with hfinite
  · exact Or.inl (List.mem_of_mem_dropLast he)
  · simpa using he

omit [LinearOrder α] in
theorem complementHigh_cons_cons (first second : Endpoint α) (endpoints : List (Endpoint α)) :
    complementHigh (first :: second :: endpoints) =
      first :: complementHigh (second :: endpoints) := by
  unfold complementHigh
  rw [List.getLast?_cons_cons]
  split_ifs with hfinite
  · rfl
  · rfl

omit [LinearOrder α] in
/-- If the first endpoint is not finite, the complement is made of the others. -/
theorem complementOf_of_not_finite {endpoint : Endpoint α} {endpoints next : List (Endpoint α)}
    (hfinite : endpoint.value.isFinite = false)
    (hnext : complementOf (endpoint :: endpoints) = some next) :
    next = complementHigh (endpoints.map Endpoint.complement) := by
  have hvalue : endpoint.complement.value.isFinite = false := hfinite
  rw [complementOf, List.map_cons, complementLow, List.head?_cons, Option.map_some, hvalue,
    Option.bind_some] at hnext
  simp only [Bool.not_false, if_true, List.tail_cons] at hnext
  exact (Option.some_inj.mp (Option.ite_none_right_eq_some.mp hnext).2).symm

/-- Then it does not reach `-Infinity` unless one of the others is there. -/
theorem negInf_notMem_of_not_finite {endpoint : Endpoint α} {endpoints next : List (Endpoint α)}
    (hfinite : endpoint.value.isFinite = false)
    (hnext : complementOf (endpoint :: endpoints) = some next)
    (hothers : ∀ e ∈ endpoints, e.part ≠ .negInf) : .negInf ∉ denotes next := by
  intro hmem
  obtain ⟨e, he, hpart⟩ := exists_negInf_of_mem_denotes hmem
  rw [complementOf_of_not_finite hfinite hnext] at he
  rcases part_of_mem_complementHigh he with hmap | rfl
  · obtain ⟨e', he', rfl⟩ := List.mem_map.mp hmap
    exact hothers e' he' hpart
  · exact absurd hpart (by simp [posInf, Endpoint.part])

/-- Nothing beyond a finite endpoint is at NULL. -/
theorem nonNull_of_le {endpoint : Endpoint α} (h : endpoint.Plain)
    (hfinite : endpoint.value.isFinite = true) {part : KeyPart α} (hle : endpoint.part ≤ part) :
    part ≠ .null := by
  rintro rfl
  obtain ⟨hneg, hnull, -⟩ := h.isFinite_iff.mp hfinite
  cases hpart : endpoint.part with
  | negInf => exact hneg hpart
  | null => exact hnull hpart
  | val value =>
      rw [hpart] at hle
      exact absurd (KeyPart.null_lt_val value) (not_lt.mpr hle)
  | posInf =>
      rw [hpart] at hle
      exact absurd KeyPart.null_lt_posInf (not_lt.mpr hle)

/-- A line whose complement denotes the other points, and is complemented to the line again,
is proper. -/
theorem proper_of_complementOf {endpoints next again : List (Endpoint α)}
    (hplain : ∀ e ∈ endpoints, e.Plain) (hline : IsLine (endpoints.map Endpoint.transition))
    (hnext : complementOf endpoints = some next) (hother : denotes next = (denotes endpoints)ᶜ)
    (hagain : complementOf next = some again) (hsame : denotes again = denotes endpoints) :
    Proper endpoints := by
  cases endpoints with
  | nil => exact absurd hnext (by simp [complementOf, complementLow])
  | cons first endpoints =>
  cases endpoints with
  | nil =>
      have hlength := hline.alternates.length_even
      exact absurd hlength (by simp)
  | cons second endpoints =>
      have hothers := part_ne_negInf hplain hline.sorted
      have hfirst := hplain first List.mem_cons_self
      have hsecond := hplain second (List.mem_cons_of_mem _ List.mem_cons_self)
      obtain ⟨hbeyond, hsorted⟩ := List.pairwise_cons.mp hline.sorted
      have hle : ∀ e ∈ second :: endpoints, first.part ≤ e.part := fun e he =>
        Endpoint.part_le_of_lt (hbeyond _ (List.mem_map_of_mem he))
      have hleSecond : ∀ e ∈ endpoints, second.part ≤ e.part := fun e he =>
        Endpoint.part_le_of_lt ((List.pairwise_cons.mp hsorted).1 _ (List.mem_map_of_mem he))
      cases hfiniteFirst : first.value.isFinite with
      | true =>
          -- every endpoint is at least at the first one, and that is a value
          refine ⟨⟨first, List.mem_cons_self, hfiniteFirst⟩, fun e he => ?_⟩
          rcases List.mem_cons.mp he with rfl | he
          · exact nonNull_of_le hfirst hfiniteFirst le_rfl
          · exact nonNull_of_le hfirst hfiniteFirst (hle e he)
      | false =>
          have hnegInf : .negInf ∉ denotes next :=
            negInf_notMem_of_not_finite hfiniteFirst hnext hothers
          have hmem : .negInf ∈ denotes (first :: second :: endpoints) := by
            rw [hother] at hnegInf
            exact not_not.mp hnegInf
          obtain ⟨e, he, hpart⟩ := exists_negInf_of_mem_denotes hmem
          have hfirstPart : first.part = .negInf := by
            rcases List.mem_cons.mp he with rfl | he
            · exact hpart
            · exact absurd hpart (hothers e he)
          cases hfiniteSecond : second.value.isFinite with
          | true =>
              refine ⟨⟨second, by simp, hfiniteSecond⟩, fun e he => ?_⟩
              rcases List.mem_cons.mp he with rfl | he
              · rw [hfirstPart]
                exact fun hnull => by cases hnull
              rcases List.mem_cons.mp he with rfl | he
              · exact nonNull_of_le hsecond hfiniteSecond le_rfl
              · exact nonNull_of_le hsecond hfiniteSecond (hleSecond e he)
          | false =>
              -- the second complement loses the second endpoint as well
              have hvalue : second.complement.value.isFinite = false := hfiniteSecond
              have heq := complementOf_of_not_finite hfiniteFirst hnext
              cases endpoints with
              | nil =>
                  have hnil : next = [] := by
                    rw [heq, List.map_cons, List.map_nil, complementHigh, List.getLast?_singleton,
                      Option.any_some, hvalue]
                    rfl
                  rw [hnil] at hagain
                  exact absurd hagain (by simp [complementOf, complementLow])
              | cons third endpoints =>
                  rw [List.map_cons, List.map_cons, complementHigh_cons_cons] at heq
                  rw [heq] at hagain
                  refine absurd (hsame ▸ hmem) (negInf_notMem_of_not_finite hvalue hagain ?_)
                  intro e he
                  rcases part_of_mem_complementHigh he with hmap | rfl
                  · rw [← List.map_cons] at hmap
                    obtain ⟨e', he', rfl⟩ := List.mem_map.mp hmap
                    exact hothers e' (List.mem_cons_of_mem _ he')
                  · simp [posInf, Endpoint.part]

end

/-! ## Lines in the heap -/

namespace Heap

variable {α : Type} [LinearOrder α]

/-- The unions, intersections and complements of lines mean those of sets of points. -/
structure LineAlgebra (heap : Heap α) (lines : List ℕ) (line : ℕ) : Prop where
  union : ∃ result next, heap.union lines = some (result, next) ∧ next.WellFormed result ∧
    next.denotes result = {point | ∃ line ∈ lines, point ∈ heap.denotes line}
  intersection : ∃ result next, heap.intersection lines = some (result, next) ∧
    next.WellFormed result ∧
      next.denotes result = {point | ∀ line ∈ lines, point ∈ heap.denotes line}
  complement : ∃ next, heap.complement line = some next ∧
    next.denotes line = (heap.denotes line)ᶜ ∧
      ∃ again, next.complement line = some again ∧ again.denotes line = heap.denotes line

theorem WellFormed.holds {heap : Heap α} {line : ℕ} (h : heap.WellFormed line) :
    heap.Holds (heap.lines line) (heap.pointsOf line) where
  values := rfl
  nodup := (List.pairwise_map.mp h.isLine_transitions.sorted).imp fun hlt heq =>
    absurd (heq ▸ hlt) (lt_irrefl _)
  allocated := h.allocated

/-- In a heap of any lines, the operations are right on well-formed lines exactly if there
are lines to unite, and the line to complement has a finite endpoint and none at NULL. -/
theorem lineAlgebra_iff (heap : Heap α) (lines : List ℕ) (line : ℕ)
    (hlines : ∀ line ∈ lines, heap.WellFormed line) (hline : heap.WellFormed line) :
    heap.LineAlgebra lines line ↔ lines ≠ [] ∧ Proper (heap.pointsOf line) := by
  constructor
  · intro h
    constructor
    · rintro rfl
      obtain ⟨result, next, hunion, -⟩ := h.union
      exact absurd hunion (by simp [union, sweepLines, mergeLines])
    · obtain ⟨next, hnext, hother, again, hagain, hsame⟩ := h.complement
      rcases hline.holds.complement with ⟨hnone, -⟩ | ⟨heap', endpoints, hheap, hendpoints, hholds⟩
      · exact absurd (hnone.symm.trans hnext) (by simp)
      cases hheap.symm.trans hnext
      rcases hholds.complement with ⟨hnone, -⟩ | ⟨heap'', endpoints', hheap', hendpoints', hholds'⟩
      · exact absurd (hnone.symm.trans hagain) (by simp)
      cases hheap'.symm.trans hagain
      have hpoints : next.pointsOf line = endpoints := hholds.values
      have hpoints' : again.pointsOf line = endpoints' := hholds'.values
      rw [Heap.denotes, hpoints] at hother
      rw [Heap.denotes, hpoints'] at hsame
      exact proper_of_complementOf hline.plain hline.isLine hendpoints hother hendpoints' hsame
  · rintro ⟨hne, hproper⟩
    refine ⟨union_spec hne hlines, intersection_spec hne hlines, ?_⟩
    obtain ⟨endpoints, hendpoints, hother, hback⟩ :=
      hproper.complementOf_spec hline.plain hline.isLine
    rcases hline.holds.complement with ⟨-, hnone⟩ | ⟨next, _, hnext, hsome, hholds⟩
    · exact absurd (hnone.symm.trans hendpoints) (by simp)
    cases hsome.symm.trans hendpoints
    rcases hholds.complement with ⟨-, hnone⟩ | ⟨again, _, hagain, hsome, hholds'⟩
    · exact absurd (hnone.symm.trans hback) (by simp)
    cases hsome.symm.trans hback
    refine ⟨next, hnext, ?_, again, hagain, ?_⟩
    · rw [Heap.denotes, show next.pointsOf line = _ from hholds.values]
      exact hother
    · rw [Heap.denotes, show again.pointsOf line = _ from hholds'.values]
      rfl

/-- The lines `[1,4) [4,5]` and `(NULL,4]`, which touch and overlap. -/
def touchingLines : Heap ℕ where
  endpoints
    | 0 => ⟨.plain (.val 1), true, some true⟩
    | 1 => ⟨.plain (.val 4), false, some false⟩
    | 2 => ⟨.plain (.val 4), true, some true⟩
    | 3 => ⟨.plain (.val 5), true, some false⟩
    | 4 => ⟨.plain .null, false, some true⟩
    | _ => ⟨.plain (.val 4), true, some false⟩
  endpointCount := 6
  lines line := if line = 0 then [0, 1, 2, 3] else [4, 5]
  lineCount := 2

theorem lineAlgebra_touchingLines : touchingLines.LineAlgebra [0, 1] 0 :=
  (lineAlgebra_iff touchingLines [0, 1] 0
    (by
      intro line hline
      have hcases : line = 0 ∨ line = 1 := by simpa using hline
      rcases hcases with rfl | rfl
      · exact ⟨by decide, by decide, by decide, by decide⟩
      · exact ⟨by decide, by decide, by decide, by decide⟩)
    ⟨by decide, by decide, by decide, by decide⟩).mpr ⟨by decide, by decide⟩

/-- The empty line is well formed and has no complement: `lowerBound()` fails on it. -/
theorem no_complement_of_empty_line :
    (empty : Heap ℕ).WellFormed 0 ∧ ¬(empty : Heap ℕ).LineAlgebra [0] 0 := by
  refine ⟨⟨by decide, by decide, by decide, by decide⟩, fun h => ?_⟩
  obtain ⟨next, hnext, -⟩ := h.complement
  exact absurd hnext (by simp [complement, empty])

end Heap

end DatabaseJones.IndexBounds
