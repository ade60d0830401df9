import DatabaseJones.IndexBounds.LineMeaning

/-!
# The order of endpoints

`Endpoint.compare` compares the values, and for equal values the sides.  An infinity is less than
itself, and an `IndexValue` is equal to every one that begins with its parts; the sides of such
endpoints are compared as if their values were one point.  Some endpoints are therefore each below
the other, and some go round in a circle.
-/

namespace DatabaseJones.IndexBounds

open DatabaseJones.Library

/-! ## What is expected -/

section
variable {α : Type*}

/-- The number line of a column, or of an index. -/
inductive Line
  | column
  | index

/-- An endpoint of a line. -/
def Endpoint.OnLine (line : Line) (endpoint : Endpoint α) : Prop :=
  endpoint.isLow ≠ none ∧
    match line, endpoint.value with
    | .column, .plain _ => True
    | .index, .index _ => True
    | _, _ => False

/-- The parts of a value. -/
def Value.parts : Value α → List (KeyPart α)
  | .plain value => [value]
  | .index parts => parts

/-- Two lists of parts begin with the same parts, the last of which is infinite. -/
def ShareInfinity (as bs : List (KeyPart α)) : Prop :=
  ∃ common part, common ++ [part] <+: as ∧ common ++ [part] <+: bs ∧
    (part = .negInf ∨ part = .posInf)

/-- The place of an endpoint among those at one value: high and exclusive, low and inclusive, high
and inclusive, low and exclusive. -/
def Endpoint.side (endpoint : Endpoint α) : ℕ :=
  match endpoint.isLow, endpoint.inclusive with
  | some true, true => 1
  | some true, false => 3
  | _, true => 2
  | _, false => 0

/-! ## Parts -/

theorem shareInfinity_cons_iff {a b : KeyPart α} {as bs : List (KeyPart α)} :
    ShareInfinity (a :: as) (b :: bs) ↔
      a = b ∧ (a = .negInf ∨ a = .posInf ∨ ShareInfinity as bs) := by
  constructor
  · rintro ⟨common, part, has, hbs, hpart⟩
    cases common with
    | nil =>
        rw [List.nil_append, List.cons_prefix_cons] at has hbs
        obtain ⟨⟨rfl, -⟩, rfl, -⟩ := And.intro has hbs
        exact ⟨rfl, hpart.imp_right .inl⟩
    | cons c common =>
        rw [List.cons_append, List.cons_prefix_cons] at has hbs
        exact ⟨has.1.symm.trans hbs.1, .inr (.inr ⟨common, part, has.2, hbs.2, hpart⟩)⟩
  · rintro ⟨rfl, hpart⟩
    have hhere : a = .negInf ∨ a = .posInf → ShareInfinity (a :: as) (a :: bs) := fun hpart =>
      ⟨[], a, List.cons_prefix_cons.mpr ⟨rfl, List.nil_prefix⟩,
        List.cons_prefix_cons.mpr ⟨rfl, List.nil_prefix⟩, hpart⟩
    rcases hpart with hpart | hpart | ⟨common, part, has, hbs, hpart⟩
    · exact hhere (.inl hpart)
    · exact hhere (.inr hpart)
    · exact ⟨a :: common, part, List.cons_prefix_cons.mpr ⟨rfl, has⟩,
        List.cons_prefix_cons.mpr ⟨rfl, hbs⟩, hpart⟩

theorem not_shareInfinity_nil (bs : List (KeyPart α)) : ¬ ShareInfinity [] bs := by
  rintro ⟨common, part, hnil, -⟩
  exact absurd (List.prefix_nil.mp hnil) (List.append_ne_nil_of_right_ne_nil _ nofun)

theorem ShareInfinity.symm {as bs : List (KeyPart α)} (h : ShareInfinity as bs) :
    ShareInfinity bs as := by
  obtain ⟨common, part, has, hbs, hpart⟩ := h
  exact ⟨common, part, hbs, has, hpart⟩

end

variable {α : Type*} [LinearOrder α]

/-- Different endpoints are compared in both directions alike, and the order is transitive. -/
structure IsOrder (endpoints : Set (Endpoint α)) : Prop where
  antisymm : ∀ a ∈ endpoints, ∀ b ∈ endpoints, a ≠ b →
    a.compare b = (b.compare a).map Ordering.swap
  trans : ∀ a ∈ endpoints, ∀ b ∈ endpoints, ∀ c ∈ endpoints,
    a.compare b = some .lt → b.compare c = some .lt → a.compare c = some .lt

/-- The condition for an order: different endpoints do not share an infinity; they are on different
sides if the parts of one begin with those of the other; and if two of them begin with the parts of
a third one, that one is not between their sides in the wrong order. -/
structure Unambiguous (endpoints : Set (Endpoint α)) : Prop where
  finite : ∀ a ∈ endpoints, ∀ b ∈ endpoints, a ≠ b → ¬ ShareInfinity a.value.parts b.value.parts
  sides : ∀ a ∈ endpoints, ∀ b ∈ endpoints, a ≠ b → a.value.parts <+: b.value.parts →
    a.side ≠ b.side
  between : ∀ a ∈ endpoints, ∀ b ∈ endpoints, ∀ c ∈ endpoints,
    b.value.parts <+: a.value.parts → b.value.parts <+: c.value.parts →
    Below a.value.parts c.value.parts → ¬ (c.side < b.side ∧ b.side < a.side)

theorem compareValues_of_ne {a b : KeyPart α} (h : a ≠ b) : compareValues a b = compare a b := by
  rcases lt_or_gt_of_ne h with hlt | hgt
  · rw [compareValues_of_lt hlt, compare_lt_iff_lt.mpr hlt]
  · rw [compareValues_of_gt hgt, compare_gt_iff_gt.mpr hgt]

/-- Parts that share an infinity are each less than the other. -/
theorem compareParts_of_shareInfinity {as bs : List (KeyPart α)} (h : ShareInfinity as bs) :
    compareParts as bs = .lt := by
  induction as generalizing bs with
  | nil => exact absurd h (not_shareInfinity_nil bs)
  | cons a as ih =>
      cases bs with
      | nil => exact absurd h.symm (not_shareInfinity_nil _)
      | cons b bs =>
          obtain ⟨rfl, hpart⟩ := shareInfinity_cons_iff.mp h
          unfold compareParts
          by_cases hneg : a = .negInf
          · rw [compareValues, if_pos (.inl hneg)]
            rfl
          · by_cases hpos : a = .posInf
            · rw [compareValues, if_pos (.inr hpos)]
              rfl
            · rw [compareValues_self hneg hpos]
              exact ih ((hpart.resolve_left hneg).resolve_left hpos)

/-- Others are compared on the parts that both have. -/
theorem compareParts_of_not_shareInfinity {as bs : List (KeyPart α)}
    (h : ¬ ShareInfinity as bs) : compareParts as bs = comparePrefix as bs := by
  induction as generalizing bs with
  | nil => rw [comparePrefix_nil_left]; rfl
  | cons a as ih =>
      cases bs with
      | nil => rfl
      | cons b bs =>
          rw [shareInfinity_cons_iff] at h
          unfold compareParts
          rw [comparePrefix_cons]
          by_cases heq : a = b
          · push Not at h
            obtain ⟨hneg, hpos, hrest⟩ := h heq
            rw [← heq, compareValues_self hneg hpos, compare_eq_iff_eq.mpr rfl]
            exact ih hrest
          · rw [compareValues_of_ne heq]
            -- the rest does not count
            rcases lt_or_gt_of_ne heq with hlt | hgt
            · rw [compare_lt_iff_lt.mpr hlt]
              rfl
            · rw [compare_gt_iff_gt.mpr hgt]
              rfl

/-! ## Endpoints of a line -/

section
variable {line : Line} {a b c : Endpoint α}

theorem Endpoint.OnLine.compare (ha : a.OnLine line) (hb : b.OnLine line) :
    a.compare b =
      some ((compareParts a.value.parts b.value.parts).then (a.compareSides b)) := by
  obtain ⟨⟨value, inclusive, isLow⟩, rfl⟩ : ∃ e, e = a := ⟨a, rfl⟩
  obtain ⟨⟨value', inclusive', isLow'⟩, rfl⟩ : ∃ e, e = b := ⟨b, rfl⟩
  cases line with
  | column =>
      cases value with
      | index parts => exact ha.2.elim
      | plain value =>
          cases value' with
          | index parts => exact hb.2.elim
          | plain value' =>
              change some ((compareValues value value').then _) =
                some (((compareValues value value').then .eq).then _)
              rw [Ordering.then_eq]
  | index =>
      cases value with
      | plain value => exact ha.2.elim
      | index parts =>
          cases value' with
          | plain value' => exact hb.2.elim
          | index parts' => rfl

omit [LinearOrder α] in
/-- Endpoints at one value are in the order of their sides. -/
theorem Endpoint.OnLine.compareSides (ha : a.OnLine line) (hb : b.OnLine line)
    (hne : a.side ≠ b.side) : a.compareSides b = Ord.compare a.side b.side := by
  obtain ⟨⟨value, inclusive, isLow⟩, rfl⟩ : ∃ e, e = a := ⟨a, rfl⟩
  obtain ⟨⟨value', inclusive', isLow'⟩, rfl⟩ : ∃ e, e = b := ⟨b, rfl⟩
  obtain ⟨low, rfl⟩ := Option.ne_none_iff_exists'.mp ha.1
  obtain ⟨low', rfl⟩ := Option.ne_none_iff_exists'.mp hb.1
  cases inclusive <;> cases inclusive' <;> cases low <;> cases low' <;>
    first | exact absurd rfl hne | rfl

omit [LinearOrder α] in
/-- Endpoints on the same side are each below, or each above, the other. -/
theorem Endpoint.OnLine.compareSides_of_eq (ha : a.OnLine line) (hb : b.OnLine line)
    (heq : a.side = b.side) : a.compareSides b ≠ (b.compareSides a).swap := by
  obtain ⟨⟨value, inclusive, isLow⟩, rfl⟩ : ∃ e, e = a := ⟨a, rfl⟩
  obtain ⟨⟨value', inclusive', isLow'⟩, rfl⟩ : ∃ e, e = b := ⟨b, rfl⟩
  obtain ⟨low, rfl⟩ := Option.ne_none_iff_exists'.mp ha.1
  obtain ⟨low', rfl⟩ := Option.ne_none_iff_exists'.mp hb.1
  cases inclusive <;> cases inclusive' <;> cases low <;> cases low' <;>
    first | (simp [side] at heq; done) | simp [Endpoint.compareSides]

theorem Endpoint.OnLine.compare_of_below (ha : a.OnLine line) (hb : b.OnLine line)
    (hfinite : ¬ ShareInfinity a.value.parts b.value.parts)
    (hbelow : Below a.value.parts b.value.parts) : a.compare b = some .lt := by
  rw [ha.compare hb, compareParts_of_not_shareInfinity hfinite, comparePrefix_lt_iff.mpr hbelow]
  rfl

theorem Endpoint.OnLine.compare_of_above (ha : a.OnLine line) (hb : b.OnLine line)
    (hfinite : ¬ ShareInfinity a.value.parts b.value.parts)
    (hbelow : Below b.value.parts a.value.parts) : a.compare b = some .gt := by
  rw [ha.compare hb, compareParts_of_not_shareInfinity hfinite, ← comparePrefix_swap,
    comparePrefix_lt_iff.mpr hbelow]
  rfl

theorem Endpoint.OnLine.compare_prefixed (ha : a.OnLine line) (hb : b.OnLine line)
    (hfinite : ¬ ShareInfinity a.value.parts b.value.parts)
    (hpre : a.value.parts <+: b.value.parts ∨ b.value.parts <+: a.value.parts) :
    a.compare b = some (a.compareSides b) := by
  rw [ha.compare hb, compareParts_of_not_shareInfinity hfinite,
    comparePrefix_eq_iff_prefix.mpr hpre]
  rfl

end

/-! ## Unambiguous endpoints are ordered -/

section
variable {line : Line} {endpoints : Set (Endpoint α)} {a b c : Endpoint α}

theorem Unambiguous.side_ne (h : Unambiguous endpoints) (ha : a ∈ endpoints) (hb : b ∈ endpoints)
    (hne : a ≠ b) (hpre : a.value.parts <+: b.value.parts ∨ b.value.parts <+: a.value.parts) :
    a.side ≠ b.side := by
  rcases hpre with hpre | hpre
  · exact h.sides a ha b hb hne hpre
  · exact (h.sides b hb a ha hne.symm hpre).symm

/-- When an endpoint is below another one. -/
theorem Unambiguous.compare_lt_iff (h : Unambiguous endpoints)
    (hline : ∀ e ∈ endpoints, e.OnLine line) (ha : a ∈ endpoints) (hb : b ∈ endpoints)
    (hne : a ≠ b) : a.compare b = some .lt ↔
      Below a.value.parts b.value.parts ∨
        (a.value.parts <+: b.value.parts ∨ b.value.parts <+: a.value.parts) ∧ a.side < b.side := by
  have hfinite := h.finite a ha b hb hne
  rcases below_cases a.value.parts b.value.parts with hbelow | hbelow | hpre
  · exact iff_of_true ((hline a ha).compare_of_below (hline b hb) hfinite hbelow) (.inl hbelow)
  · rw [(hline a ha).compare_of_above (hline b hb) hfinite hbelow]
    refine iff_of_false nofun ?_
    rintro (hback | ⟨hpre, -⟩)
    · exact hbelow.not_below hback
    · have heq := comparePrefix_eq_iff_prefix.mpr hpre.symm
      rw [comparePrefix_lt_iff.mpr hbelow] at heq
      cases heq
  · have hside := h.side_ne ha hb hne hpre
    rw [(hline a ha).compare_prefixed (hline b hb) hfinite hpre,
      (hline a ha).compareSides (hline b hb) hside, Option.some_inj, compare_lt_iff_lt]
    refine ⟨fun hlt => .inr ⟨hpre, hlt⟩, fun hcases => hcases.elim (fun hbelow => ?_) And.right⟩
    have heq := comparePrefix_eq_iff_prefix.mpr hpre
    rw [comparePrefix_lt_iff.mpr hbelow] at heq
    cases heq

theorem Unambiguous.antisymm (h : Unambiguous endpoints)
    (hline : ∀ e ∈ endpoints, e.OnLine line) (ha : a ∈ endpoints) (hb : b ∈ endpoints)
    (hne : a ≠ b) : a.compare b = (b.compare a).map Ordering.swap := by
  have hfinite := h.finite a ha b hb hne
  have hfinite' := h.finite b hb a ha hne.symm
  rcases below_cases a.value.parts b.value.parts with hbelow | hbelow | hpre
  · rw [(hline a ha).compare_of_below (hline b hb) hfinite hbelow,
      (hline b hb).compare_of_above (hline a ha) hfinite' hbelow]
    rfl
  · rw [(hline a ha).compare_of_above (hline b hb) hfinite hbelow,
      (hline b hb).compare_of_below (hline a ha) hfinite' hbelow]
    rfl
  · have hside := h.side_ne ha hb hne hpre
    rw [(hline a ha).compare_prefixed (hline b hb) hfinite hpre,
      (hline b hb).compare_prefixed (hline a ha) hfinite' hpre.symm,
      (hline a ha).compareSides (hline b hb) hside,
      (hline b hb).compareSides (hline a ha) hside.symm, Option.map_some, Option.some_inj]
    exact Std.OrientedCmp.eq_swap

/-- A step in the values or in the sides, and another one: the endpoint between them is a prefix of
both others if those are in the wrong order. -/
theorem Unambiguous.trans (h : Unambiguous endpoints)
    (hline : ∀ e ∈ endpoints, e.OnLine line) (ha : a ∈ endpoints) (hb : b ∈ endpoints)
    (hc : c ∈ endpoints) (hab : a.compare b = some .lt) (hbc : b.compare c = some .lt) :
    a.compare c = some .lt := by
  by_cases hne : a = b
  · rwa [hne]
  by_cases hne' : b = c
  · rwa [← hne']
  have hloop : a ≠ c := by
    rintro rfl
    rw [h.antisymm hline ha hb hne, hbc] at hab
    cases hab
  rw [h.compare_lt_iff hline ha hb hne] at hab
  rw [h.compare_lt_iff hline hb hc hne'] at hbc
  rw [h.compare_lt_iff hline ha hc hloop]
  rcases below_cases a.value.parts c.value.parts with hbelow | hbelow | hpre
  · exact .inl hbelow
  · -- `c` is below `a`, so both steps are in the sides
    exfalso
    rcases hab with hab | ⟨hab, hside⟩
    · rcases hbc with hbc | ⟨hbc, -⟩
      · exact hbelow.not_below (hab.trans hbc)
      · exact (hbelow.trans hab).not_comparable hbc.symm
    · rcases hbc with hbc | ⟨hbc, hside'⟩
      · exact (hbc.trans hbelow).not_comparable hab.symm
      · obtain ⟨hc', ha'⟩ := hbelow.prefix_of_comparable hbc.symm hab.symm
        exact h.between c hc b hb a ha hc' ha' hbelow ⟨hside, hside'⟩
  · refine .inr ⟨hpre, ?_⟩
    by_contra hle
    have hlt : c.side < a.side :=
      lt_of_le_of_ne (not_lt.mp hle) (h.side_ne ha hc hloop hpre).symm
    rcases hab with hab | ⟨hab, hside⟩
    · rcases hbc with hbc | ⟨hbc, hside'⟩
      · exact (hab.trans hbc).not_comparable hpre
      · obtain ⟨ha', hb'⟩ := hab.prefix_of_comparable hpre hbc.symm
        exact h.between a ha c hc b hb ha' hb' hab ⟨hside', hlt⟩
    · rcases hbc with hbc | ⟨hbc, hside'⟩
      · obtain ⟨hb', hc'⟩ := hbc.prefix_of_comparable hab.symm hpre
        exact h.between b hb a ha c hc hb' hc' hbc ⟨hlt, hside⟩
      · exact absurd (hside.trans hside') hle

/-! ## Ordered endpoints are unambiguous -/

theorem IsOrder.finite (h : IsOrder endpoints) (hline : ∀ e ∈ endpoints, e.OnLine line)
    (ha : a ∈ endpoints) (hb : b ∈ endpoints) (hne : a ≠ b) :
    ¬ ShareInfinity a.value.parts b.value.parts := by
  intro hshare
  have hswap := h.antisymm a ha b hb hne
  rw [(hline a ha).compare (hline b hb), (hline b hb).compare (hline a ha),
    compareParts_of_shareInfinity hshare, compareParts_of_shareInfinity hshare.symm] at hswap
  cases hswap

theorem IsOrder.side_ne (h : IsOrder endpoints) (hline : ∀ e ∈ endpoints, e.OnLine line)
    (ha : a ∈ endpoints) (hb : b ∈ endpoints) (hne : a ≠ b)
    (hpre : a.value.parts <+: b.value.parts) : a.side ≠ b.side := by
  intro heq
  have hswap := h.antisymm a ha b hb hne
  rw [(hline a ha).compare_prefixed (hline b hb) (h.finite hline ha hb hne) (.inl hpre),
    (hline b hb).compare_prefixed (hline a ha) (h.finite hline hb ha hne.symm) (.inr hpre),
    Option.map_some, Option.some_inj] at hswap
  exact (hline a ha).compareSides_of_eq (hline b hb) heq hswap

/-- From the parts of one endpoint to those of another one that begin with them. -/
theorem IsOrder.compare_of_side_lt (h : IsOrder endpoints)
    (hline : ∀ e ∈ endpoints, e.OnLine line) (ha : a ∈ endpoints) (hb : b ∈ endpoints)
    (hpre : a.value.parts <+: b.value.parts ∨ b.value.parts <+: a.value.parts)
    (hlt : a.side < b.side) : a.compare b = some .lt := by
  have hne : a ≠ b := by
    rintro rfl
    exact lt_irrefl _ hlt
  rw [(hline a ha).compare_prefixed (hline b hb) (h.finite hline ha hb hne) hpre,
    (hline a ha).compareSides (hline b hb) hlt.ne, compare_lt_iff_lt.mpr hlt]

theorem IsOrder.not_between (h : IsOrder endpoints) (hline : ∀ e ∈ endpoints, e.OnLine line)
    (ha : a ∈ endpoints) (hb : b ∈ endpoints) (hc : c ∈ endpoints)
    (hpre : b.value.parts <+: a.value.parts) (hpre' : b.value.parts <+: c.value.parts)
    (hbelow : Below a.value.parts c.value.parts) : ¬ (c.side < b.side ∧ b.side < a.side) := by
  rintro ⟨hcb, hba⟩
  have hne : a ≠ c := by
    rintro rfl
    exact hbelow.not_below hbelow
  -- the three endpoints go round in a circle
  have hloop := h.trans c hc b hb a ha
    (h.compare_of_side_lt hline hc hb (.inr hpre') hcb)
    (h.compare_of_side_lt hline hb ha (.inl hpre) hba)
  have hswap := h.antisymm a ha c hc hne
  rw [(hline a ha).compare_of_below (hline c hc) (h.finite hline ha hc hne) hbelow, hloop] at hswap
  cases hswap

end

/-- The endpoints of a line are ordered by `compare` if and only if they are unambiguous. -/
theorem isOrder_iff (line : Line) (endpoints : Set (Endpoint α))
    (hline : ∀ e ∈ endpoints, e.OnLine line) : IsOrder endpoints ↔ Unambiguous endpoints := by
  constructor
  · intro h
    exact
      { finite := fun a ha b hb hne => h.finite hline ha hb hne
        sides := fun a ha b hb hne hpre => h.side_ne hline ha hb hne hpre
        between := fun a ha b hb c hc hpre hpre' hbelow =>
          h.not_between hline ha hb hc hpre hpre' hbelow }
  · intro h
    exact
      { antisymm := fun a ha b hb hne => h.antisymm hline ha hb hne
        trans := fun a ha b hb c hc hab hbc => h.trans hline ha hb hc hab hbc }

/-- The two ends of a value. -/
theorem isOrder_point : IsOrder ({⟨.plain (.val 4), true, some true⟩,
    ⟨.plain (.val 4), true, some false⟩} : Set (Endpoint ℤ)) ↔
      Unambiguous ({⟨.plain (.val 4), true, some true⟩,
        ⟨.plain (.val 4), true, some false⟩} : Set (Endpoint ℤ)) := by
  refine isOrder_iff .column _ ?_
  rintro e (rfl | rfl)
  · exact ⟨nofun, trivial⟩
  · exact ⟨nofun, trivial⟩

/-- `(5` and `(5,3` are each above the other. -/
theorem not_isOrder_endpoints :
    ¬ IsOrder {e : Endpoint ℤ | e.OnLine .index} := by
  intro h
  have hswap := h.antisymm
    ⟨.index [.val 5], false, some true⟩ ⟨nofun, trivial⟩
    ⟨.index [.val 5, .val 3], false, some true⟩ ⟨nofun, trivial⟩ (by decide)
  exact absurd hswap (by decide)

end DatabaseJones.IndexBounds
