import DatabaseJones.Library.Acyclic
import DatabaseJones.MySQLSerialize.AnyBuffer

/-!
# The end of parsing

A container leads to its entries, and the parser follows them as far as the entries before them
are sound.  What is read from a buffer is a part of it, so that only finitely many binary values
are met: parsing ends if and only if none of them leads back to itself.
-/

namespace DatabaseJones.MySQLSerialize.AnyBuffer

open DatabaseJones.Library Relation

/-! ## Parsing one thing after the other -/

section
variable {α β : Type} {parseValue : α → Outcome β}

/-- The depth was not used up. -/
def IsThere (outcome : Outcome β) : Prop := outcome ≠ ExceptT.mk none

/-- A value is returned. -/
def Returns (outcome : Outcome β) : Prop := ∃ value, outcome = pure value

/-- The first thing is parsed, and the others only if that returns a value. -/
theorem mapM_cons_cases (parseValue : α → Outcome β) (item : α) (items : List α) :
    (parseValue item = ExceptT.mk none ∧ (item :: items).mapM parseValue = ExceptT.mk none) ∨
    (∃ error, parseValue item = ExceptT.mk (some (.error error)) ∧
      (item :: items).mapM parseValue = ExceptT.mk (some (.error error))) ∨
    (∃ value, parseValue item = pure value ∧ (item :: items).mapM parseValue =
      (do let values ← items.mapM parseValue; pure (value :: values))) := by
  rw [List.mapM_cons]
  match h : parseValue item with
  | none => exact .inl ⟨rfl, rfl⟩
  | some (.error error) => exact .inr (.inl ⟨error, rfl, rfl⟩)
  | some (.ok value) => exact .inr (.inr ⟨value, rfl, rfl⟩)

theorem not_isThere_none : ¬ IsThere (ExceptT.mk none : Outcome β) := fun h => h rfl

theorem isThere_error (error : ParseError) :
    IsThere (ExceptT.mk (some (.error error)) : Outcome β) := fun h => by cases h

theorem isThere_pure (value : β) : IsThere (pure value : Outcome β) := fun h => by cases h

theorem not_returns_error (error : ParseError) :
    ¬ Returns (ExceptT.mk (some (.error error)) : Outcome β) := fun ⟨_, h⟩ => by cases h

theorem isThere_bind_pure {γ : Type} {outcome : Outcome β} {f : β → γ} :
    IsThere (do let value ← outcome; pure (f value)) ↔ IsThere outcome := by
  match outcome with
  | none => exact ⟨fun h => absurd rfl h, fun h => absurd rfl h⟩
  | some (.error error) => exact ⟨fun _ => isThere_error error, fun _ => isThere_error error⟩
  | some (.ok value) => exact ⟨fun _ => isThere_pure value, fun _ => isThere_pure (f value)⟩

theorem returns_of_returns_bind {γ : Type} {outcome : Outcome β} {f : β → Outcome γ}
    (h : Returns (outcome >>= f)) : Returns outcome := by
  obtain ⟨result, h⟩ := h
  match outcome with
  | none => cases h
  | some (.error error) => cases h
  | some (.ok value) => exact ⟨value, rfl⟩

/-- If all values are returned, each of them is. -/
theorem returns_of_mapM {items : List α} (h : Returns (items.mapM parseValue)) :
    ∀ item ∈ items, Returns (parseValue item) := by
  induction items with
  | nil => simp
  | cons first items ih =>
      rcases mapM_cons_cases parseValue first items with ⟨-, heq⟩ | ⟨error, -, heq⟩ | ⟨value, hfirst, heq⟩
      · rw [heq] at h
        obtain ⟨_, h⟩ := h
        cases h
      · rw [heq] at h
        exact absurd h (not_returns_error error)
      · rw [heq] at h
        have hrest := returns_of_returns_bind h
        intro item hitem
        rcases List.mem_cons.mp hitem with rfl | hitem
        · exact ⟨value, hfirst⟩
        · exact ih hrest item hitem

/-- If no earlier thing throws, the outcome for all is there only if the one for this is. -/
theorem isThere_of_mapM {before after : List α} {item : α}
    (h : IsThere ((before ++ item :: after).mapM parseValue))
    (hbefore : ∀ earlier ∈ before, IsThere (parseValue earlier) → Returns (parseValue earlier)) :
    IsThere (parseValue item) := by
  induction before with
  | nil =>
      rcases mapM_cons_cases parseValue item after with ⟨-, heq⟩ | ⟨error, hitem, -⟩ | ⟨value, hitem, -⟩
      · rw [List.nil_append, heq] at h
        exact absurd h not_isThere_none
      · rw [hitem]
        exact isThere_error error
      · rw [hitem]
        exact isThere_pure value
  | cons first before ih =>
      rw [List.cons_append] at h
      rcases mapM_cons_cases parseValue first (before ++ item :: after)
        with ⟨-, heq⟩ | ⟨error, hfirst, -⟩ | ⟨value, -, heq⟩
      · rw [heq] at h
        exact absurd h not_isThere_none
      · have hreturns := hbefore first (by simp)
        rw [hfirst] at hreturns
        exact absurd (hreturns (isThere_error error)) (not_returns_error error)
      · rw [heq] at h
        exact ih (isThere_bind_pure.mp h) fun earlier hearlier => hbefore earlier (by simp [hearlier])

/-- The outcome for all is there if it is for each thing before which all return values. -/
theorem mapM_isThere {items : List α}
    (h : ∀ before item after, items = before ++ item :: after →
      (∀ earlier ∈ before, Returns (parseValue earlier)) → IsThere (parseValue item)) :
    IsThere (items.mapM parseValue) := by
  induction items with
  | nil => exact isThere_pure []
  | cons first items ih =>
      rcases mapM_cons_cases parseValue first items
        with ⟨hfirst, -⟩ | ⟨error, -, heq⟩ | ⟨value, hfirst, heq⟩
      · have := h [] first items rfl (by simp)
        rw [hfirst] at this
        exact absurd this not_isThere_none
      · rw [heq]
        exact isThere_error error
      · rw [heq]
        apply isThere_bind_pure.mpr
        apply ih
        intro before item after hitems hbefore
        apply h (first :: before) item after (by rw [hitems, List.cons_append])
        intro earlier hearlier
        rcases List.mem_cons.mp hearlier with rfl | hearlier
        · exact ⟨value, hfirst⟩
        · exact hbefore earlier hearlier

/-- If nothing throws, parsing one thing after the other does not throw. -/
theorem mapM_ne_error {items : List α}
    (h : ∀ item ∈ items, IsThere (parseValue item) → Returns (parseValue item))
    (error : ParseError) : items.mapM parseValue ≠ ExceptT.mk (some (.error error)) := by
  induction items with
  | nil => exact fun h => by cases h
  | cons first items ih =>
      have hfirst' := h first (by simp)
      have hrest := ih fun item hitem => h item (by simp [hitem])
      intro herror
      rcases mapM_cons_cases parseValue first items
        with ⟨-, heq⟩ | ⟨error', hfirst, -⟩ | ⟨value, -, heq⟩
      · rw [heq] at herror
        cases herror
      · rw [hfirst] at hfirst'
        exact absurd (hfirst' (isThere_error error')) (not_returns_error error')
      · rw [heq] at herror
        match hvalues : items.mapM parseValue with
        | none =>
            rw [hvalues] at herror
            cases herror
        | some (.ok values) =>
            rw [hvalues] at herror
            cases herror
        | some (.error error') =>
            rw [hvalues] at herror
            cases herror
            exact hrest hvalues

/-- An outcome that is there is the same for a parser that goes deeper. -/
theorem mapM_eq_of_isThere {deeper : α → Outcome β} {items : List α}
    (h : ∀ item, IsThere (parseValue item) → deeper item = parseValue item)
    (hthere : IsThere (items.mapM parseValue)) :
    items.mapM deeper = items.mapM parseValue := by
  induction items with
  | nil => rfl
  | cons first items ih =>
      rcases mapM_cons_cases parseValue first items
        with ⟨-, heq⟩ | ⟨error, hfirst, heq⟩ | ⟨value, hfirst, heq⟩
      · rw [heq] at hthere
        exact absurd hthere not_isThere_none
      · have hdeeper := h first (by rw [hfirst]; exact isThere_error error)
        rw [heq, List.mapM_cons, hdeeper, hfirst]
        rfl
      · have hdeeper := h first (by rw [hfirst]; exact isThere_pure value)
        rw [heq] at hthere
        rw [List.mapM_cons, List.mapM_cons, hdeeper, ih (isThere_bind_pure.mp hthere)]

end

/-! ## What the parser meets -/

section
variable (toString : List UInt8 → CodeUnits)

/-- The entries that the parser of a binary value reads; a scalar has none. -/
def entriesOf (binary : Source) : Except ParseError (List Source) :=
  match BinaryType.ofCode? binary.type with
  | some .smallArray => readArray false binary.buffer
  | some .largeArray => readArray true binary.buffer
  | some .smallObject => (readObject toString false binary.buffer).map Prod.snd
  | some .largeObject => (readObject toString true binary.buffer).map Prod.snd
  | _ => .ok []

/-- A container, or a scalar that can be read. -/
def Legible (binary : Source) : Prop :=
  match BinaryType.ofCode? binary.type with
  | some .smallArray | some .largeArray | some .smallObject | some .largeObject => True
  | _ => ∃ json, parseScalar toString binary = .ok json

/-- A binary value of which all parts can be read. -/
inductive Sound : Source → Prop
  | intro {binary : Source} {entries : List Source} (hread : entriesOf toString binary = .ok entries)
      (hlegible : Legible toString binary) (hentries : ∀ entry ∈ entries, Sound entry) :
      Sound binary

/-- A binary value has an entry, and the entries before it are sound. -/
def LeadsTo (binary entry : Source) : Prop :=
  ∃ before after, entriesOf toString binary = .ok (before ++ entry :: after) ∧
    ∀ earlier ∈ before, Sound toString earlier

/-! ## One step of the parser -/

/-- The values of the entries one after the other, and what becomes of them. -/
def parseEntries (parseValue : Source → Outcome Json)
    (finish : List Json → Except ParseError Json) : Except ParseError (List Source) → Outcome Json
  | .error error => ExceptT.mk (some (.error error))
  | .ok entries => do
      let values ← entries.mapM parseValue
      (finish values : Outcome Json)

theorem parseEntries_of_values {parseValue : Source → Outcome Json}
    {finish : List Json → Except ParseError Json} {entries : List Source} {values : List Json}
    (h : entries.mapM parseValue = pure values) :
    parseEntries parseValue finish (.ok entries) = ExceptT.mk (some (finish values)) := by
  simp only [parseEntries]
  rw [h]
  rfl

/-- The parser goes through the entries.  What it does with their values fails only for a scalar
that cannot be read. -/
theorem parse_succ (binary : Source) :
    ∃ finish : List Json → Except ParseError Json,
      (∀ depth, parse toString (depth + 1) binary =
        parseEntries (parse toString depth) finish (entriesOf toString binary)) ∧
      ∀ values, Legible toString binary ↔ ∃ json, finish values = .ok json := by
  unfold entriesOf Legible
  simp only [parse]
  rcases BinaryType.ofCode? binary.type with _ | type
  · exact ⟨fun _ => parseScalar toString binary, fun _ => rfl, fun _ => Iff.rfl⟩
  cases type
  case smallArray =>
    refine ⟨fun values => .ok (.array values), fun depth => ?_, by simp⟩
    unfold parseArray
    cases readArray false binary.buffer <;> rfl
  case largeArray =>
    refine ⟨fun values => .ok (.array values), fun depth => ?_, by simp⟩
    unfold parseArray
    cases readArray true binary.buffer <;> rfl
  case smallObject =>
    unfold parseObject
    cases readObject toString false binary.buffer with
    | error error => exact ⟨fun _ => .ok .null, fun _ => rfl, by simp⟩
    | ok read =>
        exact ⟨fun values => .ok (.object ((read.1.zip values).foldl setMember fun _ => none)),
          fun _ => rfl, by simp⟩
  case largeObject =>
    unfold parseObject
    cases readObject toString true binary.buffer with
    | error error => exact ⟨fun _ => .ok .null, fun _ => rfl, by simp⟩
    | ok read =>
        exact ⟨fun values => .ok (.object ((read.1.zip values).foldl setMember fun _ => none)),
          fun _ => rfl, by simp⟩
  all_goals exact ⟨fun _ => parseScalar toString binary, fun _ => rfl, fun _ => Iff.rfl⟩

end

/-! ## Depth -/

variable {toString : List UInt8 → CodeUnits}

/-- An outcome does not depend on the depth. -/
theorem parse_eq_of_isThere {depth : ℕ} : ∀ {binary : Source},
    IsThere (parse toString depth binary) →
      parse toString (depth + 1) binary = parse toString depth binary := by
  induction depth with
  | zero => exact fun h => absurd h not_isThere_none
  | succ depth ih =>
      intro binary h
      obtain ⟨finish, hparse, -⟩ := parse_succ toString binary
      rw [hparse] at h
      rw [hparse, hparse]
      cases hread : entriesOf toString binary with
      | error error => rfl
      | ok entries =>
          rw [hread] at h
          have hthere : IsThere (entries.mapM (parse toString depth)) := by
            intro hnone
            simp only [parseEntries, hnone] at h
            exact h rfl
          simp only [parseEntries]
          rw [mapM_eq_of_isThere (fun _ => ih) hthere]

theorem isThere_of_le {depth deeper : ℕ} (hle : depth ≤ deeper) {binary : Source}
    (h : IsThere (parse toString depth binary)) : IsThere (parse toString deeper binary) := by
  induction deeper, hle using Nat.le_induction with
  | base => exact h
  | succ deeper _ ih =>
      rw [parse_eq_of_isThere ih]
      exact ih

/-- What is returned has been read from a sound value. -/
theorem sound_of_returns {depth : ℕ} : ∀ {binary : Source},
    Returns (parse toString depth binary) → Sound toString binary := by
  induction depth with
  | zero =>
      rintro binary ⟨json, h⟩
      cases h
  | succ depth ih =>
      intro binary h
      obtain ⟨finish, hparse, hlegible⟩ := parse_succ toString binary
      rw [hparse] at h
      cases hread : entriesOf toString binary with
      | error error =>
          rw [hread] at h
          exact absurd h (not_returns_error error)
      | ok entries =>
          rw [hread] at h
          have hreturns := returns_of_returns_bind h
          refine .intro hread ?_ fun entry hentry => ih (returns_of_mapM hreturns entry hentry)
          obtain ⟨values, hvalues⟩ := hreturns
          rw [parseEntries_of_values hvalues] at h
          apply (hlegible values).mpr
          cases hfinish : finish values with
          | ok json => exact ⟨json, rfl⟩
          | error error =>
              rw [hfinish] at h
              exact absurd h (not_returns_error error)

/-- A sound value is returned, if the depth is enough. -/
theorem returns_of_sound {binary : Source} (hsound : Sound toString binary) :
    ∀ {depth : ℕ}, IsThere (parse toString depth binary) → Returns (parse toString depth binary) := by
  induction hsound with
  | @intro binary entries hread hlegible _ ih =>
      intro depth h
      cases depth with
      | zero => exact absurd h not_isThere_none
      | succ depth =>
          obtain ⟨finish, hparse, hfinish⟩ := parse_succ toString binary
          rw [hparse, hread] at h ⊢
          match hvalues : entries.mapM (parse toString depth) with
          | none =>
              simp only [parseEntries, hvalues] at h
              exact absurd rfl h
          | some (.ok values) =>
              obtain ⟨json, hjson⟩ := (hfinish values).mp hlegible
              rw [parseEntries_of_values hvalues, hjson]
              exact ⟨json, rfl⟩
          | some (.error error) =>
              -- some entry must have thrown
              exact absurd hvalues (mapM_ne_error (fun entry hentry => ih entry hentry) error)

/-! ## Ways through the buffer -/

/-- What the parser of a value meets with some depth, it meets with less depth there. -/
theorem acc_of_isThere {depth : ℕ} : ∀ {binary : Source},
    IsThere (parse toString depth binary) → Acc (flip (LeadsTo toString)) binary := by
  induction depth with
  | zero => exact fun h => absurd h not_isThere_none
  | succ depth ih =>
      intro binary h
      constructor
      rintro entry ⟨before, after, hread, hsound⟩
      obtain ⟨finish, hparse, -⟩ := parse_succ toString binary
      rw [hparse, hread] at h
      have hthere : IsThere ((before ++ entry :: after).mapM (parse toString depth)) := by
        intro hnone
        simp only [parseEntries, hnone] at h
        exact h rfl
      exact ih (isThere_of_mapM hthere fun earlier hearlier => returns_of_sound (hsound earlier hearlier))

/-- If every way from a value ends, some depth is enough for it. -/
theorem isThere_of_acc {binary : Source} (h : Acc (flip (LeadsTo toString)) binary) :
    ∃ depth, IsThere (parse toString depth binary) := by
  induction h with
  | intro binary _ ih =>
      obtain ⟨finish, hparse, -⟩ := parse_succ toString binary
      cases hread : entriesOf toString binary with
      | error error =>
          refine ⟨1, ?_⟩
          rw [hparse, hread]
          exact isThere_error error
      | ok entries =>
          have hdepths : ∀ entry, ∃ depth, LeadsTo toString binary entry →
              IsThere (parse toString depth entry) := by
            intro entry
            by_cases hleads : LeadsTo toString binary entry
            · obtain ⟨depth, hdepth⟩ := ih entry hleads
              exact ⟨depth, fun _ => hdepth⟩
            · exact ⟨0, fun h => absurd h hleads⟩
          choose depthOf hdepthOf using hdepths
          let depth := (entries.map depthOf).sum
          refine ⟨depth + 1, ?_⟩
          have hthere : IsThere (entries.mapM (parse toString depth)) := by
            apply mapM_isThere
            intro before entry after hentries hbefore
            have hle : depthOf entry ≤ depth :=
              List.single_le_sum (by simp) _ (List.mem_map_of_mem (by simp [hentries]))
            apply isThere_of_le hle
            apply hdepthOf
            exact ⟨before, after, hentries ▸ hread,
              fun earlier hearlier => sound_of_returns (hbefore earlier hearlier)⟩
          rw [hparse, hread]
          match hvalues : entries.mapM (parse toString depth) with
          | none => exact absurd hvalues hthere
          | some (.ok values) =>
              rw [parseEntries_of_values hvalues]
              exact fun h => by cases h
          | some (.error error) =>
              simp only [parseEntries, hvalues]
              exact isThere_error error

/-! ## Parts of the buffer -/

theorem mem_of_mapM_ok {α β : Type} {f : α → Except ParseError β} {items : List α} :
    ∀ {results : List β}, items.mapM f = .ok results →
      ∀ result ∈ results, ∃ item, f item = .ok result := by
  induction items with
  | nil =>
      intro results h
      cases h
      simp
  | cons item items ih =>
      intro results h result hresult
      rw [List.mapM_cons] at h
      cases hitem : f item with
      | error error =>
          rw [hitem] at h
          cases h
      | ok first =>
          cases hrest : items.mapM f with
          | error error =>
              rw [hitem, hrest] at h
              cases h
          | ok rest =>
              rw [hitem, hrest] at h
              cases h
              rcases List.mem_cons.mp hresult with rfl | hresult
              · exact ⟨item, hitem⟩
              · exact ih hrest result hresult

/-- A buffer is cut to the size in its header. -/
theorem sublist_of_readHeader {isLarge : Bool} {buffer : List UInt8} {header : ℕ × List UInt8}
    (h : readHeader isLarge buffer = .ok header) : header.2.Sublist buffer := by
  unfold readHeader at h
  cases hcount : readUIntLE (offsetSize isLarge) buffer 0 with
  | none =>
      rw [hcount] at h
      cases h
  | some count =>
      cases hsize : readUIntLE (offsetSize isLarge) buffer (offsetSize isLarge) with
      | none =>
          rw [hcount, hsize] at h
          cases h
      | some size =>
          rw [hcount, hsize] at h
          cases h
          exact List.take_sublist _ _

theorem sublist_of_readValueEntry {isLarge : Bool} {buffer : List UInt8} {cursor : ℕ}
    {entry : Source} (h : readValueEntry isLarge buffer cursor = .ok entry) :
    entry.buffer.Sublist buffer := by
  unfold readValueEntry at h
  cases htype : buffer[cursor]? with
  | none =>
      rw [htype] at h
      cases h
  | some type =>
      rw [htype] at h
      simp only [orThrow, bind, Except.bind] at h
      split at h
      · cases h
      · split at h
        · cases h
          exact (List.take_sublist _ _).trans (List.drop_sublist _ _)
        · split at h
          · cases h
          · cases h
            exact List.drop_sublist _ _

theorem sublist_of_readArray {isLarge : Bool} {buffer : List UInt8} {entries : List Source}
    (h : readArray isLarge buffer = .ok entries) :
    ∀ entry ∈ entries, entry.buffer.Sublist buffer := by
  unfold readArray at h
  cases hheader : readHeader isLarge buffer with
  | error error =>
      rw [hheader] at h
      cases h
  | ok header =>
      rw [hheader] at h
      intro entry hentry
      obtain ⟨index, hindex⟩ := mem_of_mapM_ok h entry hentry
      exact (sublist_of_readValueEntry hindex).trans (sublist_of_readHeader hheader)

theorem sublist_of_readObject {isLarge : Bool} {buffer : List UInt8}
    {read : List CodeUnits × List Source} (h : readObject toString isLarge buffer = .ok read) :
    ∀ entry ∈ read.2, entry.buffer.Sublist buffer := by
  unfold readObject at h
  cases hheader : readHeader isLarge buffer with
  | error error =>
      rw [hheader] at h
      cases h
  | ok header =>
      rw [hheader] at h
      simp only [bind, Except.bind, pure, Except.pure] at h
      split at h
      · cases h
      · split at h
        · cases h
        · rename_i entries hentries
          cases h
          intro entry hentry
          obtain ⟨index, hindex⟩ := mem_of_mapM_ok hentries entry hentry
          exact (sublist_of_readValueEntry hindex).trans (sublist_of_readHeader hheader)

/-- The buffer of an entry is a part of the buffer of its container. -/
theorem sublist_of_leadsTo {binary entry : Source} (h : LeadsTo toString binary entry) :
    entry.buffer.Sublist binary.buffer := by
  obtain ⟨before, after, hread, -⟩ := h
  have hmem : entry ∈ before ++ entry :: after := by simp
  unfold entriesOf at hread
  split at hread
  · exact sublist_of_readArray hread entry hmem
  · exact sublist_of_readArray hread entry hmem
  · cases hobject : readObject toString false binary.buffer with
    | error error =>
        rw [hobject] at hread
        cases hread
    | ok read =>
        simp only [hobject, Except.map, Except.ok.injEq] at hread
        exact sublist_of_readObject hobject entry (hread ▸ hmem)
  · cases hobject : readObject toString true binary.buffer with
    | error error =>
        rw [hobject] at hread
        cases hread
    | ok read =>
        simp only [hobject, Except.map, Except.ok.injEq] at hread
        exact sublist_of_readObject hobject entry (hread ▸ hmem)
  · simp at hread

theorem sublist_of_reached {binary reached : Source}
    (h : ReflTransGen (LeadsTo toString) binary reached) :
    reached.buffer.Sublist binary.buffer := by
  induction h with
  | refl => exact List.Sublist.refl _
  | tail _ hleads ih => exact (sublist_of_leadsTo hleads).trans ih

/-- The way from a container back to itself stays on its buffer: the offsets on it are zero. -/
theorem buffer_eq_of_loop {binary entry : Source} (hleads : LeadsTo toString binary entry)
    (hback : ReflTransGen (LeadsTo toString) entry binary) : entry.buffer = binary.buffer :=
  (sublist_of_leadsTo hleads).antisymm (sublist_of_reached hback)

theorem finite_reached (binary : Source) :
    {reached | ReflTransGen (LeadsTo toString) binary reached}.Finite := by
  have : Finite UInt8 := Finite.of_injective UInt8.toFin fun _ _ => UInt8.toFin_inj.mp
  let parts : Set (List UInt8) := {buffer | buffer ∈ binary.buffer.sublists}
  have hparts : (Set.univ ×ˢ parts : Set (UInt8 × List UInt8)).Finite :=
    Set.finite_univ.prod (List.finite_toSet _)
  have hsubset : {reached | ReflTransGen (LeadsTo toString) binary reached} ⊆
      (fun pair : UInt8 × List UInt8 => (⟨pair.1, pair.2⟩ : Source)) '' (Set.univ ×ˢ parts) := by
    intro reached hreached
    refine ⟨(reached.type, reached.buffer), ⟨Set.mem_univ _, ?_⟩, rfl⟩
    exact List.mem_sublists.mpr (sublist_of_reached hreached)
  exact (hparts.image _).subset hsubset

/-- Some depth is enough for a value if and only if nothing that it leads to leads back to
itself. -/
theorem exists_isThere_iff (binary : Source) :
    (∃ depth, IsThere (parse toString depth binary)) ↔ NoLoop (LeadsTo toString) binary := by
  rw [← acc_iff_noLoop (finite_reached binary)]
  exact ⟨fun ⟨_, h⟩ => acc_of_isThere h, isThere_of_acc⟩

/-! ## The end of parsing -/

/-- `exports.parse(sourceBuffer)` returns or throws. -/
def Ends (toString : List UInt8 → CodeUnits) (sourceBuffer : List UInt8) : Prop :=
  ∃ depth, IsThere (publicParse toString depth sourceBuffer)

/-- The binary value that a buffer begins with. -/
def rootOf : List UInt8 → Option Source
  | type :: byte :: buffer => some { type, buffer := byte :: buffer }
  | _ => none

theorem exists_isThere_of_newBinary {binary : Source} {error : ParseError}
    (h : newBinary binary.type binary.buffer = .error error) :
    ∃ depth, IsThere (parse toString depth binary) := by
  have hcode : BinaryType.ofCode? binary.type = none := by
    unfold newBinary at h
    split at h
    · cases h
    · rename_i hno
      cases htype : BinaryType.ofCode? binary.type with
      | none => rfl
      | some type =>
          have := code_of_ofCode? htype
          rw [← this] at hno
          cases type <;> exact absurd (by decide) hno
  refine ⟨1, ?_⟩
  unfold parse
  rw [hcode]
  unfold parseScalar
  rw [hcode]
  exact isThere_error _

theorem ends_iff_root {type byte : UInt8} {buffer : List UInt8} :
    Ends toString (type :: byte :: buffer) ↔
      ∃ depth, IsThere (parse toString depth { type, buffer := byte :: buffer }) := by
  simp only [Ends, publicParse]
  cases hbinary : newBinary type (byte :: buffer) with
  | error error =>
      refine ⟨fun _ => exists_isThere_of_newBinary hbinary, fun _ => ⟨0, ?_⟩⟩
      exact isThere_error error
  | ok binary =>
      have : binary = { type, buffer := byte :: buffer } := by
        unfold newBinary at hbinary
        split at hbinary
        · cases hbinary
          rfl
        · cases hbinary
      subst this
      exact exists_congr fun depth => isThere_bind_pure

/-- Parsing a buffer ends if and only if no binary value leads back to itself among those that
the parser meets: the value that the buffer begins with, and with each value the entries before
which all entries are sound. -/
theorem ends_iff_noLoop (toString : List UInt8 → CodeUnits) (sourceBuffer : List UInt8) :
    Ends toString sourceBuffer ↔
      ∀ binary ∈ rootOf sourceBuffer, NoLoop (LeadsTo toString) binary := by
  match sourceBuffer with
  | [] => exact ⟨fun _ => by simp [rootOf], fun _ => ⟨0, isThere_pure none⟩⟩
  | [_] => exact ⟨fun _ => by simp [rootOf], fun _ => ⟨0, isThere_pure none⟩⟩
  | type :: byte :: buffer =>
      rw [ends_iff_root, exists_isThere_iff]
      simp [rootOf]

/-- An array of seven bytes whose only element is an array at offset zero. -/
def selfReference : List UInt8 := [0x02, 1, 0, 7, 0, 0x02, 0, 0]

theorem not_ends_selfReference :
    ¬ Ends (fun bytes => (utf8Text bytes).getD []) selfReference := by
  let array : Source := { type := 0x02, buffer := [1, 0, 7, 0, 0x02, 0, 0] }
  have hleads : LeadsTo (fun bytes => (utf8Text bytes).getD []) array array :=
    ⟨[], [], rfl, by simp⟩
  intro hends
  obtain ⟨depth, h⟩ := ends_iff_root.mp hends
  exact not_transGen_of_acc (acc_of_isThere h) (TransGen.single hleads)

end DatabaseJones.MySQLSerialize.AnyBuffer
