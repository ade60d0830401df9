import DatabaseJones.NdbRecordObject.Views

/-!
# A value object holds the row with the values that were set

Every field is fresh, has been set to null, or has been set to a value.  Its proxy, its bytes
and its null bit agree with that in a way that every operation keeps.
-/

namespace DatabaseJones.NdbRecordObject

open DatabaseJones.Library

variable {ν ε : Type} {table : Table ν ε} {spec : Spec ν ε} {view : View ν} {value : Option ν}
  {last : Option (Option ν)} {written : ν} {i : table.Field}

/-! ## One column -/

/-- Decode the parts of a column. -/
def View.decode (spec : Spec ν ε) (view : View ν) : Option ν :=
  let written := if view.isMasked then view.proxy.createBlobWriteHandle spec else none
  if view.isNull then none
  else
    spec.column.read
      (if spec.column.isBlob then written.getD view.proxy.blobBuffer else view.bytes)

theorem decode_view (object : Object table) (i : table.Field) :
    object.decode i = (object.view i).decode (table.spec i) := rfl

/-- A field that was never set. -/
structure Fresh (spec : Spec ν ε) (view : View ν) (value : Option ν) : Prop where
  isMasked : view.isMasked = false
  decode : view.decode spec = value
  jsValue : view.isNull = false → view.proxy.isLoaded = true → view.proxy.jsValue = value

/-- A field that was last set to null. -/
structure Cleared (spec : Spec ν ε) (view : View ν) : Prop where
  isMasked : view.isMasked = true
  isLoaded : view.proxy.isLoaded = true
  jsValue : view.proxy.jsValue = none
  isNull : view.proxy.isNull = true
  nullable : spec.column.nullable = true

/-- A field that was last set to a value, which its bytes hold when it is not dirty and was
accepted by the encoder. -/
structure Present (spec : Spec ν ε) (view : View ν) (written : ν) : Prop where
  isMasked : view.isMasked = true
  isLoaded : view.proxy.isLoaded = true
  jsValue : view.proxy.jsValue = some written
  isNull : view.proxy.isNull = false
  isNull_row : view.isNull = false
  blob : spec.column.isBlob = true → spec.column.read (spec.column.encode written []) = some written
  kept : spec.column.isBlob = false → spec.column.check written = none →
    spec.column.read (if view.proxy.isDirty then spec.column.encode written view.bytes
      else view.bytes) = some written

def Holds (spec : Spec ν ε) (view : View ν) (value : Option ν) : Option (Option ν) → Prop
  | none => Fresh spec view value
  | some none => Cleared spec view
  | some (some written) => Present spec view written

/-! ## Reading -/

/-- What `getField` answers, and what it leaves of its column. -/
theorem getField_spec (object : Object table) (i : table.Field) :
    (object.view i).isNull = true ∧ object.getField i = (none, object) ∨
      (object.view i).isNull = false ∧
        (object.getField i).1 =
          ((object.proxy i).get (table.spec i) object.buffer).1 ∧
        (object.getField i).2.view i =
          { object.view i with proxy := ((object.proxy i).get (table.spec i) object.buffer).2 } := by
  cases hnull : (table.spec i).isNull object.buffer with
  | true => exact Or.inl ⟨hnull, by rw [Object.getField, if_pos hnull]⟩
  | false =>
      have hget : object.getField i = (((object.proxy i).get (table.spec i) object.buffer).1,
          { object with
            proxy := Function.update object.proxy i
              ((object.proxy i).get (table.spec i) object.buffer).2 }) := by
        rw [Object.getField, hnull]
        rfl
      refine Or.inr ⟨hnull, by rw [hget], ?_⟩
      rw [hget]
      simp [Object.view, Object.isMaskedIn]

theorem Fresh.getField {object : Object table} (h : Fresh (table.spec i) (object.view i) value) :
    (object.getField i).1 = value ∧
      Fresh (table.spec i) ((object.getField i).2.view i) value := by
  obtain ⟨hmasked, hdecode, hvalue⟩ := h
  rcases getField_spec object i with ⟨hnull, hget⟩ | ⟨hnull, hanswer, hview⟩
  · have hnone : value = none := by
      rw [← hdecode, View.decode, hnull]
      rfl
    rw [hget]
    exact ⟨hnone.symm, hmasked, hdecode, hvalue⟩
  · have hread : (table.spec i).read object.buffer (object.proxy i).blobBuffer = value := by
      rw [← hdecode, View.decode, hnull, hmasked]
      rfl
    cases hloaded : (object.proxy i).isLoaded with
    | true =>
        have hsame : (object.proxy i).get (table.spec i) object.buffer =
            ((object.proxy i).jsValue, object.proxy i) := by
          rw [ColumnProxy.get, if_pos hloaded]
        rw [hsame] at hanswer hview
        exact ⟨hanswer.trans (hvalue hnull hloaded), hview ▸ ⟨hmasked, hdecode, hvalue⟩⟩
    | false =>
        have hloads : (object.proxy i).get (table.spec i) object.buffer =
            (value, { object.proxy i with jsValue := value, isLoaded := true }) := by
          rw [ColumnProxy.get, hloaded, hread]
          rfl
        rw [hloads] at hanswer hview
        rw [hview]
        refine ⟨hanswer, hmasked, ?_, fun _ _ => rfl⟩
        rw [← hdecode, View.decode, View.decode, hmasked]
        rfl

/-- A field that is loaded, and that the row does not have as null. -/
theorem getField_of_isLoaded {object : Object table} (hnull : (object.view i).isNull = false)
    (hloaded : (object.proxy i).isLoaded = true) :
    (object.getField i).1 = (object.proxy i).jsValue ∧
      (object.getField i).2.view i = object.view i := by
  have hsame : (object.proxy i).get (table.spec i) object.buffer =
      ((object.proxy i).jsValue, object.proxy i) := by
    rw [ColumnProxy.get, if_pos hloaded]
  rcases getField_spec object i with ⟨hnull', -⟩ | ⟨-, hanswer, hview⟩
  · exact absurd hnull' (by rw [hnull]; exact Bool.false_ne_true)
  · rw [hsame] at hanswer hview
    exact ⟨hanswer, hview⟩

theorem Holds.getField {object : Object table}
    (h : Holds (table.spec i) (object.view i) value last) :
    (object.getField i).1 = last.getD value ∧
      Holds (table.spec i) ((object.getField i).2.view i) value last := by
  rcases last with _ | _ | written
  · exact Fresh.getField h
  · cases hnull : (object.view i).isNull with
    | true =>
        rcases getField_spec object i with ⟨-, hget⟩ | ⟨hnull', -⟩
        · rw [hget]
          exact ⟨rfl, h⟩
        · exact absurd hnull (by rw [hnull']; exact Bool.false_ne_true)
    | false =>
        obtain ⟨hanswer, hview⟩ := getField_of_isLoaded hnull (Cleared.isLoaded h)
        rw [hview]
        exact ⟨hanswer.trans (Cleared.jsValue h), h⟩
  · obtain ⟨hanswer, hview⟩ := getField_of_isLoaded (Present.isNull_row h) (Present.isLoaded h)
    rw [hview]
    exact ⟨hanswer.trans (Present.jsValue h), h⟩

/-! ## Preparing -/

/-- A field with a value that failed in an earlier `prepare`. -/
def View.Failed (spec : Spec ν ε) (view : View ν) : Prop :=
  view.isMasked = true ∧ view.proxy.isDirty = false ∧ spec.column.isBlob = false ∧
    (view.proxy.jsValue.bind spec.column.check) ≠ none

theorem Fresh.prepare (h : Fresh spec view value) : view.prepare spec = (view, none) := by
  rw [View.prepare, h.isMasked]
  rfl

theorem Cleared.prepare (h : Cleared spec view) :
    view.prepare spec = ({ view with isNull := true }, none) := by
  rw [View.prepare, if_pos h.isMasked, if_pos h.isNull, h.nullable]

theorem Present.prepare_of_dirty (h : Present spec view written) (hdirty : view.proxy.isDirty = true)
    (hblob : spec.column.isBlob = false) :
    view.prepare spec = ({ view with
        proxy := { view.proxy with isDirty := false }
        bytes := spec.column.encode written view.bytes }, spec.column.check written) := by
  simp [View.prepare, h.isMasked, h.isNull, h.jsValue, hdirty, hblob]

theorem Present.prepare_of_kept (h : Present spec view written)
    (hkept : view.proxy.isDirty = false ∨ spec.column.isBlob = true) :
    view.prepare spec = ({ view with proxy := { view.proxy with isDirty := false } }, none) := by
  rcases hkept with hkept | hkept <;>
    simp [View.prepare, h.isMasked, h.isNull, h.jsValue, hkept]

theorem Present.prepare (h : Present spec view written) :
    Present spec (view.prepare spec).1 written := by
  cases hblob : spec.column.isBlob with
  | true =>
      rw [h.prepare_of_kept (Or.inr hblob)]
      exact ⟨h.isMasked, h.isLoaded, h.jsValue, h.isNull, h.isNull_row, h.blob,
        fun hblob' => absurd hblob (by rw [hblob']; exact Bool.false_ne_true)⟩
  | false =>
      cases hdirty : view.proxy.isDirty with
      | true =>
          rw [h.prepare_of_dirty hdirty hblob]
          refine ⟨h.isMasked, h.isLoaded, h.jsValue, h.isNull, h.isNull_row, h.blob, ?_⟩
          intro _ hcheck
          have hkept := h.kept hblob hcheck
          rwa [hdirty] at hkept
      | false =>
          rw [h.prepare_of_kept (Or.inl hdirty)]
          refine ⟨h.isMasked, h.isLoaded, h.jsValue, h.isNull, h.isNull_row, h.blob, ?_⟩
          intro _ hcheck
          have hkept := h.kept hblob hcheck
          rwa [hdirty] at hkept

/-- After a `prepare` that reports no error the record holds the value. -/
theorem Present.decode_prepare (h : Present spec view written) (hfailed : ¬ view.Failed spec)
    (herror : (view.prepare spec).2 = none) : (view.prepare spec).1.decode spec = some written := by
  have hafter := h.prepare
  cases hblob : spec.column.isBlob with
  | true =>
      rw [View.decode, if_pos hafter.isMasked, hafter.isNull_row, ColumnProxy.createBlobWriteHandle,
        hafter.isNull, hafter.jsValue, hblob]
      exact h.blob hblob
  | false =>
      have hcheck : spec.column.check written = none := by
        cases hdirty : view.proxy.isDirty with
        | true => rwa [h.prepare_of_dirty hdirty hblob] at herror
        | false =>
            by_contra hcheck
            exact hfailed ⟨h.isMasked, hdirty, hblob, by rwa [h.jsValue]⟩
      have hclean : (view.prepare spec).1.proxy.isDirty = false := by
        cases hdirty : view.proxy.isDirty with
        | true => rw [h.prepare_of_dirty hdirty hblob]
        | false => rw [h.prepare_of_kept (Or.inl hdirty)]
      have hkept := hafter.kept hblob hcheck
      rw [hclean] at hkept
      rw [View.decode, hafter.isNull_row, hblob]
      exact hkept

theorem Holds.prepare (h : Holds spec view value last) :
    Holds spec (view.prepare spec).1 value last := by
  rcases last with _ | _ | written
  · rw [Fresh.prepare h]
    exact h
  · rw [Cleared.prepare h]
    exact ⟨h.isMasked, h.isLoaded, h.jsValue, h.isNull, h.nullable⟩
  · exact Present.prepare h

theorem Holds.decode_prepare (h : Holds spec view value last) (hfailed : ¬ view.Failed spec)
    (herror : (view.prepare spec).2 = none) :
    (view.prepare spec).1.decode spec = last.getD value := by
  rcases last with _ | _ | written
  · rw [Fresh.prepare h]
    exact Fresh.decode h
  · rw [Cleared.prepare h]
    rfl
  · exact Present.decode_prepare h hfailed herror

theorem Holds.isMasked (h : Holds spec view value last) : view.isMasked = last.isSome := by
  rcases last with _ | _ | written
  · exact Fresh.isMasked h
  · exact Cleared.isMasked h
  · exact Present.isMasked h

/-! ## The trace -/

theorem lastSet_concat (i : table.Field) (trace : List (Output table)) (output : Output table) :
    lastSet i (trace ++ [output]) =
      match output with
      | .set nField value => if nField = i then some value else lastSet i trace
      | _ => lastSet i trace := by
  rw [lastSet, List.foldl_append]
  rfl

theorem Updates.concat {row : Row table} {trace : List (Output table)} (h : Updates row trace)
    {output : Output table}
    (hget : ∀ nField value, output = .got nField value → value = row.current trace nField)
    (hprepare : ∀ record mask, output = .prepared none record mask →
      record = row.current trace ∧ ∀ i, mask i = (lastSet i trace).isSome) :
    Updates row (trace ++ [output]) := by
  refine ⟨?_, ?_⟩
  · intro before nField value hbegins
    rcases List.prefix_concat_iff.mp hbegins with heq | hbegins
    · obtain ⟨rfl, hlast⟩ := List.append_inj' heq rfl
      exact hget nField value (List.cons.inj hlast).1.symm
    · exact h.gets before nField value hbegins
  · intro before record mask hbegins
    rcases List.prefix_concat_iff.mp hbegins with heq | hbegins
    · obtain ⟨rfl, hlast⟩ := List.append_inj' heq rfl
      exact hprepare record mask (List.cons.inj hlast).1.symm
    · exact h.prepares before record mask hbegins

/-! ## Runs -/

/-- Every field holds the value last set for it, or the value of the row. -/
def Held (row : Row table) (state : State table) : Prop :=
  (∀ i, Holds (table.spec i) (state.object.view i) (row.value i) (lastSet i state.trace)) ∧
    Updates row state.trace

/-- The fields of a new object have the values of the row. -/
theorem fresh_nroConstructor (row : Row table) (i : table.Field) :
    Fresh (table.spec i) (row.nroConstructor.view i) (row.value i) := by
  have hblob := row.isSome_blobs i
  have hnullable := row.nullable_of_null i
  rw [view_nroConstructor, Row.attach, Row.value]
  rcases hcontent : row.blobs i with _ | _ | content
  · rw [hcontent] at hblob
    refine ⟨rfl, ?_, fun _ hloaded => absurd hloaded Bool.false_ne_true⟩
    simp only [View.decode, ← hblob]
    rfl
  · refine ⟨rfl, ?_, fun _ hloaded => absurd hloaded Bool.false_ne_true⟩
    simp only [View.decode, hnullable hcontent]
    rfl
  · rw [hcontent] at hblob
    refine ⟨rfl, ?_, fun _ hloaded => absurd hloaded Bool.false_ne_true⟩
    simp only [View.decode, ← hblob]
    rfl

theorem held_start (row : Row table) : Held row row.start := by
  refine ⟨fresh_nroConstructor row, ⟨?_, ?_⟩⟩
  · intro before nField value hbegins
    exact absurd (List.prefix_nil.mp hbegins) (by simp)
  · intro before record mask hbegins
    exact absurd (List.prefix_nil.mp hbegins) (by simp)

theorem Held.getField {row : Row table} {state : State table} (h : Held row state)
    (nField : table.Field) : Held row ⟨(state.object.getField nField).2,
      state.trace ++ [.got nField (state.object.getField nField).1]⟩ := by
  obtain ⟨hholds, hupdates⟩ := h
  obtain ⟨hanswer, hafter⟩ := (hholds nField).getField
  refine ⟨fun i => ?_, hupdates.concat ?_ fun _ _ heq => nomatch heq⟩
  · rw [lastSet_concat]
    by_cases hne : i = nField
    · subst hne
      exact hafter
    · rw [view_getField_of_ne state.object hne]
      exact hholds i
  · intro other value heq
    obtain ⟨rfl, rfl⟩ := Output.got.inj heq
    exact hanswer

theorem Held.setField {row : Row table} {state : State table} (h : Held row state)
    {nField : table.Field} {value : Option ν} (hallowed : Allowed state (.setField nField value)) :
    Held row ⟨state.object.setField nField value, state.trace ++ [.set nField value]⟩ := by
  obtain ⟨hholds, hupdates⟩ := h
  refine ⟨fun i => ?_, hupdates.concat (fun _ _ heq => nomatch heq) fun _ _ heq => nomatch heq⟩
  rw [lastSet_concat]
  by_cases hne : i = nField
  · subst hne
    dsimp only
    rw [if_pos rfl, view_setField_self]
    cases value with
    | none => exact ⟨rfl, rfl, rfl, rfl, hallowed⟩
    | some written =>
        obtain ⟨hnull, hkeeps⟩ := hallowed
        refine ⟨rfl, rfl, rfl, rfl, hnull, ?_, ?_⟩
        · intro hblob
          rwa [Spec.Keeps, if_pos hblob] at hkeeps
        · intro hblob
          rwa [Spec.Keeps, hblob] at hkeeps
  · dsimp only
    rw [if_neg (Ne.symm hne), view_setField_of_ne state.object value hne]
    exact hholds i

theorem Held.prepare {row : Row table} {state : State table} (h : Held row state)
    (hallowed : Allowed state .prepare) : Held row ⟨state.object.prepare.1,
      state.trace ++ [.prepared state.object.prepare.2 state.object.prepare.1.decode
        state.object.prepare.1.isMaskedIn]⟩ := by
  obtain ⟨hholds, hupdates⟩ := h
  refine ⟨fun i => ?_, hupdates.concat (fun _ _ heq => nomatch heq) ?_⟩
  · rw [lastSet_concat, view_prepare]
    exact (hholds i).prepare
  · intro record mask heq
    obtain ⟨herror, rfl, rfl⟩ := Output.prepared.inj heq
    have hnone := (error_prepare state.object).mp herror
    refine ⟨funext fun i => ?_, fun i => ?_⟩
    · rw [decode_view, view_prepare]
      refine (hholds i).decode_prepare ?_ (hnone i)
      rintro ⟨hmasked, hdirty, hblob, hcheck⟩
      exact hcheck (hallowed i hmasked hdirty hblob)
    · have hmasked := (hholds i).prepare.isMasked
      rwa [← view_prepare] at hmasked

theorem Held.step {row : Row table} {state next : State table} {event : Event table}
    (h : Held row state) (hallowed : Allowed state event)
    (hnext : step state event = some next) : Held row next := by
  cases event with
  | getField nField =>
      cases hnext
      exact h.getField nField
  | setField nField value =>
      cases hnext
      exact h.setField hallowed
  | prepare =>
      cases hnext
      exact h.prepare hallowed

/-- In every run of allowed calls the fields are read back as they were set, and the prepared
record holds them. -/
theorem updates_of_guarded (row : Row table) {events : List (Event table)} {state : State table}
    (hguarded : Guarded step Allowed row.start events)
    (hrun : run step row.start events = some state) : Updates row state.trace :=
  (invariant_of_guarded (Held row) (fun _ _ _ h hallowed hnext => h.step hallowed hnext)
    (held_start row) hguarded hrun).2

/-- A table with a nullable SMALLINT and a TINYINT column. -/
def twoColumns : Table ℤ Ndb.Status where
  columns := [integerColumn (fun _ => 0) .int16 true, integerColumn (fun _ => 0) .int8 false]
  length_le := by decide

/-- A row of two columns with the given null bitmap. -/
def smallRow (nullmap : UInt8) : Row twoColumns where
  buffer address := if address = 3 then nullmap else 7
  blobs _ := none
  isSome_blobs := by decide
  nullable_of_null _ h := nomatch h

/-- A TINYINT that is out of range is set again, and the SMALLINT is set to null. -/
def smallEvents : List (Event twoColumns) :=
  [.setField ⟨1, by decide⟩ (some 200), .prepare, .setField ⟨1, by decide⟩ (some 2),
    .setField ⟨0, by decide⟩ none, .getField ⟨0, by decide⟩, .prepare]

theorem updates_of_guarded_two : ∃ state, run step (smallRow 0).start smallEvents = some state ∧
    Updates (smallRow 0) state.trace :=
  have hguarded : Guarded step Allowed (smallRow 0).start smallEvents := by decide +kernel
  ⟨_, rfl, updates_of_guarded (smallRow 0) hguarded rfl⟩

/-- A field that is null in the row is read as null after it was set. -/
theorem null_after_set : ∃ state, run step (smallRow 1).start
      [.setField ⟨0, by decide⟩ (some 5), .getField ⟨0, by decide⟩] = some state ∧
    ¬ Updates (smallRow 1) state.trace := by
  refine ⟨_, rfl, fun hupdates => ?_⟩
  have hget := hupdates.gets [.set ⟨0, by decide⟩ (some 5)] ⟨0, by decide⟩ none (List.prefix_refl _)
  exact absurd hget (by decide)

end DatabaseJones.NdbRecordObject
