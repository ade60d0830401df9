import DatabaseJones.MySQLDictionary.ReadingBack

/-!
# Names that are parsed

Lines, tokens and names are what is left when a text is cut at line breaks, blanks and
back-quotes, so none of these is in a name that is parsed.  A definition that is read back
has therefore plain names, and with this the definitions that are read back are known.
-/

namespace DatabaseJones.MySQLDictionary

open DatabaseJones.Library

variable {databaseName : Text} {table : TableDefinition}

/-! ## The loop -/

/-- What is between line breaks and blanks. -/
structure IsPiece (token : Text) : Prop where
  blank : ' ' ∉ token
  lineBreak : '\n' ∉ token

/-- A foreign key that is parsed: only the name of its own database may have points. -/
structure ForeignKey.HasPlainNames (databaseName : Text) (key : ForeignKey) : Prop where
  name : ∀ name ∈ key.name, IsPlainName name
  columns : ∀ name ∈ key.columnNames, IsPlainName name
  targetDatabase : ∀ name ∈ key.targetDatabase, name = databaseName ∨ IsPlainName name ∧ '.' ∉ name
  targetTable : ∀ name ∈ key.targetTable, IsPlainName name ∧ '.' ∉ name
  targetColumns : ∀ name ∈ key.targetColumnNames, IsPlainName name

/-- An index that is parsed, unless it is the placeholder. -/
def Index.HasPlainName (index : Index) : Prop :=
  index.columnNumbers ≠ none → ∀ name ∈ index.name, IsPlainName name

structure State.HasPlainNames (databaseName : Text) (state : State) : Prop where
  columns : ∀ name ∈ state.columns.map Column.name, IsPlainName name
  indexes : ∀ index ∈ state.indexes, index.HasPlainName
  foreignKeys : ∀ key ∈ state.foreignKeys, key.HasPlainNames databaseName

theorem IsPiece.piece_plain {token name : Text} (h : IsPiece token) {index : ℕ}
    (hname : piece (Char.ofNat 0x60) index token = some name) : IsPlainName name := by
  obtain ⟨hquote, hchars⟩ := piece_mem hname
  exact ⟨fun hmem => h.blank (hchars _ hmem), hquote, fun hmem => h.lineBreak (hchars _ hmem)⟩

theorem mem_of_mem_everySecond {pieces : List Text} {name : Text} (h : name ∈ everySecond pieces) :
    name ∈ pieces := by
  induction pieces using everySecond.induct with
  | case1 first second pieces ih =>
      rw [everySecond] at h
      obtain rfl | h := List.mem_cons.mp h
      · simp
      · exact List.mem_cons_of_mem _ (List.mem_cons_of_mem _ (ih h))
  | case2 pieces hshort =>
      unfold everySecond at h
      split at h
      · exact absurd rfl (hshort _ _ _)
      · exact absurd h List.not_mem_nil

theorem IsPiece.decode_plain {token name : Text} (h : IsPiece token)
    (hname : name ∈ decodeIndexColumnNames token) : IsPlainName name := by
  obtain ⟨hquote, hchars⟩ := mem_splitOn (mem_of_mem_everySecond hname)
  exact ⟨fun hmem => h.blank (hchars _ hmem), hquote, fun hmem => h.lineBreak (hchars _ hmem)⟩

theorem parsePrimary_plain {state next : State} {tokens : List Text}
    (hstate : state.HasPlainNames databaseName) (h : parsePrimary state tokens = some next) :
    next.HasPlainNames databaseName := by
  obtain ⟨columnNames, -, rfl⟩ := Option.map_eq_some_iff.mp h
  refine ⟨?_, fun index hindex => ?_, hstate.foreignKeys⟩
  · dsimp only
    rw [name_markPrimary]
    exact hstate.columns
  · obtain hindex | rfl := List.mem_or_eq_of_mem_set hindex
    · exact hstate.indexes index hindex
    · intro _ name hname
      obtain rfl := Option.some.inj hname
      exact ⟨by decide, by decide, by decide⟩

theorem parseKey_plain {unique : Bool} {state next : State} {tokens : List Text}
    (htokens : ∀ token ∈ tokens, IsPiece token) (hstate : state.HasPlainNames databaseName)
    (h : parseKey unique state tokens = some next) : next.HasPlainNames databaseName := by
  unfold parseKey at h
  split at h
  · next indexName columnNames rest =>
    obtain ⟨usingHash, -, rfl⟩ := Option.map_eq_some_iff.mp h
    refine ⟨hstate.columns, fun index hindex => ?_, hstate.foreignKeys⟩
    obtain hindex | hindex := List.mem_append.mp hindex
    · exact hstate.indexes index hindex
    · rw [List.mem_singleton.mp hindex]
      exact fun _ name hname => (htokens indexName List.mem_cons_self).piece_plain hname
  · exact absurd h (by simp)

theorem parseTarget_plain (databaseName : Text) {target : Text} (h : IsPiece target) :
    (∀ name ∈ (parseTarget databaseName target).1,
      name = databaseName ∨ IsPlainName name ∧ '.' ∉ name) ∧
      ∀ name ∈ (parseTarget databaseName target).2, IsPlainName name ∧ '.' ∉ name := by
  -- what is between points has no points, and neither has what is between its quotes
  have hpart : ∀ part ∈ target.splitOn '.', ∀ name, piece (Char.ofNat 0x60) 1 part = some name →
      IsPlainName name ∧ '.' ∉ name := by
    intro part hpart name hname
    obtain ⟨hpoint, hchars⟩ := mem_splitOn hpart
    have hpiece : IsPiece part :=
      ⟨fun hmem => h.blank (hchars _ hmem), fun hmem => h.lineBreak (hchars _ hmem)⟩
    exact ⟨hpiece.piece_plain hname, fun hmem => hpoint ((piece_mem hname).2 _ hmem)⟩
  unfold parseTarget
  split
  · next database table hparts =>
    rw [hparts] at hpart
    exact ⟨fun name hname => Or.inr (hpart database (by simp) name hname),
      fun name hname => hpart table (by simp) name hname⟩
  · refine ⟨fun name hname => Or.inl (Option.some.inj hname).symm, fun name hname => ?_⟩
    obtain ⟨part, hhead, hname⟩ := Option.bind_eq_some_iff.mp hname
    exact hpart part (List.mem_of_mem_head? hhead) name hname

theorem parseForeignKey_plain {name : Option Text} (hname : ∀ text ∈ name, IsPlainName text)
    {state next : State} {tokens : List Text} (htokens : ∀ token ∈ tokens, IsPiece token)
    (hstate : state.HasPlainNames databaseName)
    (h : parseForeignKey databaseName name state tokens = some next) :
    next.HasPlainNames databaseName := by
  unfold parseForeignKey at h
  split at h
  · exact absurd h (by simp)
  · next columnNames tokens =>
    have hrest : ∀ token ∈ tokens.tail, IsPiece token := fun token htoken =>
      htokens token (List.mem_cons_of_mem _ (List.mem_of_mem_tail htoken))
    split at h
    · split at h
      · next target targetColumnNames rest htail =>
        obtain rfl := Option.some.inj h
        rw [htail] at hrest
        have htarget := parseTarget_plain databaseName (hrest target (by simp))
        refine ⟨hstate.columns, hstate.indexes, fun key hkey => ?_⟩
        obtain hkey | hkey := List.mem_append.mp hkey
        · exact hstate.foreignKeys key hkey
        · rw [List.mem_singleton.mp hkey]
          exact ⟨hname, fun column hcolumn => (htokens columnNames (by simp)).decode_plain hcolumn,
            htarget.1, htarget.2,
            fun column hcolumn => (hrest targetColumnNames (by simp)).decode_plain hcolumn⟩
      · exact absurd h (by simp)
    · exact Option.some.inj h ▸ hstate

theorem parseConstraint_plain {state next : State} {tokens : List Text}
    (htokens : ∀ token ∈ tokens, IsPiece token) (hstate : state.HasPlainNames databaseName)
    (h : parseConstraint databaseName state tokens = some next) :
    next.HasPlainNames databaseName := by
  unfold parseConstraint at h
  split at h
  · exact absurd h (by simp)
  · next name tokens =>
    have hname : ∀ text ∈ piece (Char.ofNat 0x60) 1 name, IsPlainName text :=
      fun text htext => (htokens name (by simp)).piece_plain htext
    have htail : ∀ token ∈ tokens.tail, IsPiece token := fun token htoken =>
      htokens token (List.mem_cons_of_mem _ (List.mem_of_mem_tail htoken))
    split at h
    · refine parseForeignKey_plain hname ?_ hstate h
      split
      · exact fun token htoken => htail token (List.mem_of_mem_tail htoken)
      · exact htail
    · exact Option.some.inj h ▸ hstate

/-- Looking at the type leaves the name as it is. -/
theorem typeMetadata_name (columnType : Text) (columnSize : Option Text) (column : Column) :
    ∀ result ∈ typeMetadata columnType columnSize column, result.name = column.name := by
  have hsome : ∀ other : Column, other.name = column.name →
      ∀ result ∈ some other, result.name = column.name := by
    intro other hother result hresult
    rw [← Option.some.inj hresult]
    exact hother
  have hif : ∀ (p : Prop) [Decidable p] (first second : Option Column),
      (∀ result ∈ first, result.name = column.name) →
      (∀ result ∈ second, result.name = column.name) →
      ∀ result ∈ (if p then first else second), result.name = column.name := by
    intro p _ first second hfirst hsecond
    split
    · exact hfirst
    · exact hsecond
  have hdecimal : ∀ result ∈ columnSize.map fun size =>
      { column with precision := some (getPrecision size), scale := some (getScale size) },
      result.name = column.name := by
    intro result hresult
    obtain ⟨size, -, rfl⟩ := Option.map_eq_some_iff.mp hresult
    rfl
  unfold typeMetadata
  refine hif _ _ _ (hsome _ rfl) (hif _ _ _ (hsome _ rfl) (hif _ _ _ (hsome _ rfl) ?_))
  refine hif _ _ _ (hsome _ rfl) (hif _ _ _ (hsome _ rfl) (hif _ _ _ (hsome _ rfl) ?_))
  refine hif _ _ _ hdecimal (hif _ _ _ (hsome _ rfl) (hif _ _ _ (hsome _ rfl) ?_))
  exact hif _ _ _ (hsome _ rfl) (hif _ _ _ (hsome _ rfl) (hsome _ rfl))

theorem parseColumn_plain {line columnName : Text} (hname : IsPlainName columnName)
    {state next : State} {tokens : List Text} (hstate : state.HasPlainNames databaseName)
    (h : parseColumn line state columnName tokens = some next) :
    next.HasPlainNames databaseName := by
  unfold parseColumn at h
  split at h
  · exact absurd h (by simp)
  · obtain ⟨column, hcolumn, rfl⟩ := Option.map_eq_some_iff.mp h
    have hcolumnName := typeMetadata_name _ _ _ column hcolumn
    refine ⟨fun name hmem => ?_, hstate.indexes, hstate.foreignKeys⟩
    rw [List.map_append] at hmem
    obtain hmem | hmem := List.mem_append.mp hmem
    · exact hstate.columns name hmem
    · rw [List.mem_singleton.mp hmem, (parseClauses_frame _ _ _).1, hcolumnName]
      exact hname

theorem parseTokens_plain {line : Text} {state next : State} {tokens : List Text}
    (htokens : ∀ token ∈ tokens, IsPiece token) (hstate : state.HasPlainNames databaseName)
    (h : parseTokens databaseName state line tokens = some next) :
    next.HasPlainNames databaseName := by
  unfold parseTokens at h
  split at h
  · exact absurd h (by simp)
  · next token tokens =>
    have hrest : ∀ token ∈ tokens, IsPiece token := fun other hother =>
      htokens other (List.mem_cons_of_mem _ hother)
    split at h
    · exact parsePrimary_plain hstate h
    split at h
    · exact parseKey_plain (fun other hother => hrest other (List.mem_of_mem_tail hother)) hstate h
    split at h
    · exact parseKey_plain hrest hstate h
    split at h
    · exact Option.some.inj h ▸ hstate
    split at h
    · exact parseConstraint_plain hrest hstate h
    split at h
    · exact Option.some.inj h ▸ hstate
    · next columnName hname =>
      exact parseColumn_plain ((htokens token List.mem_cons_self).piece_plain hname) hstate h

theorem mem_of_mem_withoutComma {line : Text} {char : Char} (h : char ∈ withoutComma line) :
    char ∈ line := by
  unfold withoutComma at h
  split at h
  · exact List.mem_of_mem_dropLast h
  · exact h

theorem parseLine_plain {line : Text} (hline : '\n' ∉ line) {state next : State}
    (hstate : state.HasPlainNames databaseName) (h : parseLine databaseName state line = some next) :
    next.HasPlainNames databaseName := by
  refine parseTokens_plain (fun token htoken => ?_) hstate h
  obtain ⟨hblank, hchars⟩ := mem_splitOn ((List.dropWhile_sublist _).subset htoken)
  exact ⟨hblank, fun hmem => hline (mem_of_mem_withoutComma (hchars _ hmem))⟩

/-- Whatever the text is, the names that are parsed are plain. -/
theorem plain_of_parseCreateTable {tableName statement : Text} {result : Table}
    (h : parseCreateTable databaseName tableName statement = some result) :
    (∀ name ∈ result.columns.map Column.name, IsPlainName name) ∧
      (∀ index ∈ result.indexes, index.HasPlainName) ∧
      ∀ key ∈ result.foreignKeys, key.HasPlainNames databaseName := by
  obtain ⟨state, hfold, rfl⟩ := Option.map_eq_some_iff.mp h
  have hinit : State.init.HasPlainNames databaseName := by
    refine ⟨nofun, fun index hindex => ?_, nofun⟩
    rw [List.mem_singleton.mp hindex]
    exact fun hnumbers => absurd rfl hnumbers
  have hlines : ∀ line ∈ (statement.splitOn '\n').tail, ∀ state next,
      state.HasPlainNames databaseName → parseLine databaseName state line = some next →
      next.HasPlainNames databaseName := fun line hline state next hstate hnext =>
    parseLine_plain (mem_splitOn (List.mem_of_mem_tail hline)).1 hstate hnext
  have hstate := invariant_of_foldlM hlines hinit hfold
  refine ⟨hstate.columns, fun index hindex => ?_, hstate.foreignKeys⟩
  -- the ordered indexes have the names and columns of unique ones
  unfold splitIndexes at hindex
  obtain hindex | hindex := List.mem_append.mp hindex
  · obtain ⟨other, hother, rfl⟩ := List.mem_map.mp hindex
    exact hstate.indexes other hother
  · obtain ⟨other, hother, rfl⟩ := List.mem_map.mp hindex
    exact hstate.indexes other (List.mem_of_mem_filter hother)

/-! ## Definitions that are read back -/

theorem hasPlainNames_of_parsesBack (h : table.IsSupported databaseName)
    (hback : ParsesBack databaseName table) : table.HasPlainNames := by
  obtain ⟨hcolumns, hindexes, hforeign⟩ := plain_of_parseCreateTable hback
  refine ⟨fun column hcolumn => ?_, fun key hkey => ?_, fun key hkey => ?_⟩
  · obtain ⟨index, hlt, rfl⟩ := List.mem_iff_getElem.mp hcolumn
    refine hcolumns _ (List.mem_map.mpr ⟨_, List.mem_mapIdx.mpr ⟨index, hlt, rfl⟩, rfl⟩)
  · have hindex : key.index table false ∈ (table.metadata databaseName).indexes :=
      List.mem_append_left _ (List.mem_append_right _ (List.mem_map_of_mem hkey))
    exact hindexes _ hindex (Option.some_ne_none _) key.name rfl
  · have hplain := hforeign _ (List.mem_map_of_mem (f := ForeignKeyDefinition.metadata databaseName)
      hkey)
    refine ⟨hplain.name key.name rfl, hplain.columns, fun name hname => ?_,
      hplain.targetTable key.targetTable rfl, hplain.targetColumns⟩
    have hname : key.targetDatabase = some name := hname
    have hother : name ≠ databaseName := fun heq =>
      (h.foreignKeys key hkey).targetDatabase (heq ▸ hname)
    have htarget := hplain.targetDatabase name (by
      change name ∈ some (key.targetDatabase.getD databaseName)
      rw [hname]
      rfl)
    exact htarget.resolve_left hother

/-- The definitions that are read back: names are plain, columns are kept, the primary key is
no hash, and the columns of a foreign key stand in one piece. -/
structure TableDefinition.IsKept (table : TableDefinition) : Prop where
  name : '\n' ∉ table.name
  plain : table.HasPlainNames
  columns : ∀ column ∈ table.columns, column.IsKept
  primaryKey : ∃ key, table.primaryKey = some key ∧ key.method ≠ some .hash
  foreignKeys : ∀ key ∈ table.foreignKeys, ¬ key.IsCut

/-- No line break in the name of the table and no quotes in those of its columns. -/
structure TableDefinition.IsUnambiguous (table : TableDefinition) : Prop where
  name : '\n' ∉ table.name
  columns : ∀ column ∈ table.columns, Char.ofNat 0x27 ∉ column.name

/-- A person with a number, a name in a collation of its own, and a town that is referred to. -/
def personTable : TableDefinition where
  name := "person".toList
  columns :=
    [⟨"id".toList, .integer .int none, true, none, none, false, none, true⟩,
      ⟨"name".toList, .text, false, some "utf8".toList, some "utf8_bin".toList, true, some .null, false⟩,
      ⟨"born".toList, .date, false, none, none, false, some (.text "2000-01-01".toList), false⟩]
  primaryKey := some ⟨["id".toList], none⟩
  keys := [⟨"byName".toList, true, ["name".toList, "born".toList], some .btree⟩]
  foreignKeys :=
    [⟨"town".toList, ["name".toList], some "world".toList, "towns".toList, ["name".toList], true,
      []⟩]
  options := ["ENGINE=InnoDB".toList]

theorem isWord_of_decide {word : Text} (hne : word ≠ [])
    (h : ∀ char ∈ [' ', ',', '\n', Char.ofNat 0x27, Char.ofNat 0x60], char ∉ word) : IsWord word :=
  ⟨hne, fun char hchar hmem => h char hmem hchar⟩

theorem isSupported_personTable : personTable.IsSupported "test".toList := by
  have htype : ∀ type : ColumnType, type.length = none → type.precision = none →
      type.scale = none → type.IsSupported := by
    intro type hlength hprecision hscale
    refine ⟨?_, ?_, ?_⟩
    · rw [hlength]
      nofun
    · rw [hprecision]
      nofun
    · rw [hscale]
      nofun
  refine ⟨?_, by decide, by decide, by decide, ?_, by decide⟩
  · refine List.forall_mem_cons.mpr ⟨?_, List.forall_mem_cons.mpr ⟨?_, List.forall_mem_singleton.mpr ?_⟩⟩
    · exact ⟨htype _ rfl rfl rfl, nofun, nofun, nofun, fun _ => ⟨rfl, rfl⟩⟩
    · refine ⟨htype _ rfl rfl rfl, fun word hword => ?_, fun word hword => ?_,
        fun default hdefault => ?_, nofun⟩
      · rw [← Option.some.inj hword]
        exact isWord_of_decide (by decide) (by decide)
      · rw [← Option.some.inj hword]
        exact isWord_of_decide (by decide) (by decide)
      · rw [← Option.some.inj hdefault]
        trivial
    · refine ⟨htype _ rfl rfl rfl, nofun, nofun, fun default hdefault => ?_, nofun⟩
      rw [← Option.some.inj hdefault]
      rfl
  · intro key hkey
    rw [List.mem_singleton.mp hkey]
    exact ⟨rfl, by decide, nofun⟩

theorem isKept_personTable : personTable.IsKept := by
  have hplain : ∀ name ∈ ["id".toList, "name".toList, "born".toList, "byName".toList, "town".toList,
      "world".toList, "towns".toList], IsPlainName name := by
    intro name hname
    have hblank : ' ' ∉ name := by
      revert name
      decide
    have hquote : Char.ofNat 0x60 ∉ name := by
      revert name
      decide
    have hbreak : '\n' ∉ name := by
      revert name
      decide
    exact ⟨hblank, hquote, hbreak⟩
  refine ⟨by decide, ⟨?_, ?_, ?_⟩, ?_, ⟨_, rfl, by decide⟩, by decide⟩
  · intro column hcolumn
    exact hplain _ (by revert column; decide)
  · intro key hkey
    exact hplain _ (by revert key; decide)
  · intro key hkey
    rw [List.mem_singleton.mp hkey]
    refine ⟨hplain _ (by decide), fun name hname => hplain name ?_, fun name hname => ?_,
      ⟨hplain _ (by decide), by decide⟩, fun name hname => hplain name ?_⟩
    · revert name
      decide
    · rw [← Option.some.inj hname]
      exact ⟨hplain _ (by decide), by decide⟩
    · revert name
      decide
  · refine List.forall_mem_cons.mpr ⟨?_, List.forall_mem_cons.mpr ⟨?_, List.forall_mem_singleton.mpr ?_⟩⟩
    · exact ⟨fun _ => rfl, fun _ _ => rfl, nofun, Or.inr (Or.inl rfl)⟩
    · refine ⟨nofun, nofun, fun default hdefault => ?_, Or.inr (Or.inr rfl)⟩
      rw [← Option.some.inj hdefault]
      trivial
    · refine ⟨fun _ => rfl, nofun, fun default hdefault => ?_, Or.inl (by decide)⟩
      rw [← Option.some.inj hdefault]
      exact ⟨by decide, by decide⟩

end DatabaseJones.MySQLDictionary
