import DatabaseJones.Loader.TokenSteps

/-!
# Reading a whole control text

The loop takes a valid text with plain comments element by element, and so delivers its
items; only a comment at the end of the text is an error.  The tokens that are delivered
are those that were written exactly if no item is the number 0 and no string has an escape
`\uXXXX` that is not kept.
-/

namespace DatabaseJones.Loader

open Library

/-! ## Each turn takes something -/

theorem length_lt_of_consumeString {q : UInt16} {str rest read after : CodeUnits}
    (h : consumeString q str rest = .ok (read, after)) : after.length < rest.length := by
  induction hsize : rest.length using Nat.strong_induction_on generalizing str rest with
  | _ size ih =>
      subst hsize
      -- the text that is left to the recursive call is shorter
      have hcall : ∀ {str' rest' : CodeUnits}, rest'.length < rest.length →
          consumeString q str' rest' = .ok (read, after) → after.length < rest.length :=
        fun hlt hread => (ih _ hlt hread rfl).trans hlt
      rw [consumeString.eq_def] at h
      split at h
      · cases h
      · next c others =>
          split_ifs at h
          · cases h
            exact Nat.lt_succ_self _
          · split at h
            · cases h
            · split_ifs at h
              · split at h
                · exact hcall (by simp; omega) h
                · cases h
              · exact hcall (by simp) h
          · exact hcall (by simp) h

theorem length_skipBlock (text : CodeUnits) : (skipBlock text).length ≤ text.length := by
  induction text with
  | nil => exact le_rfl
  | cons c rest ih =>
      rw [skipBlock]
      split
      · rw [List.length_cons]
        omega
      · exact le_rfl

/-- Every turn that goes on shortens the text. -/
theorem length_lt_of_tokenizeStep {source : CodeUnits} {scan next : Scan}
    (h : tokenizeStep source scan = .inl next) : next.rest.length < scan.rest.length := by
  obtain ⟨result, rest⟩ := scan
  cases rest with
  | nil => cases h
  | cons c rest =>
      have hdrop : ∀ p, (rest.dropWhile p).length < (c :: rest).length := fun p =>
        Nat.lt_succ_of_le (List.dropWhile_suffix p).length_le
      simp only [tokenizeStep] at h
      split_ifs at h
      · cases h
        exact Nat.lt_succ_self _
      · cases h
        exact hdrop _
      · cases h
        exact hdrop _
      · split at h
        · cases h
          exact hdrop _
        · cases h
      · split at h
        · next hread =>
            cases h
            exact (length_lt_of_consumeString hread).trans (Nat.lt_succ_self _)
        · cases h
      · cases h
        have htail := (List.dropWhile_suffix (l := rest.tail) fun c => !isEndOfLine c).length_le
        rw [List.length_tail] at htail
        simp only [List.length_cons]
        omega
      · split at h
        · cases h
        · next next others hafter =>
            cases h
            have hlength := congrArg List.length hafter
            have hskip := length_skipBlock rest.tail
            rw [List.length_drop, List.length_cons] at hlength
            rw [List.length_tail] at hskip
            simp only [List.length_cons]
            omega
      · cases h
        exact Nat.lt_succ_self _

/-! ## Delivered tokens -/

/-- The escapes that stand for their last digit are those of the decimal digits: the digit
`3` before the last is 48, and 65 or 97 less 10 is no multiple of 16. -/
theorem eq_hexadecimal_iff {first second third last : UInt16}
    (hdigits : ∀ digit ∈ [first, second, third, last], (hexDigit? digit).isSome = true) :
    last = UInt16.ofNat (hexadecimal [first, second, third, last]) ↔
      ∃ digit, isNumeric digit = true ∧
        [first, second, third, last] = codes "003" ++ [digit] := by
  have hvalue : hexadecimal [first, second, third, last] =
      16 * (16 * (16 * (hexDigit? first).getD 0 + (hexDigit? second).getD 0) +
        (hexDigit? third).getD 0) + (hexDigit? last).getD 0 := by
    simp [hexadecimal]
  have hlt : hexadecimal [first, second, third, last] < 65536 := hexadecimal_lt_of_four hdigits
  have hfirst := hexDigit?_cases (hdigits first (by simp))
  have hsecond := hexDigit?_cases (hdigits second (by simp))
  have hthird := hexDigit?_cases (hdigits third (by simp))
  have hlast := hexDigit?_cases (hdigits last (by simp))
  rw [← UInt16.toNat_inj, UInt16.toNat_ofNat_of_lt' hlt, hvalue]
  constructor
  · intro heq
    have hnumeric : 48 ≤ last.toNat ∧ last.toNat ≤ 57 := by omega
    have hzero : (hexDigit? first).getD 0 = 0 ∧ (hexDigit? second).getD 0 = 0 ∧
        (hexDigit? third).getD 0 = 3 := by omega
    have hcodes : first = code '0' ∧ second = code '0' ∧ third = code '3' := by
      simp only [eq_code_iff]
      have h0 : (code '0').toNat = 48 := rfl
      have h3 : (code '3').toNat = 51 := rfl
      omega
    obtain ⟨rfl, rfl, rfl⟩ := hcodes
    exact ⟨last, isNumeric_iff.mpr hnumeric, rfl⟩
  · rintro ⟨digit, hdigit, hcodes⟩
    rw [isNumeric_iff] at hdigit
    obtain ⟨rfl, rfl, rfl, rfl⟩ : first = code '0' ∧ second = code '0' ∧ third = code '3' ∧
        last = digit := by simpa [codes] using hcodes
    have h0 : (hexDigit? (code '0')).getD 0 = 0 := by decide
    have h3 : (hexDigit? (code '3')).getD 0 = 3 := by decide
    omega

theorem Character.delivered_eq_unit_iff {q : UInt16} {character : Character}
    (hvalid : character.Valid q) : character.delivered = character.unit ↔ character.Kept := by
  cases character with
  | raw unit => simp only [delivered, Kept]
  | escaped unit => simp only [delivered, Kept]
  | unicode digits =>
      obtain ⟨hlength, hdigits⟩ := hvalid
      match digits, hlength with
      | [first, second, third, last], _ => exact eq_hexadecimal_iff hdigits

/-- The number 0 is false in `value || str`. -/
theorem deliver_number (value : ℚ) (str : CodeUnits) :
    deliver .number (some (.number value)) str =
      ⟨.number, if value = 0 then .text str else .number value⟩ := by
  unfold deliver
  rw [Option.filter_some]
  by_cases hzero : value = 0
  · simp [TokenValue.isTruthy, hzero]
  · simp [TokenValue.isTruthy, hzero]

theorem Item.delivered_eq_token_iff {item : Item} (hvalid : item.Valid) :
    item.delivered = item.token ↔ item.Kept := by
  cases item with
  | number value numeral =>
      by_cases hzero : value = 0
      · simp [Item.delivered, Item.token, Item.Kept, deliver_number, hzero]
      · simp [Item.delivered, Item.token, Item.Kept, deliver_number, hzero]
  | string q characters =>
      have hcharacters : ∀ character ∈ characters,
          (character.delivered = character.unit ↔ character.Kept) :=
        fun character hmem => Character.delivered_eq_unit_iff (hvalid.2 character hmem)
      simp only [Item.delivered, Item.token, Item.Kept, Token.mk.injEq, TokenValue.text.injEq,
        true_and, List.map_inj_left]
      exact forall₂_congr hcharacters
  | _ => simp only [Item.delivered, Item.Kept]

theorem Element.delivered_eq_tokens_iff {following : CodeUnits} (element : Element)
    (hvalid : element.Valid following) :
    element.delivered = element.tokens ↔ element.Kept := by
  cases element with
  | item written =>
      simp only [delivered, tokens, List.cons.injEq, and_true]
      exact Item.delivered_eq_token_iff hvalid.1
  | _ => simp only [delivered, tokens, Kept]

theorem flatMap_delivered_eq_iff {elements : List Element} (hvalid : ValidText elements) :
    elements.flatMap Element.delivered = elements.flatMap Element.tokens ↔
      ∀ element ∈ elements, element.Kept := by
  induction elements with
  | nil => simp
  | cons element elements ih =>
      obtain ⟨helement, hrest⟩ := hvalid
      have hlength : element.delivered.length = element.tokens.length := by cases element <;> rfl
      rw [List.flatMap_cons, List.flatMap_cons, List.forall_mem_cons, ← ih hrest,
        ← element.delivered_eq_tokens_iff helement]
      constructor
      · exact fun h => List.append_inj h hlength
      · rintro ⟨hhead, htail⟩
        rw [hhead, htail]

/-! ## The loop over a valid text -/

theorem tokenizeStep_item {source following : CodeUnits} {result : List Token} {item : Item}
    (hvalid : item.Valid) (hends : ∀ next ∈ following.head?, item.EndsBefore next) :
    tokenizeStep source ⟨result, item.text ++ following⟩ =
      .inl ⟨result ++ [item.delivered], following⟩ := by
  cases item with
  | name str =>
      obtain ⟨⟨c, rest, rfl, hc, hrest⟩, hname⟩ := hvalid
      exact tokenizeStep_name hc hrest hname hends
  | «variable» str => exact tokenizeStep_variable hvalid hends
  | number value numeral => exact tokenizeStep_number hvalid.1 hvalid.2 hends
  | string q characters =>
      have htext : (Item.string q characters).text ++ following =
          q :: (characters.flatMap Character.text ++ q :: following) := by simp [Item.text]
      rw [htext]
      exact tokenizeStep_string hvalid.1 hvalid.2
  | operator unit => exact tokenizeStep_operator hvalid

/-- One turn takes one element, except for a block comment at the end of the text. -/
theorem tokenizeStep_element {source following : CodeUnits} {result : List Token}
    {element : Element} (hvalid : element.Valid following) (hplain : element.Plain)
    (hend : ∀ body, element = .blockComment body → following ≠ []) :
    tokenizeStep source ⟨result, element.text ++ following⟩ =
      .inl ⟨result ++ element.delivered, following⟩ := by
  cases element with
  | item written => exact tokenizeStep_item hvalid.1 hvalid.2
  | blank unit =>
      change _ = Sum.inl (Scan.mk (result ++ []) following)
      rw [List.append_nil]
      exact tokenizeStep_blank hvalid
  | lineComment body =>
      change _ = Sum.inl (Scan.mk (result ++ []) following)
      rw [List.append_nil]
      exact tokenizeStep_lineComment hvalid.1 hvalid.2
  | blockComment body =>
      change _ = Sum.inl (Scan.mk (result ++ []) following)
      rw [List.append_nil]
      exact tokenizeStep_blockComment hplain.1 hplain.2 (hend body rfl)

/-- Every element has a text. -/
theorem Element.text_ne_nil {following : CodeUnits} {element : Element}
    (hvalid : element.Valid following) : element.text ≠ [] := by
  cases element with
  | blank unit => exact List.cons_ne_nil _ _
  | lineComment body => exact List.cons_ne_nil _ _
  | blockComment body => exact List.cons_ne_nil _ _
  | item written =>
      cases written with
      | name str =>
          obtain ⟨⟨c, rest, rfl, -⟩, -⟩ := hvalid.1
          exact List.cons_ne_nil _ _
      | number value numeral =>
          obtain ⟨c, rest, htext, -⟩ := hvalid.1.1.exists_text
          rw [Element.text, Item.text, htext]
          exact List.cons_ne_nil _ _
      | _ => exact List.cons_ne_nil _ _

theorem textOf_ne_nil {element : Element} {elements : List Element}
    (hvalid : ValidText (element :: elements)) : textOf (element :: elements) ≠ [] := by
  rw [textOf, List.flatMap_cons]
  exact List.append_ne_nil_of_left_ne_nil (Element.text_ne_nil hvalid.1) _

theorem endsInComment_cons {element next : Element} {elements : List Element} :
    EndsInComment (element :: next :: elements) ↔ EndsInComment (next :: elements) := by
  simp only [EndsInComment, List.getLast?_cons_cons]

/-- The loop goes over an element that is not a comment at the end of the text. -/
theorem loopsTo_cons_iff {source : CodeUnits} {element : Element} {elements : List Element}
    {result : List Token} {outcome : Except ScanError (List Token)}
    (hvalid : ValidText (element :: elements)) (hplain : element.Plain)
    (hend : ∀ body, element = .blockComment body → elements ≠ []) :
    LoopsTo (tokenizeStep source) ⟨result, textOf (element :: elements)⟩ outcome ↔
      LoopsTo (tokenizeStep source) ⟨result ++ element.delivered, textOf elements⟩ outcome := by
  have hfollowing : ∀ body, element = .blockComment body → textOf elements ≠ [] := by
    intro body hbody
    obtain ⟨next, rest, rfl⟩ := List.exists_cons_of_ne_nil (hend body hbody)
    exact textOf_ne_nil hvalid.2
  rw [textOf, List.flatMap_cons]
  exact loopsTo_iff_of_inl (tokenizeStep_element hvalid.1 hplain hfollowing)

theorem endsInComment_singleton (body : CodeUnits) : EndsInComment [.blockComment body] :=
  ⟨body, rfl⟩

/-- A valid text with plain comments is read to its end. -/
theorem loopsTo_textOf {source : CodeUnits} {elements : List Element} {result : List Token}
    (hvalid : ValidText elements) (hplain : PlainComments elements)
    (hend : ¬ EndsInComment elements) :
    LoopsTo (tokenizeStep source) ⟨result, textOf elements⟩
      (.ok (result ++ elements.flatMap Element.delivered)) := by
  induction elements generalizing result with
  | nil =>
      apply loopsTo_of_inr
      simp [textOf, tokenizeStep]
  | cons element elements ih =>
      have hmore : ∀ body, element = .blockComment body → elements ≠ [] := by
        rintro body rfl rfl
        exact hend (endsInComment_singleton body)
      have hrest : ¬ EndsInComment elements := by
        cases elements with
        | nil => rintro ⟨body, ⟨⟩⟩
        | cons next others => exact mt endsInComment_cons.mpr hend
      rw [loopsTo_cons_iff hvalid (hplain element List.mem_cons_self) hmore, List.flatMap_cons,
        ← List.append_assoc]
      exact ih hvalid.2 (fun other hother => hplain other (List.mem_cons_of_mem _ hother)) hrest

/-- A block comment at the end of the text is not found to end. -/
theorem loopsTo_textOf_of_endsInComment {source : CodeUnits} {elements : List Element}
    {result : List Token} (hvalid : ValidText elements) (hplain : PlainComments elements)
    (hend : EndsInComment elements) :
    LoopsTo (tokenizeStep source) ⟨result, textOf elements⟩ (.error .unterminatedComment) := by
  induction elements generalizing result with
  | nil =>
      obtain ⟨body, ⟨⟩⟩ := hend
  | cons element elements ih =>
      have hplainElement := hplain element List.mem_cons_self
      cases elements with
      | nil =>
          obtain ⟨body, hbody⟩ := hend
          obtain rfl : element = .blockComment body := by simpa using hbody
          apply loopsTo_of_inr
          rw [textOf, List.flatMap_singleton]
          exact tokenizeStep_blockComment_end hplainElement.1 hplainElement.2
      | cons next others =>
          rw [loopsTo_cons_iff hvalid hplainElement fun _ _ => List.cons_ne_nil _ _]
          exact ih hvalid.2 (fun other hother => hplain other (List.mem_cons_of_mem _ hother))
            (endsInComment_cons.mp hend)

theorem exists_tokenizes (source : CodeUnits) : ∃ outcome, Tokenizes source outcome :=
  exists_loopsTo_of_measure (fun scan => scan.rest.length)
    (fun _ _ hstep => length_lt_of_tokenizeStep hstep) _

/-- `tokenize` ends for every text, and a valid text with plain comments is read back
exactly if every item is kept and no block comment is the end of the text. -/
theorem readsBack_iff (source : CodeUnits) (elements : List Element) :
    (∃ outcome, Tokenizes source outcome) ∧
      (ValidText elements → PlainComments elements →
        (ReadsBack elements ↔
          (∀ element ∈ elements, element.Kept) ∧ ¬ EndsInComment elements)) := by
  refine ⟨exists_tokenizes source, fun hvalid hplain => ?_⟩
  rw [← flatMap_delivered_eq_iff hvalid]
  constructor
  · intro hread
    by_cases hend : EndsInComment elements
    · have herror : Tokenizes (textOf elements) (.error .unterminatedComment) :=
        loopsTo_textOf_of_endsInComment hvalid hplain hend
      cases hread.unique herror
    · have hdelivered : Tokenizes (textOf elements) (.ok (elements.flatMap Element.delivered)) :=
        loopsTo_textOf hvalid hplain hend
      exact ⟨(Except.ok.inj (hread.unique hdelivered)).symm, hend⟩
  · rintro ⟨htokens, hend⟩
    have hdelivered : Tokenizes (textOf elements) (.ok (elements.flatMap Element.delivered)) :=
      loopsTo_textOf hvalid hplain hend
    rwa [htokens] at hdelivered

/-- A name, a plain comment, a string whose escape is kept, and an operator. -/
def plainText : List Element :=
  [.item (.name (codes "LOAD")), .blank (code ' '), .blockComment (codes "/all"),
    .item (.string 0x27 [.raw (code 'b'), .unicode (codes "0031")]), .item (.operator (code ';'))]

theorem validText_plainText : ValidText plainText := by
  refine ⟨⟨⟨⟨_, _, rfl, by decide, by decide⟩, by decide⟩, ?_⟩, ?_, ?_, ⟨⟨by decide, ?_⟩, ?_⟩,
    ⟨?_, ?_⟩, trivial⟩
  · rintro next ⟨⟩
    exact (by decide : isAlphanumeric (code ' ') = false)
  · exact (by decide : code ' ' ≤ code ' ')
  · exact (by decide : ¬ codes "*/" <:+: codes "/all")
  · intro character hcharacter
    rcases List.mem_pair.mp hcharacter with rfl | rfl
    · exact (by decide : code 'b' ≠ 0x27 ∧ code 'b' ≠ backslash ∧ code ' ' ≤ code 'b')
    · exact (by decide : (codes "0031").length = 4 ∧
        ∀ digit ∈ codes "0031", (hexDigit? digit).isSome = true)
  · exact fun _ _ => trivial
  · exact (by decide : code ';' ∈ operators)
  · exact fun _ _ => trivial

theorem plainComments_plainText : PlainComments plainText := by
  intro element helement
  simp only [plainText, List.mem_cons, List.not_mem_nil, or_false] at helement
  rcases helement with rfl | rfl | rfl | rfl | rfl <;> trivial

theorem readsBack_plainText :
    (∃ outcome, Tokenizes (codes "-/*") outcome) ∧ ReadsBack plainText := by
  obtain ⟨hends, hread⟩ := readsBack_iff (codes "-/*") plainText
  refine ⟨hends, (hread validText_plainText plainComments_plainText).mpr ⟨?_, ?_⟩⟩
  · intro element helement
    simp only [plainText, List.mem_cons, List.not_mem_nil, or_false] at helement
    rcases helement with rfl | rfl | rfl | rfl | rfl
    · trivial
    · trivial
    · trivial
    · intro character hcharacter
      rcases List.mem_pair.mp hcharacter with rfl | rfl
      · trivial
      · exact ⟨code '1', by decide, rfl⟩
    · trivial
  · rintro ⟨body, ⟨⟩⟩

theorem toDouble_zero : toDouble 0 = some 0 := by
  simp [toDouble, roundToEven]

/-- The text `0`. -/
def zeroText : List Element := [.item (.number 0 ⟨false, codes "0", none⟩)]

theorem validText_zeroText : ValidText zeroText := by
  refine ⟨⟨⟨⟨by decide, by decide, fun _ h => by cases h⟩, ?_⟩, fun _ h => by cases h⟩, trivial⟩
  have hmagnitude : Numeral.magnitude ⟨false, codes "0", none⟩ = 0 := by
    simp [Numeral.magnitude, decimal, codes, code]
  simp only [Numeral.value, Bool.false_eq_true, if_false, hmagnitude, toDouble_zero]

theorem tokenizes_zeroText :
    Tokenizes (textOf zeroText) (.ok [⟨.number, .text (codes "0")⟩]) := by
  have hdelivered : Tokenizes (textOf zeroText) (.ok (zeroText.flatMap Element.delivered)) :=
    loopsTo_textOf validText_zeroText (by intro element helement; simp_all [zeroText, Element.Plain])
      (by rintro ⟨body, ⟨⟩⟩)
  have hzero : zeroText.flatMap Element.delivered = [⟨.number, .text (codes "0")⟩] := by
    simp only [zeroText, List.flatMap_singleton, Element.delivered, Item.delivered,
      deliver_number, if_true]
    rfl
  rwa [hzero] at hdelivered

/-- The text `/***/;`, which is a comment and an operator. -/
def starText : List Element := [.blockComment (codes "*"), .item (.operator (code ';'))]

/-- The number 0 comes back as a string, and a comment with a star in it is not skipped. -/
theorem not_readsBack_zeroText :
    (ValidText zeroText ∧ ¬ ReadsBack zeroText) ∧ (ValidText starText ∧ ¬ ReadsBack starText) := by
  refine ⟨⟨validText_zeroText, ?_⟩, ⟨?_, ⟨?_, ?_⟩, trivial⟩, ?_⟩
  · intro hread
    have htokens := Except.ok.inj (hread.unique tokenizes_zeroText)
    cases htokens
  · exact (by decide : ¬ codes "*/" <:+: codes "*")
  · exact (by decide : code ';' ∈ operators)
  · exact fun _ _ => trivial
  · intro hread
    have herror : Tokenizes (textOf starText) (.error (.scannerError none 4)) := ⟨2, by rfl⟩
    cases hread.unique herror

end DatabaseJones.Loader
