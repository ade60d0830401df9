import Mathlib.Data.List.Basic
import Mathlib.Tactic

/-!
# Words, symbols and quoted strings of a text

A machine that reads a text one character at a time: words, which are as long as they can
be, symbols of one character, blanks, and strings between quotes.  A text is a chunk of
another if nothing that follows it, and does not start within a word, changes how it is
read; texts that are put together from chunks are read chunk by chunk.
-/

namespace DatabaseJones.Library

inductive QuotedToken
  | word (text : List Char)
  | symbol (char : Char)
  | string (text : List Char)
deriving DecidableEq, Repr

/-- The characters of words, the symbols and the blanks, the quote, and a character that
strings must not have. -/
structure QuotedAlphabet where
  isWord : Char → Bool
  isSymbol : Char → Bool
  isBlank : Char → Bool
  quote : Char
  escape : Char

/-- What is being read. -/
inductive QuotedMode
  | gap
  | word (text : List Char)
  | string (text : List Char)
deriving DecidableEq, Repr

namespace QuotedAlphabet

variable (alphabet : QuotedAlphabet)

/-- The state of the machine: the tokens so far, and what is being read. -/
abbrev State : Type := List QuotedToken × QuotedMode

/-- A character that is not within a word or a string. -/
def begin (tokens : List QuotedToken) (char : Char) : Option State :=
  if alphabet.isWord char then some (tokens, .word [char])
  else if alphabet.isSymbol char then some (tokens ++ [.symbol char], .gap)
  else if alphabet.isBlank char then some (tokens, .gap)
  else if char = alphabet.quote then some (tokens, .string [])
  else none

def step (state : State) (char : Char) : Option State :=
  match state.2 with
  | .gap => alphabet.begin state.1 char
  | .word text =>
      if alphabet.isWord char then some (state.1, .word (text ++ [char]))
      else alphabet.begin (state.1 ++ [.word text]) char
  | .string text =>
      if char = alphabet.quote then some (state.1 ++ [.string text], .gap)
      else if char = alphabet.escape then none
      else some (state.1, .string (text ++ [char]))

/-- Read a text. -/
def feed : State → List Char → Option State
  | state, [] => some state
  | state, char :: text => (alphabet.step state char).bind fun next => feed next text

/-- The tokens at the end of the text; strings have to be closed. -/
def finish (state : State) : Option (List QuotedToken) :=
  match state.2 with
  | .gap => some state.1
  | .word text => some (state.1 ++ [.word text])
  | .string _ => none

/-- The tokens of a text. -/
def tokens (text : List Char) : Option (List QuotedToken) :=
  (alphabet.feed ([], .gap) text).bind finish

/-- A text starts within a word. -/
def starts (text : List Char) : Bool := text.head?.any alphabet.isWord

variable {alphabet} {text text' word : List Char} {read read' : List QuotedToken}

theorem feed_append (state : State) (text text' : List Char) :
    alphabet.feed state (text ++ text') =
      (alphabet.feed state text).bind fun next => alphabet.feed next text' := by
  induction text generalizing state with
  | nil => rfl
  | cons char text ih =>
      simp only [List.cons_append, feed]
      cases alphabet.step state char with
      | none => rfl
      | some next => exact ih next

theorem begin_before (before tokens : List QuotedToken) (char : Char) :
    alphabet.begin (before ++ tokens) char =
      (alphabet.begin tokens char).map fun state => (before ++ state.1, state.2) := by
  unfold begin
  split
  · rfl
  · split
    · simp
    · split
      · rfl
      · split <;> rfl

theorem step_before (before tokens : List QuotedToken) (mode : QuotedMode) (char : Char) :
    alphabet.step (before ++ tokens, mode) char =
      (alphabet.step (tokens, mode) char).map fun state => (before ++ state.1, state.2) := by
  unfold step
  cases mode with
  | gap => exact begin_before before tokens char
  | word text =>
      by_cases hchar : alphabet.isWord char = true
      · simp [hchar]
      · simpa [hchar] using begin_before before (tokens ++ [.word text]) char
  | string text =>
      by_cases hquote : char = alphabet.quote
      · simp [hquote]
      · by_cases hescape : char = alphabet.escape
        · simp [hquote, hescape]
        · simp [hquote, hescape]

/-- What was read before is kept and has no influence. -/
theorem feed_before (before tokens : List QuotedToken) (mode : QuotedMode) (text : List Char) :
    alphabet.feed (before ++ tokens, mode) text =
      (alphabet.feed (tokens, mode) text).map fun state => (before ++ state.1, state.2) := by
  induction text generalizing tokens mode with
  | nil => rfl
  | cons char text ih =>
      simp only [feed, step_before]
      cases alphabet.step (tokens, mode) char with
      | none => rfl
      | some next => exact ih next.1 next.2

/-- A text that is read as `read` up to a gap, whatever was read before. -/
def ReadsToGap (alphabet : QuotedAlphabet) (text : List Char) (read : List QuotedToken) : Prop :=
  ∀ before, alphabet.feed (before, .gap) text = some (before ++ read, .gap)

/-- A text that is read as `read` before any text that does not start within a word. -/
def IsChunk (alphabet : QuotedAlphabet) (text : List Char) (read : List QuotedToken) : Prop :=
  ∀ text' read', alphabet.starts text' = false → alphabet.ReadsToGap text' read' →
    text' ≠ [] → alphabet.ReadsToGap (text ++ text') (read ++ read')

theorem ReadsToGap.append (h : alphabet.ReadsToGap text read)
    (h' : alphabet.ReadsToGap text' read') : alphabet.ReadsToGap (text ++ text') (read ++ read') := by
  intro before
  rw [feed_append, h before, Option.bind_some, h' (before ++ read), List.append_assoc]

theorem ReadsToGap.isChunk (h : alphabet.ReadsToGap text read) : alphabet.IsChunk text read :=
  fun _ _ _ h' _ => h.append h'

/-- A fixed text is read after anything as it is read at the start. -/
theorem readsToGap_of_feed (h : alphabet.feed ([], .gap) text = some (read, .gap)) :
    alphabet.ReadsToGap text read := by
  intro before
  have hbefore : alphabet.feed (before ++ [], .gap) text = _ := feed_before before [] .gap text
  rw [List.append_nil] at hbefore
  rw [hbefore, h]
  rfl

/-- A word ends where something begins that is not of a word. -/
theorem feed_word_eq (hstarts : alphabet.starts text = false) (hne : text ≠ [])
    (before : List QuotedToken) :
    alphabet.feed (before, .word word) text =
      alphabet.feed (before ++ [.word word], .gap) text := by
  obtain ⟨char, rest, rfl⟩ := List.exists_cons_of_ne_nil hne
  have hchar : alphabet.isWord char = false := hstarts
  simp only [feed, step, hchar, Bool.false_eq_true, if_false]

/-- A text that ends within a word. -/
theorem isChunk_of_word
    (h : ∀ before, alphabet.feed (before, .gap) text = some (before ++ read, .word word)) :
    alphabet.IsChunk text (read ++ [.word word]) := by
  intro text' read' hstarts h' hne before
  rw [feed_append, h before, Option.bind_some, feed_word_eq hstarts hne, h']
  simp

theorem feed_word (htext : ∀ char ∈ text, alphabet.isWord char = true)
    (before : List QuotedToken) :
    alphabet.feed (before, .word word) text = some (before, .word (word ++ text)) := by
  induction text generalizing word with
  | nil => simp [feed]
  | cons char text ih =>
      have hchar := htext char List.mem_cons_self
      simp only [feed, step, hchar, if_true, Option.bind_some]
      rw [ih fun other hother => htext other (List.mem_cons_of_mem _ hother)]
      simp

/-- A word on its own. -/
theorem isChunk_word (hne : text ≠ []) (htext : ∀ char ∈ text, alphabet.isWord char = true) :
    alphabet.IsChunk text [.word text] := by
  change alphabet.IsChunk text ([] ++ [.word text])
  apply isChunk_of_word
  intro before
  obtain ⟨char, rest, rfl⟩ := List.exists_cons_of_ne_nil hne
  have hchar := htext char List.mem_cons_self
  simp only [feed, step, begin, hchar, if_true, Option.bind_some]
  rw [feed_word fun other hother => htext other (List.mem_cons_of_mem _ hother)]
  simp

theorem feed_string (hquote : alphabet.quote ∉ text) (hescape : alphabet.escape ∉ text)
    (before : List QuotedToken) (start : List Char) :
    alphabet.feed (before, .string start) text = some (before, .string (start ++ text)) := by
  induction text generalizing start with
  | nil => simp [feed]
  | cons char text ih =>
      obtain ⟨hchar, hrest⟩ := not_or.mp (mt List.mem_cons.mpr hquote)
      obtain ⟨hchar', hrest'⟩ := not_or.mp (mt List.mem_cons.mpr hescape)
      simp only [feed, step, if_neg (Ne.symm hchar), if_neg (Ne.symm hchar'), Option.bind_some]
      rw [ih hrest hrest']
      simp

/-- A string between its quotes, as long as it has neither a quote nor an escape. -/
theorem readsToGap_string (hbegin : ∀ before, alphabet.begin before alphabet.quote =
      some (before, .string [])) (hquote : alphabet.quote ∉ text)
    (hescape : alphabet.escape ∉ text) :
    alphabet.ReadsToGap (alphabet.quote :: (text ++ [alphabet.quote])) [.string text] := by
  intro before
  simp only [feed, step, hbegin, Option.bind_some]
  rw [feed_append, feed_string hquote hescape]
  simp [feed, step]

theorem starts_append (h : alphabet.starts text = false) (h' : alphabet.starts text' = false) :
    alphabet.starts (text ++ text') = false := by
  cases text with
  | nil => exact h'
  | cons char text => exact h

/-- Chunks are read one after the other. -/
theorem IsChunk.append (h : alphabet.IsChunk text read) (h' : alphabet.IsChunk text' read')
    (hstarts : alphabet.starts text' = false) :
    alphabet.IsChunk (text ++ text') (read ++ read') := by
  intro rest readRest hrest hreads hne
  rw [List.append_assoc, List.append_assoc]
  exact h _ _ (starts_append hstarts hrest) (h' _ _ hrest hreads hne) (by simp [hne])

theorem isChunk_nil : alphabet.IsChunk [] [] := fun _ _ _ h _ => h

/-- A text that can be read on its own is a chunk. -/
theorem isChunk_of_tokens (h : alphabet.tokens text = some read) : alphabet.IsChunk text read := by
  obtain ⟨⟨tokens, mode⟩, hfeed, hfinish⟩ := Option.bind_eq_some_iff.mp h
  have hbefore : ∀ before, alphabet.feed (before, .gap) text = some (before ++ tokens, mode) := by
    intro before
    have hbefore : alphabet.feed (before ++ [], .gap) text = _ :=
      feed_before before [] .gap text
    rw [List.append_nil] at hbefore
    rw [hbefore, hfeed]
    rfl
  cases mode with
  | gap =>
      obtain rfl := Option.some.inj hfinish
      exact ReadsToGap.isChunk hbefore
  | word text =>
      obtain rfl := Option.some.inj hfinish
      exact isChunk_of_word hbefore
  | string text => exact absurd hfinish (by simp [finish])

/-- A text that is a chunk before a text that is read to a gap. -/
theorem IsChunk.readsToGap (h : alphabet.IsChunk text read) (h' : alphabet.ReadsToGap text' read')
    (hstarts : alphabet.starts text' = false) (hne : text' ≠ []) :
    alphabet.ReadsToGap (text ++ text') (read ++ read') :=
  h _ _ hstarts h' hne

/-- After a gap any chunk can follow. -/
theorem ReadsToGap.append_isChunk (h : alphabet.ReadsToGap text read)
    (h' : alphabet.IsChunk text' read') : alphabet.IsChunk (text ++ text') (read ++ read') := by
  intro rest readRest hrest hreads hne
  rw [List.append_assoc, List.append_assoc]
  exact h.append (h' _ _ hrest hreads hne)

/-- A chunk that can follow any other, as it does not start within a word. -/
structure IsPiece (alphabet : QuotedAlphabet) (text : List Char) (read : List QuotedToken) :
    Prop where
  chunk : alphabet.IsChunk text read
  starts : alphabet.starts text = false

theorem isPiece_nil : alphabet.IsPiece [] [] := ⟨isChunk_nil, rfl⟩

theorem IsChunk.append_isPiece (h : alphabet.IsChunk text read)
    (h' : alphabet.IsPiece text' read') : alphabet.IsChunk (text ++ text') (read ++ read') :=
  h.append h'.chunk h'.starts

theorem IsPiece.append (h : alphabet.IsPiece text read) (h' : alphabet.IsPiece text' read') :
    alphabet.IsPiece (text ++ text') (read ++ read') :=
  ⟨h.chunk.append_isPiece h', starts_append h.starts h'.starts⟩

/-- A gap that does not start within a word makes a piece of a chunk. -/
theorem ReadsToGap.append_isPiece (h : alphabet.ReadsToGap text read)
    (hstarts : alphabet.starts text = false) (hne : text ≠ [])
    (h' : alphabet.IsChunk text' read') : alphabet.IsPiece (text ++ text') (read ++ read') := by
  refine ⟨h.append_isChunk h', ?_⟩
  obtain ⟨char, rest, rfl⟩ := List.exists_cons_of_ne_nil hne
  exact hstarts

theorem ReadsToGap.tokens_eq (h : alphabet.ReadsToGap text read) :
    alphabet.tokens text = some read := by
  rw [tokens, h []]
  rfl

end QuotedAlphabet

end DatabaseJones.Library
