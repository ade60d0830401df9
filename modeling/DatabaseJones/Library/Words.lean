import Mathlib.Data.List.Basic
import Mathlib.Algebra.Ring.Nat

/-!
# Words and symbols of a text

A text is read as words, which are as long as they can be, and symbols of one character, with blanks
between them.  Two texts are read one after the other if no word goes from the one to the other.
-/

namespace DatabaseJones.Library

/-- The characters of words, the symbols, and the blanks. -/
structure Alphabet where
  isWord : Char → Bool
  isSymbol : Char → Bool
  isBlank : Char → Bool

inductive Lexeme
  | word (text : List Char)
  | symbol (char : Char)
deriving DecidableEq, Repr

namespace Alphabet

variable (alphabet : Alphabet)

/-- A text starts within a word. -/
def starts (text : List Char) : Bool := text.head?.any alphabet.isWord

/-- A text ends within a word. -/
def ends (text : List Char) : Bool := text.getLast?.any alphabet.isWord

/-- A character of a word joins the word that follows at once. -/
def joinWord (char : Char) (text : List Char) : List Lexeme → List Lexeme
  | .word rest :: lexemes =>
      if alphabet.starts text then .word (char :: rest) :: lexemes
      else .word [char] :: .word rest :: lexemes
  | lexemes => .word [char] :: lexemes

/-- The lexemes of a text, if it has only characters of the alphabet. -/
def lex : List Char → Option (List Lexeme)
  | [] => some []
  | char :: text =>
      if alphabet.isWord char then (lex text).map (alphabet.joinWord char text)
      else if alphabet.isSymbol char then (lex text).map (.symbol char :: ·)
      else if alphabet.isBlank char then lex text
      else none

variable {alphabet} {text text' : List Char} {lexemes lexemes' : List Lexeme}

/-- A text that starts within a word starts with a word. -/
theorem exists_word_of_starts (h : alphabet.starts text = true)
    (hlex : alphabet.lex text = some lexemes) : ∃ word rest, lexemes = .word word :: rest := by
  cases text with
  | nil => cases h
  | cons char text =>
      have hword : alphabet.isWord char = true := by simpa [starts] using h
      unfold lex at hlex
      rw [if_pos hword] at hlex
      obtain ⟨tail, _, rfl⟩ := Option.map_eq_some_iff.mp hlex
      unfold joinWord
      split
      · split_ifs
        · exact ⟨_, _, rfl⟩
        · exact ⟨_, _, rfl⟩
      · exact ⟨_, _, rfl⟩

/-- What joins a word does not depend on what comes later. -/
theorem joinWord_append {char : Char} (hstarts : alphabet.starts text' = alphabet.starts text)
    (hnil : lexemes = [] → alphabet.starts text = false) :
    alphabet.joinWord char text' (lexemes ++ lexemes') =
      alphabet.joinWord char text lexemes ++ lexemes' := by
  cases lexemes with
  | nil =>
      unfold joinWord
      rw [List.nil_append, hstarts, hnil rfl]
      split
      · rfl
      · rfl
  | cons lexeme lexemes =>
      cases lexeme with
      | word rest =>
          unfold joinWord
          rw [List.cons_append, hstarts]
          dsimp only
          split_ifs
          · rfl
          · rfl
      | symbol char => rfl

/-- Texts are read one after the other if no word goes from the one to the other. -/
theorem lex_append (hlex : alphabet.lex text = some lexemes)
    (hlex' : alphabet.lex text' = some lexemes')
    (h : alphabet.ends text = false ∨ alphabet.starts text' = false) :
    alphabet.lex (text ++ text') = some (lexemes ++ lexemes') := by
  induction text generalizing lexemes with
  | nil =>
      cases hlex
      exact hlex'
  | cons char text ih =>
      rw [List.cons_append]
      unfold lex at hlex ⊢
      cases text with
      | nil =>
          rw [List.nil_append]
          split_ifs at hlex ⊢ with hword hsymbol hblank
          · cases hlex
            have hstarts : alphabet.starts text' = false := by
              refine h.resolve_left fun hends => ?_
              simp [ends, hword] at hends
            rw [hlex', Option.map_some]
            unfold joinWord
            split
            · rw [hstarts]
              rfl
            · rfl
          · cases hlex
            rw [hlex']
            rfl
          · cases hlex
            exact hlex'
      | cons next text =>
          have hends : alphabet.ends (next :: text) = false ∨ alphabet.starts text' = false := by
            simpa [ends] using h
          split_ifs at hlex ⊢ with hword hsymbol hblank
          · obtain ⟨tail, htail, rfl⟩ := Option.map_eq_some_iff.mp hlex
            rw [ih htail hends, Option.map_some]
            refine congrArg some (joinWord_append rfl fun hnil => ?_)
            by_contra hstarts
            obtain ⟨word, rest, hword⟩ :=
              exists_word_of_starts (Bool.not_eq_false _ ▸ hstarts) htail
            rw [hnil] at hword
            cases hword
          · obtain ⟨tail, htail, rfl⟩ := Option.map_eq_some_iff.mp hlex
            rw [ih htail hends]
            rfl
          · exact ih hlex hends

theorem ends_append (text : List Char) (hne : text' ≠ []) :
    alphabet.ends (text ++ text') = alphabet.ends text' := by
  unfold ends
  obtain ⟨char, hchar⟩ := Option.ne_none_iff_exists'.mp (mt List.getLast?_eq_none_iff.mp hne)
  rw [List.getLast?_append, hchar]
  rfl

/-- A text of characters of words is one word. -/
theorem lex_word (hne : text ≠ []) (hword : ∀ char ∈ text, alphabet.isWord char = true) :
    alphabet.lex text = some [.word text] := by
  induction text with
  | nil => exact absurd rfl hne
  | cons char text ih =>
      unfold lex
      rw [if_pos (hword char List.mem_cons_self)]
      cases text with
      | nil => rfl
      | cons next text =>
          have hstarts : alphabet.starts (next :: text) = true :=
            hword next (List.mem_cons_of_mem _ List.mem_cons_self)
          rw [ih (List.cons_ne_nil _ _) fun other hother =>
            hword other (List.mem_cons_of_mem _ hother), Option.map_some]
          unfold joinWord
          dsimp only
          rw [hstarts]
          rfl

end Alphabet

/-! ## Lists with separators -/

variable {α ι : Type*}

/-- Items with a separator before each but the first one, which has something else before it. -/
def separatedFrom (first separator : List α) : List (List α) → List α
  | [] => []
  | item :: items => first ++ item ++ separatedFrom separator separator items

/-- Items with a separator between them. -/
def separated (separator : List α) (items : List (List α)) : List α :=
  separatedFrom [] separator items

theorem separatedFrom_cons (first separator item : List α) (items : List (List α)) :
    separatedFrom first separator (item :: items) =
      first ++ item ++ separatedFrom separator separator items := rfl

theorem count_separatedFrom [DecidableEq α] {first separator : List α} {a : α}
    (hfirst : a ∉ first) (hseparator : a ∉ separator) (items : List (List α)) :
    (separatedFrom first separator items).count a = (items.map (List.count a)).sum := by
  induction items generalizing first with
  | nil => rfl
  | cons item items ih =>
      rw [separatedFrom_cons, List.count_append, List.count_append, List.count_eq_zero_of_not_mem hfirst,
        ih hseparator, List.map_cons, List.sum_cons, Nat.zero_add]

/-- What is put between words separates them. -/
theorem Alphabet.lex_separatedFrom {alphabet : Alphabet} {first separator : List Char}
    {firstLexemes separatorLexemes : List Lexeme} {f : ι → List Char} {g : ι → List Lexeme}
    (hfirst : alphabet.lex first = some firstLexemes) (hfirstEnds : alphabet.ends first = false)
    (hseparator : alphabet.lex separator = some separatorLexemes)
    (hends : alphabet.ends separator = false) (hne : separator ≠ []) {items : List ι}
    (hitems : ∀ item ∈ items, alphabet.lex (f item) = some (g item))
    (hboundary : ∀ item ∈ items,
      alphabet.ends (f item) = false ∨ alphabet.starts separator = false) :
    alphabet.lex (separatedFrom first separator (items.map f)) =
      some (separatedFrom firstLexemes separatorLexemes (items.map g)) := by
  induction items generalizing first firstLexemes with
  | nil => rfl
  | cons item items ih =>
      have hrest := ih hseparator hends
        (fun other hother => hitems other (List.mem_cons_of_mem _ hother))
        fun other hother => hboundary other (List.mem_cons_of_mem _ hother)
      have hitem := hitems item List.mem_cons_self
      have hnext : alphabet.ends (f item) = false ∨
          alphabet.starts (separatedFrom separator separator (items.map f)) = false := by
        refine (hboundary item List.mem_cons_self).imp_right fun hstarts => ?_
        cases items with
        | nil => rfl
        | cons next items =>
            obtain ⟨char, rest, rfl⟩ := List.exists_cons_of_ne_nil hne
            exact hstarts
      rw [List.map_cons, List.map_cons, separatedFrom_cons, separatedFrom_cons, List.append_assoc,
        List.append_assoc]
      exact lex_append hfirst (lex_append hitem hrest hnext) (.inl hfirstEnds)

end DatabaseJones.Library
