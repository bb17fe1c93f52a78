import Wap4410n.Support.CString

/-!
# Support — the words of a shell command

A shell reads a command word by word (`Shell.word`).  Outside quotes a word ends at a blank or an
operator; between double quotes only four characters have a meaning: the backquote starts a command
that is run, `$` may start an expansion (`Shell.Expands`), the backslash takes the meaning of these,
of itself and of the quote, and the quote ends them.  `word` is the value of a word in which nothing
is expanded or run, and `none` for any other.

* `word_plain`: plain characters outside quotes are the word's value.
* `word_quoted`: what a text between double quotes is read as, character by character.
-/

namespace CLib.Shell

/-- A blank, or the end of a line. -/
def isBlank (b : Byte) : Bool := b ∈ [0x20, 0x09, 0x0a]

/-- An operator: one of `;&|<>()`. -/
def isOperator (b : Byte) : Bool := b ∈ [0x3b, 0x26, 0x7c, 0x3c, 0x3e, 0x28, 0x29]

/-- A character that stands for itself outside quotes: a letter, a digit, or one of `_./:,+@%-`. -/
def isPlain (b : Byte) : Bool :=
  (0x30 ≤ b && b ≤ 0x39) || (0x41 ≤ b && b ≤ 0x5a) || (0x61 ≤ b && b ≤ 0x7a) ||
    b ∈ [0x5f, 0x2e, 0x2f, 0x3a, 0x2c, 0x2b, 0x40, 0x25, 0x2d]

/-- Behind a `$` the character starts an expansion: `(`, `{`, a letter, `_`, or one of
`!#$*-0123456789?@`.  Before any other one the `$` stands for itself. -/
def expands (b : Byte) : Bool :=
  b ∈ [0x28, 0x7b, 0x5f, 0x21, 0x23, 0x24, 0x2a, 0x2d, 0x3f, 0x40] || (0x30 ≤ b && b ≤ 0x39) ||
    (0x41 ≤ b && b ≤ 0x5a) || (0x61 ≤ b && b ≤ 0x7a)

/-- A character that keeps its meaning behind a backslash between double quotes. -/
def escapable (b : Byte) : Bool := b ∈ [0x24, 0x60, 0x22, 0x5c]

/-- The value of the word at the front of a text, and the text behind it; `quoted` says whether it
starts between double quotes. -/
def word : Bool → List Byte → Option (List Byte × List Byte)
  | false, [] => some ([], [])
  | true, [] => none
  | false, b :: s =>
    if b = 0x22 then word true s
    else if isBlank b || isOperator b then some ([], b :: s)
    else if isPlain b then (word false s).map fun r => (b :: r.1, r.2)
    else none
  | true, [b] => if b = 0x22 then word false [] else none
  | true, b :: c :: s =>
    if b = 0x22 then word false (c :: s)
    else if b = 0x60 then none
    else if b = 0x24 then
      if expands c then none else (word true (c :: s)).map fun r => (b :: r.1, r.2)
    else if b = 0x5c then
      if escapable c then (word true s).map fun r => (c :: r.1, r.2)
      -- a line that goes on
      else if c = 0x0a then word true s
      else (word true s).map fun r => (b :: c :: r.1, r.2)
    else (word true (c :: s)).map fun r => (b :: r.1, r.2)

/-- The words of a simple command, up to the first operator; `fuel` bounds their number. -/
def words : Nat → List Byte → Option (List (List Byte))
  | 0, _ => none
  | fuel + 1, s =>
    match s.dropWhile isBlank with
    | [] => some []
    | b :: t =>
      if isOperator b then some []
      else (word false (b :: t)).bind fun r => (words fuel r.2).map (r.1 :: ·)

/-- The words of a simple command. -/
def simpleCommand (s : List Byte) : Option (List (List Byte)) := words (s.length + 1) s

/-! ### Outside quotes -/

theorem plain_cases {b : Byte} (h : isPlain b = true) :
    b ≠ 0x22 ∧ isBlank b = false ∧ isOperator b = false := by
  have hall : ∀ b, isPlain b = true → b ≠ 0x22 ∧ isBlank b = false ∧ isOperator b = false :=
    forall_byte (by decide)
  exact hall b h

/-- Plain characters are the value of a word. -/
theorem word_plain {w : List Byte} (hw : ∀ b ∈ w, isPlain b = true) (s : List Byte) :
    word false (w ++ s) = (word false s).map fun r => (w ++ r.1, r.2) := by
  induction w with
  | nil => simp
  | cons b w ih =>
      obtain ⟨hquote, hblank, hoperator⟩ := plain_cases (hw b List.mem_cons_self)
      rw [List.cons_append, word, if_neg hquote, hblank, hoperator, if_neg (by decide),
        if_pos (hw b List.mem_cons_self), ih fun c hc => hw c (List.mem_cons_of_mem b hc),
        Option.map_map]
      rfl

/-- A word ends at a blank. -/
theorem word_blank {b : Byte} (hb : isBlank b = true) (s : List Byte) :
    word false (b :: s) = some ([], b :: s) := by
  have hquote : b ≠ 0x22 := by
    rintro rfl
    revert hb
    decide
  rw [word, if_neg hquote, hb]
  rfl

/-- A command starts with a word and a blank. -/
theorem words_cons {fuel : Nat} {s w t : List Byte} {b : Byte} (hb : isBlank b = false)
    (ho : isOperator b = false) (h : word false (b :: s) = some (w, t)) :
    words (fuel + 1) (b :: s) = (words fuel t).map (w :: ·) := by
  rw [words, List.dropWhile_cons_of_neg (by simp [hb])]
  dsimp only
  rw [ho, if_neg Bool.false_ne_true, h, Option.bind_some]

/-- A blank before a word is skipped. -/
theorem words_blank {fuel : Nat} {b : Byte} (hb : isBlank b = true) (s : List Byte) :
    words fuel (b :: s) = words fuel s := by
  cases fuel with
  | zero => rfl
  | succ fuel => rw [words, words, List.dropWhile_cons_of_pos hb]

/-- A plain word and a blank at the front of a command. -/
theorem words_plain {fuel : Nat} {w : List Byte} (hw : ∀ b ∈ w, isPlain b = true) (hne : w ≠ [])
    (s : List Byte) : words (fuel + 1) (w ++ 0x20 :: s) = (words fuel s).map (w :: ·) := by
  obtain ⟨b, v, rfl⟩ := List.exists_cons_of_ne_nil hne
  obtain ⟨-, hblank, hoperator⟩ := plain_cases (hw b List.mem_cons_self)
  have hword : word false (b :: (v ++ 0x20 :: s)) = some (b :: v, 0x20 :: s) := by
    rw [← List.cons_append, word_plain hw, word_blank (by decide)]
    simp
  rw [List.cons_append, words_cons hblank hoperator hword, words_blank (by decide)]

/-- Where the first word is expanded, so is the command. -/
theorem words_none {fuel : Nat} {s : List Byte} {b : Byte} (hb : isBlank b = false)
    (ho : isOperator b = false) (h : word false (b :: s) = none) :
    words (fuel + 1) (b :: s) = none := by
  rw [words, List.dropWhile_cons_of_neg (by simp [hb])]
  dsimp only
  rw [ho, if_neg Bool.false_ne_true, h, Option.bind_none]

/-! ### Between double quotes -/

/-- What a character between double quotes, with the text behind it, is read as. -/
theorem word_quoted {b c : Byte} {s : List Byte} (hquote : b ≠ 0x22) (hback : b ≠ 0x60)
    (hslash : b ≠ 0x5c) : word true (b :: c :: s) =
      if b = 0x24 ∧ expands c = true then none
      else (word true (c :: s)).map fun r => (b :: r.1, r.2) := by
  rw [word, if_neg hquote, if_neg hback]
  by_cases hdollar : b = 0x24
  · simp only [hdollar, true_and, if_true]
  · simp only [if_neg hslash, hdollar, false_and, if_false]

/-- A backslash before a character that has a meaning. -/
theorem word_escaped {c : Byte} (hc : escapable c = true) (s : List Byte) :
    word true (0x5c :: c :: s) = (word true s).map fun r => (c :: r.1, r.2) := by
  rw [word, if_neg (by decide), if_neg (by decide), if_neg (by decide), if_pos rfl, if_pos hc]

/-- The quote ends them. -/
theorem word_unquoted (s : List Byte) : word true (0x22 :: s) = word false s := by
  cases s <;> rfl

end CLib.Shell
