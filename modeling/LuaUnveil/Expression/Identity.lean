import LuaUnveil.Text.Scan
import LuaUnveil.Text.Word

/-!
# Identities of expressions

Obfuscated arithmetic and boolean code is padded with operands that change nothing: `n + 0`,
`1 * n`, `true and x`, `x or false`.  An identity finds such a padding by its spelling alone and
keeps the operand that matters.

* `Identity`: the neutral operand stands left or right, and is a digit beside a numeral or a
  keyword beside the rest of a line.
* `Identity.apply`: keep the other operand, wherever the identity is found.
* `Identity.all`: the eight identities, in the order in which they are applied.
-/

namespace LuaUnveil

/-- An identity: an operator with a neutral operand on one side. -/
inductive Identity where
  /-- A numeral, the operator, and the neutral digit as a whole word: `n + 0`. -/
  | digitRight (operator neutral : Char)
  /-- The neutral digit as the start of a word, the operator, and a numeral: `0 + n`. -/
  | digitLeft (neutral operator : Char)
  /-- The neutral keyword, the operator, and the rest of the line: `true and x`. -/
  | keywordLeft (neutral operator : Text)
  /-- A part of a line, the operator, and the neutral keyword: `x and true`. -/
  | keywordRight (operator neutral : Text)
  deriving Repr, DecidableEq

namespace Identity

/-- Whether a text begins outside of a word. -/
def startsOutsideWord (text : Text) : Bool := !text.head?.any isWord

/-! ## Beside a numeral -/

/-- A numeral, the operator with blanks around it, and the neutral digit, at the end of a word.
The value is the numeral, which is taken from its first digit on. -/
def numeralFirst (operator neutral : Char) : Pattern Text := fun before text => do
  guard (!before.any Char.isDigit)
  let (digits, rest) := leading Char.isDigit text
  guard (!digits.isEmpty)
  let (left, rest) := leading isBlank rest
  let rest ← skip? [operator] rest
  let (right, rest) := leading isBlank rest
  let rest ← skip? [neutral] rest
  guard (startsOutsideWord rest)
  return ⟨digits, digits ++ left ++ operator :: right ++ [neutral]⟩

/-- The neutral digit at the start of a word, the operator with blanks around it, and a numeral.
The value is the numeral. -/
def numeralLast (neutral operator : Char) : Pattern Text := fun before text => do
  guard (!before.any isWord)
  let rest ← skip? [neutral] text
  let (left, rest) := leading isBlank rest
  let rest ← skip? [operator] rest
  let (right, rest) := leading isBlank rest
  let digits := rest.takeWhile Char.isDigit
  guard (!digits.isEmpty)
  return ⟨digits, neutral :: left ++ operator :: right ++ digits⟩

/-! ## Beside the rest of a line -/

/-- The rest of the line behind a run of blanks.  The answer is what is skipped and what is taken.
At least one blank is skipped, and all of them if something follows.  At the end of the text the
last blank that is no line break, if there is one behind the first blank, is taken for the rest of
its line. -/
def lineBehindBlanks (text : Text) : Option (Text × Text) :=
  match leading isBlank text with
  | ([], _) => none
  | (blanks, c :: rest) => some (blanks, (c :: rest).takeWhile (· != '\n'))
  | (first :: blanks, []) =>
    match blanks.reverse.dropWhile (· == '\n') with
    | [] => none
    | last :: skipped => some (first :: skipped.reverse, [last])

/-- The neutral keyword at the start of a word, the operator, and the rest of the line, with blanks
between them.  The value is the rest of the line. -/
def lineLast (neutral operator : Text) : Pattern Text := fun before text => do
  guard (!before.any isWord)
  let rest ← skip? neutral text
  let (gap, rest) := leading isBlank rest
  guard (!gap.isEmpty)
  let rest ← skip? operator rest
  let (skipped, taken) ← lineBehindBlanks rest
  return ⟨taken, neutral ++ gap ++ operator ++ skipped ++ taken⟩

/-- Blanks, the operator, blanks, and the neutral keyword at the end of a word; the answer is the
text behind them. -/
def neutralTail (operator neutral : Text) (text : Text) : Option Text := do
  let (gap, rest) := leading isBlank text
  guard (!gap.isEmpty)
  let rest ← skip? operator rest
  let (gap, rest) := leading isBlank rest
  guard (!gap.isEmpty)
  let rest ← skip? neutral rest
  guard (startsOutsideWord rest)
  return rest

/-- The longest nonempty part of the line that has the neutral tail behind it, and the text behind
that tail. -/
def longestHead (operator neutral : Text) : Text → Option (Text × Text)
  | [] => none
  | c :: rest =>
    if c = '\n' then none
    else
      match longestHead operator neutral rest with
      | some (head, behind) => some (c :: head, behind)
      | none => (neutralTail operator neutral rest).map fun behind => ([c], behind)

theorem length_neutralTail_le {operator neutral text behind : Text}
    (h : neutralTail operator neutral text = some behind) : behind.length ≤ text.length := by
  obtain ⟨_, _, h⟩ := Option.bind_eq_some_iff.mp h
  obtain ⟨r₁, h₁, h⟩ := Option.bind_eq_some_iff.mp h
  obtain ⟨_, _, h⟩ := Option.bind_eq_some_iff.mp h
  obtain ⟨r₂, h₂, h⟩ := Option.bind_eq_some_iff.mp h
  obtain ⟨_, _, h⟩ := Option.bind_eq_some_iff.mp h
  obtain rfl : r₂ = behind := Option.some.inj h
  have d₁ := length_skip?_le h₁
  have d₂ := length_skip?_le h₂
  have s₁ := (List.dropWhile_suffix (l := text) isBlank).length_le
  have s₂ := (List.dropWhile_suffix (l := r₁) isBlank).length_le
  omega

theorem length_longestHead_lt {operator neutral : Text} :
    ∀ {text head behind : Text}, longestHead operator neutral text = some (head, behind) →
      behind.length < text.length
  | [], _, _, h => by simp [longestHead] at h
  | c :: rest, head, behind, h => by
    rw [longestHead] at h
    split at h
    · simp at h
    · split at h
      · next heq =>
        simp only [Option.some.injEq, Prod.mk.injEq] at h
        obtain ⟨_, rfl⟩ := h
        have := length_longestHead_lt heq
        simp only [List.length_cons]; omega
      · simp only [Option.map_eq_some_iff, Prod.mk.injEq] at h
        obtain ⟨b, hb, _, rfl⟩ := h
        have := length_neutralTail_le hb
        simp only [List.length_cons]; omega

/-- Drop every neutral tail.  Each time the longest part of the line in front of a tail is kept,
and the search goes on right behind the tail.  A line without a tail stays whole: if no part that
begins at its first character has a tail behind it, then none that begins later has. -/
def dropNeutralTails (operator neutral : Text) (text : Text) : Text :=
  match _ : longestHead operator neutral text with
  | some (head, behind) => head ++ dropNeutralTails operator neutral behind
  | none =>
    match _ : leading (· != '\n') text with
    | (line, []) => line
    | (line, lineBreak :: rest) => line ++ lineBreak :: dropNeutralTails operator neutral rest
termination_by text.length
decreasing_by
  · rename_i h
    exact length_longestHead_lt h
  · rename_i h
    have := (List.dropWhile_suffix (l := text) (· != '\n')).length_le
    rw [(Prod.mk.inj h).2] at this
    exact this

/-! ## All identities -/

/-- Keep the operand that matters, wherever the identity is found. -/
def apply : Identity → Text → Text
  | digitRight operator neutral, text => replaceAll (numeralFirst operator neutral) (·.value) text
  | digitLeft neutral operator, text => replaceAll (numeralLast neutral operator) (·.value) text
  | keywordLeft neutral operator, text => replaceAll (lineLast neutral operator) (·.value) text
  | keywordRight operator neutral, text => dropNeutralTails operator neutral text

/-- Zero for sums, one for products, `true` for `and`, `false` for `or`; right before left with
digits, left before right with keywords. -/
def all : List Identity := [
  digitRight '+' '0', digitLeft '0' '+', digitRight '*' '1', digitLeft '1' '*',
  keywordLeft "true".toList "and".toList, keywordRight "and".toList "true".toList,
  keywordLeft "false".toList "or".toList, keywordRight "or".toList "false".toList]

end Identity

end LuaUnveil
