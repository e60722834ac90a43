import LuaUnveil.Text.Scan
import Mathlib

/-!
# One step of a scan

`piecesFrom` counts down the characters that the last find still covers.  The lemmas here put the
count away: at a position where no find reaches, the scan either takes one plain character or takes
a find whole and goes on right behind it.  Every later proof about a scan uses these two steps and
never opens `piecesFrom` again.

**Steps.**  `piecesFrom_plain` and `piecesFrom_found`, for any pattern; `pieces_plain` and
`pieces_found` for the patterns that do not look at the character before them.  A text without the
first character of a pattern is passed over (`Pattern.BeginsWith`).  What is found was an answer of
the pattern somewhere (`exists_of_mem_finds`).

**Results.**  What `finds` and `assemble` do with a plain character, a find, and two scans put
together.

**Reading.**  What a pattern has read off the front of a text stands there
(`takeWhile_append_of_skip?`).
-/

namespace LuaUnveil

variable {α : Type}

/-! ## Results of a scan -/

@[simp] lemma finds_nil : finds ([] : List (Piece α)) = [] := rfl

@[simp] lemma finds_plain_cons (c : Char) (ps : List (Piece α)) :
    finds (.plain c :: ps) = finds ps := by simp [finds]

@[simp] lemma finds_found_cons (f : Found α) (ps : List (Piece α)) :
    finds (.found f :: ps) = f :: finds ps := by simp [finds]

@[simp] lemma finds_plains_append (w : Text) (ps : List (Piece α)) :
    finds (w.map .plain ++ ps) = finds ps := by
  induction w with
  | nil => rfl
  | cons c w ih => simpa using ih

@[simp] lemma assemble_nil (r : Found α → Text) : assemble r [] = [] := rfl

@[simp] lemma assemble_plain_cons (r : Found α → Text) (c : Char) (ps : List (Piece α)) :
    assemble r (.plain c :: ps) = c :: assemble r ps := by simp [assemble]

@[simp] lemma assemble_found_cons (r : Found α → Text) (f : Found α) (ps : List (Piece α)) :
    assemble r (.found f :: ps) = r f ++ assemble r ps := by simp [assemble]

@[simp] lemma assemble_plains_append (r : Found α → Text) (w : Text) (ps : List (Piece α)) :
    assemble r (w.map .plain ++ ps) = w ++ assemble r ps := by
  induction w with
  | nil => rfl
  | cons c w ih => simpa using ih

/-! ## Steps of a scan -/

@[simp] lemma piecesFrom_nil (pattern : Pattern α) (n : Nat) (before : Option Char) :
    piecesFrom pattern n before [] = [] := by cases n <;> rfl

/-- The characters that a find still covers are passed over. -/
lemma piecesFrom_covered (pattern : Pattern α) :
    ∀ (w : Text) (before : Option Char) (rest : Text),
      piecesFrom pattern w.length before (w ++ rest)
        = piecesFrom pattern 0 (w.getLast?.or before) rest
  | [], before, rest => by simp
  | c :: w, before, rest => by
      rw [List.length_cons, List.cons_append, piecesFrom, piecesFrom_covered pattern w]
      cases w with
      | nil => simp
      | cons d w => simp [List.getLast?_cons]

/-- A position without a find gives one plain character. -/
lemma piecesFrom_plain {pattern : Pattern α} {before : Option Char} {c : Char} {rest : Text}
    (h : pattern before (c :: rest) = none) :
    piecesFrom pattern 0 before (c :: rest) = .plain c :: piecesFrom pattern 0 (some c) rest := by
  simp only [piecesFrom, h]

/-- A find is taken whole, and the scan goes on right behind it. -/
lemma piecesFrom_found {pattern : Pattern α} {before : Option Char} {c : Char} {w rest : Text}
    {f : Found α} (h : pattern before (c :: (w ++ rest)) = some f) (hf : f.covered = c :: w) :
    piecesFrom pattern 0 before (c :: (w ++ rest))
      = .found f :: piecesFrom pattern 0 (c :: w).getLast? rest := by
  have hlen : f.covered.length - 1 = w.length := by simp [hf]
  simp only [piecesFrom, h, hlen, piecesFrom_covered]
  congr 2
  cases w with
  | nil => rfl
  | cons d w => simp [List.getLast?_cons]

/-- A character before the position matters only as far as the pattern looks at it. -/
lemma piecesFrom_congr {pattern : Pattern α} {before before' : Option Char}
    (h : ∀ text, pattern before text = pattern before' text) (text : Text) :
    piecesFrom pattern 0 before text = piecesFrom pattern 0 before' text := by
  cases text with
  | nil => simp
  | cons c rest => simp only [piecesFrom, h]

/-- Every find of a scan is an answer of the pattern at some position. -/
lemma exists_of_mem_finds {pattern : Pattern α} {f : Found α} {text : Text} {n : Nat}
    {before : Option Char} (h : f ∈ finds (piecesFrom pattern n before text)) :
    ∃ b t, pattern b t = some f := by
  induction text generalizing n before with
  | nil => simp at h
  | cons c rest ih =>
      cases n with
      | succ n =>
          rw [piecesFrom] at h
          exact ih h
      | zero =>
          cases hask : pattern before (c :: rest) with
          | none =>
              rw [piecesFrom_plain hask, finds_plain_cons] at h
              exact ih h
          | some g =>
              simp only [piecesFrom, hask, finds_found_cons, List.mem_cons] at h
              rcases h with rfl | h
              · exact ⟨before, c :: rest, hask⟩
              · exact ih h

/-! ## Patterns that do not look back -/

/-- A pattern that does not look at the character before the position. -/
def Pattern.LooksAhead (pattern : Pattern α) : Prop :=
  ∀ before text, pattern before text = pattern none text

namespace Pattern.LooksAhead

variable {pattern : Pattern α} (hp : pattern.LooksAhead)

include hp

lemma piecesFrom_eq (before : Option Char) (text : Text) :
    piecesFrom pattern 0 before text = pieces pattern text :=
  piecesFrom_congr (hp before) text

lemma pieces_plain {c : Char} {rest : Text} (h : pattern none (c :: rest) = none) :
    pieces pattern (c :: rest) = .plain c :: pieces pattern rest := by
  rw [pieces, piecesFrom_plain h, hp.piecesFrom_eq]

lemma pieces_found {c : Char} {w rest : Text} {f : Found α}
    (h : pattern none (c :: (w ++ rest)) = some f) (hf : f.covered = c :: w) :
    pieces pattern (c :: (w ++ rest)) = .found f :: pieces pattern rest := by
  rw [pieces, piecesFrom_found h hf, hp.piecesFrom_eq]

/-- Characters at which the pattern never begins are passed over. -/
lemma pieces_append {w : Text} (hw : ∀ c ∈ w, ∀ rest, pattern none (c :: rest) = none)
    (rest : Text) : pieces pattern (w ++ rest) = w.map .plain ++ pieces pattern rest := by
  induction w with
  | nil => rfl
  | cons c w ih =>
      obtain ⟨hc, hw⟩ := List.forall_mem_cons.mp hw
      rw [List.cons_append, hp.pieces_plain (hc _), ih hw]
      rfl

end Pattern.LooksAhead

/-! ## Patterns with a first character of their own -/

/-- A pattern that does not look back and that begins with one character only. -/
structure Pattern.BeginsWith (pattern : Pattern α) (first : Char) : Prop where
  looksAhead : pattern.LooksAhead
  of_ne : ∀ {c : Char}, c ≠ first → ∀ rest, pattern none (c :: rest) = none

namespace Pattern.BeginsWith

variable {pattern : Pattern α} {first : Char} (hp : pattern.BeginsWith first)

include hp

/-- A text without that character is passed over. -/
lemma pieces_append {w : Text} (hw : first ∉ w) (rest : Text) :
    pieces pattern (w ++ rest) = w.map .plain ++ pieces pattern rest :=
  hp.looksAhead.pieces_append (fun _ hc => hp.of_ne fun h => hw (h ▸ hc)) rest

lemma replaceAll_append (r : Found α → Text) {w : Text} (hw : first ∉ w) (rest : Text) :
    replaceAll pattern r (w ++ rest) = w ++ replaceAll pattern r rest := by
  rw [replaceAll, hp.pieces_append hw, assemble_plains_append, replaceAll]

lemma finds_append {w : Text} (hw : first ∉ w) (rest : Text) :
    finds (pieces pattern (w ++ rest)) = finds (pieces pattern rest) := by
  rw [hp.pieces_append hw, finds_plains_append]

lemma replaceAll_cons_ne (r : Found α → Text) {c : Char} (hc : c ≠ first) (rest : Text) :
    replaceAll pattern r (c :: rest) = c :: replaceAll pattern r rest :=
  hp.replaceAll_append r (fun h => hc (List.mem_singleton.mp h).symm) rest

lemma finds_cons_ne {c : Char} (hc : c ≠ first) (rest : Text) :
    finds (pieces pattern (c :: rest)) = finds (pieces pattern rest) :=
  hp.finds_append (fun h => hc (List.mem_singleton.mp h).symm) rest

end Pattern.BeginsWith

/-! ## Reading -/

lemma holds_of_guard {p : Prop} [Decidable p] {u : Unit} (h : (guard p : Option Unit) = some u) :
    p := by
  by_contra hp
  simp [guard, hp] at h

lemma skip?_append (start rest : Text) : skip? start (start ++ rest) = some rest :=
  skip?_eq_some_iff.mpr rfl

lemma skip?_cons (c : Char) (rest : Text) : skip? [c] (c :: rest) = some rest :=
  skip?_append [c] rest

/-- What was read off the front, a run of a class and then a given text, stands there. -/
lemma takeWhile_append_of_skip? {p : Char → Bool} {start text rest : Text}
    (h : skip? start (text.dropWhile p) = some rest) :
    text.takeWhile p ++ (start ++ rest) = text := by
  rw [← skip?_eq_some_iff.mp h, List.takeWhile_append_dropWhile]

/-- A text is cut in one way only at the first place of a character. -/
lemma append_cons_inj_of_first {q : Char} {w w' rest rest' : Text} (hw : q ∉ w) (hw' : q ∉ w')
    (h : w ++ q :: rest = w' ++ q :: rest') : w = w' ∧ rest = rest' := by
  induction w generalizing w' with
  | nil =>
      cases w' with
      | nil => exact ⟨rfl, (List.cons.inj h).2⟩
      | cons c w' => exact absurd ((List.cons.inj h).1 ▸ List.mem_cons_self) hw'
  | cons c w ih =>
      cases w' with
      | nil => exact absurd ((List.cons.inj h).1 ▸ List.mem_cons_self) hw
      | cons d w' =>
          obtain ⟨rfl, htail⟩ := List.cons.inj h
          obtain ⟨rfl, hrest⟩ := ih (List.not_mem_of_not_mem_cons hw)
            (List.not_mem_of_not_mem_cons hw') htail
          exact ⟨rfl, hrest⟩

/-- What stands before the first place of a character reaches no farther than that place. -/
lemma isPrefix_of_first {q : Char} {w back a rest : Text} (hw : q ∉ w)
    (h : w ++ back = a ++ q :: rest) : w <+: a := by
  rcases List.append_eq_append_iff.mp h with ⟨x, rfl, -⟩ | ⟨x, rfl, hx⟩
  · exact List.prefix_append w x
  · cases x with
    | nil => simp
    | cons d x =>
        obtain ⟨rfl, -⟩ := List.cons.inj hx
        exact absurd (by simp) hw

/-- The run of a class at the front of a text. -/
lemma exists_run (p : Char → Bool) (text : Text) : ∃ run rest, text = run ++ rest ∧
    (∀ c ∈ run, p c = true) ∧ ∀ c ∈ rest.head?, p c = false := by
  refine ⟨text.takeWhile p, text.dropWhile p, List.takeWhile_append_dropWhile.symm,
    fun c hc => List.mem_takeWhile_imp hc, fun c hc => ?_⟩
  have hfirst := List.head?_dropWhile_not p text
  rw [Option.mem_def.mp hc] at hfirst
  simpa using hfirst

lemma append_of_leading {p : Char → Bool} {text w rest : Text} (h : leading p text = (w, rest)) :
    w ++ rest = text := by
  obtain ⟨rfl, rfl⟩ := Prod.mk.inj h
  exact List.takeWhile_append_dropWhile

lemma ne_nil_of_guard {gap : Text} {u : Unit}
    (h : (guard ((!gap.isEmpty) = true) : Option Unit) = some u) : gap ≠ [] := by
  simpa using holds_of_guard h

end LuaUnveil
