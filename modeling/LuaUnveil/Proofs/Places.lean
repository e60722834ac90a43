import LuaUnveil.Naming.Declaration
import LuaUnveil.Proofs.Decoding
import LuaUnveil.Proofs.Edges

/-!
# Finds, place by place

A scan goes on behind what it has found, and so it may pass over a place at which the pattern would
have answered too.  For some patterns this never happens: no find begins inside of another one.

**Places.**  `Pattern.everywhere` asks the pattern at every place of a text, one after the other and
each on its own.  For a pattern that stands apart, the finds of a scan are just these answers
(`Pattern.StandsApart.finds_eq_everywhere`), so what a scan finds can be said without the scan.

**Three patterns that stand apart.**  Both kinds of escapes, since only a backslash begins one and
none is covered behind the first character; and the declarations of generated functions, since
neither the blanks nor the name can hold the start of the keyword (`declaration_standsApart`).
-/

namespace LuaUnveil

variable {α : Type}

namespace Pattern

/-! ## Places -/

/-- What a pattern answers at the places of a text, in their order. -/
def everywhere (pattern : Pattern α) (text : Text) : List (Found α) :=
  text.tails.filterMap (pattern none)

lemma everywhere_cons (pattern : Pattern α) (c : Char) (rest : Text) :
    pattern.everywhere (c :: rest)
      = (pattern none (c :: rest)).toList ++ pattern.everywhere rest := by
  cases h : pattern none (c :: rest) <;> simp [everywhere, h]

lemma mem_everywhere {pattern : Pattern α} {text : Text} {f : Found α} :
    f ∈ pattern.everywhere text ↔
      ∃ front rest, text = front ++ rest ∧ pattern none rest = some f := by
  simp only [everywhere, List.mem_filterMap, List.mem_tails]
  constructor
  · rintro ⟨rest, ⟨front, rfl⟩, h⟩
    exact ⟨front, rest, rfl, h⟩
  · rintro ⟨front, rest, rfl, h⟩
    exact ⟨rest, ⟨front, rfl⟩, h⟩

/-- The pattern answers nowhere in a block with a text behind it. -/
def SilentOn (pattern : Pattern α) : Text → Text → Prop
  | [], _ => True
  | c :: block, rest => pattern none (c :: (block ++ rest)) = none ∧ SilentOn pattern block rest

section SilentOn

variable {pattern : Pattern α}

lemma SilentOn.everywhere_append {block rest : Text} (h : pattern.SilentOn block rest) :
    pattern.everywhere (block ++ rest) = pattern.everywhere rest := by
  induction block with
  | nil => rfl
  | cons c block ih =>
      rw [List.cons_append, everywhere_cons, h.1, ih h.2, Option.toList_none, List.nil_append]

lemma SilentOn.append {a b rest : Text} (ha : pattern.SilentOn a (b ++ rest))
    (hb : pattern.SilentOn b rest) : pattern.SilentOn (a ++ b) rest := by
  induction a with
  | nil => exact hb
  | cons c a ih => exact ⟨by simpa using ha.1, ih ha.2⟩

/-- Characters at which the pattern never begins. -/
lemma silentOn_of_forall {block : Text} (h : ∀ c ∈ block, ∀ rest, pattern none (c :: rest) = none)
    (rest : Text) : pattern.SilentOn block rest := by
  induction block with
  | nil => trivial
  | cons c block ih =>
      exact ⟨h c List.mem_cons_self _, ih fun d hd => h d (List.mem_cons_of_mem c hd)⟩

end SilentOn

/-- No find begins inside of another one. -/
structure StandsApart (pattern : Pattern α) : Prop where
  looksAhead : pattern.LooksAhead
  covers : pattern.Covers
  silent : ∀ {f : Found α} {rest : Text}, pattern none (f.covered ++ rest) = some f →
    pattern.SilentOn f.covered.tail rest

/-- **A scan for such a pattern misses nothing**: its finds are what the pattern answers at every
place. -/
theorem StandsApart.finds_eq_everywhere {pattern : Pattern α} (hp : pattern.StandsApart)
    (text : Text) : finds (pieces pattern text) = pattern.everywhere text := by
  have hfrom : ∀ a t : Text,
      finds (piecesFrom pattern 0 a.getLast? t) = pattern.everywhere t := by
    intro a t
    induction a, t using hp.covers.scanInduction with
    | nil a =>
        have hnone : pattern none [] = none := by
          refine Option.eq_none_iff_forall_ne_some.mpr fun f hf => ?_
          obtain ⟨hne, rest, heq⟩ := hp.covers none [] f hf
          exact hne (List.append_eq_nil_iff.mp heq.symm).1
        simp [everywhere, hnone]
    | plain a c rest hnone ih =>
        rw [piecesFrom_plain_of_none hnone, finds_plain_cons, ih, everywhere_cons,
          ← hp.looksAhead, hnone, Option.toList_none, List.nil_append]
    | found a f rest hne hsome ih =>
        rw [piecesFrom_found_of_some hne hsome, finds_found_cons, ih]
        rw [hp.looksAhead] at hsome
        have hsilent := hp.silent hsome
        obtain ⟨c, w, hcovered⟩ := List.exists_cons_of_ne_nil hne
        rw [hcovered] at hsome hsilent ⊢
        rw [List.tail_cons] at hsilent
        rw [List.cons_append, everywhere_cons, ← List.cons_append, hsome,
          hsilent.everywhere_append, Option.toList_some, List.singleton_append]
  exact hfrom [] text

/-- A pattern that begins at one character only, and does not cover it a second time. -/
lemma StandsApart.of_first {pattern : Pattern α} {first : Char} (hp : pattern.BeginsWith first)
    (hnil : pattern none [] = none)
    (hfirst : ∀ {rest : Text} {f : Found α}, pattern none (first :: rest) = some f →
      ∃ w behind, f.covered = first :: w ∧ rest = w ++ behind ∧ first ∉ w) :
    pattern.StandsApart where
  looksAhead := hp.looksAhead
  covers := by
    intro before text f h
    rw [hp.looksAhead before] at h
    cases text with
    | nil => rw [hnil] at h; cases h
    | cons c rest =>
        by_cases hc : c = first
        · subst hc
          obtain ⟨w, behind, hcovered, rfl, -⟩ := hfirst h
          exact ⟨by simp [hcovered], behind, by simp [hcovered]⟩
        · rw [hp.of_ne hc] at h
          cases h
  silent := by
    intro f rest h
    cases hcovered : f.covered with
    | nil => trivial
    | cons c w =>
        rw [hcovered, List.cons_append] at h
        by_cases hc : c = first
        · subst hc
          obtain ⟨w', behind, hcovered', -, hmem⟩ := hfirst h
          obtain ⟨-, rfl⟩ := List.cons.inj (hcovered.symm.trans hcovered')
          exact silentOn_of_forall (fun d hd => hp.of_ne fun heq => hmem (heq ▸ hd)) rest
        · rw [hp.of_ne hc] at h
          cases h

end Pattern

/-! ## Escapes -/

lemma HexEscape.standsApart : HexEscape.pattern.StandsApart := by
  refine .of_first beginsWith rfl fun {rest f} h => ?_
  obtain ⟨high, low, behind, rfl, hhigh, hlow, rfl⟩ := pattern_eq_some_iff.mp h
  refine ⟨['x', high, low], behind, rfl, rfl, ?_⟩
  have hhigh' := ne_backslash_of_isAlphanum (isAlphanum_of_isHexDigit hhigh)
  have hlow' := ne_backslash_of_isAlphanum (isAlphanum_of_isHexDigit hlow)
  simp [hhigh'.symm, hlow'.symm]

lemma DecimalEscape.standsApart : DecimalEscape.pattern.StandsApart := by
  refine .of_first beginsWith rfl fun {rest f} h => ?_
  obtain ⟨-, rfl⟩ := pattern_eq_some_iff.mp h
  exact ⟨digits rest, rest.drop (digits rest).length, rfl, (digits_append_drop rest).symm,
    backslash_notMem_of_isDigit fun c hc => isDigit_of_mem_digits hc⟩

/-! ## Declarations -/

/-- The parts of a declaration behind its keyword: blanks, a name of a letter and at least four
hexadecimal digits, and perhaps blanks again. -/
structure IsDeclaration (gap name space : Text) : Prop where
  gap_ne_nil : gap ≠ []
  gap_blank : ∀ c ∈ gap, isBlank c = true
  name_shape : Shape.isLetterAndRun isHexDigit 4 name = true
  space_blank : ∀ c ∈ space, isBlank c = true

/-- The text of a declaration, through the parenthesis. -/
def declarationText (gap name space : Text) : Text :=
  "function".toList ++ gap ++ name ++ space ++ ['(']

/-- A run that was read off, and what is behind it, stand there. -/
lemma leading_append_of_snd {p : Char → Bool} {text rest : Text} (h : (leading p text).2 = rest) :
    (leading p text).1 ++ rest = text := by
  rw [← h]
  exact List.takeWhile_append_dropWhile

/-- A run is read off whole, if what is behind it does not go on with the class. -/
lemma leading_append_cons {p : Char → Bool} {w : Text} (hw : ∀ c ∈ w, p c = true) {c : Char}
    (hc : p c = false) (rest : Text) : leading p (w ++ c :: rest) = (w, c :: rest) := by
  rw [leading, List.takeWhile_append_of_pos hw, List.dropWhile_append_of_pos hw]
  simp [hc]

lemma not_isBlank_of_isWord {c : Char} (h : isWord c = true) : isBlank c = false := by
  cases hb : isBlank c with
  | false => rfl
  | true => rw [isWord_of_isBlank hb] at h; cases h

/-- Blanks and the parenthesis behind them are no hexadecimal digits. -/
lemma leading_isHexDigit_declaration {digits space : Text}
    (hdigits : ∀ c ∈ digits, isHexDigit c = true) (hspace : ∀ c ∈ space, isBlank c = true)
    (rest : Text) :
    leading isHexDigit (digits ++ (space ++ '(' :: rest)) = (digits, space ++ '(' :: rest) := by
  cases space with
  | nil => exact leading_append_cons hdigits (by decide) rest
  | cons c space =>
      refine leading_append_cons hdigits ?_ (space ++ '(' :: rest)
      cases hc : isHexDigit c with
      | false => rfl
      | true =>
          have hword := isWord_of_isHexDigit hc
          rw [isWord_of_isBlank (hspace c List.mem_cons_self)] at hword
          cases hword

lemma function_letters : "function".toList = ['f', 'u', 'n', 'c', 't', 'i', 'o', 'n'] := by
  decide

/-- The letters of the keyword written out, so that no proof has to read the literal. -/
lemma declarationText_eq (gap name space : Text) :
    declarationText gap name space
      = ['f', 'u', 'n', 'c', 't', 'i', 'o', 'n'] ++ gap ++ name ++ space ++ ['('] :=
  congrArg (· ++ gap ++ name ++ space ++ ['(']) function_letters

/-- What is found is a declaration. -/
lemma generatedDeclaration_sound {before : Option Char} {text : Text} {f : Found Text}
    (h : generatedDeclaration before text = some f) :
    ∃ gap name space rest, IsDeclaration gap name space ∧
      text = declarationText gap name space ++ rest ∧
      f = ⟨name, declarationText gap name space⟩ := by
  obtain ⟨behind, hskip, h⟩ := Option.bind_eq_some_iff.mp h
  obtain ⟨_, hgap, h⟩ := Option.bind_eq_some_iff.mp h
  split at h
  · next c rest heq =>
      obtain ⟨_, hc, h⟩ := Option.bind_eq_some_iff.mp h
      obtain ⟨_, hlen, h⟩ := Option.bind_eq_some_iff.mp h
      obtain ⟨_, hopen, h⟩ := Option.bind_eq_some_iff.mp h
      obtain rfl := Option.some.inj h
      obtain ⟨rest', hrest'⟩ : ∃ rest',
          (leading isBlank (leading isHexDigit rest).2).2 = '(' :: rest' :=
        List.head?_eq_some_iff.mp (by simpa [leading] using holds_of_guard hopen)
      refine ⟨(leading isBlank behind).1, c :: (leading isHexDigit rest).1,
        (leading isBlank (leading isHexDigit rest).2).1, rest', ⟨?_, ?_, ?_, ?_⟩, ?_, rfl⟩
      · exact ne_nil_of_guard hgap
      · exact fun d hd => List.mem_takeWhile_imp hd
      · exact Shape.isLetterAndRun_takeWhile (holds_of_guard hc) (holds_of_guard hlen)
      · exact fun d hd => List.mem_takeWhile_imp hd
      · have hname : rest = (leading isHexDigit rest).1 ++
            ((leading isBlank (leading isHexDigit rest).2).1 ++ '(' :: rest') := by
          rw [leading_append_of_snd hrest']
          exact (leading_append_of_snd rfl).symm
        have hbehind : behind = (leading isBlank behind).1 ++ c :: rest :=
          (leading_append_of_snd heq).symm
        refine (skip?_eq_some_iff.mp hskip).trans ?_
        simp only [declarationText_eq, function_letters]
        conv_lhs => rw [hbehind, hname]
        simp
  · cases h

/-- Every declaration is found where it begins. -/
lemma generatedDeclaration_complete {gap name space : Text} (hd : IsDeclaration gap name space)
    (before : Option Char) (rest : Text) :
    generatedDeclaration before (declarationText gap name space ++ rest)
      = some ⟨name, declarationText gap name space⟩ := by
  cases name with
  | nil => cases hd.name_shape
  | cons c digits =>
      have hshape := hd.name_shape
      simp only [Shape.isLetterAndRun, Bool.and_eq_true, decide_eq_true_eq,
        List.all_eq_true] at hshape
      obtain ⟨⟨hc, hlen⟩, hdigits⟩ := hshape
      have hgap := leading_append_cons hd.gap_blank (not_isBlank_of_isWord (isWord_of_isAlpha hc))
        (digits ++ (space ++ '(' :: rest))
      have hname := leading_isHexDigit_declaration hdigits hd.space_blank rest
      have hspace := leading_append_cons hd.space_blank (c := '(') (by decide) rest
      have hskip : ∀ behind, skip? ['f', 'u', 'n', 'c', 't', 'i', 'o', 'n']
          ('f' :: 'u' :: 'n' :: 'c' :: 't' :: 'i' :: 'o' :: 'n' :: behind) = some behind :=
        fun behind => skip?_eq_some_iff.mpr rfl
      simp only [generatedDeclaration, declarationText_eq, function_letters, List.cons_append,
        List.nil_append, List.append_assoc, hskip, Option.bind_eq_bind, Option.bind_some, hgap,
        hname, hspace]
      simp [hc, hlen, hd.gap_ne_nil]

/-- A declaration begins with the first two letters of its keyword. -/
lemma generatedDeclaration_of_ne {c d : Char} (h : c ≠ 'f' ∨ d ≠ 'u') (before : Option Char)
    (rest : Text) : generatedDeclaration before (c :: d :: rest) = none := by
  refine Option.eq_none_iff_forall_ne_some.mpr fun f hf => ?_
  obtain ⟨gap, name, space, behind, -, htext, -⟩ := generatedDeclaration_sound hf
  simp only [declarationText_eq, List.cons_append, List.cons.injEq] at htext
  obtain ⟨hc, hd, -⟩ := htext
  exact h.elim (fun h => h hc) fun h => h hd

lemma generatedDeclaration_of_head_ne {c : Char} (h : c ≠ 'f') (rest : Text) :
    generatedDeclaration none (c :: rest) = none := by
  cases rest with
  | nil => rw [generatedDeclaration, function_letters]; simp [skip?]
  | cons d rest => exact generatedDeclaration_of_ne (Or.inl h) none rest

/-- Nothing is found at a character, nor in a text without a `u` behind it. -/
lemma silentOn_of_no_u (c : Char) {block : Text} (hblock : 'u' ∉ block) (rest : Text) :
    generatedDeclaration.SilentOn (c :: block) ('(' :: rest) := by
  induction block generalizing c with
  | nil => exact ⟨generatedDeclaration_of_ne (Or.inr (by decide)) none rest, trivial⟩
  | cons d block ih =>
      rw [List.mem_cons, not_or] at hblock
      exact ⟨generatedDeclaration_of_ne (Or.inr (Ne.symm hblock.1)) none _, ih d hblock.2⟩

/-- Behind its first letter a declaration holds no other one: its keyword does not come back to its
first letter, blanks are no letters, and a name goes on with hexadecimal digits. -/
lemma silentOn_declaration {gap name space : Text} (hd : IsDeclaration gap name space)
    (rest : Text) : generatedDeclaration.SilentOn (declarationText gap name space).tail rest := by
  cases name with
  | nil => cases hd.name_shape
  | cons c digits =>
      have hshape := hd.name_shape
      simp only [Shape.isLetterAndRun, Bool.and_eq_true, List.all_eq_true] at hshape
      have hblank : ∀ {b : Char}, isBlank b = true → b ≠ 'f' ∧ b ≠ 'u' := by
        rintro b hb
        constructor <;> rintro rfl <;> exact absurd hb (by decide)
      have hname : 'u' ∉ digits ++ space := by
        rw [List.mem_append]
        rintro (h | h)
        · exact absurd (hshape.2 _ h) (by decide)
        · exact (hblank (hd.space_blank _ h)).2 rfl
      have htail : (declarationText gap (c :: digits) space).tail
          = ['u', 'n', 'c', 't', 'i', 'o', 'n']
            ++ (gap ++ ((c :: (digits ++ space)) ++ ['('])) := by
        simp [declarationText_eq]
      rw [htail]
      refine .append (Pattern.silentOn_of_forall ?_ _) (.append (Pattern.silentOn_of_forall ?_ _)
        (.append (silentOn_of_no_u c hname rest) (Pattern.silentOn_of_forall ?_ _)))
      · intro b hb
        refine generatedDeclaration_of_head_ne ?_
        rintro rfl
        exact absurd hb (by decide)
      · exact fun b hb => generatedDeclaration_of_head_ne (hblank (hd.gap_blank b hb)).1
      · intro b hb
        rw [List.mem_singleton.mp hb]
        exact generatedDeclaration_of_head_ne (by decide)

lemma declaration_standsApart : generatedDeclaration.StandsApart where
  looksAhead := fun _ _ => rfl
  covers := by
    intro before text f h
    obtain ⟨gap, name, space, rest, -, rfl, rfl⟩ := generatedDeclaration_sound h
    exact ⟨by simp [declarationText_eq], rest, rfl⟩
  silent := by
    intro f rest h
    obtain ⟨gap, name, space, behind, hd, -, rfl⟩ := generatedDeclaration_sound h
    exact silentOn_declaration hd rest

/-- Whether a text declares a name as a generated function, at any place. -/
def DeclaresFunction (text name : Text) : Prop :=
  ∃ front gap space rest, IsDeclaration gap name space ∧
    text = front ++ declarationText gap name space ++ rest

/-- **Every declared name is collected**, and nothing else. -/
theorem mem_declaredFunctions {text name : Text} :
    name ∈ declaredFunctions text ↔ DeclaresFunction text name := by
  rw [declaredFunctions, declaration_standsApart.finds_eq_everywhere, List.mem_map]
  constructor
  · rintro ⟨f, hf, rfl⟩
    obtain ⟨front, behind, rfl, hask⟩ := Pattern.mem_everywhere.mp hf
    obtain ⟨gap, name, space, rest, hd, rfl, rfl⟩ := generatedDeclaration_sound hask
    exact ⟨front, gap, space, rest, hd, (List.append_assoc _ _ _).symm⟩
  · rintro ⟨front, gap, space, rest, hd, rfl⟩
    exact ⟨_, Pattern.mem_everywhere.mpr ⟨front, _, List.append_assoc _ _ _,
      generatedDeclaration_complete hd none rest⟩, rfl⟩

end LuaUnveil
