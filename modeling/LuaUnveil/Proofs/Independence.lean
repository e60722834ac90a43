import LuaUnveil.Proofs.Decoding

/-!
# When escapes are decoded independently of each other

The decimal walk goes over what the hexadecimal walk has left.  A digit that came out of a
hexadecimal escape stands there like any other, and can lengthen a decimal escape in front of it:
`\6\x35` becomes `\65` and then `A`.  This file compares the two walks in turn with a single walk
over the script, and says exactly when they agree.

**A single walk.**  `Escape.decodeOnce` takes the escapes of both kinds as they stand in the text.

**The condition.**  `Escape.undisturbed`: wherever there is a backslash, it has the same digits
before and after the hexadecimal escapes behind it are decoded, or is refused with both.

**The comparison.**  Both ways of decoding cut the text into the same blocks
(`Escape.exists_block`).  Where the hexadecimal walk lengthens an escape, the two results of the
block end differently (`Escape.apart_of_append_eq`), so results that agree as a whole agree block by
block, from the last one on.
-/

namespace LuaUnveil

namespace Escape

/-! ## A single walk -/

/-- What an escape stands for: a character in hexadecimal, or a code in decimal. -/
inductive Kind where
  | hex (c : Char)
  | decimal (code : Nat)
  deriving Repr, DecidableEq

/-- An escape of either kind. -/
def pattern : Pattern Kind := fun before text =>
  match HexEscape.pattern before text with
  | some f => some ⟨.hex f.value, f.covered⟩
  | none => (DecimalEscape.pattern before text).map fun f => ⟨.decimal f.value, f.covered⟩

/-- What an escape becomes on its own. -/
def resolve (f : Found Kind) : Text :=
  match f.value with
  | .hex c => if HexEscape.accepts c then [c] else f.covered
  | .decimal code => if DecimalEscape.accepts code then [Char.ofNat code] else f.covered

/-- What is recorded of an escape on its own. -/
def recorded? (f : Found Kind) : Option (Text × Char) :=
  match f.value with
  | .hex _ => none
  | .decimal code =>
    if DecimalEscape.accepts code then some (f.covered, Char.ofNat code) else none

/-- The text with every accepted escape decoded, in one walk from left to right that goes on right
behind each escape. -/
def decodeOnce (text : Text) : Text := replaceAll pattern resolve text

/-- The decoded decimal escapes of the text with their characters, in order, with repetitions. -/
def decodedOnce (text : Text) : List (Text × Char) :=
  (finds (pieces pattern text)).filterMap recorded?

lemma beginsWith : pattern.BeginsWith '\\' where
  looksAhead before text := by
    simp only [pattern, HexEscape.beginsWith.looksAhead before,
      DecimalEscape.beginsWith.looksAhead before]
  of_ne hc rest := by
    simp only [pattern, HexEscape.beginsWith.of_ne hc, DecimalEscape.beginsWith.of_ne hc,
      Option.map_none]

@[simp] lemma decodeOnce_nil : decodeOnce [] = [] := rfl

@[simp] lemma decodedOnce_nil : decodedOnce [] = [] := rfl

lemma pieces_escape {high low : Char} (hhigh : isHexDigit high = true)
    (hlow : isHexDigit low = true) (rest : Text) :
    pieces pattern ('\\' :: 'x' :: high :: low :: rest)
      = .found ⟨.hex (Char.ofNat (valueOfDigits 16 [high, low])), ['\\', 'x', high, low]⟩
          :: pieces pattern rest := by
  have hhex : HexEscape.pattern none ('\\' :: 'x' :: high :: low :: rest)
      = some ⟨Char.ofNat (valueOfDigits 16 [high, low]), ['\\', 'x', high, low]⟩ :=
    HexEscape.pattern_eq_some_iff.mpr ⟨high, low, rest, rfl, hhigh, hlow, rfl⟩
  exact beginsWith.looksAhead.pieces_found (w := ['x', high, low]) (by simp [pattern, hhex]) rfl

lemma decodeOnce_cons_ne {c : Char} (hc : c ≠ '\\') (rest : Text) :
    decodeOnce (c :: rest) = c :: decodeOnce rest := beginsWith.replaceAll_cons_ne _ hc rest

lemma decodedOnce_cons_ne {c : Char} (hc : c ≠ '\\') (rest : Text) :
    decodedOnce (c :: rest) = decodedOnce rest := by
  rw [decodedOnce, beginsWith.finds_cons_ne hc, decodedOnce]

lemma decodeOnce_escape {high low : Char} (hhigh : isHexDigit high = true)
    (hlow : isHexDigit low = true) (rest : Text) :
    decodeOnce ('\\' :: 'x' :: high :: low :: rest)
      = HexEscape.resolve high low ++ decodeOnce rest := by
  simp only [decodeOnce, replaceAll, pieces_escape hhigh hlow, assemble_found_cons, resolve,
    HexEscape.resolve]

lemma decodedOnce_escape {high low : Char} (hhigh : isHexDigit high = true)
    (hlow : isHexDigit low = true) (rest : Text) :
    decodedOnce ('\\' :: 'x' :: high :: low :: rest) = decodedOnce rest := by
  simp only [decodedOnce, pieces_escape hhigh hlow, finds_found_cons, List.filterMap_cons,
    recorded?]

section Backslash

variable {rest : Text} (hhex : HexEscape.pattern none ('\\' :: rest) = none)

include hhex

lemma pieces_backslash_of_nil (h : DecimalEscape.digits rest = []) :
    pieces pattern ('\\' :: rest) = .plain '\\' :: pieces pattern rest := by
  have hdecimal : DecimalEscape.pattern none ('\\' :: rest) = none :=
    Option.eq_none_iff_forall_ne_some.mpr fun f hf =>
      (DecimalEscape.pattern_eq_some_iff.mp hf).1 h
  exact beginsWith.looksAhead.pieces_plain (by simp [pattern, hhex, hdecimal])

lemma pieces_backslash_of_ne_nil (h : DecimalEscape.digits rest ≠ []) :
    pieces pattern ('\\' :: rest)
      = .found ⟨.decimal (valueOfDigits 10 (DecimalEscape.digits rest)),
            '\\' :: DecimalEscape.digits rest⟩
          :: pieces pattern (rest.drop (DecimalEscape.digits rest).length) := by
  have hdecimal : DecimalEscape.pattern none ('\\' :: rest)
      = some ⟨valueOfDigits 10 (DecimalEscape.digits rest), '\\' :: DecimalEscape.digits rest⟩ :=
    DecimalEscape.pattern_eq_some_iff.mpr ⟨h, rfl⟩
  refine DecimalEscape.pieces_of_covered_digits beginsWith.looksAhead ?_
  simp only [pattern, hhex, hdecimal, Option.map_some]

lemma decodeOnce_backslash :
    decodeOnce ('\\' :: rest) = DecimalEscape.resolve (DecimalEscape.digits rest)
      ++ decodeOnce (rest.drop (DecimalEscape.digits rest).length) := by
  by_cases h : DecimalEscape.digits rest = []
  · simp only [decodeOnce, replaceAll, pieces_backslash_of_nil hhex h, h, assemble_plain_cons]
    rfl
  · simp only [decodeOnce, replaceAll, pieces_backslash_of_ne_nil hhex h, assemble_found_cons,
      resolve, DecimalEscape.resolve]

lemma decodedOnce_backslash :
    decodedOnce ('\\' :: rest) = DecimalEscape.record (DecimalEscape.digits rest)
      ++ decodedOnce (rest.drop (DecimalEscape.digits rest).length) := by
  by_cases h : DecimalEscape.digits rest = []
  · simp only [decodedOnce, pieces_backslash_of_nil hhex h, h, finds_plain_cons]
    rfl
  · simp only [decodedOnce, pieces_backslash_of_ne_nil hhex h, finds_found_cons,
      List.filterMap_cons, recorded?, DecimalEscape.record]
    split_ifs <;> rfl

end Backslash

/-! ## The condition -/

/-- Whether a backslash in front of the text has the same digits before and after the hexadecimal
escapes of the text are decoded, or is refused with the ones as well as with the others. -/
def staysApart (rest : Text) : Bool :=
  let own := DecimalEscape.digits rest
  let seen := DecimalEscape.digits (HexEscape.decode rest)
  own == seen || !DecimalEscape.accepts (valueOfDigits 10 own) &&
    !DecimalEscape.accepts (valueOfDigits 10 seen)

/-- Whether every backslash of the text stays apart from the hexadecimal escapes behind it. -/
def undisturbed : Text → Bool
  | [] => true
  | c :: rest => (c != '\\' || staysApart rest) && undisturbed rest

lemma undisturbed_cons_ne {c : Char} (hc : c ≠ '\\') (rest : Text) :
    undisturbed (c :: rest) = undisturbed rest := by
  simp [undisturbed, hc]

/-- Behind an `x` there are no digits of a decimal escape. -/
lemma undisturbed_escape {high low : Char} (hhigh : isHexDigit high = true)
    (hlow : isHexDigit low = true) (rest : Text) :
    undisturbed ('\\' :: 'x' :: high :: low :: rest) = undisturbed rest := by
  have hx : HexEscape.decode ('x' :: high :: low :: rest)
      = 'x' :: HexEscape.decode (high :: low :: rest) := HexEscape.decode_cons_ne (by decide) _
  have hapart : staysApart ('x' :: high :: low :: rest) = true := by
    simp [staysApart, hx, DecimalEscape.digits]
  rw [undisturbed, hapart, undisturbed_cons_ne (by decide),
    undisturbed_cons_ne (ne_backslash_of_isAlphanum (isAlphanum_of_isHexDigit hhigh)),
    undisturbed_cons_ne (ne_backslash_of_isAlphanum (isAlphanum_of_isHexDigit hlow))]
  simp

lemma undisturbed_append {w : Text} (hw : '\\' ∉ w) (rest : Text) :
    undisturbed (w ++ rest) = undisturbed rest := by
  induction w with
  | nil => rfl
  | cons c w ih =>
      have hc : c ≠ '\\' := fun h => hw (h ▸ List.mem_cons_self)
      rw [List.cons_append, undisturbed_cons_ne hc, ih fun h => hw (List.mem_cons_of_mem c h)]

/-! ## The text in blocks -/

/-- **Induction escape by escape.**  A text is empty, or begins with a character that is no
backslash, or with a hexadecimal escape, or with another backslash.  How far that one reaches
depends on what stands behind it, so there the hypothesis is for every text that is not longer. -/
theorem escapeInduction {motive : Text → Prop} (nil : motive [])
    (plain : ∀ c rest, c ≠ '\\' → motive rest → motive (c :: rest))
    (hex : ∀ high low rest, isHexDigit high = true → isHexDigit low = true → motive rest →
      motive ('\\' :: 'x' :: high :: low :: rest))
    (backslash : ∀ rest, HexEscape.pattern none ('\\' :: rest) = none →
      (∀ shorter : Text, shorter.length ≤ rest.length → motive shorter) → motive ('\\' :: rest))
    (text : Text) : motive text := by
  induction hn : text.length using Nat.strong_induction_on generalizing text with
  | _ n ih =>
      have hshorter : ∀ shorter : Text, shorter.length < text.length → motive shorter :=
        fun shorter h => ih shorter.length (hn ▸ h) shorter rfl
      cases text with
      | nil => exact nil
      | cons c rest =>
          by_cases hc : c = '\\'
          · subst hc
            cases hhex : HexEscape.pattern none ('\\' :: rest) with
            | none =>
                exact backslash rest hhex fun shorter h => hshorter shorter (Nat.lt_succ_of_le h)
            | some f =>
                obtain ⟨high, low, behind, rfl, hhigh, hlow, -⟩ :=
                  HexEscape.pattern_eq_some_iff.mp hhex
                exact hex high low behind hhigh hlow
                  (hshorter behind (by simp only [List.length_cons]; omega))
          · exact plain c rest hc (hshorter rest (by simp))

/-- Digits at the front of a text, each of them written as itself or as a hexadecimal escape, and
the text behind them. -/
inductive SpellsDigits : Text → Text → Text → Prop where
  | nil (rest : Text) : SpellsDigits [] rest rest
  | digit {c : Char} {ds text rest : Text} (hc : c.isDigit = true)
      (h : SpellsDigits ds text rest) : SpellsDigits (c :: ds) (c :: text) rest
  | escape {high low : Char} {ds text rest : Text} (hhigh : isHexDigit high = true)
      (hlow : isHexDigit low = true)
      (hc : (Char.ofNat (valueOfDigits 16 [high, low])).isDigit = true)
      (h : SpellsDigits ds text rest) :
      SpellsDigits (Char.ofNat (valueOfDigits 16 [high, low]) :: ds)
        ('\\' :: 'x' :: high :: low :: text) rest

/-- The digits that the hexadecimal walk leaves at the front of a text are spelled there. -/
lemma exists_spellsDigits (text : Text) : ∀ n : Nat, ∃ rest,
    SpellsDigits (((HexEscape.decode text).takeWhile Char.isDigit).take n) text rest := by
  have hstop : ∀ {c : Char} (front behind : Text) (n : Nat), c.isDigit = false → ∃ rest,
      SpellsDigits (((c :: behind).takeWhile Char.isDigit).take n) front rest := by
    intro c front behind n hc
    exact ⟨front, by simpa [hc] using .nil front⟩
  induction text using escapeInduction with
  | nil => exact fun n => ⟨[], by simpa using .nil []⟩
  | plain c rest hc ih =>
      intro n
      rw [HexEscape.decode_cons_ne hc]
      cases hdigit : c.isDigit with
      | false => exact hstop _ _ n hdigit
      | true =>
          cases n with
          | zero => exact ⟨c :: rest, by simpa using .nil _⟩
          | succ n =>
              obtain ⟨behind, h⟩ := ih n
              exact ⟨behind, by simpa [hdigit] using h.digit hdigit⟩
  | hex high low rest hhigh hlow ih =>
      intro n
      rw [HexEscape.decode_escape hhigh hlow, HexEscape.resolve]
      split_ifs with haccept
      · cases hdigit : (Char.ofNat (valueOfDigits 16 [high, low])).isDigit with
        | false => exact hstop _ _ n hdigit
        | true =>
            cases n with
            | zero => exact ⟨'\\' :: 'x' :: high :: low :: rest, by simpa using .nil _⟩
            | succ n =>
                obtain ⟨behind, h⟩ := ih n
                exact ⟨behind, by simpa [hdigit] using h.escape hhigh hlow hdigit⟩
      · exact hstop _ _ n (by decide)
  | backslash rest hhex ih =>
      intro n
      rw [HexEscape.decode_backslash hhex]
      exact hstop _ _ n (by decide)

/-- An escape of a digit is accepted. -/
lemma resolve_of_isDigit {high low : Char}
    (hc : (Char.ofNat (valueOfDigits 16 [high, low])).isDigit = true) :
    HexEscape.resolve high low = [Char.ofNat (valueOfDigits 16 [high, low])] :=
  if_pos (by simp [HexEscape.accepts, Char.isAlphanum, hc])

namespace SpellsDigits

variable {ds text rest : Text} (h : SpellsDigits ds text rest)

include h

lemma isDigit : ∀ c ∈ ds, c.isDigit = true := by
  induction h with
  | nil rest => simp
  | digit hc _ ih | escape _ _ hc _ ih => simpa [hc] using ih

lemma length_le : rest.length ≤ text.length := by
  induction h with
  | nil rest => exact Nat.le_refl _
  | digit _ _ ih | escape _ _ _ _ ih => simp only [List.length_cons]; omega

lemma undisturbed_eq : undisturbed text = undisturbed rest := by
  induction h with
  | nil rest => rfl
  | digit hc _ ih => rw [undisturbed_cons_ne (ne_backslash_of_isDigit hc), ih]
  | escape hhigh hlow _ _ ih => rw [undisturbed_escape hhigh hlow, ih]

lemma decodeHex_eq : HexEscape.decode text = ds ++ HexEscape.decode rest := by
  induction h with
  | nil rest => rfl
  | digit hc _ ih =>
      rw [HexEscape.decode_cons_ne (ne_backslash_of_isDigit hc), ih, List.cons_append]
  | escape hhigh hlow hc _ ih =>
      rw [HexEscape.decode_escape hhigh hlow, resolve_of_isDigit hc, ih]
      rfl

lemma decodeOnce_eq : decodeOnce text = ds ++ decodeOnce rest := by
  induction h with
  | nil rest => rfl
  | digit hc _ ih =>
      rw [decodeOnce_cons_ne (ne_backslash_of_isDigit hc), ih, List.cons_append]
  | escape hhigh hlow hc _ ih =>
      rw [decodeOnce_escape hhigh hlow, resolve_of_isDigit hc, ih]
      rfl

lemma decodedOnce_eq : decodedOnce text = decodedOnce rest := by
  induction h with
  | nil rest => rfl
  | digit hc _ ih => rw [decodedOnce_cons_ne (ne_backslash_of_isDigit hc), ih]
  | escape hhigh hlow _ _ ih => rw [decodedOnce_escape hhigh hlow, ih]

end SpellsDigits

/-! ### The two walks in turn -/

/-- The text after the hexadecimal and then the decimal walk. -/
def decodeInTurn (text : Text) : Text := DecimalEscape.decode (HexEscape.decode text)

/-- What the decimal walk records behind the hexadecimal one. -/
def decodedInTurn (text : Text) : List (Text × Char) :=
  DecimalEscape.decoded (HexEscape.decode text)

lemma inTurn_cons_ne {c : Char} (hc : c ≠ '\\') (rest : Text) :
    decodeInTurn (c :: rest) = c :: decodeInTurn rest ∧
      decodedInTurn (c :: rest) = decodedInTurn rest := by
  simp only [decodeInTurn, decodedInTurn, HexEscape.decode_cons_ne hc,
    DecimalEscape.decode_cons_ne hc, DecimalEscape.decoded_cons_ne hc, and_self]

/-- The decimal walk leaves alone what the hexadecimal walk has made of an escape. -/
lemma inTurn_escape {high low : Char} (hhigh : isHexDigit high = true)
    (hlow : isHexDigit low = true) (rest : Text) :
    decodeInTurn ('\\' :: 'x' :: high :: low :: rest)
        = HexEscape.resolve high low ++ decodeInTurn rest ∧
      decodedInTurn ('\\' :: 'x' :: high :: low :: rest) = decodedInTurn rest := by
  have hhigh' := ne_backslash_of_isAlphanum (isAlphanum_of_isHexDigit hhigh)
  have hlow' := ne_backslash_of_isAlphanum (isAlphanum_of_isHexDigit hlow)
  have hx : 'x' ≠ '\\' := by decide
  simp only [decodeInTurn, decodedInTurn, HexEscape.decode_escape hhigh hlow, HexEscape.resolve]
  split_ifs with haccept
  · have hc : Char.ofNat (valueOfDigits 16 [high, low]) ≠ '\\' := by
      intro heq
      rw [heq] at haccept
      exact absurd haccept (by decide)
    exact ⟨DecimalEscape.decode_cons_ne hc _, DecimalEscape.decoded_cons_ne hc _⟩
  · -- a refused escape: a backslash without digits, and three characters that are no backslash
    have hnone : ∀ z, DecimalEscape.digits ('x' :: z) = [] := fun z => rfl
    simp only [List.cons_append, List.nil_append, DecimalEscape.decode_backslash,
      DecimalEscape.decoded_backslash, hnone, List.length_nil, List.drop_zero,
      DecimalEscape.decode_cons_ne hx, DecimalEscape.decode_cons_ne hhigh',
      DecimalEscape.decode_cons_ne hlow', DecimalEscape.decoded_cons_ne hx,
      DecimalEscape.decoded_cons_ne hhigh', DecimalEscape.decoded_cons_ne hlow']
    exact ⟨rfl, rfl⟩

/-- What both ways of decoding make of a backslash.  To the digits that stand behind it the
hexadecimal walk may add some `more`; `behind` is the text that is left then. -/
structure Block (rest more behind : Text) : Prop where
  seen : DecimalEscape.digits (HexEscape.decode rest) = DecimalEscape.digits rest ++ more
  isDigit : ∀ c ∈ more, c.isDigit = true
  length_le : behind.length ≤ rest.length
  undisturbed : undisturbed ('\\' :: rest) = (staysApart rest && undisturbed behind)
  inTurn : decodeInTurn ('\\' :: rest)
    = DecimalEscape.resolve (DecimalEscape.digits rest ++ more) ++ decodeInTurn behind
  once : decodeOnce ('\\' :: rest)
    = DecimalEscape.resolve (DecimalEscape.digits rest) ++ more ++ decodeOnce behind
  recordedInTurn : decodedInTurn ('\\' :: rest)
    = DecimalEscape.record (DecimalEscape.digits rest ++ more) ++ decodedInTurn behind
  recordedOnce : decodedOnce ('\\' :: rest)
    = DecimalEscape.record (DecimalEscape.digits rest) ++ decodedOnce behind

/-- Every backslash that begins no hexadecimal escape begins a block. -/
lemma exists_block {rest : Text} (hhex : HexEscape.pattern none ('\\' :: rest) = none) :
    ∃ more behind, Block rest more behind := by
  have hown : ∀ c ∈ DecimalEscape.digits rest, c.isDigit = true :=
    fun c => DecimalEscape.isDigit_of_mem_digits
  have hplain := backslash_notMem_of_isDigit hown
  have hrest := DecimalEscape.digits_append_drop rest
  generalize hleft : rest.drop (DecimalEscape.digits rest).length = left at hrest
  obtain ⟨behind, hmore⟩ := exists_spellsDigits left (3 - (DecimalEscape.digits rest).length)
  have hdecode : HexEscape.decode rest = DecimalEscape.digits rest ++ HexEscape.decode left := by
    rw [← HexEscape.decode_append hplain, hrest]
  have hseen := DecimalEscape.digits_append hown (List.length_take_le 3 _) (HexEscape.decode left)
  rw [← hdecode] at hseen
  generalize ((HexEscape.decode left).takeWhile Char.isDigit).take
    (3 - (DecimalEscape.digits rest).length) = more at hmore hseen
  have hdrop : (HexEscape.decode rest).drop (DecimalEscape.digits rest ++ more).length
      = HexEscape.decode behind := by
    rw [hdecode, hmore.decodeHex_eq, ← List.append_assoc, List.drop_left]
  refine ⟨more, behind, ?_⟩
  constructor
  case seen => exact hseen
  case isDigit => exact hmore.isDigit
  case length_le =>
    calc behind.length ≤ left.length := hmore.length_le
      _ ≤ rest.length := by rw [← hleft, List.length_drop]; omega
  case undisturbed =>
    rw [← hmore.undisturbed_eq, ← undisturbed_append hplain left, hrest]
    rfl
  case inTurn =>
    rw [decodeInTurn, HexEscape.decode_backslash hhex, DecimalEscape.decode_backslash, hseen, hdrop]
    rfl
  case once => rw [decodeOnce_backslash hhex, hleft, hmore.decodeOnce_eq, List.append_assoc]
  case recordedInTurn =>
    rw [decodedInTurn, HexEscape.decode_backslash hhex, DecimalEscape.decoded_backslash, hseen,
      hdrop]
    rfl
  case recordedOnce => rw [decodedOnce_backslash hhex, hleft, hmore.decodedOnce_eq]

/-! ### The results of a block -/

lemma hexDigitValue_of_isDigit {c : Char} (hc : c.isDigit = true) :
    c.toNat = hexDigitValue c + 48 := by
  have hle : 48 ≤ c.toNat := by
    simp only [Char.isDigit, Bool.and_eq_true, decide_eq_true_eq] at hc
    exact UInt32.le_iff_toNat_le.mp hc.1
  rw [hexDigitValue, if_pos hc]
  exact (Nat.sub_add_cancel hle).symm

/-- No accepted escape stands for its own last digit: `48` is the code of the digit zero, and is not
a multiple of ten. -/
lemma getLast?_ne_of_accepts {ds : Text} (hds : ∀ c ∈ ds, c.isDigit = true)
    (haccept : DecimalEscape.accepts (valueOfDigits 10 ds) = true) :
    ds.getLast? ≠ some (Char.ofNat (valueOfDigits 10 ds)) := by
  intro hlast
  obtain ⟨init, hinit⟩ := List.getLast?_eq_some_iff.mp hlast
  have hdigit := hexDigitValue_of_isDigit (hds _ (List.mem_of_getLast? hlast))
  have hvalue : valueOfDigits 10 ds = valueOfDigits 10 init * 10
      + hexDigitValue (Char.ofNat (valueOfDigits 10 ds)) := by
    conv_lhs => rw [hinit]
    rw [valueOfDigits, List.foldl_append]
    rfl
  have hcode : (Char.ofNat (valueOfDigits 10 ds)).toNat = valueOfDigits 10 ds := by
    simp only [DecimalEscape.accepts, Bool.and_eq_true, decide_eq_true_eq] at haccept
    rw [Char.toNat_ofNat, if_pos (Or.inl (by omega))]
  omega

/-- Where digits are added to an escape, the result changes its end, unless the escape is refused
before and after. -/
lemma apart_of_append_eq {own more x y : Text} (hown : ∀ c ∈ own, c.isDigit = true)
    (hmore : ∀ c ∈ more, c.isDigit = true)
    (h : x ++ (DecimalEscape.resolve own ++ more) = y ++ DecimalEscape.resolve (own ++ more)) :
    more = [] ∨ DecimalEscape.accepts (valueOfDigits 10 own) = false ∧
      DecimalEscape.accepts (valueOfDigits 10 (own ++ more)) = false := by
  by_cases hnil : more = []
  · exact .inl hnil
  cases hlong : DecimalEscape.accepts (valueOfDigits 10 (own ++ more)) with
  | true =>
      -- one result ends in the last digit, and the other is a single character
      have hend := congrArg List.getLast? h
      rw [← List.append_assoc, List.getLast?_append_of_ne_nil _ hnil,
        ← List.getLast?_append_of_ne_nil own hnil, DecimalEscape.resolve, if_pos hlong,
        List.getLast?_concat] at hend
      exact absurd hend (getLast?_ne_of_accepts (List.forall_mem_append.mpr ⟨hown, hmore⟩) hlong)
  | false =>
      cases hshort : DecimalEscape.accepts (valueOfDigits 10 own) with
      | false => exact .inr ⟨rfl, rfl⟩
      | true =>
          -- both results end in `more`; in front of it one has the character, the other the digits
          have hfront : x ++ [Char.ofNat (valueOfDigits 10 own)] = y ++ ['\\'] ++ own := by
            rw [DecimalEscape.resolve, DecimalEscape.resolve, if_pos hshort, hlong] at h
            refine (List.append_left_inj more).mp ?_
            simpa using h
          have hne : own ≠ [] := by
            rintro rfl
            cases hshort
          have hend := congrArg List.getLast? hfront
          rw [List.getLast?_concat, List.getLast?_append_of_ne_nil _ hne] at hend
          exact absurd hend.symm (getLast?_ne_of_accepts hown hshort)

namespace Block

variable {rest more behind : Text} (block : Block rest more behind)

include block

lemma staysApart_iff : staysApart rest = true ↔ more = [] ∨
    DecimalEscape.accepts (valueOfDigits 10 (DecimalEscape.digits rest)) = false ∧
      DecimalEscape.accepts (valueOfDigits 10 (DecimalEscape.digits rest ++ more)) = false := by
  simp [staysApart, block.seen]

/-- A block that stays apart has one result and one record. -/
lemma resolve_eq (h : staysApart rest = true) :
    DecimalEscape.resolve (DecimalEscape.digits rest) ++ more
        = DecimalEscape.resolve (DecimalEscape.digits rest ++ more) ∧
      DecimalEscape.record (DecimalEscape.digits rest)
        = DecimalEscape.record (DecimalEscape.digits rest ++ more) := by
  rcases block.staysApart_iff.mp h with rfl | ⟨hown, hseen⟩
  · simp only [List.append_nil, and_self]
  · simp [DecimalEscape.resolve, DecimalEscape.record, hown, hseen]

end Block

/-! ## The comparison -/

/-- In an undisturbed text the two walks in turn do what the single walk does. -/
lemma decodeOnce_eq_of_undisturbed (text : Text) : undisturbed text = true →
    decodeOnce text = decodeInTurn text ∧ decodedOnce text = decodedInTurn text := by
  induction text using escapeInduction with
  | nil => exact fun _ => ⟨rfl, rfl⟩
  | plain c rest hc ih =>
      intro h
      rw [undisturbed_cons_ne hc] at h
      obtain ⟨htext, hrecord⟩ := inTurn_cons_ne hc rest
      rw [decodeOnce_cons_ne hc, decodedOnce_cons_ne hc, htext, hrecord, (ih h).1, (ih h).2]
      exact ⟨rfl, rfl⟩
  | hex high low rest hhigh hlow ih =>
      intro h
      rw [undisturbed_escape hhigh hlow] at h
      obtain ⟨htext, hrecord⟩ := inTurn_escape hhigh hlow rest
      rw [decodeOnce_escape hhigh hlow, decodedOnce_escape hhigh hlow, htext, hrecord, (ih h).1,
        (ih h).2]
      exact ⟨rfl, rfl⟩
  | backslash rest hhex ih =>
      intro h
      obtain ⟨more, behind, block⟩ := exists_block hhex
      rw [block.undisturbed, Bool.and_eq_true] at h
      obtain ⟨hresolve, hrecord⟩ := block.resolve_eq h.1
      obtain ⟨ihtext, ihrecord⟩ := ih behind block.length_le h.2
      rw [block.once, block.inTurn, block.recordedOnce, block.recordedInTurn, hresolve, hrecord,
        ihtext, ihrecord]
      exact ⟨rfl, rfl⟩

/-- Two results that agree, whatever was put in front of them, come from an undisturbed text.  The
fronts are there for the induction: what a block adds to the results is added to the fronts. -/
lemma undisturbed_of_append_eq (text : Text) : ∀ x y : Text,
    x ++ decodeOnce text = y ++ decodeInTurn text → x = y ∧ undisturbed text = true := by
  induction text using escapeInduction with
  | nil => exact fun x y h => ⟨by simpa [decodeInTurn] using h, rfl⟩
  | plain c rest hc ih =>
      intro x y h
      rw [decodeOnce_cons_ne hc, (inTurn_cons_ne hc rest).1, List.append_cons x,
        List.append_cons y] at h
      obtain ⟨hfront, hrest⟩ := ih _ _ h
      exact ⟨(List.append_left_inj _).mp hfront, by rwa [undisturbed_cons_ne hc]⟩
  | hex high low rest hhigh hlow ih =>
      intro x y h
      rw [decodeOnce_escape hhigh hlow, (inTurn_escape hhigh hlow rest).1, ← List.append_assoc,
        ← List.append_assoc] at h
      obtain ⟨hfront, hrest⟩ := ih _ _ h
      exact ⟨(List.append_left_inj _).mp hfront, by rwa [undisturbed_escape hhigh hlow]⟩
  | backslash rest hhex ih =>
      intro x y h
      obtain ⟨more, behind, block⟩ := exists_block hhex
      rw [block.once, block.inTurn, ← List.append_assoc x, ← List.append_assoc y] at h
      obtain ⟨hfront, hbehind⟩ := ih behind block.length_le _ _ h
      have hown : ∀ c ∈ DecimalEscape.digits rest, c.isDigit = true :=
        fun c => DecimalEscape.isDigit_of_mem_digits
      have hapart : staysApart rest = true :=
        block.staysApart_iff.mpr (apart_of_append_eq hown block.isDigit hfront)
      rw [(block.resolve_eq hapart).1] at hfront
      refine ⟨(List.append_left_inj _).mp hfront, ?_⟩
      rw [block.undisturbed, hapart, hbehind, Bool.and_self]

/-- What the single walk records stands in the text as it was recorded. -/
lemma isInfix_of_mem_decodedOnce (text : Text) : ∀ e ∈ decodedOnce text, e.1 <:+: text := by
  induction text using escapeInduction with
  | nil => simp
  | plain c rest hc ih =>
      intro e he
      rw [decodedOnce_cons_ne hc] at he
      exact (ih e he).trans (List.suffix_cons c rest).isInfix
  | hex high low rest hhigh hlow ih =>
      intro e he
      rw [decodedOnce_escape hhigh hlow] at he
      exact (ih e he).trans (List.suffix_append ['\\', 'x', high, low] rest).isInfix
  | backslash rest hhex ih =>
      intro e he
      rw [decodedOnce_backslash hhex, List.mem_append] at he
      rcases he with hown | hbehind
      · have hcovered : e.1 = '\\' :: DecimalEscape.digits rest := by
          rw [DecimalEscape.record] at hown
          split_ifs at hown
          · rw [List.mem_singleton.mp hown]
          · cases hown
        have hfront : '\\' :: DecimalEscape.digits rest <+: '\\' :: rest :=
          ⟨_, congrArg ('\\' :: ·) (DecimalEscape.digits_append_drop rest)⟩
        exact hcovered ▸ hfront.isInfix
      · have hdrop := (List.drop_suffix (DecimalEscape.digits rest).length rest).trans
          (List.suffix_cons '\\' rest)
        exact (ih _ (by simp) e hbehind).trans hdrop.isInfix

end Escape

namespace Session

/-- Warnings leave the recorded escapes alone. -/
lemma escapes_warnUndecoded (s : Session) (messages : List Text) :
    (s.warnUndecoded messages).escapes = s.escapes := by
  rw [warnUndecoded_eq]

/-- **When escapes are decoded independently of each other.**  The hexadecimal walk and then the
decimal walk, in any session, decode and record what a single walk from left to right does exactly
if every backslash of the text keeps its digits when the hexadecimal escapes behind it are decoded,
or is refused with and without the new ones.  Whatever the text is, the escapes that the single walk
records stand in it as they are recorded. -/
theorem decode_eq_decodeOnce_iff (s : Session) (text : Text) :
    let hex := s.decodeHex text
    let result := hex.2.decodeDecimal hex.1
    (result.1 = Escape.decodeOnce text ∧
        result.2.escapes = s.escapes.recordAll (Escape.decodedOnce text) ↔
      Escape.undisturbed text = true) ∧
      ∀ e ∈ Escape.decodedOnce text, e.1 <:+: text := by
  have hescapes : ((s.decodeHex text).2.decodeDecimal (s.decodeHex text).1).2.escapes
      = s.escapes.recordAll (Escape.decodedInTurn text) := by
    simp only [decodeHex, decodeDecimal, escapes_warnUndecoded, Escape.decodedInTurn]
  refine ⟨⟨fun h => ?_, fun h => ?_⟩, Escape.isInfix_of_mem_decodedOnce text⟩
  · exact (Escape.undisturbed_of_append_eq text [] [] h.1.symm).2
  · obtain ⟨htext, hrecord⟩ := Escape.decodeOnce_eq_of_undisturbed text h
    exact ⟨htext.symm, hrecord ▸ hescapes⟩

example : Escape.undisturbed "\\1\\x31\\065\\x35".toList = true := by decide +kernel

/-- A digit that was written as a hexadecimal escape joins the escape in front of it: the single
walk leaves the script with `\65` and records nothing, and the two walks give `A` and record an
escape that stands nowhere in the script. -/
theorem decode_joins_digit :
    let text := "\\6\\x35".toList
    let hex := (start {}).decodeHex text
    let result := hex.2.decodeDecimal hex.1
    result.1 = "A".toList ∧ Escape.decodeOnce text = "\\65".toList ∧
      result.2.escapes.entries = [("\\65".toList, 'A')] ∧ Escape.decodedOnce text = [] ∧
      ¬ "\\65".toList <:+: text := by
  decide +kernel

end Session

end LuaUnveil
