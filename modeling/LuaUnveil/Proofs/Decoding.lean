import LuaUnveil.Proofs.History

/-!
# Decoding, escape by escape

The two decoders walk over a text one after the other.  This file says what each walk does with the
front of a text, and from that what both make of a text that was written with escapes.

**One escape.**  A hexadecimal escape is a find of its own.  A backslash takes the digits behind it,
at most three (`DecimalEscape.digits`), and becomes what they spell (`DecimalEscape.resolve`); a
backslash without digits becomes itself, so both are one rule.

**Reading back.**  A `Spelling` is one of the ways to write a character: as itself, in decimal with
three digits, in hexadecimal.  The first walk leaves everything but the hexadecimal spellings, and
puts nothing behind a decimal spelling that could lengthen it, since that has all its digits.
-/

namespace LuaUnveil

/-! ## Hexadecimal escapes -/

namespace HexEscape

@[simp] lemma decode_nil : decode [] = [] := rfl

lemma pieces_escape {high low : Char} (hhigh : isHexDigit high = true)
    (hlow : isHexDigit low = true) (rest : Text) :
    pieces pattern ('\\' :: 'x' :: high :: low :: rest)
      = .found ⟨Char.ofNat (valueOfDigits 16 [high, low]), ['\\', 'x', high, low]⟩
          :: pieces pattern rest :=
  beginsWith.looksAhead.pieces_found (w := ['x', high, low])
    (pattern_eq_some_iff.mpr ⟨high, low, rest, rfl, hhigh, hlow, rfl⟩) rfl

lemma decode_cons_ne {c : Char} (hc : c ≠ '\\') (rest : Text) :
    decode (c :: rest) = c :: decode rest := beginsWith.replaceAll_cons_ne _ hc rest

/-- What the walk puts in the place of an escape. -/
def resolve (high low : Char) : Text :=
  if accepts (Char.ofNat (valueOfDigits 16 [high, low])) then
    [Char.ofNat (valueOfDigits 16 [high, low])]
  else ['\\', 'x', high, low]

lemma decode_escape {high low : Char} (hhigh : isHexDigit high = true)
    (hlow : isHexDigit low = true) (rest : Text) :
    decode ('\\' :: 'x' :: high :: low :: rest) = resolve high low ++ decode rest := by
  simp only [decode, replaceAll, pieces_escape hhigh hlow, assemble_found_cons, resolve]

lemma refused_escape_of_accepts {high low : Char} (hhigh : isHexDigit high = true)
    (hlow : isHexDigit low = true)
    (haccept : accepts (Char.ofNat (valueOfDigits 16 [high, low])) = true) (rest : Text) :
    refused ('\\' :: 'x' :: high :: low :: rest) = refused rest := by
  simp [refused, pieces_escape hhigh hlow, haccept]

/-- A backslash that does not begin an escape is passed over. -/
lemma pieces_backslash {rest : Text} (h : pattern none ('\\' :: rest) = none) :
    pieces pattern ('\\' :: rest) = .plain '\\' :: pieces pattern rest :=
  beginsWith.looksAhead.pieces_plain h

lemma decode_backslash {rest : Text} (h : pattern none ('\\' :: rest) = none) :
    decode ('\\' :: rest) = '\\' :: decode rest := by
  simp only [decode, replaceAll, pieces_backslash h, assemble_plain_cons]

lemma refused_backslash {rest : Text} (h : pattern none ('\\' :: rest) = none) :
    refused ('\\' :: rest) = refused rest := by
  simp only [refused, pieces_backslash h, finds_plain_cons]

/-- Only an `x` continues a backslash to an escape. -/
lemma pattern_of_head_ne {rest : Text} (h : rest.head? ≠ some 'x') :
    pattern none ('\\' :: rest) = none := by
  refine Option.eq_none_iff_forall_ne_some.mpr fun f hf => ?_
  obtain ⟨high, low, behind, rfl, -⟩ := pattern_eq_some_iff.mp hf
  exact h rfl

/-- A text without backslashes is passed over. -/
lemma decode_append {w : Text} (hw : '\\' ∉ w) (rest : Text) :
    decode (w ++ rest) = w ++ decode rest := beginsWith.replaceAll_append _ hw rest

lemma refused_append {w : Text} (hw : '\\' ∉ w) (rest : Text) :
    refused (w ++ rest) = refused rest := by
  rw [refused, beginsWith.finds_append hw, refused]

end HexEscape

/-! ## Decimal escapes -/

lemma ne_backslash_of_isAlphanum {c : Char} (h : c.isAlphanum = true) : c ≠ '\\' := by
  rintro rfl
  exact absurd h (by decide)

lemma ne_backslash_of_isDigit {c : Char} (h : c.isDigit = true) : c ≠ '\\' :=
  ne_backslash_of_isAlphanum (by simp [Char.isAlphanum, h])

lemma backslash_notMem_of_isDigit {ds : Text} (hds : ∀ c ∈ ds, c.isDigit = true) : '\\' ∉ ds :=
  fun h => ne_backslash_of_isDigit (hds _ h) rfl

namespace DecimalEscape

/-- The digits that an escape takes off the text behind its backslash: as many as there are, and at
most three. -/
def digits (rest : Text) : Text := (rest.takeWhile Char.isDigit).take 3

/-- What the walk puts in the place of a backslash with the digits that belong to it. -/
def resolve (ds : Text) : Text :=
  if accepts (valueOfDigits 10 ds) then [Char.ofNat (valueOfDigits 10 ds)] else '\\' :: ds

/-- What the walk records for a backslash with the digits that belong to it. -/
def record (ds : Text) : List (Text × Char) :=
  if accepts (valueOfDigits 10 ds) then [('\\' :: ds, Char.ofNat (valueOfDigits 10 ds))] else []

@[simp] lemma decode_nil : decode [] = [] := rfl

lemma decode_cons_ne {c : Char} (hc : c ≠ '\\') (rest : Text) :
    decode (c :: rest) = c :: decode rest := beginsWith.replaceAll_cons_ne _ hc rest

lemma decoded_cons_ne {c : Char} (hc : c ≠ '\\') (rest : Text) :
    decoded (c :: rest) = decoded rest := by
  rw [decoded, beginsWith.finds_cons_ne hc, decoded]

lemma refused_cons_ne {c : Char} (hc : c ≠ '\\') (rest : Text) :
    refused (c :: rest) = refused rest := by
  rw [refused, beginsWith.finds_cons_ne hc, refused]

lemma isDigit_of_mem_digits {rest : Text} {c : Char} (h : c ∈ digits rest) : c.isDigit = true :=
  List.mem_takeWhile_imp (List.mem_of_mem_take h)

/-- The digits stand at the front of the text. -/
lemma digits_append_drop (rest : Text) :
    digits rest ++ rest.drop (digits rest).length = rest := by
  have hprefix : digits rest <+: rest := (List.take_prefix _ _).trans (List.takeWhile_prefix _)
  exact (List.prefix_iff_eq_append.mp hprefix)

/-- Where a scan finds a backslash with its digits, it goes on behind them. -/
lemma pieces_of_covered_digits {α : Type} {p : Pattern α} (hp : p.LooksAhead) {rest : Text}
    {value : α} (h : p none ('\\' :: rest) = some ⟨value, '\\' :: digits rest⟩) :
    pieces p ('\\' :: rest)
      = .found ⟨value, '\\' :: digits rest⟩ :: pieces p (rest.drop (digits rest).length) := by
  rw [← digits_append_drop rest] at h
  have hpieces := hp.pieces_found h (by rw [digits_append_drop])
  rwa [digits_append_drop] at hpieces

lemma pieces_backslash_of_nil {rest : Text} (h : digits rest = []) :
    pieces pattern ('\\' :: rest) = .plain '\\' :: pieces pattern rest := by
  refine beginsWith.looksAhead.pieces_plain (Option.eq_none_iff_forall_ne_some.mpr fun f hf => ?_)
  exact (pattern_eq_some_iff.mp hf).1 h

lemma pieces_backslash_of_ne_nil {rest : Text} (h : digits rest ≠ []) :
    pieces pattern ('\\' :: rest)
      = .found ⟨valueOfDigits 10 (digits rest), '\\' :: digits rest⟩
          :: pieces pattern (rest.drop (digits rest).length) :=
  pieces_of_covered_digits beginsWith.looksAhead (pattern_eq_some_iff.mpr ⟨h, rfl⟩)

/-- A backslash becomes what its digits spell, and the walk goes on behind them. -/
lemma decode_backslash (rest : Text) :
    decode ('\\' :: rest)
      = resolve (digits rest) ++ decode (rest.drop (digits rest).length) := by
  by_cases h : digits rest = []
  · simp only [decode, replaceAll, pieces_backslash_of_nil h, h, assemble_plain_cons]
    rfl
  · simp only [decode, replaceAll, pieces_backslash_of_ne_nil h, assemble_found_cons, resolve]

lemma decoded_backslash (rest : Text) :
    decoded ('\\' :: rest)
      = record (digits rest) ++ decoded (rest.drop (digits rest).length) := by
  by_cases h : digits rest = []
  · simp only [decoded, pieces_backslash_of_nil h, h, finds_plain_cons]
    rfl
  · simp only [decoded, pieces_backslash_of_ne_nil h, finds_found_cons, record, List.filter_cons]
    split_ifs <;> rfl

lemma refused_backslash_of_accepts {rest : Text}
    (haccept : accepts (valueOfDigits 10 (digits rest)) = true) :
    refused ('\\' :: rest) = refused (rest.drop (digits rest).length) := by
  have hne : digits rest ≠ [] := by
    intro h
    rw [h] at haccept
    cases haccept
  simp [refused, pieces_backslash_of_ne_nil hne, haccept]

/-- Digits in front of a text leave room for what is missing to three. -/
lemma digits_append {ds : Text} (hds : ∀ c ∈ ds, c.isDigit = true) (hlen : ds.length ≤ 3)
    (rest : Text) :
    digits (ds ++ rest) = ds ++ (rest.takeWhile Char.isDigit).take (3 - ds.length) := by
  rw [digits, List.takeWhile_append_of_pos hds, List.take_append, List.take_of_length_le hlen]

end DecimalEscape

/-! ## Ways to write a character -/

/-- A character and the way in which it is written. -/
inductive Spelling where
  /-- As itself; a backslash cannot be written so. -/
  | plain (c : Char) (hc : c ≠ '\\')
  /-- A printable ASCII character as a backslash and three decimal digits. -/
  | decimal (c : Char) (hc : DecimalEscape.accepts c.toNat = true)
  /-- An ASCII letter, an ASCII digit or a space as `\x` and two hexadecimal digits of either case,
  which spell its code. -/
  | hex (c high low : Char) (hc : HexEscape.accepts c = true) (hhigh : isHexDigit high = true)
    (hlow : isHexDigit low = true) (hvalue : valueOfDigits 16 [high, low] = c.toNat)

/-- The three decimal digits of a number below a thousand, leading zeros included. -/
def threeDigits (n : Nat) : Text :=
  [Nat.digitChar (n / 100), Nat.digitChar (n / 10 % 10), Nat.digitChar (n % 10)]

lemma isDigit_digitChar {n : Nat} (h : n < 10) : (Nat.digitChar n).isDigit = true := by
  interval_cases n <;> rfl

lemma hexDigitValue_digitChar {n : Nat} (h : n < 10) : hexDigitValue (Nat.digitChar n) = n := by
  interval_cases n <;> rfl

lemma isDigit_of_mem_threeDigits {n : Nat} (h : n < 1000) {c : Char} (hc : c ∈ threeDigits n) :
    c.isDigit = true := by
  simp only [threeDigits, List.mem_cons, List.not_mem_nil, or_false] at hc
  rcases hc with rfl | rfl | rfl
  · exact isDigit_digitChar (by omega)
  · exact isDigit_digitChar (by omega)
  · exact isDigit_digitChar (by omega)

lemma valueOfDigits_threeDigits {n : Nat} (h : n < 1000) :
    valueOfDigits 10 (threeDigits n) = n := by
  simp only [valueOfDigits, threeDigits, List.foldl_cons, List.foldl_nil,
    hexDigitValue_digitChar (show n / 100 < 10 by omega),
    hexDigitValue_digitChar (show n / 10 % 10 < 10 by omega),
    hexDigitValue_digitChar (show n % 10 < 10 by omega)]
  omega

namespace Spelling

/-- The character that is written. -/
def char : Spelling → Char
  | plain c _ => c
  | decimal c _ => c
  | hex c .. => c

/-- The text that stands for the character. -/
def written : Spelling → Text
  | plain c _ => [c]
  | decimal c _ => '\\' :: threeDigits c.toNat
  | hex _ high low .. => ['\\', 'x', high, low]

/-- What the table records: the decimal spellings, with their characters. -/
def recorded? : Spelling → Option (Text × Char)
  | decimal c _ => some ('\\' :: threeDigits c.toNat, c)
  | _ => none

/-- What the first walk leaves of a spelling. -/
def withoutHex : Spelling → Text
  | hex c .. => [c]
  | s => s.written

/-! ### The two walks over one spelling -/

lemma lt_of_accepts {n : Nat} (h : DecimalEscape.accepts n = true) : n < 1000 := by
  simp only [DecimalEscape.accepts, Bool.and_eq_true, decide_eq_true_eq] at h
  omega

/-- The first walk resolves the hexadecimal spellings and passes over the others. -/
lemma decodeHex_written (s : Spelling) (rest : Text) :
    HexEscape.decode (s.written ++ rest) = s.withoutHex ++ HexEscape.decode rest ∧
      HexEscape.refused (s.written ++ rest) = HexEscape.refused rest := by
  cases s with
  | plain c hc =>
      have hplain : '\\' ∉ [c] := fun h => hc (List.mem_singleton.mp h).symm
      exact ⟨HexEscape.decode_append hplain rest, HexEscape.refused_append hplain rest⟩
  | decimal c hc =>
      have hdigits : ∀ d ∈ threeDigits c.toNat, d.isDigit = true :=
        fun d => isDigit_of_mem_threeDigits (lt_of_accepts hc)
      have hnone : HexEscape.pattern none ('\\' :: (threeDigits c.toNat ++ rest)) = none := by
        refine HexEscape.pattern_of_head_ne fun hx => ?_
        have hdigit := hdigits (Nat.digitChar (c.toNat / 100)) List.mem_cons_self
        rw [Option.some.inj hx] at hdigit
        exact absurd hdigit (by decide)
      have hplain := backslash_notMem_of_isDigit hdigits
      refine ⟨?_, ?_⟩
      · refine (HexEscape.decode_backslash hnone).trans ?_
        rw [HexEscape.decode_append hplain]
        rfl
      · exact (HexEscape.refused_backslash hnone).trans (HexEscape.refused_append hplain rest)
  | hex c high low hc hhigh hlow hvalue =>
      have hchar : Char.ofNat (valueOfDigits 16 [high, low]) = c := by
        rw [hvalue, Char.ofNat_toNat]
      refine ⟨?_, HexEscape.refused_escape_of_accepts hhigh hlow (hchar ▸ hc) rest⟩
      refine (HexEscape.decode_escape hhigh hlow rest).trans ?_
      rw [HexEscape.resolve, hchar, if_pos hc, withoutHex]

/-- The second walk resolves and records the decimal spellings, and passes over the rest. -/
lemma decodeDecimal_withoutHex (s : Spelling) (rest : Text) :
    DecimalEscape.decode (s.withoutHex ++ rest) = s.char :: DecimalEscape.decode rest ∧
      DecimalEscape.decoded (s.withoutHex ++ rest)
        = s.recorded?.toList ++ DecimalEscape.decoded rest ∧
      DecimalEscape.refused (s.withoutHex ++ rest) = DecimalEscape.refused rest := by
  have hpass : ∀ {c : Char}, c ≠ '\\' →
      DecimalEscape.decode (c :: rest) = c :: DecimalEscape.decode rest ∧
        DecimalEscape.decoded (c :: rest) = DecimalEscape.decoded rest ∧
        DecimalEscape.refused (c :: rest) = DecimalEscape.refused rest :=
    fun hc => ⟨DecimalEscape.decode_cons_ne hc rest, DecimalEscape.decoded_cons_ne hc rest,
      DecimalEscape.refused_cons_ne hc rest⟩
  cases s with
  | plain c hc => exact hpass hc
  | hex c high low hc hhigh hlow hvalue =>
      refine hpass ?_
      rintro rfl
      exact absurd hc (by decide)
  | decimal c hc =>
      have hlt := lt_of_accepts hc
      have hdigits : DecimalEscape.digits (threeDigits c.toNat ++ rest) = threeDigits c.toNat := by
        rw [DecimalEscape.digits_append (fun d => isDigit_of_mem_threeDigits hlt) (Nat.le_refl 3)]
        simp [threeDigits]
      have hvalue := valueOfDigits_threeDigits hlt
      have haccept : DecimalEscape.accepts
          (valueOfDigits 10 (DecimalEscape.digits (threeDigits c.toNat ++ rest))) = true := by
        rw [hdigits, hvalue]
        exact hc
      have hdecode := DecimalEscape.decode_backslash (threeDigits c.toNat ++ rest)
      have hdecoded := DecimalEscape.decoded_backslash (threeDigits c.toNat ++ rest)
      have hrefused := DecimalEscape.refused_backslash_of_accepts haccept
      rw [hdigits, List.drop_left] at hdecode hdecoded hrefused
      refine ⟨hdecode.trans ?_, hdecoded.trans ?_, hrefused⟩
      · rw [DecimalEscape.resolve, hvalue, if_pos hc, Char.ofNat_toNat]
        rfl
      · rw [DecimalEscape.record, hvalue, if_pos hc, Char.ofNat_toNat]
        rfl

/-! ### The two walks over a whole text -/

lemma decodeHex_flatMap (spellings : List Spelling) :
    HexEscape.decode (spellings.flatMap written) = spellings.flatMap withoutHex ∧
      HexEscape.refused (spellings.flatMap written) = [] := by
  induction spellings with
  | nil => exact ⟨rfl, rfl⟩
  | cons s spellings ih =>
      obtain ⟨hdecode, hrefused⟩ := s.decodeHex_written (spellings.flatMap written)
      rw [List.flatMap_cons, List.flatMap_cons, hdecode, hrefused, ih.1, ih.2]
      exact ⟨rfl, rfl⟩

lemma decodeDecimal_flatMap (spellings : List Spelling) :
    DecimalEscape.decode (spellings.flatMap withoutHex) = spellings.map char ∧
      DecimalEscape.decoded (spellings.flatMap withoutHex) = spellings.filterMap recorded? ∧
      DecimalEscape.refused (spellings.flatMap withoutHex) = [] := by
  induction spellings with
  | nil => exact ⟨rfl, rfl, rfl⟩
  | cons s spellings ih =>
      obtain ⟨hdecode, hdecoded, hrefused⟩ :=
        s.decodeDecimal_withoutHex (spellings.flatMap withoutHex)
      obtain ⟨ihdecode, ihdecoded, ihrefused⟩ := ih
      rw [List.flatMap_cons, hdecode, hdecoded, hrefused, ihdecode, ihdecoded, ihrefused]
      refine ⟨rfl, ?_, rfl⟩
      cases h : s.recorded? <;> simp [h]

/-- A decimal spelling has one character only. -/
lemma recorded?_inj {s t : Spelling} {e e' : Text × Char} (hs : s.recorded? = some e)
    (ht : t.recorded? = some e') (h : e.1 = e'.1) : e = e' := by
  cases s with
  | plain c hc => cases hs
  | hex c high low hc hhigh hlow hvalue => cases hs
  | decimal c hc =>
      cases t with
      | plain d hd => cases ht
      | hex d high low hd hhigh hlow hvalue => cases ht
      | decimal d hd =>
          obtain rfl := Option.some.inj hs
          obtain rfl := Option.some.inj ht
          have hvalue := congrArg (valueOfDigits 10) (List.cons.inj h).2
          rw [valueOfDigits_threeDigits (lt_of_accepts hc),
            valueOfDigits_threeDigits (lt_of_accepts hd)] at hvalue
          rw [Char.toNat_inj.mp hvalue]

end Spelling

/-- A walk that refuses nothing gives no warnings. -/
lemma Session.warnUndecoded_nil (s : Session) : s.warnUndecoded [] = s := by
  unfold warnUndecoded
  split_ifs <;> rfl

/-- **Decoding undoes every way of writing with escapes.**  Whatever characters are written, and
whichever of the three ways is taken for each of them, the two walks give back the characters.  A
session that was at its start has then recorded the decimal spellings, and holds each of them once,
in the order of first use and with its character; it is otherwise at its start still, so there is no
warning, even if the options ask for warnings. -/
theorem Session.decode_written (options : Options) (spellings : List Spelling) :
    let hex := (start options).decodeHex (spellings.flatMap Spelling.written)
    let recorded := EscapeTable.recordAll {} (spellings.filterMap Spelling.recorded?)
    hex.2.decodeDecimal hex.1
        = (spellings.map Spelling.char, { start options with escapes := recorded }) ∧
      recorded.entries = (spellings.filterMap Spelling.recorded?).eraseDups := by
  intro hex recorded
  obtain ⟨hhex, hhexrefused⟩ := Spelling.decodeHex_flatMap spellings
  obtain ⟨hdecimal, hdecoded, hrefused⟩ := Spelling.decodeDecimal_flatMap spellings
  refine ⟨?_, ?_⟩
  · simp only [hex, decodeHex, decodeDecimal, hhex, hhexrefused, hdecimal, hdecoded, hrefused,
      List.map_nil, warnUndecoded_nil]
    rfl
  · have hsame : ∀ e ∈ spellings.filterMap Spelling.recorded?,
        ∀ e' ∈ ([] : List (Text × Char)) ++ spellings.filterMap Spelling.recorded?,
          e.1 = e'.1 → e = e' := by
      intro e he e' he' hkey
      obtain ⟨s, -, hs⟩ := List.mem_filterMap.mp he
      obtain ⟨t, -, ht⟩ := List.mem_filterMap.mp he'
      exact Spelling.recorded?_inj hs ht hkey
    rw [EscapeTable.entries_recordAll _ hsame]
    simp

end LuaUnveil
