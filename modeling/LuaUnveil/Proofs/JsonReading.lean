import LuaUnveil.Json.Reader
import LuaUnveil.Proofs.Places

/-!
# Reading printed JSON back

The reader undoes the printer: from the printed form of a value it reads that value, and stops right
behind it.

**Pieces.**  `stringBody_flatMap_quoteChar`: a quoted text spells itself, whatever its characters
are.  `number_decimal`: the decimal form of a number is read as that number, as long as what follows
does not continue it (`EndsNumber`).

**Lists.**  The items of an array and the fields of an object are read by a loop around a reader for
values.  `items_pretty` and `fields_pretty` say what the loop does with any reader that reads the
values of the list back, so that they know nothing of the nesting.

**Values.**  `value_pretty` is an induction on the value, with the level and the depth left open.
Each bracket makes the printed form longer by more than the depth that it costs, so the length of
the text is depth enough.
-/

namespace LuaUnveil

/-! ## Decimal forms -/

lemma decimal_of_lt {n : Nat} (h : n < 10) : decimal n = [Nat.digitChar n] :=
  Nat.toDigits_of_lt_base h

lemma decimal_of_le {n : Nat} (h : 10 ≤ n) :
    decimal n = decimal (n / 10) ++ [Nat.digitChar (n % 10)] :=
  Nat.toDigits_of_base_le (by decide) h

lemma decimal_ne_nil (n : Nat) : decimal n ≠ [] := by
  by_cases h : n < 10
  · simp [decimal_of_lt h]
  · simp [decimal_of_le (Nat.le_of_not_lt h)]

/-- The decimal form of a number stands for that number. -/
lemma valueOfDigits_decimal (n : Nat) : valueOfDigits 10 (decimal n) = n := by
  induction n using Nat.strongRecOn with
  | ind n ih =>
      by_cases h : n < 10
      · rw [decimal_of_lt h]
        simp [valueOfDigits, hexDigitValue_digitChar h]
      · have hrest := ih (n / 10) (by omega)
        rw [valueOfDigits] at hrest
        rw [decimal_of_le (Nat.le_of_not_lt h), valueOfDigits, List.foldl_append, hrest,
          List.foldl_cons, List.foldl_nil, hexDigitValue_digitChar (show n % 10 < 10 by omega)]
        omega

/-- Only zero is written with a zero in front. -/
lemma head?_decimal_ne_zero {n : Nat} (hn : n ≠ 0) : (decimal n).head? ≠ some '0' := by
  induction n using Nat.strongRecOn with
  | ind n ih =>
      by_cases h : n < 10
      · rw [decimal_of_lt h]
        have hdigits : ∀ m < 10, m ≠ 0 → Nat.digitChar m ≠ '0' := by decide
        simpa using hdigits n h hn
      · rw [decimal_of_le (Nat.le_of_not_lt h), List.head?_append_of_ne_nil _ (decimal_ne_nil _)]
        exact ih (n / 10) (by omega) (by omega)

namespace Json

/-! ## White space -/

lemma skipSpace_cons {c : Char} (hc : isSpace c = false) (text : Text) :
    skipSpace (c :: text) = c :: text := by
  simp [skipSpace, hc]

lemma skipSpace_newLine (level : Nat) (text : Text) :
    skipSpace (newLine level ++ text) = skipSpace text := by
  have hspace : ∀ c ∈ newLine level, isSpace c = true := by
    intro c hc
    rcases List.mem_cons.mp hc with rfl | hc
    · rfl
    · rw [List.eq_of_mem_replicate hc]
      rfl
  exact List.dropWhile_append_of_pos hspace

/-! ## Strings -/

/-- One step of the reader: a part is read off the front, and stands in front of the later ones. -/
def ReadsPart (front : Text) (part : Part) : Prop :=
  ∀ text, stringParts (front ++ text)
    = (stringParts text).map fun read => (part :: read.1, read.2)

lemma readsPart_short {e c : Char} (he : e ≠ 'u') (hc : shortEscape? e = some c) :
    ReadsPart ['\\', e] (.char c) := by
  intro text
  cases h : stringParts text <;> simp [stringParts, he, hc, h]

lemma readsPart_unit {a b c d : Char} {n : Nat} (hn : hexUnit? a b c d = some n) :
    ReadsPart ['\\', 'u', a, b, c, d] (.unit n) := by
  intro text
  cases h : stringParts text <;> simp [stringParts, hn, h]

lemma readsPart_char {c : Char} (hquote : c ≠ '"') (hslash : c ≠ '\\') (hc : 0x20 ≤ c.toNat) :
    ReadsPart [c] (.char c) := by
  intro text
  cases h : stringParts text <;> simp [stringParts, hslash, hc, h]

/-- A unit below the space is the code of its character. -/
lemma spell_unit_cons {n : Nat} (hn : n < 0x20) (parts : List Part) :
    spell (.unit n :: parts) = (spell parts).map (Char.ofNat n :: ·) := by
  have hhigh : isHighHalf n = false := by
    simp only [isHighHalf, Bool.and_eq_false_iff, decide_eq_false_iff_not]
    omega
  have hlow : isLowHalf n = false := by
    simp only [isLowHalf, Bool.and_eq_false_iff, decide_eq_false_iff_not]
    omega
  rcases parts with _ | ⟨_ | _, parts⟩ <;> simp [spell, hhigh, hlow]

/-- The two digits of a control character. -/
lemma hexUnit?_digits : ∀ n < 0x20,
    hexUnit? '0' '0' (Nat.digitChar (n / 16)) (Nat.digitChar (n % 16)) = some n := by
  decide

/-- **A quoted character is one part of a string**, and this part spells the character. -/
theorem exists_part_quoteChar (c : Char) :
    ∃ part : Part, ReadsPart (quoteChar c) part ∧
      ∀ parts, spell (part :: parts) = (spell parts).map (c :: ·) := by
  have hplain : ReadsPart (quoteChar c) (.char c) → ∃ part : Part, ReadsPart (quoteChar c) part ∧
      ∀ parts, spell (part :: parts) = (spell parts).map (c :: ·) :=
    fun h => ⟨.char c, h, fun parts => by rw [spell]⟩
  unfold quoteChar at hplain ⊢
  split_ifs at hplain ⊢ with hquote hslash hn hr ht hb hf hcontrol
  · subst hquote
    exact hplain (readsPart_short (by decide) rfl)
  · subst hslash
    exact hplain (readsPart_short (by decide) rfl)
  · exact hplain (hn ▸ readsPart_short (by decide) rfl)
  · exact hplain (hr ▸ readsPart_short (by decide) rfl)
  · exact hplain (ht ▸ readsPart_short (by decide) rfl)
  · exact hplain (hb ▸ readsPart_short (by decide) rfl)
  · exact hplain (hf ▸ readsPart_short (by decide) rfl)
  · refine ⟨.unit c.toNat, readsPart_unit (hexUnit?_digits c.toNat hcontrol), fun parts => ?_⟩
    rw [spell_unit_cons hcontrol, Char.ofNat_toNat]
  · exact hplain (readsPart_char hquote hslash (Nat.le_of_not_lt hcontrol))

/-- A quoted text spells itself. -/
theorem stringBody_flatMap_quoteChar (t rest : Text) :
    stringBody (t.flatMap quoteChar ++ '"' :: rest) = some (some t, rest) := by
  have hparts : ∃ parts,
      stringParts (t.flatMap quoteChar ++ '"' :: rest) = some (parts, rest) ∧
        spell parts = some t := by
    induction t with
    | nil => exact ⟨[], by simp [stringParts], rfl⟩
    | cons c t ih =>
        obtain ⟨parts, hread, hspell⟩ := ih
        obtain ⟨part, hpart, hchar⟩ := exists_part_quoteChar c
        refine ⟨part :: parts, ?_, by rw [hchar, hspell]; rfl⟩
        rw [List.flatMap_cons, List.append_assoc, hpart, hread]
        rfl
  obtain ⟨parts, hread, hspell⟩ := hparts
  rw [stringBody, hread, Option.map_some]
  simp only [hspell]

/-! ## Numbers -/

/-- Whether a text does not continue a number in front of it. -/
def EndsNumber (text : Text) : Prop :=
  ∀ c ∈ text.head?, c.isDigit = false ∧ c ≠ '.' ∧ c ≠ 'e' ∧ c ≠ 'E'

lemma endsNumber_newLine (level : Nat) (text : Text) : EndsNumber (newLine level ++ text) := by
  intro c hc
  obtain rfl : '\n' = c := by simpa [newLine] using hc
  decide

lemma endsNumber_comma (text : Text) : EndsNumber (',' :: text) := by
  intro c hc
  obtain rfl : ',' = c := by simpa using hc
  decide

lemma digits?_append {ds rest : Text} (hne : ds ≠ []) (hds : ∀ c ∈ ds, c.isDigit = true)
    (hrest : EndsNumber rest) : digits? (ds ++ rest) = some (ds, rest) := by
  have hleading : leading Char.isDigit (ds ++ rest) = (ds, rest) := by
    cases rest with
    | nil =>
        rw [List.append_nil, leading, List.takeWhile_eq_self_iff.mpr hds,
          List.dropWhile_eq_nil_iff.mpr hds]
    | cons c rest => exact leading_append_cons hds (hrest c rfl).1 rest
  obtain ⟨d, ds, rfl⟩ := List.exists_cons_of_ne_nil hne
  rw [digits?, hleading]

/-- **The decimal form of a number is read as that number.** -/
theorem number_decimal (n : Nat) {rest : Text} (hrest : EndsNumber rest) :
    number (decimal n ++ rest) = some (.natural n, rest) := by
  have hwhole : wholePart? (decimal n ++ rest) = some (decimal n, rest) := by
    have hzeros : ¬((decimal n).head? = some '0' ∧ 1 < (decimal n).length) := by
      rintro ⟨hhead, hlen⟩
      by_cases hn : n = 0
      · rw [hn, decimal_of_lt (by decide)] at hlen
        exact absurd hlen (by decide)
      · exact head?_decimal_ne_zero hn hhead
    rw [wholePart?, digits?_append (decimal_ne_nil n) (fun _ => isDigit_of_mem_decimal) hrest]
    exact if_neg hzeros
  have hend : (rest.head?.any fun c => c == '.' || c == 'e' || c == 'E') = false := by
    cases rest with
    | nil => rfl
    | cons c rest => simpa [and_assoc] using (hrest c rfl).2
  rw [number]
  · simp [hwhole, hend, valueOfDigits_decimal]
  · intro text heq
    obtain ⟨d, ds, hds⟩ := List.exists_cons_of_ne_nil (decimal_ne_nil n)
    have hdigit : d.isDigit = true := isDigit_of_mem_decimal (hds ▸ List.mem_cons_self)
    rw [hds, List.cons_append, List.cons.injEq] at heq
    rw [heq.1] at hdigit
    exact absurd hdigit (by decide)

/-! ## The printed form

These equations hold by definition, up to where the brackets of an append stand. -/

/-- A field with its value, as it is printed in a list of fields. -/
def prettyField (level : Nat) (field : Text × Json) : Text :=
  quote field.1 ++ ':' :: ' ' :: field.2.pretty level

lemma prettyItems_cons (level : Nat) (item : Json) (items : List Json) :
    prettyItems level (item :: items)
      = ',' :: (newLine level ++ (item.pretty level ++ prettyItems level items)) := by
  show ',' :: newLine level ++ item.pretty level ++ prettyItems level items = _
  simp

lemma prettyFields_cons (level : Nat) (field : Text × Json) (fields : List (Text × Json)) :
    prettyFields level (field :: fields)
      = ',' :: (newLine level ++ (prettyField level field ++ prettyFields level fields)) := by
  show ',' :: newLine level ++ quote field.1 ++ [':', ' '] ++ field.2.pretty level
    ++ prettyFields level fields = _
  simp [prettyField]

lemma pretty_array_cons (level : Nat) (item : Json) (items : List Json) :
    pretty level (.array (item :: items))
      = '[' :: (newLine (level + 1) ++ (item.pretty (level + 1) ++
          (prettyItems (level + 1) items ++ (newLine level ++ [']'])))) := by
  show '[' :: newLine (level + 1) ++ item.pretty (level + 1) ++ prettyItems (level + 1) items
    ++ newLine level ++ [']'] = _
  simp

lemma pretty_object_cons (level : Nat) (field : Text × Json) (fields : List (Text × Json)) :
    pretty level (.object (field :: fields))
      = '\x7b' :: (newLine (level + 1) ++ (prettyField (level + 1) field ++
          (prettyFields (level + 1) fields ++ (newLine level ++ ['\x7d'])))) := by
  show '\x7b' :: newLine (level + 1) ++ quote field.1 ++ [':', ' ']
    ++ field.2.pretty (level + 1) ++ prettyFields (level + 1) fields ++ newLine level
    ++ ['\x7d'] = _
  simp [prettyField]

/-! ## Lists of values -/

/-- Whether a reader does not mind white space in front of a value. -/
def SkipsSpace (read : Text → Option (Json × Text)) : Prop :=
  ∀ text, read (skipSpace text) = read text

/-- Whether a reader for values reads a printed value back and stops right behind it. -/
def ReadsBack (read : Text → Option (Json × Text)) (level : Nat) (json : Json) : Prop :=
  ∀ rest, EndsNumber rest → read (json.pretty level ++ rest) = some (json, rest)

section Lists

variable {read : Text → Option (Json × Text)} {level : Nat} (outer : Nat)

/-- Behind a value in a list no number goes on. -/
lemma endsNumber_prettyItems (items : List Json) (rest : Text) :
    EndsNumber (prettyItems level items ++ (newLine outer ++ rest)) := by
  cases items with
  | nil => exact endsNumber_newLine outer rest
  | cons item items => exact endsNumber_comma _

lemma endsNumber_prettyFields (fields : List (Text × Json)) (rest : Text) :
    EndsNumber (prettyFields level fields ++ (newLine outer ++ rest)) := by
  rcases fields with _ | ⟨⟨name, json⟩, fields⟩
  · exact endsNumber_newLine outer rest
  · exact endsNumber_comma _

lemma items_newLine (hskip : SkipsSpace read) (n : Nat) (text : Text) :
    items read n (newLine level ++ text) = items read n text := by
  cases n with
  | zero => rfl
  | succ n => rw [items, items, ← hskip, skipSpace_newLine, hskip]

lemma fields_newLine (n : Nat) (text : Text) :
    fields read n (newLine level ++ text) = fields read n text := by
  cases n with
  | zero => rfl
  | succ n => rw [fields, fields, skipSpace_newLine]

/-- **The items of an array are read back**, given enough turns of the loop. -/
theorem items_pretty (hskip : SkipsSpace read) {later : List Json}
    (hlater : ∀ item ∈ later, ReadsBack read level item) {first : Json}
    (hfirst : ReadsBack read level first) {n : Nat} (hn : later.length < n) (rest : Text) :
    items read n (first.pretty level ++
        (prettyItems level later ++ (newLine outer ++ ']' :: rest)))
      = some (first :: later, rest) := by
  induction later generalizing first n with
  | nil =>
      obtain ⟨n, rfl⟩ := Nat.exists_eq_add_one.mpr hn
      rw [items, hfirst _ (endsNumber_prettyItems outer [] _)]
      simp [show prettyItems level [] = [] from rfl, skipSpace_newLine,
        skipSpace_cons (show isSpace ']' = false by decide)]
  | cons item later ih =>
      obtain ⟨n, rfl⟩ := Nat.exists_eq_add_one.mpr (Nat.zero_lt_of_lt hn)
      obtain ⟨hitem, hlater⟩ := List.forall_mem_cons.mp hlater
      have hrest := ih hlater hitem (Nat.lt_of_succ_lt_succ hn)
      rw [items, hfirst _ (endsNumber_prettyItems outer (item :: later) _), prettyItems_cons]
      simp [skipSpace_cons (show isSpace ',' = false by decide), items_newLine hskip, hrest]

/-- A printed field behind its opening quote. -/
lemma prettyField_append (level : Nat) (field : Text × Json) (behind : Text) :
    prettyField level field ++ behind
      = '"' :: (field.1.flatMap quoteChar
          ++ '"' :: ':' :: ' ' :: (field.2.pretty level ++ behind)) := by
  simp [prettyField, quote]

/-- The value of a field is read behind the space that the printer puts there. -/
lemma ReadsBack.behind_space (hskip : SkipsSpace read) {json : Json}
    (hjson : ReadsBack read level json) {behind : Text} (hbehind : EndsNumber behind) :
    read (' ' :: (json.pretty level ++ behind)) = some (json, behind) := by
  have hspace : skipSpace (' ' :: (json.pretty level ++ behind))
      = skipSpace (json.pretty level ++ behind) := rfl
  rw [← hskip, hspace, hskip]
  exact hjson behind hbehind

section Field

variable (hskip : SkipsSpace read) {field : Text × Json} (hfield : ReadsBack read level field.2)
  {behind rest : Text} (hbehind : EndsNumber behind)

include hskip hfield hbehind

/-- The last turn of the loop over fields. -/
lemma fields_last (hrest : skipSpace behind = '\x7d' :: rest) (n : Nat) :
    fields read (n + 1) (prettyField level field ++ behind)
      = some ([(some field.1, field.2)], rest) := by
  rw [fields, prettyField_append, skipSpace_cons (by decide)]
  simp only [stringBody_flatMap_quoteChar, Option.bind_eq_bind, Option.bind_some,
    skipSpace_cons (show isSpace ':' = false by decide), skip?, if_true,
    hfield.behind_space hskip hbehind, hrest]
  rfl

/-- Any other turn. -/
lemma fields_more (hrest : skipSpace behind = ',' :: rest) {n : Nat}
    {later : List (Option Text × Json)} {stop : Text}
    (hlater : fields read n rest = some (later, stop)) :
    fields read (n + 1) (prettyField level field ++ behind)
      = some ((some field.1, field.2) :: later, stop) := by
  rw [fields, prettyField_append, skipSpace_cons (by decide)]
  simp only [stringBody_flatMap_quoteChar, Option.bind_eq_bind, Option.bind_some,
    skipSpace_cons (show isSpace ':' = false by decide), skip?, if_true,
    hfield.behind_space hskip hbehind, hrest, hlater]
  rfl

end Field

/-- **The fields of an object are read back**, given enough turns of the loop. -/
theorem fields_pretty (hskip : SkipsSpace read) {later : List (Text × Json)}
    (hlater : ∀ field ∈ later, ReadsBack read level field.2) {first : Text × Json}
    (hfirst : ReadsBack read level first.2) {n : Nat} (hn : later.length < n) (rest : Text) :
    fields read n (prettyField level first ++
        (prettyFields level later ++ (newLine outer ++ '\x7d' :: rest)))
      = some ((first :: later).map fun field => (some field.1, field.2), rest) := by
  induction later generalizing first n with
  | nil =>
      obtain ⟨n, rfl⟩ := Nat.exists_eq_add_one.mpr hn
      refine fields_last hskip hfirst (endsNumber_prettyFields outer [] _) ?_ n
      show skipSpace (newLine outer ++ '\x7d' :: rest) = '\x7d' :: rest
      rw [skipSpace_newLine, skipSpace_cons (by decide)]
  | cons field later ih =>
      obtain ⟨n, rfl⟩ := Nat.exists_eq_add_one.mpr (Nat.zero_lt_of_lt hn)
      obtain ⟨hfield, hlater⟩ := List.forall_mem_cons.mp hlater
      have hrest := ih hlater hfield (Nat.lt_of_succ_lt_succ hn)
      have hbehind : skipSpace (prettyFields level (field :: later)
          ++ (newLine outer ++ '\x7d' :: rest))
            = ',' :: (newLine level ++ (prettyField level field ++
              (prettyFields level later ++ (newLine outer ++ '\x7d' :: rest)))) := by
        rw [prettyFields_cons, List.cons_append, skipSpace_cons (by decide)]
        simp only [List.append_assoc]
      refine fields_more hskip hfirst (endsNumber_prettyFields outer (field :: later) _) hbehind ?_
      rw [fields_newLine, hrest]

end Lists

/-- Fields that all have their names are an object. -/
lemma ofFields_named (fields : List (Text × Json)) :
    ofFields (fields.map fun field => (some field.1, field.2)) = .object fields := by
  have hnamed : (fields.map fun field => (some field.1, field.2)).mapM
      (fun field : Option Text × Json => field.1.map fun name => (name, field.2))
        = some fields := by
    induction fields with
    | nil => rfl
    | cons field fields ih => simp [ih]
  rw [ofFields, hnamed]

/-! ## Values -/

/-- The values whose printed form says all there is about them: those that the printer does not have
to replace anywhere. -/
inductive Printable : Json → Prop
  | null : Printable .null
  | bool (b : Bool) : Printable (.bool b)
  | natural (n : Nat) : Printable (.natural n)
  | string (t : Text) : Printable (.string t)
  | array {items : List Json} (hitems : ∀ item ∈ items, Printable item) : Printable (.array items)
  | object {fields : List (Text × Json)} (hfields : ∀ field ∈ fields, Printable field.2) :
      Printable (.object fields)

lemma skipsSpace_value (depth : Nat) : SkipsSpace (value depth) := by
  intro text
  cases depth with
  | zero => rfl
  | succ depth => rw [value, value, show skipSpace (skipSpace text) = skipSpace text from
      List.dropWhile_idempotent isSpace text]

lemma isSpace_of_isDigit {c : Char} (hc : c.isDigit = true) : isSpace c = false := by
  rw [Bool.eq_false_iff]
  intro h
  simp only [isSpace, Bool.or_eq_true, beq_iff_eq] at h
  rcases h with ((rfl | rfl) | rfl) | rfl <;> exact absurd hc (by decide)

/-- A digit begins a number. -/
lemma value_of_isDigit {c : Char} (hc : c.isDigit = true) (depth : Nat) (text : Text) :
    value (depth + 1) (c :: text) = number (c :: text) := by
  have hne : ∀ {d : Char}, d.isDigit = false → ∀ {behind : Text}, c :: text ≠ d :: behind := by
    rintro d hd behind heq
    rw [(List.cons.inj heq).1, hd] at hc
    cases hc
  rw [value, skipSpace_cons (isSpace_of_isDigit hc)]
  split
  case h_7 => rfl
  all_goals next heq => exact absurd heq (hne (by decide))

lemma value_of_quote {text t rest : Text} (h : stringBody text = some (some t, rest))
    (depth : Nat) : value (depth + 1) ('"' :: text) = some (.string t, rest) := by
  rw [value, skipSpace_cons (by decide)]
  simp only [h]
  rfl

lemma value_of_bracket {text behind : Text} {c : Char} (htext : skipSpace text = c :: behind)
    (hc : c ≠ ']') (depth : Nat) :
    value (depth + 1) ('[' :: text)
      = (items (value depth) (c :: behind).length (c :: behind)).map fun (found, rest) =>
          (array found, rest) := by
  rw [value, skipSpace_cons (by decide)]
  simp only [htext]
  split
  · next heq => exact absurd (List.cons.inj heq).1 hc
  · rfl

lemma value_of_brace {text behind : Text} {c : Char} (htext : skipSpace text = c :: behind)
    (hc : c ≠ '\x7d') (depth : Nat) :
    value (depth + 1) ('\x7b' :: text)
      = (fields (value depth) (c :: behind).length (c :: behind)).map fun (found, rest) =>
          (ofFields found, rest) := by
  rw [value, skipSpace_cons (by decide)]
  simp only [htext]
  split
  · next heq => exact absurd (List.cons.inj heq).1 hc
  · rfl

/-- No printed value begins with white space or with the end of an array. -/
lemma exists_head_pretty (level : Nat) (json : Json) :
    ∃ c behind, json.pretty level = c :: behind ∧ isSpace c = false ∧ c ≠ ']' := by
  cases json with
  | null => exact ⟨'n', ['u', 'l', 'l'], rfl, by decide⟩
  | bool b =>
      cases b with
      | false => exact ⟨'f', ['a', 'l', 's', 'e'], rfl, by decide⟩
      | true => exact ⟨'t', ['r', 'u', 'e'], rfl, by decide⟩
  | natural n =>
      obtain ⟨d, ds, hds⟩ := List.exists_cons_of_ne_nil (decimal_ne_nil n)
      have hd : d.isDigit = true := isDigit_of_mem_decimal (hds ▸ List.mem_cons_self)
      refine ⟨d, ds, hds, isSpace_of_isDigit hd, ?_⟩
      rintro rfl
      exact absurd hd (by decide)
  | string t => exact ⟨'"', _, rfl, by decide⟩
  | array items =>
      cases items with
      | nil => exact ⟨'[', [']'], rfl, by decide⟩
      | cons item items => exact ⟨'[', _, pretty_array_cons level item items, by decide⟩
  | object fields =>
      cases fields with
      | nil => exact ⟨'\x7b', ['\x7d'], rfl, by decide⟩
      | cons field fields => exact ⟨'\x7b', _, pretty_object_cons level field fields, by decide⟩
  | other => exact ⟨'n', ['u', 'l', 'l'], rfl, by decide⟩

/-- Behind white space a printed value begins. -/
lemma skipSpace_pretty (level outer : Nat) (json : Json) (rest : Text) :
    skipSpace (newLine outer ++ (json.pretty level ++ rest)) = json.pretty level ++ rest := by
  obtain ⟨c, behind, hpretty, hspace, -⟩ := exists_head_pretty level json
  rw [skipSpace_newLine, hpretty, List.cons_append, skipSpace_cons hspace]

/-! ### One level of nesting -/

lemma readsBack_bool (depth level : Nat) (b : Bool) :
    ReadsBack (value (depth + 1)) level (.bool b) := by
  intro rest _
  cases b <;> rfl

lemma readsBack_natural (depth level n : Nat) :
    ReadsBack (value (depth + 1)) level (.natural n) := by
  intro rest hrest
  have hnumber := number_decimal n hrest
  obtain ⟨d, ds, hds⟩ := List.exists_cons_of_ne_nil (decimal_ne_nil n)
  have hd : d.isDigit = true := isDigit_of_mem_decimal (hds ▸ List.mem_cons_self)
  rw [hds, List.cons_append] at hnumber
  show value (depth + 1) (decimal n ++ rest) = _
  rw [hds, List.cons_append, value_of_isDigit hd, hnumber]

lemma readsBack_string (depth level : Nat) (t : Text) :
    ReadsBack (value (depth + 1)) level (.string t) := by
  intro rest _
  have htext : pretty level (.string t) ++ rest
      = '"' :: (t.flatMap quoteChar ++ '"' :: rest) := by
    show quote t ++ rest = _
    simp [quote]
  rw [htext]
  exact value_of_quote (stringBody_flatMap_quoteChar t rest) depth

lemma length_le_prettyItems (level : Nat) (items : List Json) :
    items.length ≤ (prettyItems level items).length := by
  induction items with
  | nil => exact Nat.zero_le _
  | cons item items ih =>
      rw [prettyItems_cons]
      simp only [List.length_cons, List.length_append]
      omega

lemma length_le_prettyFields (level : Nat) (fields : List (Text × Json)) :
    fields.length ≤ (prettyFields level fields).length := by
  induction fields with
  | nil => exact Nat.zero_le _
  | cons field fields ih =>
      rw [prettyFields_cons]
      simp only [List.length_cons, List.length_append]
      omega

/-- An array is read back one level above its items. -/
lemma readsBack_array {depth level : Nat} {items : List Json}
    (hitems : ∀ item ∈ items, ReadsBack (value depth) (level + 1) item) :
    ReadsBack (value (depth + 1)) level (.array items) := by
  intro rest _
  cases items with
  | nil => rfl
  | cons item items =>
      obtain ⟨hitem, hlater⟩ := List.forall_mem_cons.mp hitems
      obtain ⟨c, behind, hpretty, -, hc⟩ := exists_head_pretty (level + 1) item
      have hskip := skipSpace_pretty (level + 1) (level + 1) item
        (prettyItems (level + 1) items ++ (newLine level ++ ']' :: rest))
      have hturns : items.length < (item.pretty (level + 1) ++
          (prettyItems (level + 1) items ++ (newLine level ++ ']' :: rest))).length := by
        have hlength := length_le_prettyItems (level + 1) items
        simp only [List.length_append, List.length_cons]
        omega
      have hread := items_pretty level (skipsSpace_value depth) hlater hitem hturns rest
      rw [hpretty, List.cons_append] at hskip hread
      simp only [pretty_array_cons, List.cons_append, List.append_assoc, List.nil_append]
      rw [hpretty, List.cons_append, value_of_bracket hskip hc, hread]
      rfl

/-- An object is read back one level above the values of its fields. -/
lemma readsBack_object {depth level : Nat} {fields : List (Text × Json)}
    (hfields : ∀ field ∈ fields, ReadsBack (value depth) (level + 1) field.2) :
    ReadsBack (value (depth + 1)) level (.object fields) := by
  intro rest _
  cases fields with
  | nil => rfl
  | cons field fields =>
      obtain ⟨hfield, hlater⟩ := List.forall_mem_cons.mp hfields
      obtain ⟨behind, hquote⟩ : ∃ behind, prettyField (level + 1) field = '"' :: behind :=
        ⟨_, rfl⟩
      have hskip : skipSpace (newLine (level + 1) ++ (prettyField (level + 1) field ++
          (prettyFields (level + 1) fields ++ (newLine level ++ '\x7d' :: rest))))
            = prettyField (level + 1) field ++
              (prettyFields (level + 1) fields ++ (newLine level ++ '\x7d' :: rest)) := by
        rw [skipSpace_newLine, hquote, List.cons_append, skipSpace_cons (by decide)]
      have hturns : fields.length < (prettyField (level + 1) field ++
          (prettyFields (level + 1) fields ++ (newLine level ++ '\x7d' :: rest))).length := by
        have hlength := length_le_prettyFields (level + 1) fields
        simp only [List.length_append, List.length_cons]
        omega
      have hread := fields_pretty level (skipsSpace_value depth) hlater hfield hturns rest
      rw [hquote, List.cons_append] at hskip hread
      simp only [pretty_object_cons, List.cons_append, List.append_assoc, List.nil_append]
      rw [hquote, List.cons_append, value_of_brace hskip (by decide), hread]
      simp only [Option.map_some, ofFields_named]

/-! ### Any nesting -/

lemma length_pretty_pos (level : Nat) (json : Json) : 0 < (json.pretty level).length := by
  obtain ⟨c, behind, hpretty, -⟩ := exists_head_pretty level json
  simp [hpretty]

lemma length_pretty_le_prettyItems (level : Nat) {items : List Json} {item : Json}
    (h : item ∈ items) : (item.pretty level).length ≤ (prettyItems level items).length := by
  induction items with
  | nil => cases h
  | cons first items ih =>
      rw [prettyItems_cons]
      simp only [List.length_cons, List.length_append]
      rcases List.mem_cons.mp h with rfl | h
      · omega
      · have hlength := ih h
        omega

lemma length_pretty_le_prettyFields (level : Nat) {fields : List (Text × Json)}
    {field : Text × Json} (h : field ∈ fields) :
    (field.2.pretty level).length ≤ (prettyFields level fields).length := by
  induction fields with
  | nil => cases h
  | cons first fields ih =>
      rw [prettyFields_cons]
      simp only [List.length_cons, List.length_append, prettyField]
      rcases List.mem_cons.mp h with rfl | h
      · omega
      · have hlength := ih h
        omega

/-- An item is printed shorter than its array. -/
lemma length_pretty_lt_array (level : Nat) {items : List Json} {item : Json} (h : item ∈ items) :
    (item.pretty (level + 1)).length < (pretty level (.array items)).length := by
  cases items with
  | nil => cases h
  | cons first items =>
      simp only [pretty_array_cons, List.length_cons, List.length_append]
      rcases List.mem_cons.mp h with rfl | h
      · omega
      · have hlength := length_pretty_le_prettyItems (level + 1) h
        omega

/-- The value of a field is printed shorter than its object. -/
lemma length_pretty_lt_object (level : Nat) {fields : List (Text × Json)} {field : Text × Json}
    (h : field ∈ fields) :
    (field.2.pretty (level + 1)).length < (pretty level (.object fields)).length := by
  cases fields with
  | nil => cases h
  | cons first fields =>
      simp only [pretty_object_cons, List.length_cons, List.length_append, prettyField]
      rcases List.mem_cons.mp h with rfl | h
      · omega
      · have hlength := length_pretty_le_prettyFields (level + 1) h
        omega

/-- **A printed value is read back**, at any level and with any text behind it that does not go on
with a number, if the depth is at least the length of the printed form. -/
theorem readsBack_value {json : Json} (hjson : Printable json) {level depth : Nat}
    (hdepth : (json.pretty level).length ≤ depth) : ReadsBack (value depth) level json := by
  have hsucc : ∀ {value : Json} {m n : Nat}, (value.pretty m).length ≤ n → ∃ k, n = k + 1 := by
    intro value m n h
    exact Nat.exists_eq_add_one.mpr (Nat.lt_of_lt_of_le (length_pretty_pos m value) h)
  induction hjson generalizing level depth with
  | null =>
      obtain ⟨depth, rfl⟩ := hsucc hdepth
      intro rest _
      rfl
  | bool b =>
      obtain ⟨depth, rfl⟩ := hsucc hdepth
      exact readsBack_bool depth level b
  | natural n =>
      obtain ⟨depth, rfl⟩ := hsucc hdepth
      exact readsBack_natural depth level n
  | string t =>
      obtain ⟨depth, rfl⟩ := hsucc hdepth
      exact readsBack_string depth level t
  | array hitems ih =>
      obtain ⟨depth, rfl⟩ := hsucc hdepth
      refine readsBack_array fun item hitem => ih item hitem ?_
      have hlt := length_pretty_lt_array level hitem
      omega
  | object hfields ih =>
      obtain ⟨depth, rfl⟩ := hsucc hdepth
      refine readsBack_object fun field hfield => ih field hfield ?_
      have hlt := length_pretty_lt_object level hfield
      omega

/-- **Parsing undoes printing**, with a line break at the end of the printed text. -/
theorem parse?_pretty {json : Json} (hjson : Printable json) :
    parse? (json.pretty 0 ++ ['\n']) = some json := by
  have hdepth : (json.pretty 0).length ≤ (json.pretty 0 ++ ['\n']).length + 1 := by
    simp only [List.length_append]
    omega
  rw [parse?, readsBack_value hjson hdepth ['\n'] (endsNumber_newLine 0 [])]
  rfl

end Json

end LuaUnveil
