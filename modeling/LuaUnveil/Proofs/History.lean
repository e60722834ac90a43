import LuaUnveil.Proofs.Escape
import LuaUnveil.Proofs.Table
import LuaUnveil.Session.Pass

/-!
# Sessions and their histories

A session goes through a history of passes over any texts, changes of the options, and warnings.
This file says what one step can do to a session and what therefore holds after every history.

**One step.**  `Session.Grows` is all that a step does to the tables and the warnings: generated
words are assigned, declared names are assigned, spelled escapes are recorded, messages are added.
`Session.grows_step` is the only place where the passes are looked at one by one.

**Every history.**  `Session.Sound` holds at the start and is kept by growth, so it holds of every
session `Session.after` a history (`Session.sound_after`).  Growth never moves what is there
(`Session.Grows.extends`).
-/

namespace LuaUnveil

/-! ## What the passes collect -/

/-- A backslash and one to three decimal digits, which spell the code of a printable character,
together with that character. -/
def DecimalEscape.IsSpelled (e : Text × Char) : Prop :=
  ∃ digits : Text, e.1 = '\\' :: digits ∧ 1 ≤ digits.length ∧ digits.length ≤ 3 ∧
    (∀ c ∈ digits, c.isDigit = true) ∧ 32 ≤ valueOfDigits 10 digits ∧
    valueOfDigits 10 digits ≤ 126 ∧ e.2.toNat = valueOfDigits 10 digits

lemma DecimalEscape.isSpelled_of_mem_decoded {text : Text} {e : Text × Char}
    (h : e ∈ DecimalEscape.decoded text) : DecimalEscape.IsSpelled e := by
  obtain ⟨f, hf, rfl⟩ := List.mem_map.mp h
  obtain ⟨hfind, haccept⟩ := List.mem_filter.mp hf
  obtain ⟨before, t, hask⟩ := exists_of_mem_finds hfind
  obtain ⟨digits, hcovered, hpos, hle, hdigits, hvalue⟩ := DecimalEscape.spelling_of_pattern hask
  simp only [DecimalEscape.accepts, Bool.and_eq_true, decide_eq_true_eq] at haccept
  refine ⟨digits, hcovered, hpos, hle, hdigits, hvalue ▸ haccept.1, hvalue ▸ haccept.2, ?_⟩
  have hvalid : f.value.isValidChar := Or.inl (by omega)
  rw [← hvalue, Char.ofNat, dif_pos hvalid]
  rfl

/-- A declared name is a letter with at least four hexadecimal digits behind it. -/
lemma isLetterAndRun_of_mem_declaredFunctions {text w : Text} (h : w ∈ declaredFunctions text) :
    Shape.isLetterAndRun isHexDigit 4 w = true := by
  obtain ⟨f, hf, rfl⟩ := List.mem_map.mp h
  obtain ⟨before, t, hask⟩ := exists_of_mem_finds hf
  simp only [generatedDeclaration, leading, Option.bind_eq_bind, Option.bind_eq_some_iff] at hask
  obtain ⟨rest, _, _, _, hask⟩ := hask
  split at hask
  · next c rest heq =>
      simp only [Option.bind_eq_some_iff] at hask
      obtain ⟨_, hc, _, hlen, _, _, hask⟩ := hask
      replace hc : c.isAlpha = true := (Option.guard_eq_some' _).mp hc
      replace hlen : 4 ≤ (rest.takeWhile isHexDigit).length := (Option.guard_eq_some' _).mp hlen
      obtain rfl := Option.some.inj hask
      exact Shape.isLetterAndRun_takeWhile hc hlen
  · cases hask

/-! ## Histories -/

/-- What can happen to a session: a pass over a text, other options, a warning. -/
inductive Step where
  | pass (pass : Pass) (text : Text)
  | options (options : Options)
  | warn (message : Text)
  deriving Repr, DecidableEq

namespace Session

/-- The session after a step. -/
def step [SearchEngine] (session : Session) : Step → Session
  | .pass pass text => (pass.run session text).2
  | .options options => { session with options := options }
  | .warn message => session.warn message

/-- The session after a history, from the start of a script on. -/
def after [SearchEngine] (options : Options) (history : List Step) : Session :=
  history.foldl step (start options)

/-! ## What one step does -/

/-- Add a message at the end, unless it is there already. -/
def addMessage (messages : List Text) (message : Text) : List Text :=
  if messages.contains message then messages else messages ++ [message]

lemma warnings_warn (session : Session) (message : Text) :
    (session.warn message).warnings = addMessage session.warnings message := by
  unfold warn addMessage
  split_ifs <;> rfl

/-- A warning touches nothing but the warnings. -/
lemma warn_eq (session : Session) (message : Text) :
    session.warn message = { session with warnings := (session.warn message).warnings } := by
  unfold warn
  split_ifs <;> rfl

/-- Warnings about what is left undecoded touch nothing but the warnings, and not even those unless
the options ask for it. -/
lemma warnUndecoded_eq (session : Session) (messages : List Text) :
    session.warnUndecoded messages =
      { session with
        warnings := if session.options.reportUndecoded then
          messages.foldl addMessage session.warnings else session.warnings } := by
  unfold warnUndecoded
  split_ifs with hreport
  · clear hreport
    induction messages generalizing session with
    | nil => rfl
    | cons message messages ih =>
        rw [List.foldl_cons, List.foldl_cons, ih, ← warnings_warn, warn_eq session message]
  · rfl

/-- All that a step does to the tables and to the warnings of a session. -/
structure Grows (s s' : Session) : Prop where
  identifiers : ∃ tokens, (∀ t ∈ tokens, isGenerated t = true) ∧
    s'.identifiers = s.identifiers.assignAll tokens
  functions : ∃ tokens, (∀ t ∈ tokens, Shape.isLetterAndRun isHexDigit 4 t = true) ∧
    s'.functions = s.functions.assignAll tokens
  escapes : ∃ escapes, (∀ e ∈ escapes, DecimalEscape.IsSpelled e) ∧
    s'.escapes = s.escapes.recordAll escapes
  warnings : ∃ messages : List Text, s'.warnings = messages.foldl addMessage s.warnings

namespace Grows

lemma of_same_tables {s s' : Session} (hi : s'.identifiers = s.identifiers)
    (hf : s'.functions = s.functions) (he : s'.escapes = s.escapes)
    (hw : ∃ messages : List Text, s'.warnings = messages.foldl addMessage s.warnings) :
    Grows s s' :=
  ⟨⟨[], by simp, hi⟩, ⟨[], by simp, hf⟩, ⟨[], by simp, he⟩, hw⟩

lemma refl (s : Session) : Grows s s := of_same_tables rfl rfl rfl ⟨[], rfl⟩

lemma trans {s t u : Session} (h : Grows s t) (h' : Grows t u) : Grows s u := by
  obtain ⟨is, his, hi⟩ := h.identifiers
  obtain ⟨is', his', hi'⟩ := h'.identifiers
  obtain ⟨fs, hfs, hf⟩ := h.functions
  obtain ⟨fs', hfs', hf'⟩ := h'.functions
  obtain ⟨es, hes, he⟩ := h.escapes
  obtain ⟨es', hes', he'⟩ := h'.escapes
  obtain ⟨ms, hm⟩ := h.warnings
  obtain ⟨ms', hm'⟩ := h'.warnings
  refine ⟨⟨is ++ is', ?_, ?_⟩, ⟨fs ++ fs', ?_, ?_⟩, ⟨es ++ es', ?_, ?_⟩, ⟨ms ++ ms', ?_⟩⟩
  · exact fun t ht => (List.mem_append.mp ht).elim (his t) (his' t)
  · rw [hi', hi, RenameTable.assignAll, RenameTable.assignAll, RenameTable.assignAll,
      List.foldl_append]
  · exact fun t ht => (List.mem_append.mp ht).elim (hfs t) (hfs' t)
  · rw [hf', hf, RenameTable.assignAll, RenameTable.assignAll, RenameTable.assignAll,
      List.foldl_append]
  · exact fun e ht => (List.mem_append.mp ht).elim (hes e) (hes' e)
  · rw [he', he, EscapeTable.recordAll, EscapeTable.recordAll, EscapeTable.recordAll,
      List.foldl_append]
  · rw [hm', hm, List.foldl_append]

end Grows

lemma grows_warn (s : Session) (message : Text) : Grows s (s.warn message) := by
  rw [warn_eq]
  exact .of_same_tables rfl rfl rfl ⟨[message], warnings_warn s message⟩

lemma grows_warnUndecoded (s : Session) (messages : List Text) :
    Grows s (s.warnUndecoded messages) := by
  rw [warnUndecoded_eq]
  refine .of_same_tables rfl rfl rfl ?_
  split_ifs
  · exact ⟨messages, rfl⟩
  · exact ⟨[], rfl⟩

lemma grows_decodeHex (s : Session) (text : Text) : Grows s (s.decodeHex text).2 :=
  grows_warnUndecoded s _

lemma grows_decodeDecimal (s : Session) (text : Text) : Grows s (s.decodeDecimal text).2 := by
  refine Grows.trans ?_ (grows_warnUndecoded _ _)
  exact ⟨⟨[], by simp, rfl⟩, ⟨[], by simp, rfl⟩,
    ⟨_, fun _ => DecimalEscape.isSpelled_of_mem_decoded, rfl⟩, ⟨[], rfl⟩⟩

lemma grows_renameIdentifiers [SearchEngine] (s : Session) (text : Text) :
    Grows s (s.renameIdentifiers text).2 :=
  ⟨⟨_, fun _ ht => (mem_generatedNames.mp ht).2, rfl⟩, ⟨[], by simp, rfl⟩, ⟨[], by simp, rfl⟩,
    ⟨[], rfl⟩⟩

lemma grows_renameFunctions [SearchEngine] (s : Session) (text : Text) :
    Grows s (s.renameFunctions text).2 :=
  ⟨⟨[], by simp, rfl⟩, ⟨_, fun _ => isLetterAndRun_of_mem_declaredFunctions, rfl⟩,
    ⟨[], by simp, rfl⟩, ⟨[], rfl⟩⟩

/-- **Every step is growth.** -/
theorem grows_step [SearchEngine] (s : Session) (a : Step) : Grows s (s.step a) := by
  cases a with
  | pass pass text =>
      cases pass with
      | decodeStrings =>
          exact (grows_decodeHex s text).trans (grows_decodeDecimal _ (s.decodeHex text).1)
      | decodeHex => exact grows_decodeHex s text
      | decodeDecimal => exact grows_decodeDecimal s text
      | renameIdentifiers => exact grows_renameIdentifiers s text
      | renameFunctions => exact grows_renameFunctions s text
      | formatCode | simplifyExpressions | removeDeadCode | finalFormat | foldLiterals
      | simplifyOnce | simplifyFully => exact .refl s
  | options options => exact .of_same_tables rfl rfl rfl ⟨[], rfl⟩
  | warn message => exact grows_warn s message

/-! ## What growth keeps -/

/-- Everything that was there is still there, in its place, in front of what is new. -/
structure Extends (s s' : Session) : Prop where
  identifiers : s.identifiers.entries <+: s'.identifiers.entries
  functions : s.functions.entries <+: s'.functions.entries
  escapes : s.escapes.entries <+: s'.escapes.entries
  warnings : s.warnings <+: s'.warnings

/-- What holds of the tables and the warnings of every session. -/
structure Sound (s : Session) : Prop where
  identifiers_pool : s.identifiers.pool = identifierNames
  functions_pool : s.functions.pool = functionNames
  identifiers_numbered : s.identifiers.Numbered
  functions_numbered : s.functions.Numbered
  identifiers_generated : ∀ t ∈ s.identifiers.originals, isGenerated t = true
  functions_generated : ∀ t ∈ s.functions.originals, Shape.isLetterAndRun isHexDigit 4 t = true
  escapes_nodup : (s.escapes.entries.map Prod.fst).Nodup
  escapes_spelled : ∀ e ∈ s.escapes.entries, DecimalEscape.IsSpelled e
  warnings_nodup : s.warnings.Nodup

lemma prefix_addMessage (messages : List Text) (message : Text) :
    messages <+: addMessage messages message := by
  unfold addMessage
  split_ifs
  · exact List.prefix_refl _
  · exact List.prefix_append _ _

lemma nodup_addMessage {messages : List Text} (h : messages.Nodup) (message : Text) :
    (addMessage messages message).Nodup := by
  unfold addMessage
  split_ifs with hmem
  · exact h
  · rw [List.nodup_append]
    refine ⟨h, by simp, ?_⟩
    rintro a ha b hb rfl
    obtain rfl : a = message := by simpa using hb
    exact hmem (by simpa using ha)

lemma prefix_addMessages (more : List Text) :
    ∀ messages : List Text, messages <+: more.foldl addMessage messages := by
  induction more with
  | nil => exact fun messages => List.prefix_refl messages
  | cons m more ih =>
      intro messages
      exact (prefix_addMessage messages m).trans (ih _)

lemma nodup_addMessages (more : List Text) :
    ∀ {messages : List Text}, messages.Nodup → (more.foldl addMessage messages).Nodup := by
  induction more with
  | nil => exact fun h => h
  | cons m more ih => exact fun h => ih (nodup_addMessage h m)

theorem Grows.extends {s s' : Session} (h : Grows s s') : Extends s s' := by
  obtain ⟨is, -, hi⟩ := h.identifiers
  obtain ⟨fs, -, hf⟩ := h.functions
  obtain ⟨es, -, he⟩ := h.escapes
  obtain ⟨ms, hm⟩ := h.warnings
  refine ⟨?_, ?_, ?_, ?_⟩
  · rw [hi]; exact RenameTable.prefix_assignAll is _
  · rw [hf]; exact RenameTable.prefix_assignAll fs _
  · rw [he]; exact EscapeTable.prefix_recordAll es _
  · rw [hm]; exact prefix_addMessages ms _

theorem Sound.of_grows {s s' : Session} (hs : Sound s) (h : Grows s s') : Sound s' := by
  obtain ⟨is, his, hi⟩ := h.identifiers
  obtain ⟨fs, hfs, hf⟩ := h.functions
  obtain ⟨es, hes, he⟩ := h.escapes
  obtain ⟨ms, hm⟩ := h.warnings
  constructor
  case identifiers_pool => rw [hi, RenameTable.pool_assignAll, hs.identifiers_pool]
  case functions_pool => rw [hf, RenameTable.pool_assignAll, hs.functions_pool]
  case identifiers_numbered => rw [hi]; exact hs.identifiers_numbered.assignAll is
  case functions_numbered => rw [hf]; exact hs.functions_numbered.assignAll fs
  case identifiers_generated =>
    intro t ht
    rw [hi, RenameTable.mem_originals_assignAll] at ht
    exact ht.elim (hs.identifiers_generated t) (his t)
  case functions_generated =>
    intro t ht
    rw [hf, RenameTable.mem_originals_assignAll] at ht
    exact ht.elim (hs.functions_generated t) (hfs t)
  case escapes_nodup => rw [he]; exact EscapeTable.nodup_recordAll es hs.escapes_nodup
  case escapes_spelled =>
    intro e hmem
    rw [he] at hmem
    exact (EscapeTable.mem_recordAll es hmem).elim (hs.escapes_spelled e) (hes e)
  case warnings_nodup => rw [hm]; exact nodup_addMessages ms hs.warnings_nodup

/-! ## Every history -/

lemma sound_start (options : Options) : Sound (start options) where
  identifiers_pool := rfl
  functions_pool := rfl
  identifiers_numbered := ⟨List.nodup_nil, rfl⟩
  functions_numbered := ⟨List.nodup_nil, rfl⟩
  identifiers_generated := fun t ht => by cases ht
  functions_generated := fun t ht => by cases ht
  escapes_nodup := List.nodup_nil
  escapes_spelled := fun e he => by cases he
  warnings_nodup := List.nodup_nil

lemma after_append_singleton [SearchEngine] (options : Options) (history : List Step) (a : Step) :
    after options (history ++ [a]) = (after options history).step a := by
  simp [after]

lemma sound_after [SearchEngine] (options : Options) (history : List Step) :
    Sound (after options history) := by
  induction history using List.reverseRecOn with
  | nil => exact sound_start options
  | append_singleton history a ih =>
      rw [after_append_singleton]
      exact ih.of_grows (grows_step _ a)

namespace Sound

variable {s : Session} (hs : Sound s)

include hs

lemma nodup_identifier_names : s.identifiers.replacements.Nodup := by
  rw [hs.identifiers_numbered.names, hs.identifiers_pool]
  exact List.nodup_range.map identifierNames_readable.nameAt_injective

lemma nodup_function_names : s.functions.replacements.Nodup := by
  rw [hs.functions_numbered.names, hs.functions_pool]
  exact List.nodup_range.map functionNames_readable.nameAt_injective

/-- An identifier and a function never share a name. -/
lemma identifier_name_ne {v w : Text} (hv : v ∈ s.identifiers.replacements)
    (hw : w ∈ s.functions.replacements) : v ≠ w := by
  obtain ⟨i, rfl⟩ := hs.identifiers_numbered.exists_nameAt hv
  obtain ⟨j, rfl⟩ := hs.functions_numbered.exists_nameAt hw
  rw [hs.identifiers_pool, hs.functions_pool]
  exact identifierNames_ne_functionNames i j

lemma nodup_all_names : (s.identifiers.replacements ++ s.functions.replacements).Nodup := by
  rw [List.nodup_append]
  exact ⟨hs.nodup_identifier_names, hs.nodup_function_names,
    fun v hv w hw => hs.identifier_name_ne hv hw⟩

end Sound

/-- **The invariant of every history.**  Whatever passes have gone over whatever texts, in whatever
order, and however the options were changed and warnings given in between: the tables are numbered
from their pools, all new names of both tables are distinct, the escape table holds each spelling
once with the character that it spells, no warning is repeated, and whatever happens next leaves all
of it in place. -/
theorem history_invariant [SearchEngine] (options : Options) (history : List Step) :
    Sound (after options history) ∧
      ((after options history).identifiers.replacements
        ++ (after options history).functions.replacements).Nodup ∧
      ∀ next : Step, Extends (after options history) ((after options history).step next) :=
  ⟨sound_after options history, (sound_after options history).nodup_all_names,
    fun next => (grows_step _ next).extends⟩

end Session

end LuaUnveil
