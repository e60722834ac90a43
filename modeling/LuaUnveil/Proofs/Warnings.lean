import LuaUnveil.Proofs.Insensitivity
import LuaUnveil.Proofs.Places
import LuaUnveil.Session.Outcome

/-!
# What is reported about undecoded escapes

Warnings are for the user only.  This file says that asking for them changes nothing else, and which
of them are given.

**Two runs.**  `Session.unreported` forgets the warnings of a session and that they were asked for.
Every pass does the same to the text and to the tables whether this is forgotten or not
(`Pass.run_unreported`), and so does every list of passes (`Pass.runAll_unreported`).

**The messages.**  Only the decoding of strings warns, first about the hexadecimal escapes of the
script and then about the decimal ones of what the first walk has left.  Messages of the two kinds
never agree, and within a kind a message tells its escape (`HexEscape.warning_injective`), so that
leaving out repeated messages is leaving out repeated escapes.
-/

namespace LuaUnveil

/-! ## Messages -/

/-- The hexadecimal escapes of a text that stand for no letter, digit or space, place by place. -/
def HexEscape.refusedEverywhere (text : Text) : List Text :=
  ((pattern.everywhere text).filter fun f => ¬(f.value.isAlphanum ∨ f.value = ' ')).map (·.covered)

/-- The decimal escapes of a text with a value outside of printable ASCII, place by place. -/
def DecimalEscape.refusedEverywhere (text : Text) : List Text :=
  ((pattern.everywhere text).filter fun f => f.value < 32 ∨ 126 < f.value).map (·.covered)

lemma HexEscape.refused_eq (text : Text) : refused text = refusedEverywhere text := by
  rw [refused, standsApart.finds_eq_everywhere, refusedEverywhere]
  congr 2
  funext f
  rw [Bool.eq_iff_iff]
  simp [accepts]

lemma DecimalEscape.refused_eq (text : Text) : refused text = refusedEverywhere text := by
  rw [refused, standsApart.finds_eq_everywhere, refusedEverywhere]
  congr 2
  funext f
  rw [Bool.eq_iff_iff]
  simp only [accepts, Bool.not_eq_true', Bool.and_eq_false_iff, decide_eq_false_iff_not, not_le,
    decide_eq_true_eq]

lemma HexEscape.warning_injective : Function.Injective HexEscape.warning :=
  fun _ _ h => List.append_cancel_left (List.append_cancel_right h)

lemma DecimalEscape.warning_injective : Function.Injective DecimalEscape.warning :=
  fun _ _ h => List.append_cancel_left (List.append_cancel_right h)

/-- The sixth letter tells the two kinds of messages apart. -/
lemma HexEscape.warning_ne (e e' : Text) : HexEscape.warning e ≠ DecimalEscape.warning e' := by
  have hcut : ∀ {front : Text} (middle back : Text), 6 ≤ front.length →
      (front ++ middle ++ back).take 6 = front.take 6 := by
    intro front middle back hlong
    rw [List.append_assoc, List.take_append_of_le_length hlong]
  intro h
  have hsixth : "Left hex escape ".toList.take 6 = "Left numeric escape ".toList.take 6 :=
    (hcut e _ (by decide)).symm.trans ((congrArg (List.take 6) h).trans (hcut e' _ (by decide)))
  exact absurd hsixth (by decide)

lemma foldl_addNew_nil (items : List Text) : items.foldl addNew [] = items.eraseDups := by
  simpa using foldl_addNew items []

/-- Where no two items become the same, repeated ones can be left out before or after. -/
lemma map_eraseDups {f : Text → Text} (hf : Function.Injective f) (items : List Text) :
    items.eraseDups.map f = (items.map f).eraseDups := by
  have hstep : ∀ (l : List Text) (x : Text), addNew (l.map f) (f x) = (addNew l x).map f := by
    intro l x
    by_cases h : x ∈ l
    · simp [addNew, h, List.mem_map_of_mem h]
    · simp [addNew, h, hf.eq_iff]
  rw [← foldl_addNew_nil, ← foldl_addNew_nil, List.foldl_map]
  exact (List.foldl_hom (List.map f) hstep).symm

/-- Repeated messages of two kinds are left out of each kind on its own. -/
lemma eraseDups_map_append {f g : Text → Text} (hf : Function.Injective f)
    (hg : Function.Injective g) (hne : ∀ a b, f a ≠ g b) (as bs : List Text) :
    (as.map f ++ bs.map g).eraseDups = as.eraseDups.map f ++ bs.eraseDups.map g := by
  have hapart : (bs.map g).removeAll (as.map f) = bs.map g := by
    refine List.filter_eq_self.mpr ?_
    intro m hm
    obtain ⟨b, -, rfl⟩ := List.mem_map.mp hm
    simp [hne]
  rw [List.eraseDups_append, hapart, map_eraseDups hf, map_eraseDups hg]

/-! ## Two runs -/

namespace Session

/-- A session without its warnings, in which nothing is to be reported. -/
def unreported (s : Session) : Session :=
  { s with warnings := [], options := { s.options with reportUndecoded := false } }

lemma warnUndecoded_unreported (s : Session) (messages : List Text) :
    s.unreported.warnUndecoded messages = s.unreported := rfl

lemma unreported_warnUndecoded (s : Session) (messages : List Text) :
    (s.warnUndecoded messages).unreported = s.unreported := by
  rw [warnUndecoded_eq]
  rfl

lemma decodeHex_unreported (s : Session) (text : Text) :
    s.unreported.decodeHex text = ((s.decodeHex text).1, (s.decodeHex text).2.unreported) := by
  rw [decodeHex, decodeHex, warnUndecoded_unreported, unreported_warnUndecoded]

lemma decodeDecimal_unreported (s : Session) (text : Text) :
    s.unreported.decodeDecimal text
      = ((s.decodeDecimal text).1, (s.decodeDecimal text).2.unreported) := by
  simp only [decodeDecimal, unreported_warnUndecoded]
  rfl

lemma decodeStrings_unreported (s : Session) (text : Text) :
    s.unreported.decodeStrings text
      = ((s.decodeStrings text).1, (s.decodeStrings text).2.unreported) := by
  simp only [decodeStrings, decodeHex_unreported, decodeDecimal_unreported]

end Session

/-- **A pass does not look at what is reported.** -/
theorem Pass.run_unreported [SearchEngine] (pass : Pass) (s : Session) (text : Text) :
    pass.run s.unreported text = ((pass.run s text).1, (pass.run s text).2.unreported) := by
  cases pass with
  | decodeStrings => exact s.decodeStrings_unreported text
  | decodeHex => exact s.decodeHex_unreported text
  | decodeDecimal => exact s.decodeDecimal_unreported text
  | renameIdentifiers | renameFunctions | formatCode | simplifyExpressions | removeDeadCode
  | finalFormat | foldLiterals | simplifyOnce | simplifyFully => rfl

/-- Nor do passes one after the other. -/
theorem Pass.runAll_unreported [SearchEngine] (passes : List Pass) (s : Session) (text : Text) :
    Pass.runAll passes s.unreported text
      = ((Pass.runAll passes s text).1, (Pass.runAll passes s text).2.unreported) := by
  induction passes generalizing s text with
  | nil => rfl
  | cons pass passes ih =>
      rw [Pass.runAll_cons, Pass.runAll_cons, run_unreported, ih]

/-- The outcome of a run that reports nothing is that of one which does, less its warnings. -/
theorem Outcome.ofPasses_unreported [SearchEngine] (passes : List Pass) (options : Options)
    (source : Text) :
    Outcome.ofPasses passes { options with reportUndecoded := false } source
      = { Outcome.ofPasses passes options source with warnings := [] } := by
  have hruns := Pass.runAll_unreported passes (.start options) source
  have hstart : (Session.start options).unreported
      = .start { options with reportUndecoded := false } := rfl
  rw [hstart] at hruns
  simp only [ofPasses, hruns]
  rfl

/-! ## What is reported -/

lemma Session.addMessage_eq_addNew : addMessage = addNew := by
  funext messages message
  simp [addMessage, addNew]

/-- The warnings after the strings are decoded: none that were not asked for, and otherwise those
about the first walk and then those about the second. -/
lemma Session.warnings_decodeStrings (s : Session) (text : Text) :
    (s.decodeStrings text).2.warnings =
      if s.options.reportUndecoded then
        ((HexEscape.refused text).map HexEscape.warning ++
          (DecimalEscape.refused (HexEscape.decode text)).map DecimalEscape.warning).foldl
            addNew s.warnings
      else s.warnings := by
  simp only [decodeStrings, decodeHex, decodeDecimal, warnUndecoded_eq, addMessage_eq_addNew]
  split_ifs
  · rw [List.foldl_append]
  · rfl

/-- Of the standard passes only the first one warns. -/
lemma Pass.warnings_runAll_standard [SearchEngine] (s : Session) (text : Text) :
    (Pass.runAll Pass.standard s text).2.warnings = (s.decodeStrings text).2.warnings := rfl

/-- **Warnings are exact, and asking for them touches nothing else.**  The code and the figures are
the same with and without them.  There are none if they are not asked for; otherwise there is one
for each refused hexadecimal escape of the script, and then one for each refused decimal escape of
what decoding the hexadecimal ones leaves, in the order in which they first stand there. -/
theorem deobfuscate_warnings_exact [SearchEngine] (full : Bool) (source : Text) :
    let quiet := deobfuscate { simplifyFully := full, reportUndecoded := false } source
    let told := deobfuscate { simplifyFully := full, reportUndecoded := true } source
    told.code = quiet.code ∧ told.statistics = quiet.statistics ∧ quiet.warnings = [] ∧
      told.warnings =
        (HexEscape.refusedEverywhere source).eraseDups.map HexEscape.warning ++
          (DecimalEscape.refusedEverywhere (HexEscape.decode source)).eraseDups.map
            DecimalEscape.warning := by
  intro quiet told
  have hquiet : quiet = { told with warnings := [] } :=
    Outcome.ofPasses_unreported Pass.standard ⟨full, true⟩ source
  refine ⟨by rw [hquiet], by rw [hquiet], by rw [hquiet], ?_⟩
  show (Pass.runAll Pass.standard (.start ⟨full, true⟩) source).2.warnings = _
  rw [Pass.warnings_runAll_standard, Session.warnings_decodeStrings,
    if_pos (show (Session.start ⟨full, true⟩).options.reportUndecoded = true from rfl),
    show (Session.start ⟨full, true⟩).warnings = [] from rfl, foldl_addNew_nil,
    eraseDups_map_append HexEscape.warning_injective DecimalEscape.warning_injective
      HexEscape.warning_ne, HexEscape.refused_eq, DecimalEscape.refused_eq]

end LuaUnveil
