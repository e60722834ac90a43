import LuaUnveil.Proofs.Statistics

/-!
# Naming is finished in one run

A naming pass looks for its tokens in the text that comes to it and puts in the new names
afterwards.  So a new name, or a new name next to what was there before, might look like something
that should have been named.  This file says that it never does.  What is left is what the search
engine refuses, and a second run leaves it again.

**Pulling back.**  A map on words keeps everything between the words.  A cut outside of words in its
result is therefore the image of a cut in the text (`exists_of_mapWords_eq_append`), and the parts
can be told one by one: separators were there before, and words are images of words.

**Identifiers.**  No word of the result looks generated but refused ones, so a second run has
nothing to rename in any session (`Session.Sound.renameIdentifiers_fst_of_refused`).

**Functions.**  A declaration in the result is pulled back to a declaration in the text, because no
name of the pool ends in the keyword or looks declared (`DeclaresFunction.of_mapWords`).  So what
the result still declares is in the table already.  Names come into the table in the order of their
first declarations (`pairwise_eraseDups_tails`).
-/

namespace LuaUnveil

/-! ## Pulling back -/

section PullBack

variable {f : Text → Text} (hf : ∀ w, IsSingleWord w → IsSingleWord (f w))

include hf

/-- A cut outside of words in the result comes from a cut in the text. -/
lemma exists_of_mapWords_eq_append {text : Text} :
    ∀ {a b : Text}, mapWords f text = a ++ b → EndsOutsideWord a ∨ BeginsOutsideWord b →
      ∃ a' b', text = a' ++ b' ∧ mapWords f a' = a ∧ mapWords f b' = b := by
  induction text using wordInduction with
  | nil =>
      intro a b h _
      obtain ⟨rfl, rfl⟩ := List.nil_eq_append_iff.mp ((mapWords_nil f).symm.trans h)
      exact ⟨[], [], rfl, mapWords_nil f, mapWords_nil f⟩
  | other c rest hc ih =>
      intro a b h hcut
      cases a with
      | nil => exact ⟨[], c :: rest, rfl, mapWords_nil f, h⟩
      | cons d a =>
          rw [mapWords_cons_other f hc, List.cons_append, List.cons.injEq] at h
          obtain ⟨rfl, h⟩ := h
          rw [← List.singleton_append] at hcut
          obtain ⟨a', b', rfl, ha, hb⟩ := ih h (hcut.imp_left EndsOutsideWord.of_append)
          exact ⟨c :: a', b', rfl, by rw [mapWords_cons_other f hc, ha], hb⟩
  | word w rest hw hr ih =>
      intro a b h hcut
      have hparts := h
      rw [mapWords_append f hw hr] at hparts
      rcases (hf w hw).eq_nil_or_exists_of_append hparts hcut with rfl | ⟨a, rfl, hrest⟩
      · exact ⟨[], w ++ rest, rfl, mapWords_nil f, h⟩
      · obtain ⟨a', b', rfl, ha, hb⟩ := ih hrest (hcut.imp_left EndsOutsideWord.of_append)
        refine ⟨w ++ a', b', (List.append_assoc _ _ _).symm, ?_, hb⟩
        rw [mapWords_append f hw (BeginsOutsideWord.of_append hr), ha]

/-- A separator in front of the result stands in front of the text. -/
lemma exists_of_mapWords_eq_separator {text sep b : Text} (h : mapWords f text = sep ++ b)
    (hsep : IsSeparator sep) : ∃ b', text = sep ++ b' ∧ mapWords f b' = b := by
  have hends : EndsOutsideWord ([] ++ sep) := hsep.endsOutsideWord []
  obtain ⟨a', b', rfl, ha, hb⟩ := exists_of_mapWords_eq_append hf h (Or.inl hends)
  -- the images of the words of the front are words of the separator, which has none
  have hnone : words a' = [] := by
    have himages : words (mapWords f a') = (words a').map f :=
      words_mapWords fun w hw => hf w (isSingleWord_of_mem_words hw)
    rw [ha, ← List.append_nil sep, words_append_of_other hsep.other, words_nil] at himages
    exact List.map_eq_nil_iff.mp himages.symm
  have hsame : mapWords f a' = a' := by
    rw [mapWords_congr (g := fun w => w) (by simp [hnone]), mapWords_id]
  exact ⟨b', by rw [← ha, hsame], hb⟩

/-- A word in front of the result is the image of a word in front of the text. -/
lemma exists_of_mapWords_eq_word {text w b : Text} (h : mapWords f text = w ++ b)
    (hw : IsSingleWord w) (hb : BeginsOutsideWord b) :
    ∃ v b', text = v ++ b' ∧ f v = w ∧ mapWords f b' = b := by
  cases text using wordCases with
  | nil =>
      rw [mapWords_nil] at h
      exact absurd (List.nil_eq_append_iff.mp h).1 hw.ne_nil
  | other c rest hc =>
      rw [mapWords_cons_other f hc] at h
      refine absurd (beginsOutsideWord_cons hc (mapWords f rest)) ?_
      rw [h]
      exact hw.not_beginsOutsideWord b
  | word v rest hv hr =>
      rw [mapWords_append f hv hr] at h
      -- both sides begin with a whole word
      have hfront := congrArg (List.takeWhile isWord) h
      rw [takeWhile_append_eq (hf v hv).isWord (hr.mapWords f), takeWhile_append_eq hw.isWord hb]
        at hfront
      rw [hfront] at h
      exact ⟨v, rest, rfl, hfront, List.append_cancel_left h⟩

end PullBack

/-! ## Identifiers -/

/-- A text is left alone by a table if the engine refuses all its tokens. -/
lemma RenameTable.mapWords_substitute_of_refused [SearchEngine] {table : RenameTable} {text : Text}
    (h : ∀ w ∈ words text, w ∈ table.originals → SearchEngine.compiles w = false) :
    mapWords table.substitute text = text := by
  have hstays : ∀ w ∈ words text, table.substitute w = w := by
    intro w hw
    rcases table.substitute_cases w with ⟨hmem, hcompiles, -⟩ | ⟨-, heq⟩
    · rw [h w hw hmem] at hcompiles
      cases hcompiles
    · exact heq
  rw [mapWords_congr (g := fun w => w) hstays, mapWords_id]

namespace Session

/-- A text in which all words that look generated are refused is left alone. -/
lemma Sound.renameIdentifiers_fst_of_refused [SearchEngine] {s : Session} (hs : Sound s)
    {text : Text}
    (h : ∀ w ∈ words text, isGenerated w = true → SearchEngine.compiles w = false) :
    (s.renameIdentifiers text).1 = text := by
  have hs' : Sound (s.renameIdentifiers text).2 := sound_renameIdentifiers hs text
  refine (hs'.apply_identifiers text).trans (RenameTable.mapWords_substitute_of_refused ?_)
  exact fun w hw hmem => h w hw (hs'.identifiers_generated w hmem)

/-- A session is left alone if it knows all words of the text that look generated. -/
lemma renameIdentifiers_snd_of_mem [SearchEngine] {s : Session} {text : Text}
    (h : ∀ w ∈ words text, isGenerated w = true → w ∈ s.identifiers.originals) :
    (s.renameIdentifiers text).2 = s := by
  have hknown : s.identifiers.assignAll (generatedNames text) = s.identifiers := by
    refine RenameTable.assignAll_of_mem fun w hw => ?_
    obtain ⟨hmem, hgenerated⟩ := mem_generatedNames.mp hw
    exact h w hmem hgenerated
  simp only [renameIdentifiers, hknown]

/-- **Identifiers are named in one run.**  After any history and for any text: a word of the result
that has any of the shapes was a word of the text, and the search engine refuses it.  A second run
over the result changes neither the text nor the session that the first run left, and in no other
session does it change the text.  If the engine takes all words of the text that look generated,
then no word of the result has any of the shapes, and a second run changes no session at all; with
no history that is a fresh session. -/
theorem renameIdentifiers_settles [SearchEngine] (options : Options) (history : List Step)
    (text : Text) :
    let once := (after options history).renameIdentifiers text
    (∀ w ∈ words once.1, ∀ shape : Shape, shape.fits w = true →
        w ∈ words text ∧ SearchEngine.compiles w = false) ∧
      once.2.renameIdentifiers once.1 = once ∧
      (∀ options' history', ((after options' history').renameIdentifiers once.1).1 = once.1) ∧
      ((∀ w ∈ words text, isGenerated w = true → SearchEngine.compiles w = true) →
        (∀ w ∈ words once.1, ∀ shape : Shape, shape.fits w = false) ∧
          ∀ options' history', (after options' history').renameIdentifiers once.1
            = (once.1, after options' history')) := by
  intro once
  have hs : Sound (after options history) := sound_after options history
  have hleft : ∀ w ∈ words once.1, isGenerated w = true →
      w ∈ words text ∧ SearchEngine.compiles w = false :=
    fun w hw hgenerated => hs.refused_of_mem_words hw hgenerated
  have hrefused : ∀ w ∈ words once.1, isGenerated w = true → SearchEngine.compiles w = false :=
    fun w hw hgenerated => (hleft w hw hgenerated).2
  refine ⟨fun w hw shape hfits => hleft w hw (isGenerated_iff.mpr ⟨shape, hfits⟩),
    Prod.ext ?_ ?_, fun options' history' => ?_, fun hcompiles => ?_⟩
  · exact (sound_renameIdentifiers hs text).renameIdentifiers_fst_of_refused hrefused
  · refine renameIdentifiers_snd_of_mem fun w hw hgenerated => ?_
    exact RenameTable.mem_originals_assignAll.mpr
      (Or.inr (mem_generatedNames.mpr ⟨(hleft w hw hgenerated).1, hgenerated⟩))
  · exact (sound_after options' history').renameIdentifiers_fst_of_refused hrefused
  · have hnone : ∀ w ∈ words once.1, ¬ isGenerated w = true := by
      intro w hw hgenerated
      obtain ⟨hword, hnot⟩ := hleft w hw hgenerated
      rw [hcompiles w hword hgenerated] at hnot
      cases hnot
    refine ⟨fun w hw shape => ?_, fun options' history' => Prod.ext ?_ ?_⟩
    · exact Bool.eq_false_iff.mpr fun hfits => hnone w hw (isGenerated_iff.mpr ⟨shape, hfits⟩)
    · exact (sound_after options' history').renameIdentifiers_fst_of_refused hrefused
    · exact renameIdentifiers_snd_of_mem fun w hw hgenerated => absurd hgenerated (hnone w hw)

end Session

/-! ## Functions -/

/-- No name of a pool ends in a letter in which none of its words ends. -/
lemma NamePool.Readable.getLast?_nameAt_ne {pool : NamePool} (hp : pool.Readable) {c : Char}
    (hdigit : c.isDigit = false) (hunderscore : c ≠ '_')
    (hwords : ∀ w ∈ pool.words, w.getLast? ≠ some c) (i : Nat) :
    (pool.nameAt i).getLast? ≠ some c := by
  obtain ⟨w, hw, lap, hname⟩ := hp.exists_nameAt_eq i
  rw [hname]
  unfold lapSuffix
  split_ifs
  · rw [List.append_nil]
    exact hwords w hw
  · rw [List.getLast?_append_of_ne_nil w (by simp)]
    intro hlast
    rcases List.mem_cons.mp (List.mem_of_getLast? hlast) with rfl | hmem
    · exact hunderscore rfl
    · rw [isDigit_of_mem_decimal hmem] at hdigit
      cases hdigit

/-- No verb ends in the keyword of a declaration. -/
lemma not_isSuffix_functionNames (i : Nat) :
    ¬ ['f', 'u', 'n', 'c', 't', 'i', 'o', 'n'] <:+ functionNames.nameAt i := by
  rintro ⟨front, heq⟩
  have hlast : (functionNames.nameAt i).getLast? = some 'n' := by
    rw [← heq]
    simp
  exact functionNames_readable.getLast?_nameAt_ne (by decide) (by decide) (by decide +kernel) i
    hlast

/-- **A declaration in the result was there before**, if the map leaves alone whatever it makes end
in the keyword or look declared.  The keyword may end a longer word, so its whole word is pulled
back. -/
theorem DeclaresFunction.of_mapWords {f : Text → Text}
    (hf : ∀ w, IsSingleWord w → IsSingleWord (f w))
    (hkeyword : ∀ w, ['f', 'u', 'n', 'c', 't', 'i', 'o', 'n'] <:+ f w → f w = w)
    (hshape : ∀ w, Shape.isLetterAndRun isHexDigit 4 (f w) = true → f w = w) {text name : Text}
    (h : DeclaresFunction (mapWords f text) name) : DeclaresFunction text name := by
  obtain ⟨front, gap, space, rest, hd, htext⟩ := h
  have hgap : IsSeparator gap := .of_blanks hd.gap_ne_nil hd.gap_blank
  have hname : IsSingleWord name :=
    Shape.isSingleWord_of_isLetterAndRun (fun _ => isWord_of_isHexDigit) hd.name_shape
  have hopen : IsSeparator (space ++ '(' :: []) :=
    .of_operator hd.space_blank (by decide) (by simp)
  obtain ⟨before, hbefore, hfront⟩ := exists_append_lastWord front
  have hword : IsSingleWord (lastWord front ++ ['f', 'u', 'n', 'c', 't', 'i', 'o', 'n']) := by
    refine ⟨by simp, fun c hc => ?_⟩
    rcases List.mem_append.mp hc with hc | hc
    · exact isWord_of_mem_lastWord hc
    · have hletters : ['f', 'u', 'n', 'c', 't', 'i', 'o', 'n'].all isWord = true := by decide
      exact List.all_eq_true.mp hletters c hc
  have hparts : mapWords f text = before ++ ((lastWord front ++ ['f', 'u', 'n', 'c', 't', 'i', 'o',
      'n']) ++ (gap ++ (name ++ ((space ++ ['(']) ++ rest)))) := by
    rw [htext, declarationText_eq]
    conv_lhs => rw [← hfront]
    simp
  -- front, keyword, gap, name and parenthesis, one after the other
  obtain ⟨before', t₁, rfl, -, h₁⟩ := exists_of_mapWords_eq_append hf hparts (Or.inl hbefore)
  obtain ⟨keyword, t₂, rfl, hkey, h₂⟩ :=
    exists_of_mapWords_eq_word hf h₁ hword (hgap.beginsOutsideWord _)
  obtain ⟨t₃, rfl, h₃⟩ := exists_of_mapWords_eq_separator hf h₂ hgap
  obtain ⟨token, t₄, rfl, htoken, h₄⟩ :=
    exists_of_mapWords_eq_word hf h₃ hname (hopen.beginsOutsideWord _)
  obtain ⟨t₅, rfl, -⟩ := exists_of_mapWords_eq_separator hf h₄ hopen
  -- the two words are left alone by the map
  have hsame : f keyword = keyword := hkeyword keyword (by rw [hkey]; exact List.suffix_append _ _)
  have hsame' : f token = token := hshape token (by rw [htoken]; exact hd.name_shape)
  refine ⟨before' ++ lastWord front, gap, space, t₅, hd, ?_⟩
  rw [← hsame, ← hsame', hkey, htoken, declarationText_eq]
  simp

/-! ### The order of declarations -/

/-- Whether a declaration of a name begins at a place of a text. -/
def DeclaredAt (text name : Text) (place : Nat) : Prop :=
  ∃ gap space rest, IsDeclaration gap name space ∧
    text.drop place = declarationText gap name space ++ rest

/-- Whether a name is declared before all declarations of another one. -/
def DeclaredBefore (text v w : Text) : Prop :=
  ∃ place, DeclaredAt text v place ∧ ∀ later, DeclaredAt text w later → place < later

lemma declaredAt_iff {text name : Text} {place : Nat} :
    DeclaredAt text name place ↔
      (generatedDeclaration none (text.drop place)).map (·.value) = some name := by
  rw [Option.map_eq_some_iff]
  constructor
  · rintro ⟨gap, space, rest, hd, hdrop⟩
    exact ⟨_, by rw [hdrop]; exact generatedDeclaration_complete hd none rest, rfl⟩
  · rintro ⟨f, hask, rfl⟩
    obtain ⟨gap, name, space, rest, hd, hdrop, rfl⟩ := generatedDeclaration_sound hask
    exact ⟨gap, space, rest, hd, hdrop⟩

lemma declaredFunctions_eq_tails (text : Text) :
    declaredFunctions text
      = text.tails.filterMap fun t => (generatedDeclaration none t).map (·.value) := by
  rw [declaredFunctions, declaration_standsApart.finds_eq_everywhere, Pattern.everywhere,
    List.map_filterMap]

/-- What stands at the places of a text, each thing once: the order is that of the places at which
the things stand first. -/
lemma pairwise_eraseDups_tails (read : Text → Option Text) (text : Text) :
    ∀ p : Text → Bool, ((text.tails.filterMap read).filter p).eraseDups.Pairwise fun v w =>
      ∃ place, read (text.drop place) = some v ∧
        ∀ later, read (text.drop later) = some w → place < later := by
  induction text with
  | nil =>
      intro p
      cases hread : read [] with
      | none => simp [hread]
      | some v => cases hp : p v <;> simp [hread, hp, List.eraseDups_cons]
  | cons c rest ih =>
      intro p
      -- a place in the rest is one further on in the text
      have hshift : ∀ {v w : Text}, read (c :: rest) ≠ some w →
          (∃ place, read (rest.drop place) = some v ∧
            ∀ later, read (rest.drop later) = some w → place < later) →
          ∃ place, read ((c :: rest).drop place) = some v ∧
            ∀ later, read ((c :: rest).drop later) = some w → place < later := by
        rintro v w hne ⟨place, hv, hw⟩
        refine ⟨place + 1, hv, fun later hlater => ?_⟩
        cases later with
        | zero => exact absurd hlater hne
        | succ later => exact Nat.succ_lt_succ (hw later hlater)
      cases hread : read (c :: rest) with
      | none =>
          rw [List.tails_cons, List.filterMap_cons_none hread]
          exact (ih p).imp (hshift (by simp [hread]))
      | some x =>
          rw [List.tails_cons, List.filterMap_cons_some hread]
          cases hp : p x with
          | false =>
              rw [List.filter_cons_of_neg (by simp [hp])]
              refine (ih p).imp_of_mem fun _ hw => hshift ?_
              rw [hread]
              rintro ⟨rfl⟩
              have hpw := (List.mem_filter.mp (List.mem_eraseDups.mp hw)).2
              rw [hp] at hpw
              cases hpw
          | true =>
              rw [List.filter_cons_of_pos hp, List.eraseDups_cons, List.filter_filter,
                List.pairwise_cons]
              have hne : ∀ {w : Text}, w ∈ ((rest.tails.filterMap read).filter
                  fun a => !a == x && p a).eraseDups → read (c :: rest) ≠ some w := by
                rintro w hw heq
                obtain rfl := Option.some.inj (hread.symm.trans heq)
                simp at hw
              refine ⟨fun w hw => ⟨0, hread, fun later hlater => ?_⟩, ?_⟩
              · exact Nat.pos_of_ne_zero fun hzero => hne hw (by simpa [hzero] using hlater)
              · exact (ih _).imp_of_mem fun _ hw => hshift (hne hw)

namespace Session

section Functions

variable [SearchEngine] {s : Session} (hs : Sound s)

include hs

/-- A token of the function table is a word of the result only if the engine refuses it. -/
lemma Sound.refused_of_mem_functions {text w : Text}
    (hw : w ∈ words (mapWords s.functions.substitute text)) (hmem : w ∈ s.functions.originals) :
    SearchEngine.compiles w = false := by
  rcases hs.functions_numbered.eq_nameAt_or_of_mem_words hs.functions_readable hw with
    ⟨i, rfl⟩ | ⟨-, hstays⟩
  · have hrun := hs.functions_generated _ hmem
    rw [hs.functions_readable.isLetterAndRun_nameAt] at hrun
    cases hrun
  · exact Bool.eq_false_iff.mpr fun hcompiles => hstays hcompiles hmem

/-- A declaration in the result was there before the functions were renamed. -/
lemma Sound.declaresFunction_of_mapWords {text name : Text}
    (h : DeclaresFunction (mapWords s.functions.substitute text) name) :
    DeclaresFunction text name := by
  have hword : ∀ w, IsSingleWord w → IsSingleWord (s.functions.substitute w) :=
    fun _ => hs.functions_numbered.isSingleWord_substitute hs.functions_readable
  refine h.of_mapWords hword (fun w hsuffix => ?_) fun w hrun => ?_
  · rcases hs.functions_numbered.substitute_eq_nameAt_or w with ⟨i, heq⟩ | ⟨-, heq⟩
    · rw [heq, hs.functions_pool] at hsuffix
      exact absurd hsuffix (not_isSuffix_functionNames i)
    · exact heq
  · rcases hs.functions_numbered.substitute_eq_nameAt_or w with ⟨i, heq⟩ | ⟨-, heq⟩
    · rw [heq, hs.functions_readable.isLetterAndRun_nameAt] at hrun
      cases hrun
    · exact heq

/-- A text is left alone if all its tokens are refused, and so is the session if it knows all names
that the text declares. -/
lemma Sound.renameFunctions_of_settled {text : Text}
    (hword : ∀ w ∈ words text, w ∈ s.functions.originals → SearchEngine.compiles w = false)
    (hdeclared : ∀ name, DeclaresFunction text name → name ∈ s.functions.originals) :
    s.renameFunctions text = (text, s) := by
  have hknown : s.functions.assignAll (declaredFunctions text) = s.functions :=
    RenameTable.assignAll_of_mem fun name hname =>
      hdeclared name (mem_declaredFunctions.mp hname)
  have hsame : s.functions.apply text = text := by
    rw [hs.apply_functions]
    exact RenameTable.mapWords_substitute_of_refused hword
  simp only [renameFunctions, hknown, hsame]

end Functions

/-- **Functions are named everywhere, and in one run.**  After any history and for any text, take
the tokens that the function table has already and the names that the text declares at any place.
Each of them has an entry in the table afterwards, and the text is mapped word by word, all at once:
those of these words that the search engine takes become what the table says, and everything else
stays.  If the engine takes all of them that are words of the text, they all become what the table
says.  A declared name is a word of the text.  The new tokens stand in the table behind the old
ones, in the order in which they are first declared, with the next names of the pool.  A second run
changes neither the text nor the session. -/
theorem renameFunctions_settles [SearchEngine] (options : Options) (history : List Step)
    (text : Text) :
    let s := after options history
    let once := s.renameFunctions text
    let table := once.2.functions
    let IsToken := fun w => w ∈ s.functions.originals ∨ DeclaresFunction text w
    once.1 = mapWords (fun w => if SearchEngine.compiles w then table.rename w else w) text ∧
      ((∀ w ∈ words text, IsToken w → SearchEngine.compiles w = true) →
        once.1 = mapWords table.rename text) ∧
      (∀ w, IsToken w → table.get? w = some (table.rename w)) ∧
      (∀ w, ¬ IsToken w → table.rename w = w) ∧
      (∀ w, DeclaresFunction text w → w ∈ words text) ∧
      s.functions.entries <+: table.entries ∧
      (∃ new, table.originals = s.functions.originals ++ new ∧
        (∀ w, w ∈ new ↔ DeclaresFunction text w ∧ w ∉ s.functions.originals) ∧
        new.Pairwise (DeclaredBefore text)) ∧
      table.replacements = (List.range table.size).map functionNames.nameAt ∧
      once.2.renameFunctions once.1 = once := by
  intro s once table IsToken
  have hs : Sound s := sound_after options history
  have hs' : Sound once.2 := sound_renameFunctions hs text
  have hmap : once.1 = mapWords table.substitute text := hs'.apply_functions text
  have hmem : ∀ w, w ∈ table.originals ↔ IsToken w := fun w =>
    RenameTable.mem_originals_assignAll.trans (or_congr_right mem_declaredFunctions)
  refine ⟨hmap, fun hcompiles => ?_, fun w hw => RenameTable.get?_eq_some_rename ((hmem w).mpr hw),
    fun w hw => RenameTable.rename_of_notMem fun h => hw ((hmem w).mp h),
    fun w hw => hw.mem_words, RenameTable.prefix_assignAll (declaredFunctions text) s.functions,
    ⟨_, RenameTable.originals_assignAll (declaredFunctions text) s.functions, fun w => ?_, ?_⟩,
    ?_, ?_⟩
  · refine hmap.trans (mapWords_congr fun w hw => ?_)
    exact RenameTable.substitute_of_compiles fun htoken => hcompiles w hw ((hmem w).mp htoken)
  · rw [List.mem_eraseDups, List.mem_filter, mem_declaredFunctions]
    simp
  · rw [declaredFunctions_eq_tails]
    refine (pairwise_eraseDups_tails _ text _).imp ?_
    rintro v w ⟨place, hv, hw⟩
    exact ⟨place, declaredAt_iff.mpr hv, fun later hlater => hw later (declaredAt_iff.mp hlater)⟩
  · rw [hs'.functions_numbered.names, hs'.functions_pool]
  · refine hs'.renameFunctions_of_settled (fun w hw => ?_) fun name hname => ?_
    · rw [hmap] at hw
      exact hs'.refused_of_mem_functions hw
    · rw [hmap] at hname
      exact (hmem name).mpr (Or.inr (hs'.declaresFunction_of_mapWords hname))

end Session

end LuaUnveil
