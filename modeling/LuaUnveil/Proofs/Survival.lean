import LuaUnveil.Proofs.DeadCode
import LuaUnveil.Proofs.Renaming
import LuaUnveil.Proofs.Simplification
import LuaUnveil.Session.Outcome

/-!
# Which tokens are left in the code

The naming passes replace every token that the search engine takes, but passes come after them.
This file follows the tokens through the rest of the standard order.

**Behind the naming passes** a token is a word of the text only if the engine refuses it: what any
other token becomes is no token (`Session.Sound.refused_of_rename_mem_tokens`).

**Until the end** only one thing brings a token up again.  An empty function is dropped also where
its keyword ends a longer word, and what that word began with is then left by itself:
`a123function foo() end` leaves `a123`.  `count_words_finalFormat_removeDeadCode` counts
this out.
-/

namespace LuaUnveil

/-! ## Words behind the last passes -/

/-- **How often a word is left.**  As often as it is there when dead code is removed or is then cut
off a longer word, less the times that it goes with an empty function or with a declaration. -/
theorem count_words_finalFormat_removeDeadCode (entering w : Text) :
    (words (finalFormat (removeDeadCode entering))).count w
        + ((emptyFunctionWords entering).count w
          + (nilLocalWords (dropEmptyFunctions entering)).count w)
      = (words entering).count w + (cutWords entering).count w := by
  have hlast : (words (finalFormat (removeDeadCode entering))).count w
      = (words (dropNilLocals (dropEmptyFunctions entering))).count w :=
    count_words_finalFormat (removeDeadCode entering) w
  have hfunctions := count_words_dropEmptyFunctions entering w
  have hlocals := count_words_dropNilLocals (dropEmptyFunctions entering) w
  omega

namespace Session

/-- The tokens that a session has given names to. -/
def tokens (s : Session) : List Text := s.identifiers.originals ++ s.functions.originals

/-! ## Behind the naming passes -/

/-- What a word becomes is no token, unless the engine refuses the word. -/
lemma Sound.refused_of_rename_mem_tokens [SearchEngine] {s : Session} (hs : Sound s) {w : Text}
    (hmem : s.rename w ∈ s.tokens) : SearchEngine.compiles (s.rename w) = false := by
  have hname : ∀ {name : Text},
      name ∈ s.identifiers.replacements ∨ name ∈ s.functions.replacements → name ∉ s.tokens := by
    intro name h htoken
    obtain ⟨hidentifier, hfunction⟩ := hs.name_notMem_originals h
    exact (List.mem_append.mp htoken).elim hidentifier hfunction
  rcases hs.rename_cases w with ⟨h, heq⟩ | ⟨h, heq⟩ | ⟨hstays, heq⟩
  · exact absurd (heq ▸ hmem) (hname (.inl (RenameTable.rename_mem_replacements h)))
  · exact absurd (heq ▸ hmem) (hname (.inr (RenameTable.rename_mem_replacements h)))
  · rw [heq] at hmem ⊢
    refine Bool.eq_false_iff.mpr fun hcompiles => ?_
    obtain ⟨hi, hf⟩ := hstays hcompiles
    exact (List.mem_append.mp hmem).elim hi hf

/-- **The naming passes leave no token that the engine takes.** -/
theorem token_notMem_words_named [SearchEngine] {s : Session} (hs : Sound s) (text : Text) :
    let named := s.renameIdentifiers text
    let result := named.2.renameFunctions named.1
    ∀ w ∈ result.2.tokens, SearchEngine.compiles w = true → w ∉ words result.1 := by
  intro named result w hw hcompiles hmem
  have hs' : Sound result.2 := sound_renameFunctions (sound_renameIdentifiers hs text) _
  have hmap : result.1 = mapWords result.2.rename text := renameFunctions_renameIdentifiers hs text
  rw [hmap,
    words_mapWords fun v hv => hs'.isSingleWord_rename (isSingleWord_of_mem_words hv)] at hmem
  obtain ⟨v, -, rfl⟩ := List.mem_map.mp hmem
  rw [hs'.refused_of_rename_mem_tokens hw] at hcompiles
  cases hcompiles

/-! ## In the code -/

/-- **When no renamed token is left in the code.**  Let `entering` be the text that the removal of
dead code is given.

* No token that the search engine takes is a word of `entering`.
* No token of the two tables is a word of the deobfuscated code exactly if every token that is a
  word of `entering`, or that dropping the empty functions cuts off a longer word, goes with these
  functions or with the declarations that are dropped next.
* If the engine takes all tokens, that is exactly if every token that is cut off a longer word goes
  again with the declarations. -/
theorem tokens_gone_iff [SearchEngine] (options : Options) (source : Text) :
    let entering := Pass.runAll (Pass.standard.take 5) (start options) source
    let tokens := (Pass.runAll Pass.standard (start options) source).2.tokens
    (∀ w ∈ tokens, SearchEngine.compiles w = true → w ∉ words entering.1) ∧
      ((∀ w ∈ tokens, w ∉ words (deobfuscate options source).code) ↔
        ∀ w ∈ tokens, (words entering.1).count w + (cutWords entering.1).count w
          = (emptyFunctionWords entering.1).count w
            + (nilLocalWords (dropEmptyFunctions entering.1)).count w) ∧
      ((∀ w ∈ tokens, SearchEngine.compiles w = true) →
        ((∀ w ∈ tokens, w ∉ words (deobfuscate options source).code) ↔
          ∀ w ∈ tokens, (cutWords entering.1).count w
            = (nilLocalWords (dropEmptyFunctions entering.1)).count w)) := by
  intro entering tokens
  have hentering : ∀ w ∈ tokens, SearchEngine.compiles w = true → w ∉ words entering.1 := by
    intro w hw hcompiles hmem
    let formatted := Pass.runAll (Pass.standard.take 2) (start options) source
    let identified := formatted.2.renameIdentifiers formatted.1
    let named := identified.2.renameFunctions identified.1
    have hs : Sound formatted.2 :=
      (sound_start options).of_grows (grows_step _ (.pass .decodeStrings source))
    exact token_notMem_words_named hs formatted.1 w hw hcompiles
      (words_simplifyExpressions_subset named.2 named.1 hmem)
  have hcount : ∀ w, (words (deobfuscate options source).code).count w
      + ((emptyFunctionWords entering.1).count w
        + (nilLocalWords (dropEmptyFunctions entering.1)).count w)
      = (words entering.1).count w + (cutWords entering.1).count w :=
    count_words_finalFormat_removeDeadCode entering.1
  refine ⟨hentering, forall₂_congr fun w _ => ?_, fun hcompiles => forall₂_congr fun w hw => ?_⟩
  · rw [← List.count_eq_zero, ← hcount w]
    omega
  · -- the words of `entering` are then no tokens, and those of its empty functions are among them
    have hnone : w ∉ words entering.1 := hentering w hw (hcompiles w hw)
    have hdropped : w ∉ emptyFunctionWords entering.1 :=
      fun h => hnone (emptyFunctionWords_subset entering.1 h)
    have hleft := hcount w
    rw [List.count_eq_zero_of_not_mem hnone, List.count_eq_zero_of_not_mem hdropped] at hleft
    rw [← List.count_eq_zero]
    omega

/-- The keyword of an empty function ends the word `a123function`; what is left of the word is a
token. -/
theorem token_left_by_empty_function :
    let source := "a123 = 1 a123function foo() end".toList
    let result := Pass.runAll Pass.standard (start {}) source
    "a123".toList ∈ result.2.tokens ∧ "a123".toList ∈ words (deobfuscate {} source).code ∧
      (deobfuscate {} source).code = "player = 1 a123".toList := by
  decide +kernel

end Session

end LuaUnveil
