import LuaUnveil.Proofs.Blanks
import LuaUnveil.Proofs.Edges
import LuaUnveil.Session.Pass

/-!
# The last pass and the words of a text

The last pass moves blanks only: it squeezes blank lines, trims the text and spaces the operators.
Every word stays what it is, and occurs as often as before (`count_words_finalFormat`).
-/

namespace LuaUnveil

/-! ## Blank lines and ends -/

lemma throughLastBreak_isPrefix (text : Text) : throughLastBreak text <+: text := by
  rw [← List.reverse_suffix, throughLastBreak, List.reverse_reverse]
  exact List.dropWhile_suffix _

/-- A run of blank lines is made of blanks. -/
lemma blankLineRun_sound {before : Option Char} {text : Text} {f : Found Unit}
    (h : blankLineRun before text = some f) :
    IsSeparator f.covered ∧ ∃ rest, text = f.covered ++ rest := by
  unfold blankLineRun at h
  split at h
  · next before rest =>
      have hrun := throughLastBreak_isPrefix ('\n' :: rest.takeWhile isBlank)
      have hblanks : ∀ c ∈ '\n' :: rest.takeWhile isBlank, isBlank c = true :=
        List.forall_mem_cons.mpr ⟨by decide, fun c hc => List.mem_takeWhile_imp hc⟩
      have htext : '\n' :: rest.takeWhile isBlank <+: '\n' :: rest :=
        (List.cons_prefix_cons.mpr ⟨rfl, List.takeWhile_prefix _⟩)
      dsimp only at h
      split_ifs at h with hcount
      obtain rfl := Option.some.inj h
      refine ⟨.of_blanks ?_ fun c hc => hblanks c (hrun.subset hc), ?_⟩
      · intro hnil
        change throughLastBreak _ = [] at hnil
        rw [hnil, List.count_nil] at hcount
        omega
      · obtain ⟨behind, hbehind⟩ := hrun.trans htext
        exact ⟨behind, hbehind.symm⟩
  · cases h

lemma wordEdit_blankLineRun :
    WordEdit blankLineRun (fun _ => ['\n', '\n']) (fun _ _ => []) fun _ _ => [] where
  covers before text f h := by
    obtain ⟨hsep, htext⟩ := blankLineRun_sound h
    exact ⟨hsep.ne_nil, htext⟩
  outside _ _ y := beginsOutsideWord_cons (by decide) _
  count {a f rest y} h hy w := by
    have hbreak : isWord '\n' = false := by decide
    have hbreaks : IsSeparator ['\n', '\n'] := ⟨by simp, by simpa using hbreak⟩
    rw [hbreaks.words_append, (blankLineRun_sound h).1.words_append]

lemma count_words_squeezeBlankLines (text w : Text) :
    (words (squeezeBlankLines text)).count w = (words text).count w := by
  have hcount := wordEdit_blankLineRun.count_words_add_lost text w
  have hlost : ((located blankLineRun text).flatMap fun _ => ([] : List Text)) = [] := by simp
  rwa [hlost, List.count_nil, Nat.add_zero] at hcount

lemma words_dropBlanks (text : Text) : words (dropBlanks text) = words text := by
  conv_rhs => rw [← List.takeWhile_append_dropWhile (p := isBlank) (l := text),
    words_append_of_blanks fun c hc => List.mem_takeWhile_imp hc]
  rfl

lemma words_trim (text : Text) : words (trim text) = words text := by
  obtain ⟨before, after, hbefore, hafter, htext⟩ := exists_trim text
  have hnone : words after = [] := by simpa using words_append_of_blanks (b := []) hafter
  conv_rhs => rw [htext, List.append_assoc, words_append_of_blanks hbefore,
    words_append_of_begins (beginsOutsideWord_of_blanks hafter), hnone, List.append_nil]

/-! ## Operators -/

/-- An operator is a separator. -/
lemma OperatorKind.isSeparator_of_read? {kind : OperatorKind} {text op rest : Text}
    (h : kind.read? text = some (op, rest)) : IsSeparator op ∧ text = op ++ rest := by
  obtain ⟨op', hop', hread⟩ := List.exists_of_findSome?_eq_some h
  obtain ⟨rest', hskip, heq⟩ := Option.map_eq_some_iff.mp hread
  obtain ⟨rfl, rfl⟩ := Prod.mk.inj heq
  have hsigns : (kind.operators.all fun op => !op.isEmpty && op.all fun c => !isWord c) = true := by
    cases kind <;> decide
  have hsign := List.all_eq_true.mp hsigns op' hop'
  simp only [Bool.and_eq_true, List.all_eq_true, Bool.not_eq_true'] at hsign
  exact ⟨⟨by simpa using hsign.1, hsign.2⟩, skip?_eq_some_iff.mp hskip⟩

/-- Spacing operators leaves the words as they are.  The text in front is there for the induction:
it takes in the characters that are passed over, so that no word is looked at in parts. -/
lemma words_append_spaceOperators (kind : OperatorKind) (a text : Text) :
    words (a ++ spaceOperators kind text) = words (a ++ text) := by
  fun_induction spaceOperators kind text generalizing a with
  | case1 text op rest hread ih =>
      obtain ⟨hop, hcut⟩ := OperatorKind.isSeparator_of_read? hread
      have hspace : isWord ' ' = false := by decide
      have htext : text.takeWhile isBlank ++ (op ++ rest) = text := by
        rw [← hcut]
        exact List.takeWhile_append_dropWhile
      have hsigned : IsSeparator (' ' :: op ++ [' ']) :=
        ⟨by simp, by simpa [hspace, or_imp, forall_and] using hop.other⟩
      have hsigned' : IsSeparator (text.takeWhile isBlank ++ op) := by
        refine ⟨by simp [hop.ne_nil], fun c hc => ?_⟩
        rcases List.mem_append.mp hc with hc | hc
        · exact isWord_of_isBlank (List.mem_takeWhile_imp hc)
        · exact hop.other c hc
      calc words (a ++ (' ' :: op ++ ' ' :: spaceOperators kind (dropBlanks rest)))
          = words a ++ words (spaceOperators kind (dropBlanks rest)) := by
            rw [← hsigned.words_append]
            simp
        _ = words a ++ words rest := by
            rw [← words_dropBlanks rest]
            exact congrArg _ (ih [])
        _ = words (a ++ text) := by
            rw [← hsigned'.words_append, List.append_assoc, htext]
  | case2 text hread hnil => rfl
  | case3 text hread c rest hcut ih =>
      have htext : text.takeWhile isBlank ++ c :: rest = text := by
        rw [← hcut]
        exact List.takeWhile_append_dropWhile
      conv_rhs => rw [← htext]
      simpa using ih (a ++ (text.takeWhile isBlank ++ [c]))

/-- **The last pass leaves the words of a text as they are.** -/
theorem count_words_finalFormat (text w : Text) :
    (words (finalFormat text)).count w = (words text).count w := by
  have hfold : ∀ (kinds : List OperatorKind) (t : Text),
      words (kinds.foldl (fun t kind => spaceOperators kind t) t) = words t := by
    intro kinds
    induction kinds with
    | nil => exact fun t => rfl
    | cons kind kinds ih =>
        intro t
        rw [List.foldl_cons, ih]
        exact words_append_spaceOperators kind [] t
  rw [finalFormat, hfold, words_trim, count_words_squeezeBlankLines]

end LuaUnveil
