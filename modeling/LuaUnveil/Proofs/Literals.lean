import LuaUnveil.Proofs.Blanks
import LuaUnveil.Proofs.Escape

/-!
# Which literals are merged

A text with an even number of quotes reads as code and literals in turn.  The scan for joined
literals does not know which quotes open a literal and which close one.  It can begin at a closing
quote, take a literal that holds `..` for the operator, and put the code on both sides of it
together: `"a", " .. ", "b"` becomes `"a", , "b"`.  This file says what the scan does with every
text, and when that is the merging of neighbours.

**Segments.**  `quoteEach` is a text cut at its quotes.  There is one way to cut a text
(`splitOn_append_quoteEach`, `exists_segments`), and the scan works on the segments
(`mergeAnywhere`, `foldLiterals_append_quoteEach`).

**Neighbours.**  `QuotedText` has its segments in pairs, a literal and the code behind it;
`mergeNeighbours` merges the literals with only `..` between them.

**The comparison.**  Once the scan has merged code, it is one quote off.  Nothing that it does later
brings it back in step (`apart`), so it agrees with the merging of neighbours exactly if
it never merges code.
-/

namespace LuaUnveil

/-! ## Segments -/

/-- The segments of a text, with a quote in front of each of them. -/
def quoteEach (segments : List Text) : Text := segments.flatMap ('"' :: ·)

@[simp] lemma quoteEach_nil : quoteEach [] = [] := rfl

@[simp] lemma quoteEach_cons (s : Text) (segments : List Text) :
    quoteEach (s :: segments) = '"' :: (s ++ quoteEach segments) := rfl

/-- The segments are what splitting at the quotes gives. -/
lemma splitOn_append_quoteEach {front : Text} {segments : List Text} (hfront : '"' ∉ front)
    (hsegments : ∀ s ∈ segments, '"' ∉ s) :
    (front ++ quoteEach segments).splitOn '"' = front :: segments := by
  induction segments generalizing front with
  | nil => simpa using List.splitOn_eq_singleton hfront
  | cons s segments ih =>
      obtain ⟨hs, hsegments⟩ := List.forall_mem_cons.mp hsegments
      rw [quoteEach_cons, List.splitOn, List.splitOnP_append_cons_of_forall_mem _ _ rfl]
      · exact congrArg _ (ih hs hsegments)
      · intro c hc
        exact beq_false_of_ne fun h => hfront (h ▸ hc)

lemma append_quoteEach_inj {front front' : Text} {segments segments' : List Text}
    (hfront : '"' ∉ front) (hfront' : '"' ∉ front') (hsegments : ∀ s ∈ segments, '"' ∉ s)
    (hsegments' : ∀ s ∈ segments', '"' ∉ s)
    (h : front ++ quoteEach segments = front' ++ quoteEach segments') :
    front = front' ∧ segments = segments' := by
  have hsplit := congrArg (List.splitOn '"') h
  rw [splitOn_append_quoteEach hfront hsegments,
    splitOn_append_quoteEach hfront' hsegments'] at hsplit
  exact List.cons.inj hsplit

lemma quoteEach_inj {segments segments' : List Text} (hsegments : ∀ s ∈ segments, '"' ∉ s)
    (hsegments' : ∀ s ∈ segments', '"' ∉ s) (h : quoteEach segments = quoteEach segments') :
    segments = segments' :=
  (append_quoteEach_inj List.not_mem_nil List.not_mem_nil hsegments hsegments' h).2

/-- Every text has segments. -/
lemma exists_segments (text : Text) : ∃ front segments, '"' ∉ front ∧
    (∀ s ∈ segments, '"' ∉ s) ∧ text = front ++ quoteEach segments := by
  induction text with
  | nil => exact ⟨[], [], by simp, by simp, rfl⟩
  | cons c text ih =>
      obtain ⟨front, segments, hfront, hsegments, rfl⟩ := ih
      by_cases hc : c = '"'
      · exact ⟨[], front :: segments, by simp, by simpa [hfront] using hsegments, by simp [hc]⟩
      · exact ⟨c :: front, segments, by simp [hfront, Ne.symm hc], hsegments, rfl⟩

lemma count_append_quoteEach {front : Text} {segments : List Text} (hfront : '"' ∉ front)
    (hsegments : ∀ s ∈ segments, '"' ∉ s) :
    (front ++ quoteEach segments).count '"' = segments.length := by
  induction segments generalizing front with
  | nil => simpa using List.count_eq_zero_of_not_mem hfront
  | cons s segments ih =>
      obtain ⟨hs, hsegments⟩ := List.forall_mem_cons.mp hsegments
      have hrest := ih hs hsegments
      rw [List.count_append, List.count_eq_zero_of_not_mem hfront, quoteEach_cons,
        List.count_cons_self, hrest, List.length_cons, Nat.zero_add]

/-! ### The scan on segments -/

/-- Whether a segment is the joining operator, with optional blanks around it. -/
def isJoiner (segment : Text) : Bool := trim segment == "..".toList

lemma isJoiner_iff {segment : Text} : isJoiner segment = true ↔
    ∃ before after, (∀ c ∈ before, isBlank c = true) ∧ (∀ c ∈ after, isBlank c = true) ∧
      segment = before ++ '.' :: '.' :: after := by
  rw [isJoiner, beq_iff_eq]
  constructor
  · intro h
    obtain ⟨before, after, hbefore, hafter, heq⟩ := exists_trim segment
    rw [h] at heq
    exact ⟨before, after, hbefore, hafter, by simpa using heq⟩
  · rintro ⟨before, after, hbefore, hafter, rfl⟩
    have hdot : isBlank '.' = false := by decide
    rw [trim, dropBlanks_append hbefore, dropBlanks_cons_other hdot, List.reverse_cons,
      List.reverse_cons, List.append_assoc,
      dropBlanks_append fun c hc => hafter c (List.mem_reverse.mp hc)]
    rfl

/-- What the scan does with segments: at any quote it looks for an operator as the segment after the
next, and merges the two around it. -/
def mergeAnywhere : List Text → List Text
  | first :: op :: second :: behind :: rest =>
    if isJoiner op then (first ++ second) :: behind :: mergeAnywhere rest
    else first :: mergeAnywhere (op :: second :: behind :: rest)
  | segments => segments

lemma mergeAnywhere_of_isJoiner {op : Text} (h : isJoiner op = true) (first second behind : Text)
    (rest : List Text) : mergeAnywhere (first :: op :: second :: behind :: rest)
      = (first ++ second) :: behind :: mergeAnywhere rest := if_pos h

lemma mergeAnywhere_of_not_isJoiner {op : Text} (h : isJoiner op = false)
    (first second behind : Text) (rest : List Text) :
    mergeAnywhere (first :: op :: second :: behind :: rest)
      = first :: mergeAnywhere (op :: second :: behind :: rest) := if_neg (by simp [h])

lemma plain_mergeAnywhere {segments : List Text} (hsegments : ∀ s ∈ segments, '"' ∉ s) :
    ∀ s ∈ mergeAnywhere segments, '"' ∉ s := by
  fun_induction mergeAnywhere segments with
  | case1 first op second behind rest hop ih =>
      simp only [List.forall_mem_cons, List.mem_append, not_or] at hsegments ⊢
      obtain ⟨hfirst, -, hsecond, hbehind, hrest⟩ := hsegments
      exact ⟨⟨hfirst, hsecond⟩, hbehind, ih hrest⟩
  | case2 first op second behind rest hop ih =>
      obtain ⟨hfirst, hrest⟩ := List.forall_mem_cons.mp hsegments
      exact List.forall_mem_cons.mpr ⟨hfirst, ih hrest⟩
  | case3 segments _ => exact hsegments

/-- The pattern begins at a quote with four segments behind it, of which the second is the
operator. -/
lemma joinedLiterals_quoteEach_iff {segments : List Text} (hsegments : ∀ s ∈ segments, '"' ∉ s)
    {f : Found Text} : joinedLiterals none (quoteEach segments) = some f ↔
      ∃ first op second behind rest, segments = first :: op :: second :: behind :: rest ∧
        isJoiner op = true ∧ f = ⟨first ++ second, quoteEach [first, op, second] ++ ['"']⟩ := by
  constructor
  · intro h
    obtain _ | ⟨s, segments⟩ := segments
    · cases h
    · rw [quoteEach_cons] at h
      obtain ⟨first, before, after, second, left, hjoined, htext, rfl⟩ :=
        joinedLiterals_eq_some_iff.mp h
      obtain ⟨behind, rest, hbehind, hrest, rfl⟩ := exists_segments left
      have hop : '"' ∉ before ++ '.' :: '.' :: after := by
        have hquote : isBlank '"' = false := by decide
        have hbefore : '"' ∉ before := fun h => by simp [hjoined.before _ h] at hquote
        have hafter : '"' ∉ after := fun h => by simp [hjoined.after _ h] at hquote
        simp [hbefore, hafter]
      have hcut : s :: segments
          = first :: (before ++ '.' :: '.' :: after) :: second :: behind :: rest := by
        refine quoteEach_inj hsegments ?_ ?_
        · simpa [hjoined.first, hjoined.second, hop, hbehind] using hrest
        · simp [htext, joinedText]
      exact ⟨first, _, second, behind, rest, hcut,
        isJoiner_iff.mpr ⟨before, after, hjoined.before, hjoined.after, rfl⟩, by simp [joinedText]⟩
  · rintro ⟨first, op, second, behind, rest, rfl, hop, rfl⟩
    obtain ⟨before, after, hbefore, hafter, rfl⟩ := isJoiner_iff.mp hop
    simp only [List.forall_mem_cons] at hsegments
    rw [quoteEach_cons]
    exact joinedLiterals_eq_some_iff.mpr ⟨first, before, after, second, behind ++ quoteEach rest,
      ⟨hsegments.1, hbefore, hafter, hsegments.2.2.1⟩, by simp [joinedText], by simp [joinedText]⟩

/-! ### Equations of the scan -/

lemma foldLiterals_append {w : Text} (hw : '"' ∉ w) (rest : Text) :
    foldLiterals (w ++ rest) = w ++ foldLiterals rest :=
  joinedLiterals_beginsWith.replaceAll_append _ hw rest

/-- A quote at which the pattern does not begin is passed over, with the segment behind it. -/
lemma foldLiterals_quoteEach_cons {s : Text} {segments : List Text} (hs : '"' ∉ s)
    (h : joinedLiterals none (quoteEach (s :: segments)) = none) :
    foldLiterals (quoteEach (s :: segments)) = '"' :: (s ++ foldLiterals (quoteEach segments)) := by
  rw [quoteEach_cons] at h
  rw [quoteEach_cons, ← foldLiterals_append hs, foldLiterals, replaceAll,
    joinedLiterals_beginsWith.looksAhead.pieces_plain h, assemble_plain_cons]
  rfl

lemma foldLiterals_quoteEach_of_isJoiner {first op second behind : Text} {rest : List Text}
    (hsegments : ∀ s ∈ first :: op :: second :: behind :: rest, '"' ∉ s)
    (hop : isJoiner op = true) :
    foldLiterals (quoteEach (first :: op :: second :: behind :: rest))
      = quoteEach [first ++ second, behind] ++ foldLiterals (quoteEach rest) := by
  have hbehind : '"' ∉ behind := hsegments behind (by simp)
  have hfind := (joinedLiterals_quoteEach_iff hsegments).mpr
    ⟨first, op, second, behind, rest, rfl, hop, rfl⟩
  have htext : quoteEach (first :: op :: second :: behind :: rest)
      = '"' :: (first ++ '"' :: (op ++ '"' :: (second ++ ['"']))
        ++ (behind ++ quoteEach rest)) := by
    simp
  rw [htext] at hfind ⊢
  calc foldLiterals _
      = '"' :: (first ++ second) ++ ['"'] ++ foldLiterals (behind ++ quoteEach rest) := by
        rw [foldLiterals, replaceAll,
          joinedLiterals_beginsWith.looksAhead.pieces_found hfind (by simp), assemble_found_cons]
        rfl
    _ = quoteEach [first ++ second, behind] ++ foldLiterals (quoteEach rest) := by
        rw [foldLiterals_append hbehind]
        simp

/-- Fewer than four segments are left alone. -/
lemma foldLiterals_quoteEach_of_length {segments : List Text} (hsegments : ∀ s ∈ segments, '"' ∉ s)
    (hlen : segments.length ≤ 3) : foldLiterals (quoteEach segments) = quoteEach segments := by
  induction segments with
  | nil => rfl
  | cons s segments ih =>
      have hnone : joinedLiterals none (quoteEach (s :: segments)) = none := by
        refine Option.eq_none_iff_forall_ne_some.mpr fun f hf => ?_
        obtain ⟨_, _, _, _, rest, heq, -⟩ := (joinedLiterals_quoteEach_iff hsegments).mp hf
        rw [heq] at hlen
        simp only [List.length_cons] at hlen
        omega
      obtain ⟨hs, hsegments⟩ := List.forall_mem_cons.mp hsegments
      rw [foldLiterals_quoteEach_cons hs hnone, ih hsegments (Nat.le_of_succ_le hlen),
        quoteEach_cons]

/-- **What the scan does, for every text.** -/
lemma foldLiterals_append_quoteEach {front : Text} {segments : List Text} (hfront : '"' ∉ front)
    (hsegments : ∀ s ∈ segments, '"' ∉ s) :
    foldLiterals (front ++ quoteEach segments) = front ++ quoteEach (mergeAnywhere segments) := by
  rw [foldLiterals_append hfront]
  congr 1
  fun_induction mergeAnywhere segments with
  | case1 first op second behind rest hop ih =>
      rw [foldLiterals_quoteEach_of_isJoiner hsegments hop,
        ih fun s hs => hsegments s (by simp [hs])]
      simp
  | case2 first op second behind rest hop ih =>
      have hnone :
          joinedLiterals none (quoteEach (first :: op :: second :: behind :: rest)) = none := by
        refine Option.eq_none_iff_forall_ne_some.mpr fun f hf => ?_
        obtain ⟨_, op', _, _, _, heq, hop', -⟩ := (joinedLiterals_quoteEach_iff hsegments).mp hf
        obtain ⟨-, rfl, -⟩ : first = _ ∧ op = op' ∧ _ := by simpa using heq
        exact hop hop'
      obtain ⟨hfirst, hrest⟩ := List.forall_mem_cons.mp hsegments
      rw [foldLiterals_quoteEach_cons hfirst hnone, ih hrest, quoteEach_cons]
  | case3 segments hshort =>
      refine foldLiterals_quoteEach_of_length hsegments (Nat.le_of_not_lt fun hlong => ?_)
      obtain _ | ⟨_, _ | ⟨_, _ | ⟨_, _ | ⟨_, rest⟩⟩⟩⟩ := segments <;> simp at hlong
      exact hshort _ _ _ _ _ rfl

/-! ## Neighbours -/

/-- A text in which every quote has a partner: some code, and then literals, each with the code
behind it. -/
@[ext] structure QuotedText where
  front : Text
  literals : List (Text × Text)
  front_plain : '"' ∉ front
  literals_plain : ∀ p ∈ literals, '"' ∉ p.1 ∧ '"' ∉ p.2

/-- Contents and code in turn. -/
def alternate (literals : List (Text × Text)) : List Text := literals.flatMap fun p => [p.1, p.2]

@[simp] lemma alternate_nil : alternate [] = [] := rfl

@[simp] lemma alternate_cons (p : Text × Text) (literals : List (Text × Text)) :
    alternate (p :: literals) = p.1 :: p.2 :: alternate literals := rfl

@[simp] lemma alternate_append (literals more : List (Text × Text)) :
    alternate (literals ++ more) = alternate literals ++ alternate more := List.flatMap_append

lemma alternate_injective : Function.Injective alternate := by
  intro literals
  induction literals with
  | nil =>
      rintro (_ | ⟨p, more⟩) h
      · rfl
      · cases h
  | cons p literals ih =>
      rintro (_ | ⟨q, more⟩) h
      · cases h
      · obtain ⟨hcontent, hcode, hrest⟩ :
            p.1 = q.1 ∧ p.2 = q.2 ∧ alternate literals = alternate more := by
          simpa using h
        rw [ih hrest, Prod.ext hcontent hcode]

lemma mem_alternate {s : Text} {literals : List (Text × Text)} :
    s ∈ alternate literals ↔ ∃ p ∈ literals, s = p.1 ∨ s = p.2 := by
  simp [alternate]

/-- Segments in even number are literals with the code behind them. -/
lemma exists_alternate : ∀ {segments : List Text}, Even segments.length →
    ∃ literals, alternate literals = segments
  | [], _ => ⟨[], rfl⟩
  | [s], h => by simp at h
  | s :: s' :: segments, h => by
      have heven : Even segments.length := by
        rw [List.length_cons, List.length_cons, Nat.even_add_one, Nat.even_add_one, not_not] at h
        exact h
      obtain ⟨literals, rfl⟩ := exists_alternate heven
      exact ⟨(s, s') :: literals, rfl⟩

/-- Merge a literal with the next one where the code between them is the operator and nothing else.
A merged literal takes part in no further merge. -/
def mergeNeighbours : List (Text × Text) → List (Text × Text)
  | (content, code) :: (content', code') :: rest =>
    if isJoiner code then (content ++ content', code') :: mergeNeighbours rest
    else (content, code) :: mergeNeighbours ((content', code') :: rest)
  | literals => literals

/-- Whether the scan stays in step with the literals.  Behind a literal that it has not merged it
comes to the closing quote; there the next literal must not read as the operator, unless it is the
last one. -/
def staysInStep : List (Text × Text) → Bool
  | (_, code) :: (content', code') :: rest =>
    if isJoiner code then staysInStep rest
    else (rest.isEmpty || !isJoiner content') && staysInStep ((content', code') :: rest)
  | _ => true

lemma plain_mergeNeighbours {literals : List (Text × Text)}
    (h : ∀ p ∈ literals, '"' ∉ p.1 ∧ '"' ∉ p.2) :
    ∀ p ∈ mergeNeighbours literals, '"' ∉ p.1 ∧ '"' ∉ p.2 := by
  fun_induction mergeNeighbours literals with
  | case1 content code content' code' rest hop ih =>
      simp only [List.forall_mem_cons, List.mem_append, not_or] at h ⊢
      exact ⟨⟨⟨h.1.1, h.2.1.1⟩, h.2.1.2⟩, ih h.2.2⟩
  | case2 content code content' code' rest hop ih =>
      obtain ⟨hfirst, hrest⟩ := List.forall_mem_cons.mp h
      exact List.forall_mem_cons.mpr ⟨hfirst, ih hrest⟩
  | case3 literals _ => exact h

/-! ## The comparison -/

/-- Literals with no code behind them. -/
def bare (contents : List Text) : List (Text × Text) := contents.map fun content => (content, [])

lemma bare_cons (content : Text) (contents : List Text) :
    bare (content :: contents) = (content, []) :: bare contents := rfl

lemma not_isJoiner_nil : isJoiner [] = false := by decide

lemma mergeNeighbours_of_isJoiner {code : Text} (h : isJoiner code = true) (content : Text)
    (p : Text × Text) (rest : List (Text × Text)) :
    mergeNeighbours ((content, code) :: p :: rest)
      = (content ++ p.1, p.2) :: mergeNeighbours rest :=
  if_pos h

lemma mergeNeighbours_of_not_isJoiner {code : Text} (h : isJoiner code = false) (content : Text)
    (rest : List (Text × Text)) :
    mergeNeighbours ((content, code) :: rest) = (content, code) :: mergeNeighbours rest := by
  cases rest with
  | nil => rfl
  | cons p rest => exact if_neg (by simp [h])

/-! ### Out of step

The scan has put code together.  It has fewer segments to come then than the merging of neighbours,
which has kept some literals; these have no code behind them, since else the two results would
differ already.  Either the scan is at an opening quote now, or at a closing one with a segment of
code ahead.  Each step from one of the two leads to one of the two, with fewer literals to come. -/

/-- At an opening quote the scan does not come to the result in which more literals are kept. -/
def ApartAtOpening (literals : List (Text × Text)) : Prop :=
  ∀ keeps, keeps ≠ [] →
    mergeAnywhere (alternate literals) ≠ alternate (bare keeps ++ mergeNeighbours literals)

/-- At a closing quote, with a segment of code ahead, it does not come to such a result either. -/
def ApartAtClosing (literals : List (Text × Text)) : Prop :=
  ∀ content code keeps, mergeAnywhere (code :: alternate literals)
    ≠ [] :: alternate (bare keeps ++ mergeNeighbours ((content, code) :: literals))

lemma bare_append_cons (keeps : List Text) (content : Text) (literals : List (Text × Text)) :
    bare keeps ++ (content, []) :: literals = bare (keeps ++ [content]) ++ literals := by
  simp [bare]

lemma apartAtOpening_cons_cons {content code : Text} {q : Text × Text}
    {rest : List (Text × Text)} (hclosing : ApartAtClosing (q :: rest))
    (hopening : ApartAtOpening rest) : ApartAtOpening ((content, code) :: q :: rest) := by
  intro keeps hkeeps h
  obtain _ | ⟨kept, keeps⟩ := keeps
  · exact hkeeps rfl
  cases hcode : isJoiner code with
  | true =>
      rw [mergeNeighbours_of_isJoiner hcode] at h
      simp only [alternate_cons, mergeAnywhere_of_isJoiner hcode] at h
      obtain ⟨-, hbehind, hrest⟩ : content ++ q.1 = kept ∧ q.2 = [] ∧ mergeAnywhere (alternate rest)
          = alternate (bare keeps ++ (content ++ q.1, q.2) :: mergeNeighbours rest) := by
        simpa [bare_cons] using h
      rw [hbehind, bare_append_cons] at hrest
      exact hopening _ (by simp) hrest
  | false =>
      simp only [alternate_cons, mergeAnywhere_of_not_isJoiner hcode] at h
      rw [bare_cons, List.cons_append, alternate_cons] at h
      exact hclosing content code keeps (List.cons.inj h).2

lemma apartAtClosing_cons_cons {p q : Text × Text} {rest : List (Text × Text)}
    (hopening : ApartAtOpening (p :: q :: rest)) (hclosing : ApartAtClosing rest) :
    ApartAtClosing (p :: q :: rest) := by
  intro content code keeps h
  cases hcontent : isJoiner p.1 with
  | true =>
      simp only [alternate_cons, mergeAnywhere_of_isJoiner hcontent] at h
      obtain ⟨⟨hcode, hcode'⟩, hrest⟩ : (code = [] ∧ p.2 = []) ∧
          q.1 :: mergeAnywhere (q.2 :: alternate rest)
            = alternate (bare keeps ++ mergeNeighbours ((content, code) :: p :: q :: rest)) := by
        simpa using h
      obtain ⟨content', code'⟩ := p
      obtain rfl : code' = [] := hcode'
      rw [hcode, mergeNeighbours_of_not_isJoiner not_isJoiner_nil,
        mergeNeighbours_of_not_isJoiner not_isJoiner_nil, bare_append_cons,
        bare_append_cons] at hrest
      obtain ⟨kept, keeps', hkeeps⟩ :=
        List.exists_cons_of_ne_nil (List.concat_ne_nil content' (keeps ++ [content]))
      rw [hkeeps, bare_cons, List.cons_append, alternate_cons] at hrest
      exact hclosing q.1 q.2 keeps' (List.cons.inj hrest).2
  | false =>
      simp only [alternate_cons, mergeAnywhere_of_not_isJoiner hcontent] at h
      obtain ⟨hcode, hrest⟩ : code = [] ∧ mergeAnywhere (alternate (p :: q :: rest))
          = alternate (bare keeps ++ mergeNeighbours ((content, code) :: p :: q :: rest)) := by
        simpa using h
      rw [hcode, mergeNeighbours_of_not_isJoiner not_isJoiner_nil, bare_append_cons] at hrest
      exact hopening _ (by simp) hrest

lemma apart (literals : List (Text × Text)) :
    ApartAtOpening literals ∧ ApartAtClosing literals := by
  induction literals using List.twoStepInduction with
  | nil =>
      refine ⟨fun keeps hkeeps h => ?_, fun content code keeps h => ?_⟩
      · cases keeps with
        | nil => exact hkeeps rfl
        | cons kept keeps => cases h
      · have hlen := congrArg List.length h
        simp [mergeAnywhere, mergeNeighbours] at hlen
  | singleton p =>
      refine ⟨fun keeps hkeeps h => ?_, fun content code keeps h => ?_⟩
      · cases keeps with
        | nil => exact hkeeps rfl
        | cons kept keeps =>
            have hlen := congrArg List.length h
            simp [mergeAnywhere, mergeNeighbours, bare_cons] at hlen
      · have hcode : code = [] := (List.cons.inj h).1
        rw [hcode, mergeNeighbours_of_not_isJoiner not_isJoiner_nil] at h
        have hlen := congrArg List.length h
        simp [mergeAnywhere, mergeNeighbours] at hlen
  | cons_cons p q rest ih ih' =>
      have hopening : ApartAtOpening (p :: q :: rest) := apartAtOpening_cons_cons (ih' q).2 ih.1
      exact ⟨hopening, apartAtClosing_cons_cons hopening ih.2⟩

/-! ### In step -/

/-- The scan merges neighbours, and only them, exactly if it stays in step. -/
lemma mergeAnywhere_eq_iff (literals : List (Text × Text)) :
    mergeAnywhere (alternate literals) = alternate (mergeNeighbours literals) ↔
      staysInStep literals = true := by
  fun_induction staysInStep literals with
  | case1 content code content' code' rest hcode ih =>
      rw [mergeNeighbours_of_isJoiner hcode]
      simp only [alternate_cons, mergeAnywhere_of_isJoiner hcode, List.cons.injEq, true_and, ih]
  | case2 content code content' code' rest hcode ih =>
      have hcode' : isJoiner code = false := by simpa using hcode
      rw [mergeNeighbours_of_not_isJoiner hcode']
      simp only [alternate_cons, mergeAnywhere_of_not_isJoiner hcode', List.cons.injEq, true_and]
      cases rest with
      | nil => simp [mergeAnywhere, mergeNeighbours, staysInStep]
      | cons q rest =>
          cases hcontent : isJoiner content' with
          | false =>
              simp only [alternate_cons, mergeAnywhere_of_not_isJoiner hcontent, List.cons.injEq,
                true_and] at ih ⊢
              simpa using ih
          | true =>
              -- the scan puts the code on both sides of this literal together
              simp only [alternate_cons, mergeAnywhere_of_isJoiner hcontent, List.cons.injEq]
              refine iff_of_false ?_ (by simp)
              rintro ⟨hcodes, hrest⟩
              obtain rfl : code' = [] := by simpa using hcodes
              rw [mergeNeighbours_of_not_isJoiner not_isJoiner_nil, alternate_cons] at hrest
              exact (apart rest).2 q.1 q.2 [] (List.cons.inj hrest).2
  | case3 literals hshort =>
      rcases literals with _ | ⟨p, _ | ⟨q, rest⟩⟩
      · simp [mergeAnywhere, mergeNeighbours]
      · simp [mergeAnywhere, mergeNeighbours]
      · exact absurd rfl (hshort p.1 p.2 q.1 q.2 rest)

namespace QuotedText

/-- The text that is read so. -/
def text (q : QuotedText) : Text := q.front ++ quoteEach (alternate q.literals)

/-- The text with its neighbouring literals merged, each of them once at most. -/
def merged (q : QuotedText) : QuotedText where
  front := q.front
  literals := mergeNeighbours q.literals
  front_plain := q.front_plain
  literals_plain := plain_mergeNeighbours q.literals_plain

lemma segments_plain (q : QuotedText) : ∀ s ∈ alternate q.literals, '"' ∉ s := by
  intro s hs
  obtain ⟨p, hp, rfl | rfl⟩ := mem_alternate.mp hs
  · exact (q.literals_plain p hp).1
  · exact (q.literals_plain p hp).2

/-- A text is read in one way. -/
lemma text_injective : Function.Injective text := by
  intro q q' h
  obtain ⟨hfront, hsegments⟩ := append_quoteEach_inj q.front_plain q'.front_plain q.segments_plain
    q'.segments_plain h
  exact QuotedText.ext hfront (alternate_injective hsegments)

/-- Every text with an even number of quotes can be read. -/
lemma exists_text_eq {text : Text} (heven : Even (text.count '"')) :
    ∃ q : QuotedText, q.text = text := by
  obtain ⟨front, segments, hfront, hsegments, rfl⟩ := exists_segments text
  rw [count_append_quoteEach hfront hsegments] at heven
  obtain ⟨literals, rfl⟩ := exists_alternate heven
  refine ⟨⟨front, literals, hfront, fun p hp => ⟨?_, ?_⟩⟩, rfl⟩
  · exact hsegments p.1 (mem_alternate.mpr ⟨p, hp, .inl rfl⟩)
  · exact hsegments p.2 (mem_alternate.mpr ⟨p, hp, .inr rfl⟩)

lemma foldLiterals_text_iff (q : QuotedText) :
    foldLiterals q.text = q.merged.text ↔ staysInStep q.literals = true := by
  rw [← mergeAnywhere_eq_iff, text,
    foldLiterals_append_quoteEach q.front_plain q.segments_plain]
  constructor
  · intro h
    exact (append_quoteEach_inj q.front_plain q.merged.front_plain
      (plain_mergeAnywhere q.segments_plain) q.merged.segments_plain h).2
  · intro h
    rw [h]
    rfl

end QuotedText

/-- **When only real neighbours are merged.**  A text with an even number of quotes has one reading
as code and literals.  Merging joined literals does with it what the reading asks for, each literal
merged with the next one exactly where the code between them is `..`, from left to right and each
once at most, and all else left alone, exactly if the scan stays in step: behind a literal that it
has passed over unmerged, the next one does not read as the operator, unless it is the last. -/
theorem foldLiterals_eq_merged_iff (text : Text) (heven : Even (text.count '"')) :
    ∃ q : QuotedText, (∀ q' : QuotedText, q'.text = text ↔ q' = q) ∧
      (foldLiterals text = q.merged.text ↔ staysInStep q.literals = true) := by
  obtain ⟨q, rfl⟩ := QuotedText.exists_text_eq heven
  exact ⟨q, fun q' => QuotedText.text_injective.eq_iff, q.foldLiterals_text_iff⟩

/-- A chain of three, of which the scan merges the first two, with the operator as the content of
the last one. -/
theorem foldLiterals_eq_merged_iff_chain :
    let text := "x = \"a\"..\"b\" .. \"..\"".toList
    Even (text.count '"') ∧
      ∃ q : QuotedText, (∀ q' : QuotedText, q'.text = text ↔ q' = q) ∧
        (foldLiterals text = q.merged.text ↔ staysInStep q.literals = true) :=
  ⟨by decide, foldLiterals_eq_merged_iff _ (by decide)⟩

/-- A literal that holds the operator is taken for it: the code on both sides of the literal is put
together, and the literal is lost. -/
theorem foldLiterals_swallows_literal :
    let q : QuotedText :=
      { front := "print(".toList
        literals := [("a".toList, ", ".toList), (" .. ".toList, ", ".toList),
          ("b".toList, ")".toList)]
        front_plain := by decide
        literals_plain := by decide }
    q.text = "print(\"a\", \" .. \", \"b\")".toList ∧ q.merged = q ∧
      foldLiterals q.text = "print(\"a\", , \"b\")".toList := by
  exact ⟨by decide, QuotedText.ext rfl (by decide), by decide +kernel⟩

end LuaUnveil
