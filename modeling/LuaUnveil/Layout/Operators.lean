import LuaUnveil.Layout.BlankLines

/-!
# Spacing of operators

The last pass squeezes runs of blank lines, trims the whole text, and then puts exactly one space
on both sides of each operator, kind after kind.  Two operators of one kind next to each other so
get two spaces between them, and an operator at the edge of the text gets a space at that edge.

* `OperatorKind`: the five kinds, each spaced by its own walk over the text.
* `spaceOperators`: the walk for one kind.
* `finalFormat`: the whole pass.
-/

namespace LuaUnveil

/-- Operators that are spaced together.  The comparisons and the assignment are one kind, so that
`==` never comes apart. -/
inductive OperatorKind where
  | equality | plus | minus | times | divide
  deriving Repr, DecidableEq

namespace OperatorKind

/-- The kinds in the order in which they are spaced. -/
def all : List OperatorKind := [equality, plus, minus, times, divide]

/-- The operators of a kind, the longer ones first. -/
def operators : OperatorKind → List Text
  | equality => ["==", "~=", "<=", ">=", "!=", "="].map String.toList
  | plus => ["+".toList]
  | minus => ["-".toList]
  | times => ["*".toList]
  | divide => ["/".toList]

/-- The operator of the kind that a text begins with, and the text behind it. -/
def read? (kind : OperatorKind) (text : Text) : Option (Text × Text) :=
  kind.operators.findSome? fun op => (skip? op text).map fun rest => (op, rest)

theorem length_read?_lt {kind : OperatorKind} {text op rest : Text}
    (h : kind.read? text = some (op, rest)) : rest.length < text.length := by
  obtain ⟨o, ho, hr⟩ := List.exists_of_findSome?_eq_some h
  obtain ⟨r, hp, he⟩ := Option.map_eq_some_iff.mp hr
  obtain ⟨rfl, rfl⟩ := Prod.mk.inj he
  have hne : o ≠ [] := by
    rintro rfl
    cases kind <;> simp [operators] at ho
  have := List.length_pos_iff.mpr hne
  simp only [skip?_eq_some_iff.mp hp, List.length_append]
  omega

end OperatorKind

/-- Put one space on both sides of every operator of a kind, in the place of the blanks there. -/
def spaceOperators (kind : OperatorKind) (text : Text) : Text :=
  match _ : kind.read? (dropBlanks text) with
  | some (op, rest) => ' ' :: op ++ ' ' :: spaceOperators kind (dropBlanks rest)
  | none =>
    match _ : dropBlanks text with
    | [] => text
    | c :: rest => text.takeWhile isBlank ++ c :: spaceOperators kind rest
termination_by text.length
decreasing_by
  · rename_i h
    have := OperatorKind.length_read?_lt h
    have := length_dropBlanks_le text
    have := length_dropBlanks_le rest
    omega
  · rename_i h
    have := length_dropBlanks_le text
    rw [h, List.length_cons] at this
    exact this

/-- Squeeze the blank lines, trim the text, and space the operators kind after kind. -/
def finalFormat (text : Text) : Text :=
  OperatorKind.all.foldl (fun t kind => spaceOperators kind t) (trim (squeezeBlankLines text))

end LuaUnveil
