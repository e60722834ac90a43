import LuaUnveil.Text.Basic

/-!
# Ledgers

A ledger holds values by their keys, in the order in which the keys were first written.  The first
write of a key stands.  Keys are looked up in an index, which leads to the positions of their
entries.

* `Ledger.get?`: the value of a key, by way of the index.
* `Ledger.write`: the value of a key, written now or before, and the ledger with it.
-/

namespace LuaUnveil

/-- Keys with their values, in the order of first writing, and an index of the keys.  The index
holds the position of each key that was written, and nothing else. -/
structure Ledger (β : Type) where
  entries : List (Text × β) := []
  index : List (Text × Nat) := []
  index_eq : ∀ key, index.lookup key = entries.findIdx? (fun e => e.1 == key) := by
    exact fun _ => rfl
  deriving Repr, DecidableEq

namespace Ledger

variable {β : Type}

/-- The number of keys. -/
def size (ledger : Ledger β) : Nat := ledger.entries.length

/-- The position of a key, as the index has it. -/
def position? (ledger : Ledger β) (key : Text) : Option Nat := ledger.index.lookup key

theorem position?_lt {ledger : Ledger β} {key : Text} {i : Nat}
    (h : ledger.position? key = some i) : i < ledger.entries.length := by
  rw [position?, ledger.index_eq] at h
  exact (List.findIdx?_eq_some_iff_getElem.mp h).1

/-- The value of a key, if it was written: the one in the entry to which the index leads. -/
def get? (ledger : Ledger β) (key : Text) : Option β :=
  match h : ledger.position? key with
  | some i => some (ledger.entries.get ⟨i, position?_lt h⟩).2
  | none => none

/-- A new entry at the end goes with a new position in the index. -/
theorem index_eq_push {ledger : Ledger β} {key : Text} (h : ledger.position? key = none)
    (value : β) (other : Text) :
    List.lookup other ((key, ledger.size) :: ledger.index)
      = (ledger.entries ++ [(key, value)]).findIdx? (fun e => e.1 == other) := by
  rw [position?, ledger.index_eq] at h
  rw [List.findIdx?_append, List.findIdx?_singleton, List.lookup_cons]
  by_cases hother : other = key
  · rw [hother, h]
    simp [size]
  · have hne : (other == key) = false := by simpa using hother
    rw [hne, ledger.index_eq]
    simp [Ne.symm hother]

/-- The value of a key, and the ledger that then holds it.  A key that was not written gets the
value that is given. -/
def write (ledger : Ledger β) (key : Text) (value : β) : β × Ledger β :=
  match h : ledger.position? key with
  | some i => ((ledger.entries.get ⟨i, position?_lt h⟩).2, ledger)
  | none =>
    (value,
      { entries := ledger.entries ++ [(key, value)]
        index := (key, ledger.size) :: ledger.index
        index_eq := index_eq_push h value })

end Ledger

end LuaUnveil
