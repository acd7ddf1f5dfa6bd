/-!
# Words and offsets

The instruction stream is a sequence of signed 32-bit words. Positions in it, and the counts
read from it, are natural numbers that must fit a 64-bit machine word whenever they are added
or multiplied.
-/

namespace ThreadedCode

/-- A word of the instruction stream. -/
abbrev Word := Int32

namespace Word

/-- The word read as a count or a position; negative words are neither. -/
def index? (word : Word) : Option Nat := word.toInt.toNat?

/-- The word in decimal. -/
def text (word : Word) : String := toString word.toInt

theorem index?_eq_some_iff {word : Word} {index : Nat} :
    word.index? = some index ↔ word.toInt = index := by
  unfold index?
  cases word.toInt with
  | ofNat stored =>
      exact ⟨fun found => congrArg Int.ofNat (Option.some.inj found),
        fun same => congrArg some (Int.ofNat.inj same)⟩
  | negSucc stored => exact ⟨nofun, fun same => by omega⟩

theorem index?_eq_none_iff {word : Word} : word.index? = none ↔ word.toInt < 0 := by
  unfold index?
  cases word.toInt with
  | ofNat stored =>
      exact ⟨nofun, fun below => absurd below (Int.not_lt.mpr (Int.natCast_nonneg stored))⟩
  | negSucc stored => exact ⟨fun _ => by omega, fun _ => rfl⟩

end Word

namespace Offset

/-- One past the largest offset a machine word holds. -/
def bound : Nat := UInt64.size

/-- The sum, unless it overflows a machine word. -/
def add? (a b : Nat) : Option Nat := if a + b < bound then some (a + b) else none

/-- The product, unless it overflows a machine word. -/
def mul? (a b : Nat) : Option Nat := if a * b < bound then some (a * b) else none

theorem add?_eq_some_iff {a b c : Nat} : add? a b = some c ↔ a + b < bound ∧ a + b = c := by
  simp [add?]

theorem mul?_eq_some_iff {a b c : Nat} : mul? a b = some c ↔ a * b < bound ∧ a * b = c := by
  simp [mul?]

end Offset

end ThreadedCode
