import ThreadedCode.Text.Utf8
import ThreadedCode.Word

/-!
# Little-endian numbers

Numbers are stored with their low byte first. A buffer is read as words by cutting it into groups
of four bytes, where a last group that is too short counts as if zeros followed it.
-/

namespace ThreadedCode

namespace LittleEndian

/-- The number that the bytes spell. -/
def value : Bytes → Nat
  | [] => 0
  | byte :: rest => byte.toNat + 256 * value rest

/-- The low bytes of a number, as many as asked for. -/
def bytes : Nat → Nat → Bytes
  | 0, _ => []
  | width + 1, number => UInt8.ofNat number :: bytes width (number / 256)

/-- The word that the bytes spell. -/
def word (stored : Bytes) : Word := (UInt32.ofNat (value stored)).toInt32

/-- The words of a buffer. -/
def words : Bytes → List Word
  | first :: second :: third :: fourth :: rest => word [first, second, third, fourth] :: words rest
  | [] => []
  | rest => [word rest]

/-- The number of zero bytes after some bytes that reaches the next word. -/
def padding (length : Nat) : Nat := (4 - length % 4) % 4

@[simp] theorem bytes_length (width number : Nat) : (bytes width number).length = width := by
  induction width generalizing number with
  | zero => rfl
  | succ width ih => simp [bytes, ih]

@[simp] theorem bytes_value (stored : Bytes) : bytes stored.length (value stored) = stored := by
  induction stored with
  | nil => rfl
  | cons byte rest ih =>
      have small := byte.toNat_lt
      have low : UInt8.ofNat (byte.toNat + 256 * value rest) = byte := by
        apply UInt8.toNat.inj
        rw [UInt8.toNat_ofNat']
        omega
      have high : (byte.toNat + 256 * value rest) / 256 = value rest := by omega
      simp only [List.length_cons, value, bytes, low, high, ih]

end LittleEndian

end ThreadedCode
