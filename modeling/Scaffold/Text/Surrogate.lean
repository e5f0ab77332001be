/-!
Halves of surrogate pairs. A half that stands alone is no character, yet an escape can write it; it is
carried by a character of its own from the end of the last plane. These characters, which have no use of
their own, cannot be told from the halves.
-/

namespace Scaffold.Text

def isHighHalf (n : Nat) : Bool := 0xD800 ≤ n && n < 0xDC00

def isLowHalf (n : Nat) : Bool := 0xDC00 ≤ n && n < 0xE000

def firstHalf : Nat := 0xD800

def firstCarrier : Nat := 0x10F800

/-- The character that carries a half. -/
def carrier (half : Nat) : Char := Char.ofNat (firstCarrier + (half - firstHalf))

/-- The half that a character carries. -/
def carried? (c : Char) : Option Nat :=
  if firstCarrier ≤ c.toNat then some (c.toNat - firstCarrier + firstHalf) else none

theorem carried?_carrier {half : Nat} (low : 0xD800 ≤ half) (high : half < 0xE000) :
    carried? (carrier half) = some half := by
  have valid : (firstCarrier + (half - firstHalf)).isValidChar := by
    simp only [firstCarrier, firstHalf, Nat.isValidChar]; omega
  have : (carrier half).toNat = firstCarrier + (half - firstHalf) := by
    rw [carrier, Char.ofNat, dif_pos valid]
    rfl
  simp only [carried?, this, firstCarrier, firstHalf]
  simp; omega

end Scaffold.Text
