/-!
# Comparison without regard to ASCII case

Column names, operator names and dialect names are compared letter by letter with `A`–`Z` taken
as `a`–`z`; every other character stands for itself.
-/

namespace Targeting.Text

/-- Text with `A`–`Z` written as `a`–`z`. -/
def lowerAscii (s : String) : String := String.ofList (s.toList.map Char.toLower)

/-- Equality of two texts without regard to ASCII case. -/
def sameLetters (s t : String) : Bool := s.toList.map Char.toLower == t.toList.map Char.toLower

theorem toLower_toLower (c : Char) : c.toLower.toLower = c.toLower := by
  unfold Char.toLower
  split <;> grind [UInt32.toNat_add]

theorem lowerAscii_lowerAscii (s : String) : lowerAscii (lowerAscii s) = lowerAscii s := by
  rw [lowerAscii, lowerAscii, String.toList_ofList, List.map_map]
  exact congrArg String.ofList (List.map_congr_left fun c _ => toLower_toLower c)

theorem lowerAscii_append (s t : String) : lowerAscii (s ++ t) = lowerAscii s ++ lowerAscii t := by
  rw [lowerAscii, String.toList_append, List.map_append, String.ofList_append, lowerAscii, lowerAscii]

theorem sameLetters_iff {s t : String} : sameLetters s t = true ↔ lowerAscii s = lowerAscii t := by
  rw [sameLetters, beq_iff_eq, lowerAscii, lowerAscii, String.ofList_inj]

theorem sameLetters_refl (s : String) : sameLetters s s = true := by simp [sameLetters]

theorem sameLetters_comm (s t : String) : sameLetters s t = sameLetters t s := by
  simp [sameLetters, Bool.beq_comm]

end Targeting.Text
