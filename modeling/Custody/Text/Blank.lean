/-!
# Blank text

Identifiers and names must hold something besides white space.  White space is the Unicode
property `White_Space`, so a no-break space does not count as content and a zero-width space does.
-/

namespace Custody.Text

/-- The 25 characters of the Unicode property `White_Space`. -/
def isSpace (c : Char) : Bool :=
  let n := c.toNat
  (0x09 ≤ n && n ≤ 0x0d) || n = 0x20 || n = 0x85 || n = 0xa0 || n = 0x1680 ||
    (0x2000 ≤ n && n ≤ 0x200a) || n = 0x2028 || n = 0x2029 || n = 0x202f || n = 0x205f ||
    n = 0x3000

/-- A text is blank when all of it is white space; the empty text is blank. -/
def isBlank (s : String) : Bool :=
  s.toList.all isSpace

/-- A text that is found not to be blank has content. -/
theorem isBlank_eq_false {s : String} (h : ¬isBlank s = true) : isBlank s = false :=
  Bool.eq_false_iff.2 h

@[simp] theorem isBlank_empty : isBlank "" = true := rfl

/-- A text is blank exactly when no character of it is content. -/
theorem isBlank_iff {s : String} : isBlank s = true ↔ ∀ c ∈ s.toList, isSpace c = true := by
  simp [isBlank]

/-- One character of content is enough. -/
theorem isBlank_of_mem {s : String} {c : Char} (h : c ∈ s.toList) (hc : isSpace c = false) :
    isBlank s = false := by
  apply isBlank_eq_false
  intro hblank
  rw [isBlank_iff.mp hblank c h] at hc
  cases hc

theorem isBlank_append (s t : String) : isBlank (s ++ t) = (isBlank s && isBlank t) := by
  simp [isBlank, String.toList_append]

end Custody.Text
