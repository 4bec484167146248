import Custody.Text.Digits

/-!
# Positions at the end of messages

A position is a line and a column, written as ` at line 3 column 14` at the end of a message.  It is
no part of what the message says, so it is left out where the message alone is wanted.  What is left
out is the marks and their numbers, and nothing before them.
-/

namespace Custody.Text

/-- The text before a mark and the number after it, if a text ends with these.  The number fits an
unsigned word. -/
def beforeNumber? (mark cs : List Char) : Option (List Char) :=
  let digits := (cs.reverse.takeWhile Char.isDigit).reverse
  if digits.isEmpty || 0xffffffffffffffff < digitsValue digits then none
  else mark.isSuffixOf? (cs.reverse.dropWhile Char.isDigit).reverse

/-- A text that has another at its start is that one and the rest. -/
theorem eq_append_of_isPrefixOf? : ∀ {mark cs rest : List Char},
    mark.isPrefixOf? cs = some rest → cs = mark ++ rest
  | [], _, _, h => Option.some.inj h
  | _ :: _, [], _, h => nomatch h
  | c :: mark, d :: cs, rest, h => by
    change (if c == d then mark.isPrefixOf? cs else none) = some rest at h
    split at h
    · next hcd =>
      rw [beq_iff_eq.1 hcd, eq_append_of_isPrefixOf? h, List.cons_append]
    · cases h

/-- A message without the position at its end.  Of several positions only the last is left out. -/
def withoutPosition (message : String) : String :=
  let before? := (beforeNumber? " column ".toList message.toList).bind
    (beforeNumber? " at line ".toList)
  match before? with
  | some before => String.ofList before
  | none => message

end Custody.Text
