import NumaHeap.Size.Word
import NumaHeap.Text.Blank

/-!
Reading plain text: its fields between separators, the two sides of a mark, and whole numbers.
-/

namespace NumaHeap.Text

/-- The maximal runs of characters that are no separators, in order. -/
def fields (separates : Char → Bool) : List Char → List (List Char)
  | [] => []
  | c :: rest =>
    if separates c then fields separates rest
    else
      (c :: rest.takeWhile fun d => !separates d) ::
        fields separates (rest.dropWhile fun d => !separates d)
termination_by text => text.length
decreasing_by
  · simp
  · have shorter := (List.dropWhile_sublist (fun d => !separates d) (l := rest)).length_le
    simp only [List.length_cons]
    omega

/-- The fields between blanks. -/
def words (text : List Char) : List (List Char) := fields isBlank text

/-- The texts before and after the first occurrence of a mark. -/
def cut? (mark : List Char) : List Char → Option (List Char × List Char)
  | [] => if mark.isEmpty then some ([], []) else none
  | c :: rest =>
    if mark.isPrefixOf (c :: rest) then some ([], (c :: rest).drop mark.length)
    else (cut? mark rest).map fun (before, after) => (c :: before, after)

/-- The number that decimal digits stand for. -/
def digitsValue (digits : List Char) : Nat :=
  digits.foldl (fun value c => 10 * value + (c.toNat - '0'.toNat)) 0

/-- A whole number below the word bound: ASCII digits, at least one, after at most one plus sign. -/
def number? (text : List Char) : Option Nat :=
  let digits := if text.head? = some '+' then text.tail else text
  if digits.isEmpty || !digits.all Char.isDigit then none
  else Word.fit? (digitsValue digits)

end NumaHeap.Text
