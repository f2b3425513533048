/-
  Primacy.Text.Number

  The numbers that stand in a text.
-/
import Primacy.Text.Numeral

namespace Primacy.Text

/-- Maps every number of a text: every longest run of digits, with a minus sign right in front
of it; `f` keeps the empty text.  `run` holds the run so far, in reverse. -/
def mapNumbersFrom (f : List Char → List Char) (run : List Char) : List Char → List Char
  | [] => f run.reverse
  | c :: cs =>
    if isDigit c then mapNumbersFrom f (c :: run) cs
    else if c = '-' then f run.reverse ++ mapNumbersFrom f ['-'] cs
    else f run.reverse ++ c :: mapNumbersFrom f [] cs

/-- Maps every number of a text. -/
def mapNumbers (f : String → String) (s : String) : String :=
  String.ofList (mapNumbersFrom (fun cs => (f (String.ofList cs)).toList) [] s.toList)

end Primacy.Text
