import OperatorChart.Text.Basic
import OperatorChart.Unicode.CaseIgnorable
import OperatorChart.Unicode.Cased
import OperatorChart.Unicode.LowerCase
/-!
# Lower case

The lower-case form of a text. Each character has its own form, but for the capital sigma, whose
form depends on whether it ends a word.
-/

namespace OperatorChart.Text

/-- Whether the first character that is not case-ignorable is cased. -/
def startsCased (t : Text) : Bool :=
  ((t.dropWhile Unicode.isCaseIgnorable).head?).any Unicode.isCased

/-- The lower-case form of a text behind the characters `before`, given from the last one on. -/
def lowerCaseFrom (before : Text) : Text → Text
  | [] => []
  | 'Σ' :: t =>
    (if startsCased before && !startsCased t then 'ς' else 'σ') :: lowerCaseFrom ('Σ' :: before) t
  | c :: t => Unicode.lowerCase c ++ lowerCaseFrom (c :: before) t

def lowerCase (t : Text) : Text :=
  lowerCaseFrom [] t

end OperatorChart.Text
