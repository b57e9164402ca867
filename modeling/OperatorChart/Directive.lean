import OperatorChart.Line
/-!
# Template directives

The directives a template holds are lines with a fixed wording. A probe looks for the wording
of an edit in its own output, which is what makes a second edit do nothing.
-/

namespace OperatorChart

inductive Directive
  /-- Opens a part that is rendered when the expression holds. -/
  | ifThen (expression : Text)
  /-- Opens the alternative part. -/
  | otherwise
  /-- Closes a part. -/
  | close
  /-- Opens a part that is rendered for each element. -/
  | range (expression : Text)
  /-- Stands for the value of an expression, eating the white space before it. -/
  | trimmedValue (expression : Text)
  /-- Stands for the value of an expression. -/
  | value (expression : Text)
  deriving DecidableEq, Repr

namespace Directive

def render : Directive → Text
  | ifThen expression => "\x7b\x7b- if ".toList ++ expression ++ " \x7d\x7d".toList
  | otherwise => "\x7b\x7b- else \x7d\x7d".toList
  | close => "\x7b\x7b- end \x7d\x7d".toList
  | range expression => "\x7b\x7b- range ".toList ++ expression ++ " \x7d\x7d".toList
  | trimmedValue expression => "\x7b\x7b- ".toList ++ expression ++ " \x7d\x7d".toList
  | value expression => "\x7b\x7b ".toList ++ expression ++ " \x7d\x7d".toList

end Directive

end OperatorChart
