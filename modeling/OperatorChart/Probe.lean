import OperatorChart.Block
/-!
# Probes

Before an edit replaces a block it looks for a marker of its own output in the block, and in
a few lines behind it.
-/

namespace OperatorChart

/-- A marker and the number of lines behind a block in which to look for it. -/
structure Probe where
  marker : Text
  lookahead : Nat
  deriving DecidableEq, Repr

namespace Probe

/-- Whether the marker occurs in a block or in the lines looked at behind it. -/
def found (probe : Probe) (lines : List Line) (block : Block) : Bool :=
  ((lines.take (block.stop + probe.lookahead)).drop block.start).any fun line =>
    Text.hasInfix probe.marker line

end Probe

end OperatorChart
