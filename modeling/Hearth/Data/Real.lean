import Hearth.Data.Basic
import Hearth.Number.Text

/-!
# Hearth.Data.Real

Numbers that need not be finite: the ones that are not are written by their names.
-/

namespace Hearth.Data

def anyReal (x : Float) : Data :=
  if x.isFinite then real x else .text (Number.display x)

def anyReal? : Data → Option Float
  | .number n => some n.toFloat
  | .text "NaN" => some (0.0 / 0.0)
  | .text "inf" => some (1.0 / 0.0)
  | .text "-inf" => some (-1.0 / 0.0)
  | _ => none

end Hearth.Data
