import Mathlib.Algebra.Group.Int.Defs
import Mathlib.Algebra.Group.Nat.Defs
import Mathlib.Tactic.SplitIfs

/-! # The built-in logger

How `xlogging_logger_v` of `prx_log.c` fills its message buffer. Positions count from the start of the buffer, modulo
the size of an address.
-/
namespace EdgeProxy.Util

def messageSize : ℕ := 2048

/-- There is no header, or it fills the buffer; or the text is written nowhere else, and the line ends in the buffer
unless nothing is made of its end. -/
def Fits (header text : Int) (logLine trace : Bool) : Prop :=
  header = 0 ∨ header = messageSize - 1 ∨
    (text < 0 ∨ 0 < header ∧ header < messageSize - 1) ∧
      (0 ≤ header + text ∧ header + text < messageSize ∨ trace ∧ !logLine)

variable {header : Int32}

end EdgeProxy.Util
