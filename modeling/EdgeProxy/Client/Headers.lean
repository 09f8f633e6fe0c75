import EdgeProxy.Client.Reading

/-! # Sizes in headers

On a machine of either byte order the reader gives back what the writer wrote there. The bytes of a size are in the
order of the machine, so that two machines write the same only for a size of one byte or one whose bytes read the same
backwards.
-/
namespace EdgeProxy.Client
open Lib Lib.MessagePack List UInt8

variable {α : Type} {n : ℕ} {little : Bool}

def Returns (w : Write Unit) (r : Read α) (a : α) : Prop :=
  ∃ b, Writes w b ∧ ∀ st, ∃ st', Consumes r b st a st'

end EdgeProxy.Client
