import Mojitos.Base.Outcome
import Mojitos.Base.Text

/-! What the sensors see of the kernel at one instant: the contents of its files, the performance
events and the number of processors. -/
namespace Mojitos
open CProgram

structure Kernel where
  /-- The content behind a path, when it can be opened and read. -/
  file : Text → Option Text
  /-- What successive reads of `/proc/net/route` return; a missing entry is a failed read. -/
  route : Option (List (Option Text))
  /-- The paths that match `/sys/block/*`. -/
  blocks : List Text
  cores : Nat
  /-- The total of an event of the given type and configuration on one core. -/
  perf : Nat → UInt64 → Nat → Option UInt64

/-- `pread` from the start of a file into an array that keeps what it held beyond the bytes read. -/
def pread (kernel : Kernel) (path : Text) (buffer : List Char) (count : Nat) : Outcome (List Char) :=
  match kernel.file path with
  | some content => .done (content.take count ++ buffer.drop (content.take count).length)
  | none => .exit 1

theorem pread_success (kernel : Kernel) (path : Text) (buffer : List Char) (count : Nat) (content : Text)
    (shown : kernel.file path = some content) (short : content.length ≤ count) :
    pread kernel path buffer count = .done (content ++ buffer.drop content.length) := by
  simp only [pread,shown,List.take_of_length_le short]

end Mojitos
