/-
Files opened with `APPEND`.  The flag only moves the new file to the end once;
from then on it writes at its own position, so what others have written behind
it in the meantime is overwritten.
-/
import Redwing.OpenFiles

namespace Redwing.OpenFiles

open Function List

variable {W P : Type}

section

variable {inodes : INodes W P} {content : W → Nat → List UInt8}
  {room : W → Nat → Nat → Nat → Prop} {s : Sys W}

end

end Redwing.OpenFiles
