import Mathlib.Data.List.Basic
import Mathlib.Data.Nat.Notation

/-!
# Strings of bytes

A C string is the list of its bytes before the terminating NUL.
-/

namespace Dchat

/-- Bytes of memory, or the bytes of a C string before its NUL. -/
abbrev Bytes := List UInt8

end Dchat
