import Mathlib.Data.Nat.Notation

namespace Xv6

abbrev BSIZE : ℕ := 512
abbrev MAXOPBLOCKS : ℕ := 10
abbrev LOGSIZE : ℕ := MAXOPBLOCKS * 3
abbrev FSSIZE : ℕ := 1000
abbrev NINODES : ℕ := 200
abbrev NINODE : ℕ := 50
abbrev NFILE : ℕ := 100
abbrev NOFILE : ℕ := 16

end Xv6
