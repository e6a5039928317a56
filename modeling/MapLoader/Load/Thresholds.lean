import MapLoader.Number.Width
import MapLoader.Table

/-! When buffers are flushed and transactions committed. Sizes are counts of 64 bits that stay at
their greatest value instead of passing it. -/

namespace MapLoader

def addSaturating (m n : Nat) : Nat := min (m + n) maxUInt64

def mulSaturating (m n : Nat) : Nat := min (m * n) maxUInt64

structure Thresholds where
  /-- Entries of a buffer that make it full. -/
  row : Nat
  /-- Entries since the last commit that make a commit due. -/
  commit : Nat
  /-- The same for the tables of member lists, counted by parents. -/
  memberCommit : Nat
  deriving DecidableEq, Repr

namespace Thresholds

/-- Member lists are committed after five full buffers of parents. -/
def ofRowCommit (row commit : Nat) : Thresholds := ⟨row, commit, mulSaturating row 5⟩

def withMemberCommit (h : Thresholds) (memberCommit : Nat) : Thresholds := { h with memberCommit }

def default : Thresholds := ofRowCommit 10000 1000000

instance : Inhabited Thresholds := ⟨default⟩

def commitFor (h : Thresholds) (t : Table) : Nat :=
  if t.isMemberList then h.memberCommit else h.commit

end Thresholds

end MapLoader
