/-! The ranges of whole numbers of 32 and 64 bits. -/

namespace MapLoader

def maxInt32 : Nat := 0x7fffffff

def maxUInt32 : Nat := 0xffffffff

def maxUInt64 : Nat := 0xffffffffffffffff

def minInt64 : Int := -0x8000000000000000

def maxInt64 : Int := 0x7fffffffffffffff

def fitsInt64 (n : Int) : Bool := minInt64 ≤ n && n ≤ maxInt64

def fitsInt32 (n : Int) : Bool := -0x80000000 ≤ n && n ≤ 0x7fffffff

end MapLoader
