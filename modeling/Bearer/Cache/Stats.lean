/-
  Cache statistics.
-/

namespace Bearer

/-- Counts of what reads found, and of failures of the shared cache. -/
structure CacheStats where
  localHits : Nat
  sharedHits : Nat
  misses : Nat
  sharedErrors : Nat
  deriving DecidableEq, Repr, Inhabited

namespace CacheStats

/-- Nothing has been counted. -/
def zero : CacheStats := ⟨0, 0, 0, 0⟩

/-- Reads that found something. -/
def hits (s : CacheStats) : Nat := s.localHits + s.sharedHits

/-- All reads. -/
def reads (s : CacheStats) : Nat := s.hits + s.misses

/-- The share of reads that found something, in percent; zero if there were none. -/
def hitRate (s : CacheStats) : Float :=
  if s.reads = 0 then 0 else Float.ofNat s.hits / Float.ofNat s.reads * 100

def countLocalHit (s : CacheStats) : CacheStats := { s with localHits := s.localHits + 1 }
def countSharedHit (s : CacheStats) : CacheStats := { s with sharedHits := s.sharedHits + 1 }
def countMiss (s : CacheStats) : CacheStats := { s with misses := s.misses + 1 }
def countSharedError (s : CacheStats) : CacheStats := { s with sharedErrors := s.sharedErrors + 1 }

end CacheStats

end Bearer
