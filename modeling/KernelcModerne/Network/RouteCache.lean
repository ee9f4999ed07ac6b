import Mathlib.Data.List.Induction
import KernelcModerne.Lib.RecentLog

open RecentLog

namespace Kernel.Network

structure RouteEntry where
  destination : String
  nextHop : String
  timestamp : Nat

structure RouteCache where
  cache : List RouteEntry

namespace RouteCache

def maxCacheSize : Nat := 1000

def constructed : RouteCache where
  cache := []

def addEntry (self : RouteCache) (dest nextHop : String) (now : Nat) : RouteCache :=
  let cache := if self.cache.length ≥ maxCacheSize then self.cache.tail else self.cache
  { cache := cache ++ [⟨dest, nextHop, now⟩] }

/-- Whatever was added, the cache holds the last 1000 entries, oldest first. -/
theorem cache_addEntry_foldl (entries : List RouteEntry) :
    (entries.foldl (fun self entry => self.addEntry entry.destination entry.nextHop entry.timestamp)
      constructed).cache = recent maxCacheSize entries := by
  induction entries using List.reverseRecOn with
  | nil => exact (recent_nil maxCacheSize).symm
  | append_singleton entries entry ih =>
    rw [List.foldl_concat, ← trimPush_recent (by decide) entries entry, ← ih]
    rfl

end RouteCache

end Kernel.Network
