import ClassDiagram.Trace
/-!
# Caches of diagram URLs

A cache keeps the URL of a fragment for a span of time, its lifetime. The style is no part of the
key. Time is a number that the caller reads off a clock; an entry is fresh as long as less time
than the lifetime has passed since it was stored, so with a lifetime of zero no entry is ever
fresh.
-/

namespace ClassDiagram

/-- The operations of a cache, and what they report. -/
class FragmentCache (κ : Type) where
  /-- The URL kept for a fragment, and the cache after the look. -/
  get : κ → Nat → String → Option String × κ
  /-- What a look reports. -/
  getEvents : κ → Nat → String → List Event
  /-- Stores the URL of a fragment. -/
  insert : κ → Nat → String → String → κ
  /-- What storing reports. -/
  insertEvents : κ → Nat → List Event

/-- The URL of a fragment, and the time at which it was stored. -/
structure CachedUrl where
  fragment : String
  stored : Nat
  url : String
deriving DecidableEq, Repr

/-- A cache in memory. -/
structure UrlCache where
  lifetime : Nat
  entries : List CachedUrl := []
  /-- There is at most one entry for each fragment. -/
  nodup : (entries.map CachedUrl.fragment).Nodup := by exact List.nodup_nil

namespace UrlCache

/-- The number of entries, fresh or not. -/
def size (c : UrlCache) : Nat := c.entries.length

/-- There is no entry. -/
def isEmpty (c : UrlCache) : Bool := c.entries.isEmpty

/-- The entry for a fragment. -/
def find? (c : UrlCache) (fragment : String) : Option CachedUrl :=
  c.entries.find? fun e => e.fragment == fragment

/-- The cache with only those entries that `p` holds of. -/
def filter (c : UrlCache) (p : CachedUrl → Bool) : UrlCache where
  lifetime := c.lifetime
  entries := c.entries.filter p
  nodup := c.nodup.sublist (List.filter_sublist.map _)

/-- The cache without the entry for a fragment. -/
def erase (c : UrlCache) (fragment : String) : UrlCache :=
  c.filter fun e => e.fragment != fragment

theorem not_mem_erase (c : UrlCache) (fragment : String) :
    fragment ∉ (c.erase fragment).entries.map CachedUrl.fragment := by
  simp [erase, filter]

/-- The cache with the entry for its fragment replaced. -/
def put (c : UrlCache) (e : CachedUrl) : UrlCache where
  lifetime := c.lifetime
  entries := e :: (c.erase e.fragment).entries
  nodup := List.nodup_cons.2 ⟨c.not_mem_erase e.fragment, (c.erase e.fragment).nodup⟩

/-- The entry is fresh at the time `now`. -/
def isFresh (c : UrlCache) (now : Nat) (e : CachedUrl) : Bool := now - e.stored < c.lifetime

/-- The cache without the entries that are not fresh. -/
def sweep (c : UrlCache) (now : Nat) : UrlCache := c.filter (c.isFresh now)

/-- The URL kept for a fragment. An entry that is no longer fresh is dropped. -/
def get (c : UrlCache) (now : Nat) (fragment : String) : Option String × UrlCache :=
  match c.find? fragment with
  | none => (none, c)
  | some e => if c.isFresh now e then (some e.url, c) else (none, c.erase fragment)

/-- A look reports an entry that is dropped. -/
def getEvents (c : UrlCache) (now : Nat) (fragment : String) : List Event :=
  match c.find? fragment with
  | none => []
  | some e => if c.isFresh now e then [] else [.urlExpired fragment.utf8ByteSize]

/-- Stores the URL of a fragment. All entries that are no longer fresh are dropped before. -/
def insert (c : UrlCache) (now : Nat) (fragment url : String) : UrlCache :=
  (c.sweep now).put { fragment, stored := now, url }

/-- Storing reports how many entries are dropped. -/
def insertEvents (c : UrlCache) (now : Nat) : List Event :=
  let dropped := c.size - (c.sweep now).size
  if dropped = 0 then [] else [.urlsDropped dropped]

instance : FragmentCache UrlCache := ⟨get, getEvents, insert, insertEvents⟩

end UrlCache

/-- A cache that may be shared. It drops entries in silence and keeps none for longer than a
thousand years. -/
structure SharedCache where
  store : UrlCache
  lifetime_le : store.lifetime ≤ 1000 * 365 * 24 * 60 * 60

namespace SharedCache

/-- The empty cache of a lifetime, if the lifetime is not too long. -/
def ofLifetime? (lifetime : Nat) : Option SharedCache :=
  if h : lifetime ≤ 1000 * 365 * 24 * 60 * 60 then some ⟨{ lifetime }, h⟩ else none

/-- The URL kept for a fragment. -/
def get (c : SharedCache) (now : Nat) (fragment : String) : Option String × SharedCache :=
  ((c.store.get now fragment).1, c)

/-- Stores the URL of a fragment. -/
def insert (c : SharedCache) (now : Nat) (fragment url : String) : SharedCache :=
  ⟨c.store.insert now fragment url, c.lifetime_le⟩

instance : FragmentCache SharedCache := ⟨get, fun _ _ _ => [], insert, fun _ _ => []⟩

end SharedCache

end ClassDiagram
