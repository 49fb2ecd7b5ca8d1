import AuditTrail.Database.Basic
import AuditTrail.Error
import AuditTrail.Mask

/-! Preselection: whether an event is audited under a mask, by the classes of the event. Classes
come from a database, by way of a cache. -/

namespace AuditTrail

inductive CachePolicy
  | useCache
  | reread
  deriving DecidableEq

structure UnknownEvent where
  number : UInt16
  deriving DecidableEq

def UnknownEvent.toError (e : UnknownEvent) : Error :=
  ⟨.notFound, s!"event {e.number} is not in the event database"⟩

abbrev ClassCache := List (UInt16 × UInt32)

namespace ClassCache

def ofDatabase (db : Database) : ClassCache :=
  db.events.map fun e => (e.number, e.mask)

def erase (cache : ClassCache) (number : UInt16) : ClassCache :=
  cache.filter (·.1 != number)

def insert (cache : ClassCache) (number : UInt16) (bits : UInt32) : ClassCache :=
  (number, bits) :: cache.erase number

end ClassCache

/-- The cache, once it is loaded, and how often the database was read: as a whole, and for a
single event. -/
structure Preselector where
  cache : Option ClassCache := none
  loads : Nat := 0
  lookups : Nat := 0
  deriving DecidableEq

namespace Preselector

def reload (db : Database) (p : Preselector) : Preselector :=
  { p with cache := some (.ofDatabase db), loads := p.loads + 1 }

def loaded (db : Database) (p : Preselector) : ClassCache × Preselector :=
  match p.cache with
  | some cache => (cache, p)
  | none => (.ofDatabase db, p.reload db)

/-- The class bits of an event. Reading them anew also brings the cache up to date for this event,
and for no other. -/
def classOf (db : Database) (number : UInt16) (policy : CachePolicy) (p : Preselector) :
    Except UnknownEvent UInt32 × Preselector :=
  let (cache, p) := p.loaded db
  match policy with
  | .useCache =>
    match cache.lookup number with
    | some bits => (.ok bits, p)
    | none => (.error ⟨number⟩, p)
  | .reread =>
    let p := { p with lookups := p.lookups + 1 }
    match db.event? number with
    | some e => (.ok e.mask, { p with cache := some (cache.insert number e.mask) })
    | none => (.error ⟨number⟩, { p with cache := some (cache.erase number) })

def selects (db : Database) (number : UInt16) (mask : Mask) (selection : Selection)
    (policy : CachePolicy) (p : Preselector) : Except UnknownEvent Bool × Preselector :=
  let (bits, p) := p.classOf db number policy
  (bits.map (mask.selects · selection), p)

end Preselector

end AuditTrail
