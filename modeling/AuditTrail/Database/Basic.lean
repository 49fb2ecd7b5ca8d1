namespace AuditTrail

structure EventClass where
  mask : UInt32
  name : String
  description : String
  deriving DecidableEq

structure Event where
  number : UInt16
  name : String
  description : String
  mask : UInt32
  deriving DecidableEq

/-- Classes are in the order in which their names first came, events in the order of their
numbers. -/
structure Database where
  classes : List EventClass := []
  events : List Event := []
  users : List (UInt32 × String) := []
  groups : List (UInt32 × String) := []
  deriving DecidableEq

namespace Database

def putClass (c : EventClass) : List EventClass → List EventClass
  | [] => [c]
  | d :: ds => if d.name = c.name then c :: ds else d :: putClass c ds

def putEvent (e : Event) : List Event → List Event
  | [] => [e]
  | d :: ds =>
    if e.number < d.number then e :: d :: ds
    else if e.number = d.number then e :: ds
    else d :: putEvent e ds

def putName (id : UInt32) (name : String) (names : List (UInt32 × String)) :
    List (UInt32 × String) :=
  (id, name) :: names.filter (·.1 != id)

def addClass (db : Database) (c : EventClass) : Database :=
  { db with classes := putClass c db.classes }

def addEvent (db : Database) (e : Event) : Database :=
  { db with events := putEvent e db.events }

def eraseEvent (db : Database) (number : UInt16) : Database :=
  { db with events := db.events.filter (·.number != number) }

def addUser (db : Database) (id : UInt32) (name : String) : Database :=
  { db with users := putName id name db.users }

def addGroup (db : Database) (id : UInt32) (name : String) : Database :=
  { db with groups := putName id name db.groups }

def class? (db : Database) (name : String) : Option EventClass :=
  db.classes.find? (·.name == name)

def event? (db : Database) (number : UInt16) : Option Event :=
  db.events.find? (·.number == number)

def user? (db : Database) (id : UInt32) : Option String :=
  db.users.lookup id

def group? (db : Database) (id : UInt32) : Option String :=
  db.groups.lookup id

end Database

end AuditTrail
