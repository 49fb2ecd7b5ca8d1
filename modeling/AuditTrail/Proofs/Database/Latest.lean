import AuditTrail.Database.Basic
import Mathlib.Data.List.Induction
import Mathlib.Data.List.Nodup

/-! Databases after any edits. What was put last under a key is what is found there, unless it was
erased since; classes stay in the order in which their names first came, and events in that of their
numbers. -/

namespace AuditTrail

theorem eraseDups_append_singleton [BEq α] [LawfulBEq α] (as : List α) (a : α) :
    (as ++ [a]).eraseDups = if a ∈ as.eraseDups then as.eraseDups else as.eraseDups ++ [a] := by
  rw [List.eraseDups_append]
  by_cases known : a ∈ as <;> simp [List.removeAll, List.eraseDups_cons, known]

theorem nodup_eraseDups [BEq α] [LawfulBEq α] (as : List α) : as.eraseDups.Nodup := by
  induction as using List.reverseRecOn with
  | nil => exact List.nodup_nil
  | append_singleton as a ih =>
    rw [eraseDups_append_singleton]
    split
    · exact ih
    · next new => exact List.nodup_append_comm.1 (List.nodup_cons.2 ⟨new, ih⟩)

theorem find?_eq_some_iff_of_nodup [DecidableEq κ] {key : α → κ} {as : List α}
    (distinct : (as.map key).Nodup) {k : κ} {a : α} :
    as.find? (key · == k) = some a ↔ a ∈ as ∧ key a = k := by
  constructor
  · intro found
    exact ⟨List.mem_of_find?_eq_some found, by simpa using List.find?_some found⟩
  · rintro ⟨member, rfl⟩
    obtain ⟨b, found⟩ : ∃ b, as.find? (key · == key a) = some b :=
      Option.isSome_iff_exists.1 (List.find?_isSome.2 ⟨a, member, by simp⟩)
    have same : key b = key a := by simpa using List.find?_some found
    rw [found, List.inj_on_of_nodup_map distinct (List.mem_of_find?_eq_some found) member same]

theorem lookup_filter_ne [BEq κ] [LawfulBEq κ] [DecidableEq κ] (k l : κ) (as : List (κ × α)) :
    (as.filter (·.1 != k)).lookup l = if l = k then none else as.lookup l := by
  induction as with
  | nil => simp
  | cons a as ih => grind

namespace Database

inductive Edit
  | addClass (c : EventClass)
  | addEvent (e : Event)
  | eraseEvent (number : UInt16)
  | addUser (id : UInt32) (name : String)
  | addGroup (id : UInt32) (name : String)
  deriving DecidableEq

namespace Edit

def apply : Edit → Database → Database
  | .addClass c, db => db.addClass c
  | .addEvent e, db => db.addEvent e
  | .eraseEvent number, db => db.eraseEvent number
  | .addUser id name, db => db.addUser id name
  | .addGroup id name, db => db.addGroup id name

def className? : Edit → Option String
  | .addClass c => some c.name
  | _ => none

def class? (name : String) : Edit → Option (Option EventClass)
  | .addClass c => if c.name = name then some (some c) else none
  | _ => none

def event? (number : UInt16) : Edit → Option (Option Event)
  | .addEvent e => if e.number = number then some (some e) else none
  | .eraseEvent n => if n = number then some none else none
  | _ => none

def user? (id : UInt32) : Edit → Option (Option String)
  | .addUser i name => if i = id then some (some name) else none
  | _ => none

def group? (id : UInt32) : Edit → Option (Option String)
  | .addGroup i name => if i = id then some (some name) else none
  | _ => none

end Edit

def edited (edits : List Edit) : Database := edits.foldl (fun db edit => edit.apply db) {}

theorem edited_append_singleton (edits : List Edit) (edit : Edit) :
    edited (edits ++ [edit]) = edit.apply (edited edits) := by
  rw [edited, List.foldl_append]
  rfl

/-- Of some edits, the last one that is about a key leaves this under it. -/
def Leaves (about : Edit → Option β) (edits : List Edit) (b : β) : Prop :=
  ∃ before edit after, edits = before ++ edit :: after ∧ about edit = some b ∧
    ∀ later ∈ after, about later = none

theorem leaves_append_singleton {about : Edit → Option β} {edits : List Edit} {edit : Edit}
    {b : β} : Leaves about (edits ++ [edit]) b ↔
      about edit = some b ∨ about edit = none ∧ Leaves about edits b := by
  constructor
  · rintro ⟨before, last, after, parts, told, silent⟩
    rcases List.eq_nil_or_concat after with rfl | ⟨after, final, rfl⟩
    · cases (List.append_inj' parts rfl).2
      exact .inl told
    · rw [List.concat_eq_append, ← List.cons_append, ← List.append_assoc] at parts
      obtain ⟨rfl, same⟩ := List.append_inj' parts rfl
      cases same
      rw [List.concat_eq_append, List.forall_mem_append, List.forall_mem_singleton] at silent
      exact .inr ⟨silent.2, before, last, after, rfl, told, silent.1⟩
  · rintro (told | ⟨quiet, before, last, after, rfl, told, silent⟩)
    · exact ⟨edits, edit, [], rfl, told, nofun⟩
    · refine ⟨before, last, after ++ [edit], by simp, told, ?_⟩
      rw [List.forall_mem_append, List.forall_mem_singleton]
      exact ⟨silent, quiet⟩

/-- A look-up that every edit changes under the keys that it is about, and nowhere else, finds what
is left under the key. -/
theorem lookup_edited (look : Database → Option β) (about : Edit → Option (Option β))
    (new : look {} = none) (step : ∀ edit db, look (edit.apply db) = (about edit).getD (look db))
    (edits : List Edit) (b : β) : look (edited edits) = some b ↔ Leaves about edits (some b) := by
  induction edits using List.reverseRecOn with
  | nil =>
    refine iff_of_false (fun found => ?_) ?_
    · cases new.symm.trans found
    · rintro ⟨before, edit, after, parts, -⟩
      cases before <;> cases parts
  | append_singleton edits edit ih =>
    rw [edited_append_singleton, step, leaves_append_singleton, ← ih]
    cases about edit <;> simp

section

variable (edit : Edit) (db : Database)

theorem find?_putClass (c : EventClass) (cs : List EventClass) (name : String) :
    (putClass c cs).find? (·.name == name) =
      if c.name = name then some c else cs.find? (·.name == name) := by
  induction cs with
  | nil => grind [putClass]
  | cons d cs ih => grind [putClass]

theorem find?_putEvent (e : Event) (es : List Event) (number : UInt16) :
    (putEvent e es).find? (·.number == number) =
      if e.number = number then some e else es.find? (·.number == number) := by
  induction es with
  | nil => grind [putEvent]
  | cons d es ih => grind [putEvent]

theorem find?_filter_ne (n number : UInt16) (es : List Event) :
    (es.filter (·.number != n)).find? (·.number == number) =
      if n = number then none else es.find? (·.number == number) := by
  induction es with
  | nil => simp
  | cons e es ih => grind

theorem lookup_putName (id other : UInt32) (name : String) (names : List (UInt32 × String)) :
    (putName id name names).lookup other =
      if id = other then some name else names.lookup other := by
  rw [putName, List.lookup_cons, lookup_filter_ne]
  by_cases same : id = other
  · simp [same]
  · rw [beq_false_of_ne (Ne.symm same), if_neg (Ne.symm same), if_neg same]

theorem class?_apply (name : String) :
    (edit.apply db).class? name = (edit.class? name).getD (db.class? name) := by
  cases edit with
  | addClass c =>
    refine (find?_putClass c db.classes name).trans ?_
    rw [Edit.class?]
    split <;> rfl
  | addEvent | eraseEvent | addUser | addGroup => rfl

theorem event?_apply (number : UInt16) :
    (edit.apply db).event? number = (edit.event? number).getD (db.event? number) := by
  cases edit with
  | addEvent e =>
    refine (find?_putEvent e db.events number).trans ?_
    rw [Edit.event?]
    split <;> rfl
  | eraseEvent n =>
    refine (find?_filter_ne n number db.events).trans ?_
    rw [Edit.event?]
    split <;> rfl
  | addClass | addUser | addGroup => rfl

theorem user?_apply (id : UInt32) :
    (edit.apply db).user? id = (edit.user? id).getD (db.user? id) := by
  cases edit with
  | addUser i name =>
    refine (lookup_putName i id name db.users).trans ?_
    rw [Edit.user?]
    split <;> rfl
  | addClass | addEvent | eraseEvent | addGroup => rfl

theorem group?_apply (id : UInt32) :
    (edit.apply db).group? id = (edit.group? id).getD (db.group? id) := by
  cases edit with
  | addGroup i name =>
    refine (lookup_putName i id name db.groups).trans ?_
    rw [Edit.group?]
    split <;> rfl
  | addClass | addEvent | eraseEvent | addUser => rfl

end

theorem names_putClass (c : EventClass) (cs : List EventClass) :
    (putClass c cs).map (·.name) =
      if c.name ∈ cs.map (·.name) then cs.map (·.name) else cs.map (·.name) ++ [c.name] := by
  induction cs with
  | nil => rfl
  | cons d cs ih => grind [putClass]

theorem names_edited (edits : List Edit) :
    (edited edits).classes.map (·.name) = (edits.filterMap Edit.className?).eraseDups := by
  induction edits using List.reverseRecOn with
  | nil => rfl
  | append_singleton edits edit ih =>
    rw [edited_append_singleton, List.filterMap_append]
    cases edit with
    | addClass c =>
      refine (names_putClass c _).trans ?_
      rw [ih]
      exact (eraseDups_append_singleton _ c.name).symm
    | addEvent | eraseEvent | addUser | addGroup =>
      rw [List.filterMap_cons_none rfl, List.filterMap_nil, List.append_nil]
      exact ih

theorem mem_putEvent {d e : Event} {es : List Event} (h : d ∈ putEvent e es) : d = e ∨ d ∈ es := by
  induction es with
  | nil => simpa [putEvent] using h
  | cons f es ih => grind [putEvent]

theorem ascending_putEvent (e : Event) {es : List Event} (h : es.Pairwise (·.number < ·.number)) :
    (putEvent e es).Pairwise (·.number < ·.number) := by
  induction es with
  | nil => exact List.pairwise_singleton _ e
  | cons d es ih =>
    obtain ⟨least, others⟩ := List.pairwise_cons.1 h
    rw [putEvent]
    split_ifs with before same
    · refine List.pairwise_cons.2 ⟨?_, h⟩
      rintro f (_ | ⟨_, behind⟩)
      · exact before
      · exact UInt16.lt_trans before (least f behind)
    · refine List.pairwise_cons.2 ⟨fun f behind => ?_, others⟩
      exact same ▸ least f behind
    · refine List.pairwise_cons.2 ⟨fun f member => ?_, ih others⟩
      rcases mem_putEvent member with rfl | behind
      · exact UInt16.lt_of_le_of_ne (UInt16.not_lt.1 before) (Ne.symm same)
      · exact least f behind

theorem ascending_edited (edits : List Edit) :
    (edited edits).events.Pairwise (·.number < ·.number) := by
  induction edits using List.reverseRecOn with
  | nil => exact .nil
  | append_singleton edits edit ih =>
    rw [edited_append_singleton]
    cases edit with
    | addEvent e => exact ascending_putEvent e ih
    | eraseEvent => exact ih.filter _
    | addClass | addUser | addGroup => exact ih

/-- A database that has what some edits leave under each key, and nothing else. -/
structure Reflects (db : Database) (edits : List Edit) : Prop where
  distinct : (db.classes.map (·.name)).Nodup
  /-- Each name stands where it first came. -/
  names_eq : db.classes.map (·.name) = (edits.filterMap Edit.className?).eraseDups
  mem_classes_iff : ∀ c, c ∈ db.classes ↔ Leaves (Edit.class? c.name) edits (some c)
  class?_iff : ∀ name c, db.class? name = some c ↔ c ∈ db.classes ∧ c.name = name
  ascending : db.events.Pairwise (·.number < ·.number)
  mem_events_iff : ∀ e, e ∈ db.events ↔ Leaves (Edit.event? e.number) edits (some e)
  event?_iff : ∀ number e, db.event? number = some e ↔ e ∈ db.events ∧ e.number = number
  user?_iff : ∀ id name, db.user? id = some name ↔ Leaves (Edit.user? id) edits (some name)
  group?_iff : ∀ id name, db.group? id = some name ↔ Leaves (Edit.group? id) edits (some name)

theorem reflects_edited (edits : List Edit) : (edited edits).Reflects edits := by
  have distinct : ((edited edits).classes.map (·.name)).Nodup := by
    rw [names_edited]
    exact nodup_eraseDups _
  have numbers : ((edited edits).events.map (·.number)).Nodup :=
    List.pairwise_map.2 ((ascending_edited edits).imp UInt16.ne_of_lt)
  refine ⟨distinct, names_edited edits, fun c => ?_, fun name c => ?_, ascending_edited edits,
    fun e => ?_, fun number e => ?_, fun id name => ?_, fun id name => ?_⟩
  · rw [← lookup_edited (·.class? c.name) _ rfl fun edit db => class?_apply edit db c.name]
    exact ((find?_eq_some_iff_of_nodup distinct).trans (and_iff_left rfl)).symm
  · exact find?_eq_some_iff_of_nodup distinct
  · rw [← lookup_edited (·.event? e.number) _ rfl fun edit db => event?_apply edit db e.number]
    exact ((find?_eq_some_iff_of_nodup numbers).trans (and_iff_left rfl)).symm
  · exact find?_eq_some_iff_of_nodup numbers
  · exact lookup_edited (·.user? id) _ rfl (fun edit db => user?_apply edit db id) edits name
  · exact lookup_edited (·.group? id) _ rfl (fun edit db => group?_apply edit db id) edits name

end Database

end AuditTrail
