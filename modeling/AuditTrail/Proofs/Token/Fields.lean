import AuditTrail.Proofs.Text.Joined
import AuditTrail.Token.Render

namespace AuditTrail

namespace Identity

def users (who : Identity) : List UInt32 := [who.auditId, who.euid, who.ruid]

def groups (who : Identity) : List UInt32 := [who.egid, who.rgid]

end Identity

namespace Style

open Numeral

variable {style : Style} {db db' : Database}

section Raw

variable (raw : style.raw = true)
include raw

@[simp] theorem user_raw (id : UInt32) : style.user db id = signed32 id := by
  rw [user, if_pos raw]

@[simp] theorem group_raw : style.group db = signed32 :=
  funext fun id => by rw [group, if_pos raw]

@[simp] theorem event_raw (number : UInt16) : style.event db number = decimal number.toNat := by
  simp [event, raw]

@[simp] theorem seconds_raw (s : UInt32) : style.seconds s = decimal s.toNat := by
  rw [seconds, if_pos raw]

@[simp] theorem milliseconds_raw (ms : UInt32) : style.milliseconds ms = decimal ms.toNat := by
  rw [milliseconds, if_pos raw]

@[simp] theorem status_raw (number : UInt8) : style.status number = decimal number.toNat := by
  rw [status, if_pos raw]

end Raw

theorem user_congr {id : UInt32} (h : db.user? id = db'.user? id) :
    style.user db id = style.user db' id := by
  rw [user, user, h]

theorem group_congr {id : UInt32} (h : db.group? id = db'.group? id) :
    style.group db id = style.group db' id := by
  rw [group, group, h]

theorem header_congr {h : Header} (same : db.event? h.event = db'.event? h.event) :
    style.header db h = style.header db' h := by
  rw [header, header, event, event, same]

theorem identity_congr {who : Identity} (user : ∀ id ∈ who.users, db.user? id = db'.user? id)
    (group : ∀ id ∈ who.groups, db.group? id = db'.group? id) :
    style.identity db who = style.identity db' who := by
  simp only [Identity.users, Identity.groups, List.forall_mem_cons] at user group
  obtain ⟨auditId, euid, ruid, -⟩ := user
  obtain ⟨egid, rgid, -⟩ := group
  rw [identity, identity, user_congr auditId, user_congr euid, user_congr ruid,
    group_congr egid, group_congr rgid]

end Style

namespace Token

def events : Token → List UInt16
  | header h | headerEx h _ => [h.event]
  | _ => []

def users : Token → List UInt32
  | attributes a => [a.uid]
  | ipcPerm p => [p.uid, p.creatorUid]
  | process who _ | processEx who _ | subject who _ | subjectEx who _ => who.users
  | _ => []

def groupIds : Token → List UInt32
  | attributes a => [a.gid]
  | groups ids => ids
  | ipcPerm p => [p.gid, p.creatorGid]
  | process who _ | processEx who _ | subject who _ | subjectEx who _ => who.groups
  | _ => []

/-- Two databases have the same to tell of what occurs in a token. -/
structure SameNames (token : Token) (db db' : Database) : Prop where
  event : ∀ number ∈ token.events, db.event? number = db'.event? number
  user : ∀ id ∈ token.users, db.user? id = db'.user? id
  group : ∀ id ∈ token.groupIds, db.group? id = db'.group? id

variable {token : Token} {style style' : Style} {db db' : Database}

theorem details_raw (raw : style.raw = true) (raw' : style'.raw = true) :
    token.details style db = token.details style' db' := by
  cases token
  all_goals simp [details, Style.header, Style.identity, raw, raw']

theorem fields_raw (raw : style.raw = true) (raw' : style'.raw = true) :
    token.fields style db = token.fields style' db' := by
  rw [fields, fields, raw, raw', details_raw raw raw']

theorem details_congr (same : token.SameNames db db') :
    token.details style db = token.details style db' := by
  cases token with
  | header h | headerEx h host =>
    simp only [details, Style.header_congr (same.event h.event List.mem_cons_self)]
  | process who terminal | processEx who terminal | subject who terminal
  | subjectEx who terminal =>
    simp only [details, Style.identity_congr same.user same.group]
  | attributes a =>
    simp only [details, Style.user_congr (same.user a.uid List.mem_cons_self),
      Style.group_congr (same.group a.gid List.mem_cons_self)]
  | ipcPerm p =>
    have user : ∀ id ∈ [p.uid, p.creatorUid], style.user db id = style.user db' id :=
      fun id member => Style.user_congr (same.user id member)
    have group : ∀ id ∈ [p.gid, p.creatorGid], style.group db id = style.group db' id :=
      fun id member => Style.group_congr (same.group id member)
    rw [details, details, user p.uid (by simp), user p.creatorUid (by simp), group p.gid (by simp),
      group p.creatorGid (by simp)]
  | groups ids =>
    exact List.map_congr_left fun id member => Style.group_congr (same.group id member)
  | _ => rfl

theorem fields_congr (same : token.SameNames db db') :
    token.fields style db = token.fields style db' := by
  rw [fields, fields, details_congr same]

theorem eq_fields {texts : List String} (some : texts ≠ [])
    (joined : ∀ delimiter oneLine, token.render { style with delimiter, oneLine } db =
      delimiter.intercalate texts) : texts = token.fields style db :=
  Text.eq_of_intercalate (a := ',') (b := ';') (by decide) some (List.cons_ne_nil _ _)
    (joined "," false).symm (joined ";" false).symm

/-- A token is printed as its fields with a delimiter between them. The fields are the same for each
delimiter, the first is the name or the tag, and names that do not occur in the token, or any at
all in raw style, do not matter for them. -/
theorem render_factors (token : Token) (style : Style) :
    ∃ fields : Database → List String,
      (∀ db, (fields db).head? =
        some (if style.raw then Numeral.decimal token.tag.toNat else token.name)) ∧
      (∀ db delimiter oneLine, token.render { style with delimiter, oneLine } db =
        delimiter.intercalate (fields db)) ∧
      (∀ db texts, texts ≠ [] →
        (∀ delimiter oneLine, token.render { style with delimiter, oneLine } db =
          delimiter.intercalate texts) → texts = fields db) ∧
      (style.raw = true → ∀ db db', fields db = fields db') ∧
      ∀ db db', token.SameNames db db' → fields db = fields db' :=
  ⟨token.fields style, fun _ => rfl, fun _ _ _ => rfl, fun _ _ => eq_fields,
    fun raw _ _ => fields_raw raw raw, fun _ _ => fields_congr⟩

theorem render_factors_ipcPerm :
    let token := ipcPerm ⟨1, 2, 1, 2, 0o644, 0, 0⟩
    let db : Database := { users := [(1, "daemon")] }
    let db' := (db.addUser 2 "operator").addGroup 1 "wheel"
    token.SameNames db db' ∧
      token.render {} db = "IPC perm,daemon,2,daemon,2,644,0,0" ∧
      token.render {} db' = token.render {} db ∧
      token.render { raw := true } db' = token.render { raw := true } {} := by
  intro token db db'
  have same : token.SameNames db db' :=
    { event := nofun
      user := List.forall_mem_cons.2 ⟨rfl, List.forall_mem_singleton.2 rfl⟩
      group := List.forall_mem_cons.2 ⟨rfl, List.forall_mem_singleton.2 rfl⟩ }
  obtain ⟨fields, -, joined, -, -, congr⟩ := render_factors token {}
  obtain ⟨rawFields, -, rawJoined, -, raw, -⟩ := render_factors token { raw := true }
  refine ⟨same, by decide +kernel, ?_, ?_⟩
  · calc
      token.render {} db' = ",".intercalate (fields db') := joined db' "," false
      _ = ",".intercalate (fields db) := by rw [congr db db' same]
      _ = token.render {} db := (joined db "," false).symm
  · calc
      token.render { raw := true } db' = ",".intercalate (rawFields db') :=
        rawJoined db' "," false
      _ = ",".intercalate (rawFields {}) := by rw [raw rfl db' {}]
      _ = token.render { raw := true } {} := (rawJoined {} "," false).symm

end Token

end AuditTrail
