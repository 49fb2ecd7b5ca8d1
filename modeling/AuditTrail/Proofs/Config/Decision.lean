import AuditTrail.Config.Users
import AuditTrail.Proofs.Config.Control
import AuditTrail.Proofs.Config.Flags
import AuditTrail.Proofs.Preselector

namespace AuditTrail

theorem Preselector.selects_new (db : Database) (number : UInt16) (mask : Mask)
    (selection : Selection) :
    (selects db number mask selection .useCache {}).1 =
      match db.event? number with
      | some e => .ok (mask.selects e.mask selection)
      | none => .error ⟨number⟩ := by
  obtain ⟨q, -, told⟩ := classOf_eq db number .useCache {}
  have cached : (({} : Preselector).known db).queried db number .useCache = .ofDatabase db := rfl
  rw [cached, ClassCache.lookup_ofDatabase, Database.bits?] at told
  rw [selects, told]
  cases db.event? number <;> rfl

namespace Control

def systemFlags (text : String) : List Flag := Flag.list ((last? "flags" text).getD "")

variable {classes : List EventClass} {text : String} {c : Control}

theorem systemMask_of_read (h : read text = .ok c) :
    c.systemMask classes = Mask.ofFlags classes ((last? "flags" text).getD "") := by
  rw [systemMask, flags_of_read h]
  cases last? "flags" text with
  | none => rfl
  | some flags => rfl

end Control

namespace UserEntry

/-- What is always and what is never audited for a user, as a line of the user file has it; without
a line, nothing is. -/
def flagLists (line? : Option String) : List Flag × List Flag :=
  match line?.map (Text.fields ':') with
  | some [_, always, never] => (Flag.list always, Flag.list never)
  | _ => ([], [])

theorem audits_of_read {classes : List EventClass} {line : String} {u : UserEntry}
    (h : read classes line = .ok u) (o : Outcome) (k : Nat) :
    (u.always.audits o k = true ↔ Flag.Audited classes (flagLists line).1 o k) ∧
      (u.never.audits o k = true ↔ Flag.Audited classes (flagLists line).2 o k) := by
  unfold read at h
  split at h
  · next name always never parts =>
    obtain ⟨-, h⟩ := ite_error_eq_ok.1 h
    obtain ⟨a, halways, h⟩ := bind_eq_ok.1 h
    obtain ⟨n, hnever, h⟩ := bind_eq_ok.1 h
    cases h
    simp only [flagLists, Option.map_some, parts]
    exact ⟨Mask.audits_of_ofFlags halways o k, Mask.audits_of_ofFlags hnever o k⟩
  · cases h

end UserEntry

section

variable {classes : List EventClass} {text : String} {control : Control}
  (hcontrol : Control.read text = .ok control) {line? : Option String} {user? : Option UserEntry}
  (huser : line?.mapM (UserEntry.read classes) = .ok user?)
include hcontrol

theorem userMask_of_not_known (unknown : ∃ flag ∈ Control.systemFlags text, ¬flag.Known classes) :
    ∃ name, userMask classes control user? = .error (.unknownClass name) := by
  obtain ⟨-, flag, -, -, -, -, refused⟩ := Mask.ofFlags_of_not_known unknown
  rw [← Control.systemMask_of_read hcontrol] at refused
  refine ⟨flag.name, ?_⟩
  rw [userMask, refused]
  rfl

include huser

theorem userMask_of_known (known : ∀ flag ∈ Control.systemFlags text, flag.Known classes) :
    ∃ mask, userMask classes control user? = .ok mask ∧ ∀ o k, mask.audits o k = true ↔
      ¬Flag.Audited classes (UserEntry.flagLists line?).2 o k ∧
        (Flag.Audited classes (UserEntry.flagLists line?).1 o k ∨
          Flag.Audited classes (Control.systemFlags text) o k) := by
  obtain ⟨system, hsystem, audited⟩ := Mask.ofFlags_of_known known
  rw [← Control.systemMask_of_read hcontrol] at hsystem
  rw [userMask, hsystem]
  cases line? with
  | none =>
    cases huser
    refine ⟨system, rfl, fun o k => ?_⟩
    simp [UserEntry.flagLists, Flag.Audited, Flag.last?, audited, Control.systemFlags]
  | some line =>
    obtain ⟨user, hread, rfl⟩ := map_eq_ok.1 huser
    refine ⟨_, rfl, fun o k => ?_⟩
    obtain ⟨always, never⟩ := UserEntry.audits_of_read hread o k
    rw [Mask.audits_diff, Mask.audits_union]
    rw [← always, ← never, Control.systemFlags, ← audited]
    simp [and_comm, or_comm]

end

/-- What the configuration files say is what is decided. The flags for everybody are those of the
last entry of the control file that has any; with an unknown class among them there is no mask.
Otherwise an event of the database is audited for a selected outcome if it has a class bit that is
not among those never audited for the user, and is among those that are always, or are for
everybody. -/
theorem selects_of_configuration (classes : List EventClass) (text : String) (control : Control)
    (hcontrol : Control.read text = .ok control) (line? : Option String) (user? : Option UserEntry)
    (huser : line?.mapM (UserEntry.read classes) = .ok user?) :
    let system := Control.systemFlags text
    let always := (UserEntry.flagLists line?).1
    let never := (UserEntry.flagLists line?).2
    ((∀ flag ∈ system, flag.Known classes) →
      ∃ mask, userMask classes control user? = .ok mask ∧ ∀ db number selection,
        let told := (Preselector.selects db number mask selection .useCache {}).1
        ((∃ e, told = .error e ∧ e.toError.kind = .notFound) ↔ db.event? number = none) ∧
          ∀ e, db.event? number = some e → ∃ yes, told = .ok yes ∧
            (yes = true ↔ ∃ o k, selection.covers o = true ∧ e.mask.toBitVec.getLsbD k = true ∧
              ¬Flag.Audited classes never o k ∧
                (Flag.Audited classes always o k ∨ Flag.Audited classes system o k))) ∧
      ((∃ flag ∈ system, ¬flag.Known classes) →
        ∃ e, userMask classes control user? = .error e ∧ e.kind = .notFound) := by
  intro system always never
  refine ⟨fun known => ?_, fun unknown => ?_⟩
  · obtain ⟨mask, hmask, audits⟩ := userMask_of_known hcontrol huser known
    refine ⟨mask, hmask, fun db number selection => ?_⟩
    simp only [Preselector.selects_new]
    cases found : db.event? number with
    | none => exact ⟨⟨fun _ => rfl, fun _ => ⟨_, rfl, rfl⟩⟩, nofun⟩
    | some e =>
      refine ⟨⟨nofun, nofun⟩, ?_⟩
      rintro _ ⟨⟩
      refine ⟨_, rfl, ?_⟩
      simp only [Mask.selects_iff, audits]
      rfl
  · obtain ⟨name, refused⟩ := userMask_of_not_known hcontrol unknown
    exact ⟨_, refused, rfl⟩

theorem selects_of_configuration_overridden :
    let classes : List EventClass :=
      [⟨0, "no", "no class"⟩, ⟨2, "fw", "file write"⟩, ⟨0x1000, "lo", "login"⟩,
        ⟨0x1003, "all", "all classes"⟩]
    let text := "# site\nflags:lo\ndir:/var/audit\n flags : all, ^-fw \n"
    let line := "bob:-fw:+lo"
    let control : Control :=
      { entries := [("flags", "lo"), ("dir", "/var/audit"), ("flags", "all, ^-fw")]
        directories := ["/var/audit"]
        flags := "all, ^-fw" }
    let user : UserEntry := ⟨"bob", { failure := 2 }, { success := 0x1000 }⟩
    let db : Database := { events := [⟨23, "AUE_EXECVE", "execve(2)", 0x1002⟩] }
    Control.read text = .ok control ∧
      (some line).mapM (UserEntry.read classes) = .ok (some user) ∧
      (∀ flag ∈ Control.systemFlags text, flag.Known classes) ∧
      ∃ mask, userMask classes control (some user) = .ok mask ∧
        (Preselector.selects db 23 mask .failure .useCache {}).1 = .ok true ∧
        ∃ e, (Preselector.selects db 24 mask .both .useCache {}).1 = .error e ∧
          e.toError.kind = .notFound := by
  intro classes text line control user db
  have hcontrol : Control.read text = .ok control := by decide +kernel
  have huser : (some line).mapM (UserEntry.read classes) = .ok (some user) := by decide +kernel
  have known : ∀ flag ∈ Control.systemFlags text, flag.Known classes := by decide +kernel
  obtain ⟨mask, hmask, decided⟩ :=
    (selects_of_configuration classes text control hcontrol line user huser).1 known
  obtain ⟨yes, told, audited⟩ := (decided db 23 .failure).2 _ rfl
  -- The bit of file writes; both flags that are about it come last in their lists.
  have selected : yes = true := audited.2 ⟨.failure, 1, by decide +kernel⟩
  rw [selected] at told
  exact ⟨hcontrol, huser, known, mask, hmask, told, (decided db 24 .both).1.2 rfl⟩

end AuditTrail
