namespace AuditTrail

theorem bind_eq_ok {x : Except ε α} {f : α → Except ε β} {b : β} :
    (x >>= f) = .ok b ↔ ∃ a, x = .ok a ∧ f a = .ok b := by
  cases x with
  | ok a => exact ⟨fun h => ⟨a, rfl, h⟩, fun ⟨_, same, h⟩ => by cases same; exact h⟩
  | error e => exact ⟨nofun, nofun⟩

theorem map_eq_ok {x : Except ε α} {f : α → β} {b : β} :
    x.map f = .ok b ↔ ∃ a, x = .ok a ∧ f a = b := by
  cases x with
  | ok a => simp [Except.map]
  | error e => exact ⟨nofun, nofun⟩

theorem map_eq_error {x : Except ε α} {f : α → β} {e : ε} : x.map f = .error e ↔ x = .error e := by
  cases x <;> simp [Except.map]

theorem exists_map_eq_ok_iff {x : Except ε α} {f : α → β} :
    (∃ b, x.map f = .ok b) ↔ ¬∃ e, x = .error e := by
  cases x with
  | ok a => exact iff_of_true ⟨f a, rfl⟩ nofun
  | error e => exact iff_of_false nofun fun absent => absent ⟨e, rfl⟩

theorem mapError_eq_error {x : Except ε α} {f : ε → δ} {d : δ} :
    x.mapError f = .error d ↔ ∃ e, x = .error e ∧ f e = d := by
  cases x with
  | ok a => exact ⟨nofun, nofun⟩
  | error e =>
    constructor
    · rintro ⟨⟩
      exact ⟨e, rfl, rfl⟩
    · rintro ⟨_, ⟨⟩, rfl⟩
      rfl

theorem mapError_eq_ok {x : Except ε α} {f : ε → δ} {a : α} : x.mapError f = .ok a ↔ x = .ok a := by
  cases x with
  | ok b => exact ⟨fun h => congrArg _ (Except.ok.inj h), fun h => congrArg _ (Except.ok.inj h)⟩
  | error e => exact ⟨nofun, nofun⟩

theorem ite_error_eq_ok {p : Prop} [Decidable p] {e : ε} {x : Except ε α} {a : α} :
    (if p then .error e else x) = .ok a ↔ ¬p ∧ x = .ok a := by
  split
  · rename_i h
    exact ⟨nofun, fun ⟨absent, _⟩ => absurd h absent⟩
  · rename_i h
    exact (and_iff_right h).symm

theorem mapM_id_ok (as : List α) : (as.map Except.ok).mapM id = (.ok as : Except ε (List α)) := by
  rw [List.mapM_map]
  exact List.mapM_pure.trans (congrArg _ (List.map_id _))

theorem mapM_id_error (as : List α) (e : ε) (others : List (Except ε α)) :
    (as.map .ok ++ .error e :: others : List (Except ε α)).mapM id = .error e := by
  rw [List.mapM_append, mapM_id_ok]
  rfl

theorem map_of_mapM_ok {f : α → Except ε β} {g : α → Except δ β} {as : List α} {bs : List β}
    (same : ∀ a b, f a = .ok b → g a = .ok b) (h : as.mapM f = .ok bs) :
    as.map g = bs.map .ok := by
  induction as generalizing bs with
  | nil =>
    cases h
    rfl
  | cons a as ih =>
    rw [List.mapM_cons] at h
    obtain ⟨b, first, h⟩ := bind_eq_ok.1 h
    obtain ⟨others, hothers, h⟩ := bind_eq_ok.1 h
    cases h
    rw [List.map_cons, List.map_cons, same a b first, ih hothers]

theorem mapM_eq_ok_iff {f : α → Except ε β} {as : List α} {bs : List β} :
    as.mapM f = .ok bs ↔ as.map f = bs.map .ok := by
  constructor
  · exact map_of_mapM_ok fun _ _ h => h
  · intro same
    rw [← Function.id_comp f, ← List.mapM_map, same, mapM_id_ok]

end AuditTrail
