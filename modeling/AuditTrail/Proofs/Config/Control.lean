import AuditTrail.Proofs.Config.Settings

namespace AuditTrail

open Config

def ControlEntry.pair? (entry : String) : Option (String × String) :=
  (Text.cut? ':' entry).map fun (key, value) => (Text.trim key, Text.trim value)

theorem ControlEntry.pair?_of_splitsAs {entry : String} {pair : String × String}
    (h : SplitsAs entry pair) : pair? entry = some pair := by
  obtain ⟨front, back, parts, first, rfl⟩ := h
  have found : Text.cut? ':' entry = some (front, back) :=
    Text.cut?_eq_some_iff.2 ⟨parts, first⟩
  rw [pair?, found]
  rfl

theorem ControlEntry.filterMap_pair? {lines : List String} {pairs : List (String × String)}
    (h : List.Forall₂ SplitsAs lines pairs) : lines.filterMap pair? = pairs := by
  induction h with
  | nil => rfl
  | cons here _ ih => rw [List.filterMap_cons_some (pair?_of_splitsAs here), ih]

namespace Control

def pairs (text : String) : List (String × String) :=
  (Config.entries text).filterMap (ControlEntry.pair? ·.2)

def last? (key : String) (text : String) : Option String := (pairs text).reverse.lookup key

variable {text : String} {c : Control}

theorem entries_of_read (h : read text = .ok c) : c.entries = pairs text := by
  rw [← ControlEntry.filterMap_pair? (splitsAs_of_read h), ← map_snd_entries, List.filterMap_map]
  rfl

theorem flags_of_read (h : read text = .ok c) : c.flags = last? "flags" text := by
  rw [(consistent_of_read h).flags, get?, entries_of_read h, last?]

end Control

end AuditTrail
