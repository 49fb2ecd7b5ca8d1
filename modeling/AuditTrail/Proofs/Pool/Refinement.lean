import AuditTrail.Proofs.Pool.Ledger
import AuditTrail.Proofs.Pool.Records

namespace AuditTrail

namespace Pool

/-- A pool stands for a ledger if its descriptors name the records of the ledger. -/
structure Represents (p : Pool) (m : Ledger) : Prop where
  valid : Valid [] p
  lookup_eq : ∀ d, m.lookup d = p.record? d
  card_eq : m.keys.card = p.openRecords

theorem represents_new {config : PoolConfig} (h : config.maxRecords ≤ UInt32.size) :
    Represents { config } ∅ where
  valid := valid_new h
  lookup_eq _ := rfl
  card_eq := rfl

theorem submission_of_submits {config : PoolConfig} {wanted : Bool} (event : UInt16)
    (stamp : Stamp) {tokens : List Token} (h : Ledger.Submits config wanted tokens) :
    ∃ size, submission config wanted event stamp tokens =
        some (Record.image event stamp size tokens) ∧
      size.toNat = (Record.image event stamp size tokens).length := by
  refine ⟨_, if_pos h, ?_⟩
  rw [Record.length_image]
  exact UInt32.toNat_ofNat_of_lt' (Nat.lt_succ_of_le (Nat.le_trans h.2 config.carried))

theorem submission_of_not_submits {config : PoolConfig} {wanted : Bool} (event : UInt16)
    (stamp : Stamp) {tokens : List Token} (h : ¬Ledger.Submits config wanted tokens) :
    submission config wanted event stamp tokens = none := if_neg h

namespace Represents

variable {p q : Pool} {m : Ledger} {d : Descriptor} {tokens : List Token}

theorem not_mem_iff (h : Represents p m) : d ∉ m ↔ p.record? d = none := by
  rw [← Finmap.lookup_eq_none, h.lookup_eq]

theorem insert (h : Represents p m) (changed : p.Updated d (some tokens) q)
    (count : q.openRecords = if d ∈ m then p.openRecords else p.openRecords + 1) :
    Represents q (m.insert d tokens) where
  valid := changed.valid
  lookup_eq e := by
    rw [changed.record?_eq]
    split
    · rename_i same
      rw [same, Finmap.lookup_insert]
    · rename_i other
      rw [Finmap.lookup_insert_of_ne _ other, h.lookup_eq]
  card_eq := by
    have keys : (m.insert d tokens).keys = Insert.insert d m.keys := by
      ext e
      rw [Finset.mem_insert, Finmap.mem_keys, Finmap.mem_insert, Finmap.mem_keys]
    rw [keys, count, Finset.card_insert_eq_ite, h.card_eq]
    simp only [Finmap.mem_keys]

theorem erase (h : Represents p m) (known : m.lookup d = some tokens)
    (changed : p.Updated d none q) (count : q.openRecords + 1 = p.openRecords) :
    Represents q (m.erase d) where
  valid := changed.valid
  lookup_eq e := by
    rw [changed.record?_eq]
    split
    · rename_i same
      rw [same, Finmap.lookup_erase]
    · rename_i other
      rw [Finmap.lookup_erase_ne other, h.lookup_eq]
  card_eq := by
    have member : d ∈ m.keys := by
      rw [Finmap.mem_keys, ← Finmap.lookup_isSome, known]
      rfl
    rw [Finmap.keys_erase, Finset.card_erase_of_mem member, h.card_eq, ← count,
      Nat.add_sub_cancel]

end Represents

def Follows (sink : Sink σ) (call : Call) (p : Pool) (m : Ledger) (log : List (List UInt8))
    (s : σ) : Prop :=
  ∃ answer handed q t m',
    step sink.logged call (p, (log, s)) = (answer, (q, (log ++ handed.toList, t))) ∧
      Ledger.Step p.config sink (m, s) call answer handed (m', t) ∧
      q.config = p.config ∧ Represents q m'

namespace Represents

variable {p : Pool} {m : Ledger} (h : Represents p m) (sink : Sink σ) (log : List (List UInt8))
  (s : σ)
include h

theorem follows_unknown {call : Call} {d : Descriptor} (named : call.descriptor? = some d)
    (absent : m.lookup d = none) : Follows sink call p m log s := by
  obtain ⟨e, missing, kind⟩ := find_error (h.lookup_eq d ▸ absent)
  refine ⟨.failed e.toError, none, p, s, m, ?_,
    .unknown named (Finmap.lookup_eq_none.1 absent) kind, rfl, h⟩
  rw [Option.toList_none, List.append_nil]
  cases call with
  | openRecord => cases named
  | write =>
    cases named
    simp only [step, write, missing, Answer.of_error]
  | length =>
    cases named
    simp only [step, length, missing, Except.map, Answer.of_error]
  | close =>
    cases named
    simp only [step, close, closeWith, missing, Answer.of_error]

theorem follows_openRecord : Follows sink .openRecord p m log s := by
  rcases Nat.lt_or_ge m.keys.card p.config.maxRecords with room | full
  · obtain ⟨d, q, opened, fresh, changed, count⟩ := h.valid.openRecord_ok (h.card_eq ▸ room)
    have new : d ∉ m := h.not_mem_iff.2 fresh
    refine ⟨.opened d, none, q, s, _, ?_, .opened new room, changed.config,
      h.insert changed ?_⟩
    · simp only [step, opened, Answer.of_ok, Option.toList_none, List.append_nil]
    · rw [count, if_neg new]
  · have refused := h.valid.openRecord_error (h.card_eq ▸ full)
    refine ⟨.failed (PoolError.allOpen p.config.maxRecords).toError, none, p, s, m, ?_,
      .allOpen full rfl, rfl, h⟩
    simp only [step, refused, Answer.of_error, Option.toList_none, List.append_nil]

theorem follows_write {d : Descriptor} {tokens : List Token} (known : m.lookup d = some tokens)
    (token : Token) : Follows sink (.write d token) p m log s := by
  obtain ⟨q, written, changed, count⟩ := h.valid.write_ok (h.lookup_eq d ▸ known) token
  have member : d ∈ m := Finmap.mem_of_lookup_eq_some known
  refine ⟨.done, none, q, s, _, ?_, .wrote known, changed.config, h.insert changed ?_⟩
  · simp only [step, written, Answer.of_ok, Option.toList_none, List.append_nil]
  · rw [count, if_pos member]

theorem follows_length {d : Descriptor} {tokens : List Token}
    (known : m.lookup d = some tokens) : Follows sink (.length d) p m log s := by
  have measured := h.valid.length_ok (h.lookup_eq d ▸ known)
  refine ⟨.length (Token.totalLength tokens), none, p, s, m, ?_, .measured known, rfl, h⟩
  simp only [step, measured, Answer.of_ok, Option.toList_none, List.append_nil]

theorem follows_close {d : Descriptor} {tokens : List Token} (known : m.lookup d = some tokens)
    (wanted : Bool) (event : UInt16) (stamp : Stamp) :
    Follows sink (.close d wanted event stamp) p m log s := by
  obtain ⟨q, changed, count, closed⟩ := h.valid.close_ok (h.lookup_eq d ▸ known)
  have represents := h.erase known changed count
  by_cases submits : Ledger.Submits p.config wanted tokens
  · obtain ⟨size, image, announced⟩ := submission_of_submits event stamp submits
    rcases sunk : sink (Record.image event stamp size tokens) s with ⟨result, t⟩
    cases result with
    | ok =>
      refine ⟨.done, some _, q, t, _, ?_, .accepted known submits announced sunk,
        changed.config, represents⟩
      simp only [step, closed, image, Sink.offer, Sink.logged, sunk]
      rfl
    | error e =>
      refine ⟨.failed ⟨.submission, e.text⟩, some _, q, t, _, ?_,
        .refused known submits announced sunk, changed.config, represents⟩
      simp only [step, closed, image, Sink.offer, Sink.logged, sunk]
      rfl
  · have image := submission_of_not_submits event stamp submits
    refine ⟨.done, none, q, s, _, ?_, .dropped known submits, changed.config, represents⟩
    simp only [step, closed, image, Sink.offer, Option.toList_none, List.append_nil]
    rfl

theorem follows (call : Call) : Follows sink call p m log s := by
  cases call with
  | openRecord => exact h.follows_openRecord sink log s
  | write d token =>
    cases known : m.lookup d with
    | none => exact h.follows_unknown sink log s rfl known
    | some => exact h.follows_write sink log s known token
  | length d =>
    cases known : m.lookup d with
    | none => exact h.follows_unknown sink log s rfl known
    | some => exact h.follows_length sink log s known
  | close d wanted event stamp =>
    cases known : m.lookup d with
    | none => exact h.follows_unknown sink log s rfl known
    | some => exact h.follows_close sink log s known wanted event stamp

theorem run (calls : List Call) :
    ∃ answers images q t m',
      Pool.run sink.logged calls (p, (log, s)) = (answers, (q, (log ++ images, t))) ∧
        Ledger.Run p.config sink (m, s) calls answers images (m', t) ∧ Represents q m' := by
  induction calls generalizing p m log s with
  | nil => exact ⟨[], [], p, s, m, by rw [List.append_nil]; rfl, .nil, h⟩
  | cons call calls ih =>
    obtain ⟨answer, handed, q, t, m', stepped, first, config, represents⟩ :=
      h.follows sink log s call
    obtain ⟨answers, images, q', t', m'', ran, others, last⟩ :=
      ih represents (log ++ handed.toList) t
    refine ⟨answer :: answers, handed.toList ++ images, q', t', m'', ?_,
      .cons first (config ▸ others), last⟩
    rw [run_cons, stepped, ran, List.append_assoc]

end Represents

/-- Whatever is asked of a new pool, by whatever descriptors, and whatever its sink accepts or
refuses, it gives the answers of a ledger that starts empty, hands the sink the same bytes and
leaves it in the same state; and it counts as many open records as the ledger holds. -/
theorem run_refines_ledger (config : PoolConfig) (h : config.maxRecords ≤ UInt32.size)
    (sink : Sink σ) (s : σ) (calls : List Call) :
    ∃ answers images p t m,
      Pool.run sink.logged calls ({ config }, ([], s)) = (answers, (p, (images, t))) ∧
        Ledger.Run config sink (∅, s) calls answers images (m, t) ∧
        m.keys.card = p.openRecords := by
  obtain ⟨answers, images, p, t, m, ran, allowed, represents⟩ :=
    (represents_new h).run sink [] s calls
  exact ⟨answers, images, p, t, m, ran, allowed, represents.card_eq⟩

theorem run_refines_ledger_reused :
    let config : PoolConfig := { maxRecords := 1, maxRecordSize := 28 }
    let calls : List Call :=
      [.openRecord, .openRecord, .write ⟨0, 1⟩ (.port 25), .length ⟨0, 1⟩,
        .close ⟨0, 1⟩ true 7 {}, .openRecord, .close ⟨0, 1⟩ true 7 {},
        .write ⟨0, 2⟩ (.port 25), .write ⟨0, 2⟩ (.port 26), .close ⟨0, 2⟩ true 8 {}]
    let answers : List Answer :=
      [.opened ⟨0, 1⟩, .failed ⟨.resourceExhausted, "all 1 records are open"⟩, .done, .length 3,
        .failed ⟨.submission, "sink error (sink full)"⟩, .opened ⟨0, 2⟩,
        .failed ⟨.invalidDescriptor, "record 0 was closed (generation 1, now 2)"⟩,
        .done, .done, .done]
    config.maxRecords ≤ UInt32.size ∧ ∃ m : Ledger,
      Ledger.Run config (Sink.refuse ⟨.full, none⟩) (∅, ()) calls answers
        [Record.image 7 {} 28 [.port 25]] (m, ()) ∧ m.keys.card = 0 := by
  intro config calls answers
  have indexed : config.maxRecords ≤ UInt32.size := by decide
  obtain ⟨_, _, _, _, m, ran, allowed, count⟩ :=
    run_refines_ledger config indexed (Sink.refuse ⟨.full, none⟩) () calls
  have given : Pool.run (Sink.refuse ⟨.full, none⟩).logged calls ({ config }, ([], ())) =
      (answers, ({ config, slots := [{ generation := 2 }], free := [0] },
        ([Record.image 7 {} 28 [.port 25]], ()))) := by
    decide +kernel
  rw [given] at ran
  cases ran
  exact ⟨indexed, m, allowed, count⟩

end Pool

end AuditTrail
