import AuditTrail.Proofs.Output
import AuditTrail.Proofs.Pool.Refinement

/-! From the calls on a pool to the trail that its sink keeps: which records a history of calls has
submitted, and that a reader finds exactly these in the trail. -/

namespace AuditTrail

open Record (Draft)

structure Sink.Accepting (sink : Sink σ) (ready : σ → Prop) (trail : σ → List UInt8) : Prop where
  accepts : ∀ data s, ready s → ∃ t, sink data s = (.ok (), t) ∧ ready t ∧ trail t = trail s ++ data

theorem RecordList.accepting :
    Sink.Accepting submit (fun l => l.capacity = none) RecordList.trail where
  accepts data l unbounded := by
    have room : l.full? = none := by rw [full?, unbounded]; rfl
    refine ⟨{ l with records := l.records ++ [data] }, by rw [submit, room], unbounded, ?_⟩
    simp [trail]

theorem Output.accepting :
    Sink.Accepting submit (fun o => o.limit = none ∧ o.flushError = none) Output.taken where
  accepts data o unlimited := by
    refine ⟨o.append data, ?_, unlimited, rfl⟩
    rw [submit, write_of_admits (admits_of_unlimited unlimited.1 _)]
    simp [append, flush, unlimited.2]
    rfl

namespace Pool

/-- The tokens written to a record since it was opened, by what was asked and answered, the latest
first. -/
def written (d : Descriptor) : List (Call × Answer) → List Token
  | [] => []
  | (.openRecord, .opened e) :: past => if e = d then [] else written d past
  | (.write e token, .done) :: past =>
    if e = d then written d past ++ [token] else written d past
  | _ :: past => written d past

def submitted? (config : PoolConfig) (past : List (Call × Answer)) : Call × Answer → Option Draft
  | (.close d wanted event stamp, .done) =>
    let draft : Draft := ⟨event, stamp, written d past⟩
    if wanted = true ∧ draft.size ≤ config.maxRecordSize then some draft else none
  | _ => none

def submitted (config : PoolConfig) (past : List (Call × Answer)) :
    List (Call × Answer) → List Draft
  | [] => []
  | now :: later =>
    (submitted? config past now).toList ++ submitted config (now :: past) later

def Tracks (past : List (Call × Answer)) (m : Ledger) : Prop :=
  ∀ d tokens, m.lookup d = some tokens → written d past = tokens

theorem written_failed (d : Descriptor) (call : Call) (e : Error) (past : List (Call × Answer)) :
    written d ((call, .failed e) :: past) = written d past := by
  cases call <;> rfl

theorem submitted?_failed (config : PoolConfig) (past : List (Call × Answer)) (call : Call)
    (e : Error) : submitted? config past (call, .failed e) = none := by
  cases call <;> rfl

section

variable {config : PoolConfig} {past : List (Call × Answer)} {d : Descriptor} {wanted : Bool}
  {tokens : List Token}

theorem submitted?_of_submits (submits : Ledger.Submits config wanted tokens)
    (tracked : written d past = tokens) {event : UInt16} {stamp : Stamp} {size : UInt32}
    (announced : size.toNat = (Record.image event stamp size tokens).length) :
    (submitted? config past (.close d wanted event stamp, .done)).map Draft.bytes =
      some (Record.image event stamp size tokens) := by
  subst tracked
  have found : submitted? config past (.close d wanted event stamp, .done) =
      some ⟨event, stamp, written d past⟩ := if_pos submits
  rw [Record.length_image] at announced
  rw [found, Option.map_some, Draft.bytes, Draft.size, ← announced, UInt32.ofNat_toNat]

theorem submitted?_of_not_submits (kept : ¬Ledger.Submits config wanted tokens)
    (tracked : written d past = tokens) (event : UInt16) (stamp : Stamp) :
    submitted? config past (.close d wanted event stamp, .done) = none := by
  subst tracked
  exact if_neg kept

end

namespace Tracks

variable {past now : List (Call × Answer)} {m : Ledger}

theorem congr (h : Tracks past m) (same : ∀ e, written e now = written e past) :
    Tracks now m := by
  intro e tokens known
  rw [same, h e tokens known]

theorem insert (h : Tracks past m) {d : Descriptor} {tokens : List Token}
    (here : written d now = tokens) (others : ∀ e, e ≠ d → written e now = written e past) :
    Tracks now (m.insert d tokens) := by
  intro e tokens' known
  by_cases same : e = d
  · subst same
    rw [Finmap.lookup_insert] at known
    cases known
    exact here
  · rw [Finmap.lookup_insert_of_ne _ same] at known
    rw [others e same, h e tokens' known]

theorem erase (h : Tracks past m) (d : Descriptor) : Tracks past (m.erase d) := by
  intro e tokens known
  by_cases same : e = d
  · subst same
    rw [Finmap.lookup_erase] at known
    cases known
  · rw [Finmap.lookup_erase_ne same] at known
    exact h e tokens known

end Tracks

section

variable {config : PoolConfig} {sink : Sink σ} {ready : σ → Prop} {trail : σ → List UInt8}
  (accepting : sink.Accepting ready trail)
include accepting

theorem Tracks.step {past : List (Call × Answer)} {m m' : Ledger} {s t : σ} {call : Call}
    {answer : Answer} {handed : Option (List UInt8)} (h : Tracks past m) (isReady : ready s)
    (step : Ledger.Step config sink (m, s) call answer handed (m', t)) :
    handed = (submitted? config past (call, answer)).map Draft.bytes ∧
      Tracks ((call, answer) :: past) m' ∧ ready t ∧ trail t = trail s ++ handed.getD [] := by
  have same : trail s = trail s ++ [] := (List.append_nil _).symm
  cases step with
  | opened new room =>
    refine ⟨rfl, h.insert (if_pos rfl) ?_, isReady, same⟩
    intro e other
    exact if_neg (Ne.symm other)
  | allOpen full kind =>
    exact ⟨rfl, h.congr fun e => written_failed e .., isReady, same⟩
  | unknown named absent kind =>
    refine ⟨?_, h.congr fun e => written_failed e .., isReady, same⟩
    rw [submitted?_failed, Option.map_none]
  | wrote known =>
    refine ⟨rfl, h.insert ?_ ?_, isReady, same⟩
    · rw [← h _ _ known]
      exact if_pos rfl
    · intro e other
      exact if_neg (Ne.symm other)
  | measured known => exact ⟨rfl, h.congr fun _ => rfl, isReady, same⟩
  | dropped known kept =>
    refine ⟨?_, (h.congr fun _ => rfl).erase _, isReady, same⟩
    rw [submitted?_of_not_submits kept (h _ _ known), Option.map_none]
  | accepted known submits announced taken =>
    obtain ⟨t', took, stillReady, grown⟩ := accepting.accepts _ s isReady
    cases taken.symm.trans took
    refine ⟨?_, (h.congr fun _ => rfl).erase _, stillReady, grown⟩
    rw [submitted?_of_submits submits (h _ _ known) announced]
  | refused known submits announced refusal =>
    -- An accepting sink does not refuse.
    obtain ⟨t', took, -⟩ := accepting.accepts _ s isReady
    cases refusal.symm.trans took

theorem Tracks.run {past : List (Call × Answer)} {start last : Ledger × σ} {calls : List Call}
    {answers : List Answer} {images : List (List UInt8)} (h : Tracks past start.1)
    (isReady : ready start.2) (run : Ledger.Run config sink start calls answers images last) :
    images = (submitted config past (calls.zip answers)).map Draft.bytes ∧
      trail last.2 = trail start.2 ++ images.flatten := by
  induction run generalizing past with
  | nil => exact ⟨rfl, (List.append_nil _).symm⟩
  | cons first others ih =>
    obtain ⟨rfl, tracks, nextReady, grown⟩ := h.step accepting isReady first
    obtain ⟨rfl, trailing⟩ := ih tracks nextReady
    refine ⟨?_, ?_⟩
    · rw [List.zip_cons_cons, submitted, List.map_append]
      rw [Option.toList_map]
    · rw [trailing, grown, List.append_assoc, List.flatten_append]
      congr 2
      cases submitted? config past _ <;> simp

end

theorem size_le_of_mem_submitted {config : PoolConfig} {past later : List (Call × Answer)}
    {draft : Draft} (h : draft ∈ submitted config past later) :
    draft.size ≤ config.maxRecordSize := by
  induction later generalizing past with
  | nil => cases h
  | cons now later ih =>
    rcases List.mem_append.1 h with here | there
    · rw [Option.mem_toList] at here
      unfold submitted? at here
      split at here
      · obtain ⟨small, same⟩ := Option.ite_none_right_eq_some.1 here
        cases same
        exact small.2
      · cases here
    · exact ih there

/-- What a history submits is what a sink was handed; it makes up the trail, frame by frame; and
each record can be read by itself. -/
structure ReadsBack (config : PoolConfig) (history : List (Call × Answer))
    (images : List (List UInt8)) (trail : List UInt8) : Prop where
  images_eq : images = (submitted config [] history).map Draft.bytes
  frames_eq : ∀ s : Stream, s.Faultless → s.rest = trail →
    s.frames.map (·.1) = images.map (fun image => .ok (some image)) ++ [.ok none]
  announced : ∀ image ∈ images, ∃ header size,
    Token.decode image = .ok (.header header, 18) ∧ header.size.toNat = image.length ∧
      Token.decode (image.drop (image.length - 7)) = .ok (.trailer 0xB105 size, 7) ∧
      size.toNat = image.length
  decoded : ∀ draft ∈ submitted config [] history, (∀ token ∈ draft.tokens, token.Canonical) →
    ∃ size record, size.toNat = draft.bytes.length ∧ Record.decode draft.bytes = .ok record ∧
      record.wellFormed = true ∧
      record.tokens =
        .header { size, version := 11, event := draft.event, seconds := draft.stamp.seconds,
                  milliseconds := draft.stamp.milliseconds } ::
          (draft.tokens ++ [.trailer 0xB105 size])

theorem readsBack {config : PoolConfig} (h : config.maxRecords ≤ UInt32.size) {sink : Sink σ}
    {ready : σ → Prop} {trail : σ → List UInt8} (accepting : sink.Accepting ready trail) {s : σ}
    (isReady : ready s) (empty : trail s = []) {calls : List Call} {answers : List Answer}
    {images : List (List UInt8)} {p : Pool} {t : σ}
    (ran : run sink.logged calls ({ config }, ([], s)) = (answers, (p, (images, t)))) :
    ReadsBack config (calls.zip answers) images (trail t) := by
  obtain ⟨_, _, _, _, m, ran', allowed, -⟩ := (represents_new h).run sink [] s calls
  cases ran.symm.trans ran'
  have tracks : Tracks [] ∅ := by
    intro d tokens known
    cases known
  obtain ⟨rfl, grown⟩ := tracks.run accepting isReady allowed
  have small : ∀ draft ∈ submitted config [] (calls.zip answers), draft.size ≤ Record.maxSize :=
    fun draft member => Nat.le_trans (size_le_of_mem_submitted member) config.carried
  refine ⟨List.nil_append _, ?_, ?_, ?_⟩
  · intro s' hs' hrest
    refine hs'.frames_flatten ?_ ?_
    · intro image member
      obtain ⟨draft, hdraft, rfl⟩ := List.mem_map.1 member
      exact Draft.isFrame_bytes (small draft hdraft)
    · rw [hrest, grown, empty]
      rfl
  · intro image member
    obtain ⟨draft, hdraft, rfl⟩ := List.mem_map.1 member
    have announced := Draft.toNat_ofNat_size (small draft hdraft)
    exact ⟨_, _, Record.decode_image_front .., announced, Record.decode_image_back .., announced⟩
  · intro draft hdraft canonical
    have announced := Draft.toNat_ofNat_size (small draft hdraft)
    exact ⟨_, _, announced, Record.decode_image _ _ _ canonical,
      Record.wellFormed_framed _ _ _ announced, rfl⟩

/-- Whatever is written to the records of a new pool, the trail that they make in memory or on an
output without limit is read back record by record, and the records of canonical tokens token by
token. -/
theorem run_reads_back (config : PoolConfig) (h : config.maxRecords ≤ UInt32.size)
    (calls : List Call) :
    (∃ answers p images l, run (Sink.logged RecordList.submit) calls ({ config }, ([], {})) =
        (answers, (p, (images, l))) ∧
      ReadsBack config (calls.zip answers) images l.trail) ∧
    ∀ failures : Output.Failures, ∃ answers p images o,
      run (Sink.logged Output.submit) calls ({ config }, ([], { failures with flushError := none })) =
          (answers, (p, (images, o))) ∧
        ReadsBack config (calls.zip answers) images o.taken :=
  ⟨⟨_, _, _, _, rfl, readsBack h RecordList.accepting rfl rfl rfl⟩,
    fun _ => ⟨_, _, _, _, rfl, readsBack h Output.accepting ⟨rfl, rfl⟩ rfl rfl⟩⟩

theorem run_reads_back_interleaved :
    let config : PoolConfig := { maxRecords := 2 }
    let calls : List Call :=
      [.openRecord, .openRecord, .write ⟨1, 1⟩ (.port 25), .write ⟨0, 1⟩ (.path "/a\x00b"),
        .write ⟨1, 1⟩ (.sequence 9), .close ⟨1, 1⟩ true 7 {}, .openRecord,
        .write ⟨1, 2⟩ (.port 26), .close ⟨0, 1⟩ true 8 {}, .close ⟨1, 2⟩ false 9 {}]
    let answers : List Answer :=
      [.opened ⟨0, 1⟩, .opened ⟨1, 1⟩, .done, .done, .done, .done, .opened ⟨1, 2⟩, .done, .done,
        .done]
    let images : List (List UInt8) :=
      [Record.image 7 {} 33 [.port 25, .sequence 9], Record.image 8 {} 33 [.path "/a\x00b"]]
    config.maxRecords ≤ UInt32.size ∧
      run (Sink.logged RecordList.submit) calls ({ config }, ([], {})) =
        (answers, ({ config, slots := [{ generation := 1 }, { generation := 2 }], free := [1, 0] },
          (images, { records := images }))) ∧
      ReadsBack config (calls.zip answers) images images.flatten := by
  intro config calls answers images
  have indexed : config.maxRecords ≤ UInt32.size := by decide
  obtain ⟨⟨_, _, _, _, ran, back⟩, -⟩ := run_reads_back config indexed calls
  have given : run (Sink.logged RecordList.submit) calls ({ config }, ([], {})) =
      (answers, ({ config, slots := [{ generation := 1 }, { generation := 2 }], free := [1, 0] },
        (images, { records := images }))) := by
    decide +kernel
  rw [given] at ran
  cases ran
  exact ⟨indexed, given, back⟩

end Pool

end AuditTrail
