import AuditTrail.Preselector
import AuditTrail.Proofs.Database.Latest

namespace AuditTrail

def Database.bits? (db : Database) (number : UInt16) : Option UInt32 :=
  (db.event? number).map (·.mask)

namespace ClassCache

variable (cache : ClassCache)

theorem lookup_ofDatabase (db : Database) (number : UInt16) :
    (ofDatabase db).lookup number = db.bits? number := by
  rw [ofDatabase, Database.bits?, Database.event?]
  induction db.events with
  | nil => rfl
  | cons e events ih =>
    rw [List.map_cons, List.lookup_cons, List.find?_cons, ih, Bool.beq_comm]
    cases e.number == number <;> rfl

theorem lookup_erase (number e : UInt16) :
    (cache.erase number).lookup e = if e = number then none else cache.lookup e :=
  lookup_filter_ne number e cache

theorem lookup_insert (number e : UInt16) (bits : UInt32) :
    (cache.insert number bits).lookup e = if e = number then some bits else cache.lookup e := by
  rw [insert, List.lookup_cons, lookup_erase]
  by_cases same : e = number
  · simp [same]
  · rw [beq_false_of_ne same, if_neg same, if_neg same]

def queried (db : Database) (number : UInt16) : CachePolicy → ClassCache
  | .useCache => cache
  | .reread =>
    match db.event? number with
    | some e => cache.insert number e.mask
    | none => cache.erase number

theorem lookup_queried (db : Database) (number : UInt16) (policy : CachePolicy) (e : UInt16) :
    (cache.queried db number policy).lookup e =
      if policy = .reread ∧ e = number then db.bits? e else cache.lookup e := by
  cases policy with
  | useCache => simp [queried]
  | reread =>
    rw [queried, Database.bits?]
    cases found : db.event? number with
    | none => simp +contextual [lookup_erase, found]
    | some event => simp +contextual [lookup_insert, found]

end ClassCache

namespace Preselector

def known (db : Database) (p : Preselector) : ClassCache := p.cache.getD (.ofDatabase db)

theorem loaded_eq (db : Database) (p : Preselector) :
    ∃ q, q.cache = some (p.known db) ∧ p.loaded db = (p.known db, q) := by
  unfold loaded known
  cases hcache : p.cache with
  | none => exact ⟨p.reload db, rfl, rfl⟩
  | some cache => exact ⟨p, hcache, rfl⟩

theorem classOf_eq (db : Database) (number : UInt16) (policy : CachePolicy) (p : Preselector) :
    ∃ q, q.cache = some ((p.known db).queried db number policy) ∧
      p.classOf db number policy =
        (match ((p.known db).queried db number policy).lookup number with
          | some bits => .ok bits
          | none => .error ⟨number⟩, q) := by
  obtain ⟨q, held, isLoaded⟩ := p.loaded_eq db
  simp only [classOf, isLoaded]
  cases policy with
  | useCache =>
    refine ⟨q, held, ?_⟩
    simp only [ClassCache.queried]
    cases (p.known db).lookup number <;> rfl
  | reread =>
    rw [ClassCache.lookup_queried, if_pos ⟨rfl, rfl⟩, Database.bits?, ClassCache.queried]
    cases db.event? number <;> exact ⟨_, rfl, rfl⟩

inductive Action
  | addEvent (event : Event)
  | eraseEvent (number : UInt16)
  | classOf (number : UInt16) (policy : CachePolicy)
  | selects (number : UInt16) (mask : Mask) (selection : Selection) (policy : CachePolicy)
  | reload
  deriving DecidableEq

inductive Answer
  | done
  | bits (bits : UInt32)
  | selected (yes : Bool)
  | failed (e : Error)
  deriving DecidableEq

def Answer.of (answer : α → Answer) : Except UnknownEvent α → Answer
  | .ok a => answer a
  | .error e => .failed e.toError

def step : Action → Database × Preselector → Answer × (Database × Preselector)
  | .addEvent event, (db, p) => (.done, (db.addEvent event, p))
  | .eraseEvent number, (db, p) => (.done, (db.eraseEvent number, p))
  | .classOf number policy, (db, p) =>
    let (result, p) := p.classOf db number policy
    (.of .bits result, (db, p))
  | .selects number mask selection policy, (db, p) =>
    let (result, p) := p.selects db number mask selection policy
    (.of .selected result, (db, p))
  | .reload, (db, p) => (.done, (db, p.reload db))

def run : List Action → Database × Preselector → List Answer
  | [], _ => []
  | a :: actions, state => (step a state).1 :: run actions (step a state).2

namespace Action

def edit : Action → Database → Database
  | .addEvent event, db => db.addEvent event
  | .eraseEvent number, db => db.eraseEvent number
  | _, db => db

def query? : Action → Option (UInt16 × CachePolicy)
  | .classOf number policy | .selects number _ _ policy => some (number, policy)
  | _ => none

def answer : Action → Option UInt32 → Answer
  | .classOf _ _, some bits => .bits bits
  | .selects _ mask selection _, some bits => .selected (mask.selects bits selection)
  | .classOf number _, none | .selects number _ _ _, none =>
    .failed ⟨.notFound, s!"event {number} is not in the event database"⟩
  | _, _ => .done

def Touches (a : Action) : Prop := a = .reload ∨ a.query? ≠ none

def Refreshes (e : UInt16) (a : Action) : Prop := a = .reload ∨ a.query? = some (e, .reread)

end Action

def databaseAfter (db : Database) (history : List Action) : Database :=
  history.foldl (fun db a => a.edit db) db

/-- What was done before the latest synchronisation of an event. -/
def Synchronised (e : UInt16) (history before : List Action) : Prop :=
  ∃ a after, history = before ++ a :: after ∧
    (a.Refreshes e ∨ a.Touches ∧ ∀ b ∈ before, ¬b.Touches) ∧ ∀ b ∈ after, ¬b.Refreshes e

section

variable {db : Database} {e : UInt16} {a : Action} {past : List Action}

theorem databaseAfter_append_singleton :
    databaseAfter db (past ++ [a]) = a.edit (databaseAfter db past) := by
  rw [databaseAfter, List.foldl_append]
  rfl

theorem Action.edit_query {query : UInt16 × CachePolicy} (h : a.query? = some query) :
    a.edit db = db := by
  cases a with
  | addEvent | eraseEvent => cases h
  | classOf | selects | reload => rfl

theorem synchronised_last (h : a.Refreshes e ∨ a.Touches ∧ ∀ b ∈ past, ¬b.Touches) :
    Synchronised e (past ++ [a]) past := ⟨a, [], rfl, h, nofun⟩

theorem Synchronised.append {before : List Action} (h : Synchronised e past before)
    (stale : ¬a.Refreshes e) : Synchronised e (past ++ [a]) before := by
  obtain ⟨b, after, rfl, synced, later⟩ := h
  refine ⟨b, after ++ [a], by simp, synced, ?_⟩
  simpa [or_imp, forall_and] using ⟨later, stale⟩

end

structure Tracks (db : Database) (past : List Action) (now : Database) (p : Preselector) :
    Prop where
  database : now = databaseAfter db past
  untouched : p.cache = none → ∀ b ∈ past, ¬b.Touches
  synchronised : ∀ cache, p.cache = some cache → ∀ e, ∃ before, Synchronised e past before ∧
    cache.lookup e = (databaseAfter db before).bits? e

theorem step_query {a : Action} {number : UInt16} {policy : CachePolicy}
    (h : a.query? = some (number, policy)) (db : Database) (p : Preselector) :
    ∃ q, q.cache = some ((p.known db).queried db number policy) ∧
      step a (db, p) =
        (a.answer (((p.known db).queried db number policy).lookup number), (db, q)) := by
  obtain ⟨q, held, told⟩ := p.classOf_eq db number policy
  refine ⟨q, held, ?_⟩
  cases a with
  | addEvent | eraseEvent | reload => cases h
  | classOf | selects =>
    cases h
    simp only [step, selects, told]
    cases ((p.known db).queried db number policy).lookup number <;> rfl

namespace Tracks

variable {db now : Database} {past : List Action} {p : Preselector} (h : Tracks db past now p)
include h

theorem query {a : Action} {number : UInt16} {policy : CachePolicy}
    (ha : a.query? = some (number, policy)) (e : UInt16) :
    ∃ before, Synchronised e (past ++ [a]) before ∧
      ((p.known now).queried now number policy).lookup e = (databaseAfter db before).bits? e := by
  have touches : a.Touches := .inr (by simp [ha])
  rw [ClassCache.lookup_queried]
  split
  · next fresh =>
    obtain ⟨rfl, rfl⟩ := fresh
    exact ⟨past, synchronised_last (.inl (.inr ha)), h.database ▸ rfl⟩
  · next cached =>
    cases hcache : p.cache with
    | none =>
      refine ⟨past, synchronised_last (.inr ⟨touches, h.untouched hcache⟩), ?_⟩
      rw [known, hcache, Option.getD_none, ClassCache.lookup_ofDatabase, h.database]
    | some cache =>
      obtain ⟨before, synced, found⟩ := h.synchronised cache hcache e
      refine ⟨before, synced.append ?_, ?_⟩
      · rintro (rfl | refreshes)
        · cases ha
        · cases ha.symm.trans refreshes
          exact cached ⟨rfl, rfl⟩
      · rw [known, hcache]
        exact found

theorem edited {a : Action} (stale : ¬a.Touches) :
    Tracks db (past ++ [a]) (a.edit now) p where
  database := by rw [databaseAfter_append_singleton, h.database]
  untouched unloaded := by
    simpa [or_imp, forall_and] using ⟨h.untouched unloaded, stale⟩
  synchronised cache hcache e := by
    obtain ⟨before, synced, found⟩ := h.synchronised cache hcache e
    refine ⟨before, synced.append ?_, found⟩
    rintro (rfl | refreshes)
    · exact stale (.inl rfl)
    · exact stale (.inr (by simp [refreshes]))

theorem asked {a : Action} {number : UInt16} {policy : CachePolicy}
    (ha : a.query? = some (number, policy)) :
    Tracks db (past ++ [a]) (step a (now, p)).2.1 (step a (now, p)).2.2 := by
  obtain ⟨q, held, told⟩ := step_query ha now p
  rw [told]
  refine ⟨?_, ?_, ?_⟩
  · rw [databaseAfter_append_singleton, Action.edit_query ha, h.database]
  · intro unloaded
    cases held.symm.trans unloaded
  · intro cache hcache e
    cases held.symm.trans hcache
    exact h.query ha e

theorem reloaded : Tracks db (past ++ [.reload]) now (p.reload now) where
  database := by
    rw [databaseAfter_append_singleton]
    exact h.database
  untouched := nofun
  synchronised := by
    rintro _ ⟨⟩ e
    refine ⟨past, synchronised_last (.inl (.inl rfl)), ?_⟩
    rw [ClassCache.lookup_ofDatabase, h.database]

theorem step (a : Action) :
    Tracks db (past ++ [a]) (step a (now, p)).2.1 (step a (now, p)).2.2 := by
  cases a with
  | addEvent | eraseEvent => exact h.edited (by simp [Action.Touches, Action.query?])
  | classOf | selects => exact h.asked rfl
  | reload => exact h.reloaded

end Tracks

theorem tracks_new (db : Database) : Tracks db [] db {} := ⟨rfl, fun _ => nofun, nofun⟩

/-- What is told about an event is its class in the database: as that is now, if it was to be read
anew, and otherwise as it was at the latest synchronisation of the event. -/
structure Told (db : Database) (past : List Action) (a : Action) (answer : Answer) : Prop where
  reread : ∀ e, a.query? = some (e, .reread) →
    answer = a.answer ((databaseAfter db past).bits? e)
  useCache : ∀ e, a.query? = some (e, .useCache) → ∃ before,
    Synchronised e (past ++ [a]) before ∧ answer = a.answer ((databaseAfter db before).bits? e)

theorem Tracks.told {db now : Database} {past : List Action} {p : Preselector}
    (h : Tracks db past now p) (a : Action) : Told db past a (Preselector.step a (now, p)).1 where
  reread e ha := by
    obtain ⟨q, -, told⟩ := step_query ha now p
    rw [told, ClassCache.lookup_queried, if_pos ⟨rfl, rfl⟩, h.database]
  useCache e ha := by
    obtain ⟨q, -, told⟩ := step_query ha now p
    obtain ⟨before, synced, found⟩ := h.query ha e
    exact ⟨before, synced, by rw [told, found]⟩

theorem Tracks.run {db now : Database} {past : List Action} {p : Preselector}
    (h : Tracks db past now p) (actions : List Action) {k : Nat} {a : Action}
    (ha : actions[k]? = some a) :
    ∃ answer, (Preselector.run actions (now, p))[k]? = some answer ∧
      Told db (past ++ actions.take k) a answer := by
  induction actions generalizing past now p k with
  | nil => cases ha
  | cons first actions ih =>
    cases k with
    | zero =>
      cases ha
      rw [List.take_zero, List.append_nil]
      exact ⟨_, rfl, h.told a⟩
    | succ k =>
      rw [List.take_succ_cons, List.append_cons]
      exact ih (h.step first) ha

theorem answer_after_reread {a b : Action} {e other : UInt16}
    (ha : a.query? = some (e, .reread)) (hb : b.query? = some (other, .useCache))
    (now later : Database) (p : Preselector) :
    (step b (later, (step a (now, p)).2.2)).1 =
      b.answer (if other = e then now.bits? e else (p.known now).lookup other) := by
  obtain ⟨q, held, read⟩ := step_query ha now p
  obtain ⟨_, -, told⟩ := step_query hb later q
  rw [read, told, ClassCache.queried, known, held, Option.getD_some, ClassCache.lookup_queried]
  split <;> simp_all

/-- Whatever is edited, read anew and reloaded in between, a preselector tells the class of an event
as of its latest synchronisation; and reading an event anew replaces its class, and no other. -/
theorem run_coherent :
    (∀ (db : Database) (actions : List Action) (k : Nat) (a : Action), actions[k]? = some a →
      ∃ answer, (run actions (db, {}))[k]? = some answer ∧ Told db (actions.take k) a answer) ∧
    ∀ (now later : Database) (p : Preselector) (a b : Action) (e other : UInt16),
      a.query? = some (e, .reread) → b.query? = some (other, .useCache) →
        (other = e → (step b (later, (step a (now, p)).2.2)).1 = b.answer (now.bits? e)) ∧
        (other ≠ e → p.cache ≠ none →
          (step b (later, (step a (now, p)).2.2)).1 = (step b (later, p)).1) := by
  refine ⟨fun db actions k a ha => (tracks_new db).run actions ha, ?_⟩
  intro now later p a b e other ha hb
  rw [answer_after_reread ha hb]
  refine ⟨fun same => by rw [if_pos same], fun differs isLoaded => ?_⟩
  obtain ⟨cache, hcache⟩ := Option.ne_none_iff_exists'.1 isLoaded
  obtain ⟨_, -, told⟩ := step_query hb later p
  rw [if_neg differs, told, ClassCache.queried, known, known, hcache]
  rfl

theorem run_coherent_edited :
    let event (bits : UInt32) : Event := ⟨1, "AUE_EXIT", "exit(2)", bits⟩
    let actions : List Action :=
      [.addEvent (event 1), .classOf 1 .useCache, .addEvent (event 2), .classOf 1 .useCache,
        .classOf 1 .reread, .eraseEvent 1, .classOf 1 .useCache]
    let reread : Action := .selects 1 { success := 2 } .success .reread
    let p : Preselector := { cache := some [(1, 1), (2, 4)] }
    actions[6]? = some (.classOf 1 .useCache) ∧
      run actions ({}, {}) = [.done, .bits 1, .done, .bits 1, .bits 2, .done, .bits 2] ∧
      Told {} (actions.take 6) (.classOf 1 .useCache) (.bits 2) ∧
      (step (.classOf 1 .useCache) ({}, (step reread ({ events := [event 2] }, p)).2.2)).1 =
        .bits 2 ∧
      (step (.classOf 2 .useCache) ({}, (step reread ({ events := [event 2] }, p)).2.2)).1 =
        .bits 4 := by
  intro event actions reread p
  have last : actions[6]? = some (.classOf 1 .useCache) := rfl
  have answers : run actions ({}, {}) =
      [.done, .bits 1, .done, .bits 1, .bits 2, .done, .bits 2] := by decide +kernel
  obtain ⟨answer, here, told⟩ := run_coherent.1 {} actions 6 _ last
  rw [answers] at here
  cases here
  have after (b : Action) (other : UInt16) :=
    run_coherent.2 { events := [event 2] } {} p reread b 1 other rfl
  refine ⟨last, answers, told, ?_, ?_⟩
  · exact (after _ 1 rfl).1 rfl
  · exact (after _ 2 rfl).2 (by decide) nofun

end Preselector

end AuditTrail
