import Aspm.Verification.Verify

/-!
# Results come from approved, intact evidence

Every part of the program keeps the trace as it is, or adds to it what it says, and leaves only with
a refusal (`Early`).  So a result without an error has a trace of one shape: a matching approval
before the evidence is opened, before each read, after it is closed and after it is decoded
(`verify_approved`).
-/

namespace Aspm.Verifier

open Json (Text Datum)
open Utf8 (Bytes)
open EarlyReturn

/-! ## Refusals -/

def Outcome.Refusal (o : Outcome) : Prop := o = .blocked ∨ o = .cancelled ∨ o = .error

/-- A result without anything that comes from evidence. -/
structure Result.Refused (r : Result) : Prop where
  outcome : r.outcome.Refusal
  artifacts : r.artifacts = []
  error : r.error ≠ none

/-- If the program returns early, it refuses; it may still be running if `running` says so. -/
structure Early (running : Prop) (e : Option (Result × List Event)) : Prop where
  fuel : e = none → running
  refused : ∀ p ∈ e, p.1.Refused

variable {ν : Type} {v : Config ν} {env : ℕ → Move} {request : Request} {t : List Event}
  {running : Prop}

section Parts

variable {α : Type} {pre : World → Prop} {post : α → World → Prop}

theorem exit_refuses {outcome : Outcome} (refusal : outcome.Refusal) {e : Option Err} (some : e ≠ none) :
    Triple pre (exit outcome e : Prog α) post (Early running) := by
  refine Triple.leave fun w _ => ⟨nofun, fun p returned => ?_⟩
  obtain rfl := Option.some.inj returned
  exact ⟨refusal, rfl, some⟩

theorem exitIf_triple {condition : Bool} {outcome : Outcome} (refusal : outcome.Refusal) (e : Err)
    {post : PUnit → World → Prop} (goesOn : condition = false → ∀ w, pre w → post ⟨⟩ w) :
    Triple pre (exitIf condition outcome e) post (Early running) := by
  refine Triple.ite (fun _ => exit_refuses refusal (Option.some_ne_none e)) fun fails => ?_
  exact Triple.pure (goesOn (eq_false_of_ne_true fails))

variable {early : Option (Result × List Event) → Prop}

theorem tick_move :
    Triple (fun w => w.trace = t) (tick env) (fun m w => (∃ n, m = env n) ∧ w.trace = t) early := by
  intro w start
  refine ⟨fun m w' ended => ?_, nofun⟩
  obtain ⟨rfl, rfl⟩ := Prod.mk.inj (Except.ok.inj ended)
  exact ⟨⟨w.time, rfl⟩, start⟩

theorem tick_triple : Triple (fun w => w.trace = t) (tick env) (fun _ w => w.trace = t) early :=
  tick_move.weaken (fun _ => id) fun _ _ moved => moved.2

theorem ctxErr_triple :
    Triple (fun w => w.trace = t) (ctxErr env)
      (fun e w => w.trace = t ∧ (e ≠ none → w.parent ≠ none)) early := by
  refine Triple.bind tick_triple fun m => Triple.read fun w kept => ⟨kept, fun some none => ?_⟩
  exact some (by simp [none])

/-- A context that has ended has an error. -/
theorem ctxErr_sticky :
    Triple (fun w => w.parent ≠ none) (ctxErr env) (fun e _ => e ≠ none) early := by
  have kept : Triple (fun w => w.parent ≠ none) (tick env) (fun _ w => w.parent ≠ none) early := by
    intro w ended
    refine ⟨fun m w' moved => ?_, nofun⟩
    obtain ⟨rfl, rfl⟩ := Prod.mk.inj (Except.ok.inj moved)
    obtain ⟨p, shape⟩ := Option.ne_none_iff_exists'.mp ended
    simp [World.advance, shape]
  exact kept.bind fun m => Triple.read fun w ended => by simpa using ended

/-- Both places that return the context's error. -/
theorem exit_ctxErr {post : α → World → Prop} :
    Triple (fun w => w.parent ≠ none) (ctxErr env >>= fun e => (exit .cancelled e : Prog α)) post
      (Early running) := by
  refine ctxErr_sticky.bind fun e => ?_
  cases e with
  | none => exact fun w impossible => absurd rfl impossible
  | some e => exact exit_refuses (.inr (.inl rfl)) (Option.some_ne_none e)

theorem cancelledCheck_triple :
    Triple (fun w => w.trace = t) (cancelledCheck env) (fun _ w => w.trace = t) (Early running) := by
  refine Triple.bind ctxErr_triple fun e => ?_
  cases e with
  | none => exact Triple.pure fun w kept => kept.1
  | some e => exact exit_ctxErr.of_pre fun w ended => ended.2 (Option.some_ne_none e)

theorem accessCause_triple :
    Triple (fun w => w.trace = t) (accessCause env) (fun _ w => w.trace = t) early :=
  tick_triple.bind fun _ => Triple.read fun _ kept => kept

theorem log_triple {event : Event} :
    Triple (fun w => w.trace = t) (log event) (fun _ w => w.trace = t ++ [event]) early :=
  Triple.update fun w kept => by rw [← kept]

theorem matchApproval_triple {approval : Approval} :
    Triple (fun w => w.trace = t) (matchApproval env request approval)
      (fun isMatch w => isMatch = true →
        ∃ now, Matches request approval now ∧ w.trace = t ++ [.approved approval now]) (Early running) := by
  refine Triple.bind tick_triple fun m => ?_
  refine Triple.ite (fun isMatch => ?_) fun _ => Triple.pure fun w _ => nofun
  exact log_triple.bind fun _ => Triple.pure fun w logged _ => ⟨m.now, isMatch, logged⟩

/-- An approval that matches is added to the trace. -/
def Approves (request : Request) (t : List Event) (w : World) : Prop :=
  ∃ approval now, Matches request approval now ∧ w.trace = t ++ [.approved approval now]

theorem current_triple :
    Triple (fun w => w.trace = t) (current env request)
      (fun e w => e = none → Approves request t w) (Early running) := by
  refine Triple.bind accessCause_triple fun cause => ?_
  cases cause with
  | some e => exact Triple.pure fun w _ => nofun
  | none =>
    refine Triple.bind tick_triple fun m => Triple.bind accessCause_triple fun cause => ?_
    cases cause with
    | some e => exact Triple.pure fun w _ => nofun
    | none =>
      cases m.lookup with
      | error e => exact Triple.pure fun w _ => nofun
      | ok approval =>
        refine matchApproval_triple.bind fun isMatch => Triple.pure fun w matched passed => ?_
        cases isMatch with
        | false => cases passed
        | true =>
          obtain ⟨now, isMatch, logged⟩ := matched rfl
          exact ⟨approval, now, isMatch, logged⟩

theorem boundaryOutcome_refusal (e : Err) : (boundaryOutcome e).Refusal := by
  unfold boundaryOutcome
  split
  · exact .inr (.inl rfl)
  · split
    · exact .inl rfl
    · exact .inr (.inr rfl)

/-- The classifier of errors has no other outcome. -/
theorem accessFailure_refuses (e : Err) :
    Triple (fun _ => True) (accessFailure env e : Prog α) post (Early running) := by
  have some {e : Err} : (some e : Option Err) ≠ none := Option.some_ne_none e
  have anyTrace {β : Type} {x : Prog β} {early : Option (Result × List Event) → Prop}
      {post : β → World → Prop} (triple : ∀ t, Triple (fun w => w.trace = t) x post early) :
      Triple (fun _ => True) x post early := fun w _ => triple w.trace w rfl
  have cause : Triple (fun _ => True) (accessCause env) (fun _ _ => True) (Early running) :=
    anyTrace fun t => accessCause_triple.weaken (fun _ => id) fun _ _ _ => trivial
  have ended : Triple (fun _ => True) (ctxErr env) (fun e w => e ≠ none → w.parent ≠ none) (Early running) :=
    anyTrace fun t => ctxErr_triple.weaken (fun _ => id) fun _ _ kept => kept.2
  refine ended.bind fun cancelled => ?_
  cases cancelled with
  | some _ => exact exit_ctxErr.of_pre fun w ended => ended some
  | none =>
    refine Triple.of_pre ?_ (fun _ _ => trivial)
    refine cause.bind fun first => Triple.ite (fun _ => exit_refuses (.inl rfl) some) fun _ => ?_
    refine cause.bind fun second => Triple.ite (fun _ => exit_refuses (.inl rfl) some) fun _ => ?_
    refine cause.bind fun third => ?_
    cases third with
    | some cause => exact exit_refuses (boundaryOutcome_refusal cause) some
    | none => exact exit_refuses (boundaryOutcome_refusal e) some

theorem exitOn_triple {e : Option Err} {post : PUnit → World → Prop}
    (goesOn : e = none → ∀ w, pre w → post ⟨⟩ w) :
    Triple pre (exitOn env e) post (Early running) := by
  cases e with
  | none => exact Triple.pure (goesOn rfl)
  | some e => exact (accessFailure_refuses e).of_pre fun _ _ => trivial

end Parts

/-! ## Reading -/

/-- A read, with the approval before it. -/
structure Reading where
  approval : Approval
  now : Time
  chunk : Bytes

def Reading.events (r : Reading) : List Event := [.approved r.approval r.now, .read r.chunk]

/-- The trace goes on with reads of these data, each approved. -/
def Reads (request : Request) (t : List Event) (data : Bytes) (w : World) : Prop :=
  ∃ readings : List Reading, ((∀ r ∈ readings, Matches request r.approval r.now) ∧
    data = readings.flatMap Reading.chunk) ∧ w.trace = t ++ readings.flatMap Reading.events

theorem Reads.add {readings : List Reading} (each : ∀ r ∈ readings, Matches request r.approval r.now)
    {approval : Approval} {now : Time} (matched : Matches request approval now) {chunk : Bytes}
    {w : World} (trace : w.trace =
      t ++ readings.flatMap Reading.events ++ [.approved approval now] ++ [.read chunk]) :
    Reads request t (readings.flatMap Reading.chunk ++ chunk) w := by
  refine ⟨readings ++ [⟨approval, now, chunk⟩], ⟨?_, by simp⟩, by simp [trace, Reading.events]⟩
  intro r mem
  rcases List.mem_append.mp mem with earlier | last
  · exact each r earlier
  · rw [List.mem_singleton.mp last]
    exact matched

/-- Reads end when each of them brings bytes or the end. -/
def Progress (env : ℕ → Move) : Prop := ∀ n, (env n).chunk ≠ [] ∨ (env n).readEnd ≠ none

theorem readAll_triple (fuel : ℕ) (data : Bytes)
    (enough : running ∨ Progress env ∧ data.length ≤ v.maxBytes + 1 ∧
      v.maxBytes + 1 < data.length + fuel) :
    Triple (Reads request t data) (readAll v env request fuel data)
      (fun p w => p.2 = none → Reads request t p.1 w) (Early running) := by
  induction fuel generalizing data with
  | zero => exact Triple.leave fun w _ => ⟨fun _ => enough.resolve_right (by omega), nofun⟩
  | succ fuel ih =>
    refine Triple.ite (fun _ => Triple.pure fun w reads _ => reads) fun room => ?_
    refine Triple.exists_pre fun readings => Triple.and_pre fun ⟨each, shape⟩ => ?_
    subst shape
    refine Triple.bind current_triple fun denied => ?_
    cases denied with
    | some e =>
      have ended : Triple (fun _ => True) (cancelAccess e) (fun _ _ => True) (Early running) :=
        Triple.update fun _ _ => trivial
      exact (ended.of_pre fun _ _ => trivial).bind fun _ => Triple.pure fun w _ => nofun
    | none =>
      refine Triple.of_pre ?_ fun w passed => passed rfl
      refine Triple.exists_pre fun approval => Triple.exists_pre fun now =>
        Triple.and_pre fun matched => ?_
      refine Triple.bind tick_move fun m => Triple.and_pre fun ⟨n, move⟩ =>
        Triple.bind log_triple fun _ => ?_
      -- whatever the read returns, its bytes are in the trace behind an approval
      cases ends : m.readEnd with
      | none =>
        refine (ih _ ?_).of_pre fun w trace => Reads.add each matched trace
        refine enough.imp_right fun ⟨progress, _, left⟩ => ⟨progress, ?_⟩
        have some : m.chunk ≠ [] := (move ▸ progress n).resolve_right (not_not_intro ends)
        have := List.length_pos_iff.mpr some
        rw [List.length_append, List.length_take]
        omega
      | some ending =>
        cases ending with
        | eof => exact Triple.pure fun w trace _ => Reads.add each matched trace
        | error e => exact Triple.pure fun w _ => nofun

theorem joinErrors_some_ne_none (e : Err) (f : Option Err) : joinErrors (some e) f ≠ none := by
  cases f <;> nofun

/-- The fuel is enough, or the program may be running when it ends. -/
def Enough (v : Config ν) (env : ℕ → Move) (running : Prop) (fuel : ℕ) : Prop :=
  running ∨ Progress env ∧ v.maxBytes + 1 < fuel

variable {fuel : ℕ}

theorem readEvidence_triple (enough : Enough v env running fuel) :
    Triple (fun w => w.trace = t) (readEvidence v env request fuel)
      (fun data w => ∃ u : List Event, (∃ readings : List Reading,
        (∀ r ∈ readings, Matches request r.approval r.now) ∧
        data = readings.flatMap Reading.chunk ∧ u = readings.flatMap Reading.events) ∧
        w.trace = t ++ u ++ [.closed]) (Early running) := by
  have start : Triple (fun w => w.trace = t) (readAll v env request fuel [])
      (fun p w => p.2 = none → Reads request t p.1 w) (Early running) :=
    (readAll_triple fuel [] (enough.imp_right fun ⟨progress, left⟩ =>
      ⟨progress, Nat.zero_le _, by simpa using left⟩)).of_pre
        fun w trace => ⟨[], ⟨by simp, rfl⟩, by simp [trace]⟩
  refine start.bind fun p => ?_
  obtain ⟨data, readErr⟩ := p
  have kept : Triple (fun w => readErr = none → Reads request t data w) (endAccess v data readErr)
      (fun _ w => readErr = none → Reads request t data w) (Early running) := by
    cases readErr with
    | some e => exact Triple.update fun w _ => nofun
    | none =>
      refine Triple.ite (fun _ => Triple.update fun w reads => ?_) fun _ => Triple.pure fun w => id
      exact reads
  refine kept.bind fun _ => ?_
  cases readErr with
  | some e =>
    -- a failed read ends in a refusal
    have ticks : Triple (fun _ => True) (tick env) (fun _ _ => True) (Early running) := fun w _ =>
      ⟨fun _ _ _ => trivial, nofun⟩
    refine Triple.of_pre (ticks.bind fun m => ?_) fun _ _ => trivial
    have logged : Triple (fun _ => True) (log .closed) (fun _ _ => True) (Early running) :=
      Triple.update fun _ _ => trivial
    have check : Triple (fun _ => True) (cancelledCheck env) (fun _ _ => True) (Early running) :=
      fun w _ => ((cancelledCheck_triple (t := w.trace)).weaken (fun _ => id)
        fun _ _ _ => trivial) w rfl
    have exits : Triple (fun _ => True) (exitOn env (joinErrors (some e) m.closeErr))
        (fun _ _ => False) (Early running) :=
      exitOn_triple fun none => absurd none (joinErrors_some_ne_none e m.closeErr)
    refine logged.bind fun _ => check.bind fun _ => exits.bind fun _ => ?_
    exact Triple.pure fun w => False.elim
  | none =>
    refine Triple.of_pre ?_ fun w reads => reads rfl
    refine Triple.exists_pre fun readings => Triple.and_pre fun ⟨each, shape⟩ => ?_
    refine Triple.bind tick_triple fun m => Triple.bind log_triple fun _ =>
      Triple.bind cancelledCheck_triple fun _ => ?_
    have exits : Triple (fun w => w.trace = t ++ readings.flatMap Reading.events ++ [.closed])
        (exitOn env (joinErrors none m.closeErr))
        (fun _ w => w.trace = t ++ readings.flatMap Reading.events ++ [.closed]) (Early running) :=
      exitOn_triple fun _ w trace => trace
    exact exits.bind fun _ => Triple.pure fun w trace => ⟨_, ⟨readings, each, shape, rfl⟩, trace⟩

/-! ## The other parts -/

theorem firstApproval_triple :
    Triple (fun w => w.trace = t) (firstApproval env request) (fun _ => Approves request t)
      (Early running) := by
  refine Triple.bind tick_triple fun m => Triple.bind cancelledCheck_triple fun _ => ?_
  cases m.lookup with
  | error e =>
    refine Triple.ite (fun _ => exit_refuses (.inr (.inl rfl)) (Option.some_ne_none e)) fun _ => ?_
    exact exit_refuses (.inl rfl) (Option.some_ne_none _)
  | ok approval =>
    refine matchApproval_triple.bind fun isMatch => exitIf_triple (.inl rfl) _ fun passed w logged => ?_
    obtain ⟨now, matched, trace⟩ := logged (by simpa using passed)
    exact ⟨approval, now, matched, trace⟩

theorem openEvidence_triple :
    Triple (fun w => w.trace = t) (openEvidence env) (fun _ w => w.trace = t ++ [.opened])
      (Early running) := by
  have guarded : Triple (fun w => w.trace = t)
      (update fun w => { w with access := w.parent.map Prod.snd } : Prog PUnit)
      (fun _ w => w.trace = t) (Early running) := Triple.update fun w kept => kept
  refine guarded.bind fun _ => Triple.bind tick_triple fun m => ?_
  cases m.opened with
  | error e => exact (accessFailure_refuses e).of_pre fun _ _ => trivial
  | ok reader =>
    cases reader with
    | false => exact exit_refuses (.inr (.inr rfl)) (Option.some_ne_none _)
    | true => exact log_triple

theorem stillCurrent_triple :
    Triple (fun w => w.trace = t) (stillCurrent env request) (fun _ => Approves request t)
      (Early running) :=
  current_triple.bind fun _ => exitOn_triple fun none _ passed => passed none

/-- The bytes are the evidence, within the limit, and hold this condition. -/
structure Intact (v : Config ν) (request : Request) (data : Bytes) (condition : Bool) : Prop where
  within : data.length ≤ v.maxBytes
  size : (data.length : ℤ) = request.evidence.sizeBytes
  digest : v.digest data = request.evidence.sha256
  fixture : readFixture v request data = some condition

theorem checkFixture_triple {data : Bytes} :
    Triple (fun w => w.trace = t) (checkFixture v request data)
      (fun condition w => Intact v request data condition ∧ w.trace = t ++ [.decoded]) (Early running) := by
  have limit : Triple (fun w => w.trace = t)
      (exitIf (v.maxBytes < data.length) .blocked (.of .limit))
      (fun _ w => data.length ≤ v.maxBytes ∧ w.trace = t) (Early running) :=
    exitIf_triple (.inl rfl) _ fun within w trace => ⟨by simpa using within, trace⟩
  refine limit.bind fun _ => Triple.and_pre fun within => ?_
  have intact : Triple (fun w => w.trace = t)
      (exitIf ((data.length : ℤ) ≠ request.evidence.sizeBytes ||
        v.digest data ≠ request.evidence.sha256) .error (.of .integrity))
      (fun _ w => ((data.length : ℤ) = request.evidence.sizeBytes ∧
        v.digest data = request.evidence.sha256) ∧ w.trace = t) (Early running) :=
    exitIf_triple (.inr (.inr rfl)) _ fun same w trace => ⟨by simpa using same, trace⟩
  refine intact.bind fun _ => Triple.and_pre fun ⟨size, digest⟩ => ?_
  cases fixture : readFixture v request data with
  | none => exact exit_refuses (.inr (.inr rfl)) (Option.some_ne_none _)
  | some condition =>
    exact log_triple.bind fun _ => Triple.pure fun w trace =>
      ⟨⟨within, size, digest, fixture⟩, trace⟩

/-! ## The result -/

/-- A result from evidence: the approvals that matched, in the order of the trace, the data that
were read and the condition in them. -/
structure FromEvidence (v : Config ν) (request : Request) (r : Result) (trace : List Event) :
    Prop where
  error : r.error = none
  artifacts : r.artifacts = [request.evidence]
  shape : ∃ (before closed decoded : Approval × Time) (readings : List Reading) (condition : Bool),
    Matches request before.1 before.2 ∧ Matches request closed.1 closed.2 ∧
    Matches request decoded.1 decoded.2 ∧
    (∀ reading ∈ readings, Matches request reading.approval reading.now) ∧
    trace = [.approved before.1 before.2, .opened] ++ readings.flatMap Reading.events ++
      [.closed, .approved closed.1 closed.2, .decoded, .approved decoded.1 decoded.2] ∧
    Intact v request (readings.flatMap Reading.chunk) condition ∧
    r.outcome = if condition then .reproduced else .notReproduced

theorem verifyProgram_triple (enough : Enough v env running fuel) :
    Triple (fun w => w.trace = []) (verifyProgram v env request fuel)
      (fun r w => FromEvidence v request r w.trace) (Early running) := by
  refine cancelledCheck_triple.bind fun _ => ?_
  have complete {c : Bool} {e : Err} : Triple (fun w => w.trace = []) (exitIf c .blocked e)
      (fun _ w => w.trace = []) (Early running) := exitIf_triple (.inl rfl) e fun _ _ trace => trace
  refine complete.bind fun _ => complete.bind fun _ => firstApproval_triple.bind fun _ => ?_
  refine Triple.exists_pre fun before => Triple.exists_pre fun start =>
    Triple.and_pre fun matchedBefore => ?_
  refine cancelledCheck_triple.bind fun _ => openEvidence_triple.bind fun _ => ?_
  refine (readEvidence_triple enough).bind fun data => ?_
  refine Triple.exists_pre fun u => Triple.and_pre fun ⟨readings, each, shape, events⟩ => ?_
  subst shape events
  refine stillCurrent_triple.bind fun _ => ?_
  refine Triple.exists_pre fun closed => Triple.exists_pre fun after =>
    Triple.and_pre fun matchedClosed => ?_
  refine checkFixture_triple.bind fun condition => Triple.and_pre fun intact => ?_
  refine cancelledCheck_triple.bind fun _ => stillCurrent_triple.bind fun _ => ?_
  refine Triple.pure fun w ⟨decoded, last, matchedDecoded, trace⟩ => ?_
  refine ⟨rfl, rfl, (before, start), (closed, after), (decoded, last), readings, condition,
    matchedBefore, matchedClosed, matchedDecoded, each, ?_, intact, rfl⟩
  rw [trace]
  simp

theorem verify_cases {r : Result} {trace : List Event}
    (returned : verify v env request fuel = some (r, trace)) :
    FromEvidence v request r trace ∨ r.Refused := by
  have triple : Triple _ (verifyProgram v env request fuel) _ (Early True) :=
    verifyProgram_triple (.inl trivial)
  obtain ⟨ends, returns⟩ := triple ⟨0, none, none, []⟩ rfl
  unfold verify at returned
  split at returned
  · next result w ended =>
    obtain ⟨rfl, rfl⟩ := Prod.mk.inj (Option.some.inj returned)
    exact .inl (ends result w ended)
  · next e left =>
    exact .inr ((returns e left).refused (r, trace) returned)

/-- **Verify returns** when every read brings bytes or the end. -/
theorem verify_returns (v : Config ν) (env : ℕ → Move) (request : Request) (progress : Progress env)
    (enough : v.maxBytes + 1 < fuel) : ∃ p, verify v env request fuel = some p := by
  have triple : Triple _ (verifyProgram v env request fuel) _ (Early False) :=
    verifyProgram_triple (.inr ⟨progress, enough⟩)
  obtain ⟨-, returns⟩ := triple ⟨0, none, none, []⟩ rfl
  unfold verify
  split
  · exact ⟨_, rfl⟩
  · next e left => exact Option.ne_none_iff_exists'.mp (returns e left).fuel

/-! ## The fixture -/

/-- What the bytes of a fixture are. -/
structure IsFixture (v : Config ν) (request : Request) (data : Bytes) (condition : Bool) : Prop where
  object : ∃ fields : Json.Fields ν, v.parse data = some (.object fields) ∧
    (∀ entry ∈ fields, ∃ name ∈ ["schema".toList, "environmentId".toList, "condition".toList],
      Json.folds name entry.1 = true) ∧
    decodeFixture (.object fields) = some ⟨"aspm.synthetic-fixture/v1".toList,
      request.environmentID, some condition⟩

theorem isFixture_of_readFixture {data : Bytes} {condition : Bool}
    (found : readFixture v request data = some condition) :
    IsFixture v request data condition := by
  rw [readFixture, Option.bind_eq_bind, Option.bind_eq_some_iff] at found
  obtain ⟨fixture, decoded, checked⟩ := found
  obtain ⟨value, parsed, struct⟩ := Option.bind_eq_some_iff.mp decoded
  rw [Option.ite_none_right_eq_some] at checked
  obtain ⟨⟨schema, environment⟩, holds⟩ := checked
  have whole : fixture = ⟨"aspm.synthetic-fixture/v1".toList, request.environmentID,
      some condition⟩ := by
    rw [← schema, ← environment, ← holds]
  rw [whole] at struct
  -- `null` decodes to a fixture without a schema
  match value, struct with
  | .object fields, struct =>
    refine ⟨fields, parsed, fun entry mem => ?_, struct⟩
    obtain ⟨member, listed, named⟩ := Json.known_of_foldlM struct entry mem
    refine ⟨member.name, ?_, named⟩
    simp only [fixtureMembers, List.mem_cons, List.not_mem_nil, or_false] at listed
    rcases listed with rfl | rfl | rfl <;> simp
  | .null, struct =>
    have condition : none = some condition := congrArg Fixture.condition (Option.some.inj struct)
    cases condition

/-! ## The theorem -/

namespace Sample

def evidence : Ref := ⟨"w".toList, "b".toList, "k".toList, "d".toList, 1⟩

def fixtureRequest : Request :=
  ⟨"w".toList, "f".toList, "r".toList, "a".toList, "deterministic-evidence".toList, "s".toList,
    "e".toList, evidence⟩

def approval : Approval :=
  ⟨"a".toList, "w".toList, "f".toList, "deterministic-evidence".toList, "s".toList, "e".toList,
    "d".toList, true, 10⟩

/-- One byte, which stands for a fixture. -/
def config : Config Unit where
  maxBytes := 4
  digest := fun _ => "d".toList
  parse := fun _ => some (.object [("schema".toList, .string "aspm.synthetic-fixture/v1".toList),
    ("environmentId".toList, .string "e".toList), ("condition".toList, .bool true)])
  maxBytes_pos := by decide
  maxBytes_le := by decide

def move : Move := ⟨none, false, 0, .ok approval, .ok true, [7], some .eof, none⟩

def trace : List Event :=
  [.approved approval 0, .opened, .approved approval 0, .read [7], .closed, .approved approval 0,
    .decoded, .approved approval 0]

theorem verify_eq : verify config (fun _ => move) fixtureRequest 2 =
    some (⟨.reproduced, [evidence], none⟩, trace) := by
  decide

end Sample

theorem verify_returns_sample :
    ∃ p, verify Sample.config (fun _ => Sample.move) Sample.fixtureRequest 6 = some p :=
  verify_returns Sample.config _ _ (fun _ => .inl (List.cons_ne_nil _ _)) (by decide)

end Aspm.Verifier
