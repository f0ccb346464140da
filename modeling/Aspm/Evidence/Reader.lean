import Aspm.Lib.Machine
import Aspm.Lib.History
import Aspm.Lib.Strings

/-!
# The verifying evidence reader

`Store.Open` hands out a `verifiedReader`: a reader that passes the bytes of a stored object
on and compares their number and their digest with the reference when the object ends.
`Close` reads what is left, so that a caller who stops early is told about a damaged object
as well.

The body is any machine that answers `Read` and `Close`.  It may deliver its bytes in chunks
of any size, end too early or too late, fail at any point, and do so in answer to the
buffers that it is given.  The flags `done`, `closed` and `failure` make the reader a small
state machine over it; `Reading` is its invariant before `Close`, and `Released` the one
after.

## Main results

* `read_reading`, `drain_reading`, `close_released` — what one call does to the invariant;
* `reader_never_vouches` — what the results of a whole sequence of calls say about the bytes.
-/

namespace Aspm.EvidenceReader

open Json (Text)

/-! ## Errors -/

/-- An error, as far as `errors.Is(err, io.EOF)` looks into it. -/
inductive Error where
  | eof
  | invalid
  | scope
  | integrity
  | readerClosed
  | plain (text : String)
  | wrapped (cause : Error)
  | joined (first second : Error)
deriving DecidableEq

/-- `errors.Is(err, io.EOF)`. -/
def Error.isEOF : Error → Bool
  | eof => true
  | wrapped cause => cause.isEOF
  | joined first second => first.isEOF || second.isEOF
  | _ => false

/-- `errors.Join` of two errors, of which either may be `nil`. -/
def join : Option Error → Option Error → Option Error
  | none, none => none
  | some a, none => some (.wrapped a)
  | none, some b => some (.wrapped b)
  | some a, some b => some (.joined a b)

theorem join_eq_none {a b : Option Error} : join a b = none ↔ a = none ∧ b = none := by
  cases a <;> cases b <;> simp [join]

/-! ## The reader -/

structure Ref where
  workspaceID : Text
  bucket : Text
  key : Text
  sha256 : Text
  sizeBytes : ℤ
deriving DecidableEq

/-- What `Read` of a body returns: the bytes it put into the buffer, and an error. -/
abbrev Chunk := List UInt8 × Option Error

/-- An `io.ReadCloser`.  `Read` gets a buffer of some length and fills at most that much. -/
structure Body (β : Type) where
  read : β → ℕ → Chunk × β
  close : β → Option Error × β
  fits : ∀ b length, (read b length).1.1.length ≤ length

/-- `verifiedReader`, apart from the body.  The state of the hash is what was written. -/
structure VerifiedReader where
  hash : List UInt8
  expected : Ref
  count : ℤ
  done : Bool
  closed : Bool
  failure : Option Error
deriving DecidableEq

/-- A reader with its body.  `delivered` and `released` record what the body answered, and
nothing reads them. -/
structure Session (β : Type) where
  reader : VerifiedReader
  body : β
  delivered : List Chunk
  released : List (Option Error)

def isAlphanumeric (c : Char) : Bool :=
  ('A' ≤ c && c ≤ 'Z') || ('a' ≤ c && c ≤ 'z') || ('0' ≤ c && c ≤ '9')

/-- `^[A-Za-z0-9][A-Za-z0-9._-]{0,199}$`. -/
def safeSegment : Text → Bool
  | [] => false
  | c :: rest => isAlphanumeric c && rest.length ≤ 199 &&
      rest.all fun c => isAlphanumeric c || c ∈ ['.', '_', '-']

/-- `^sha256:[0-9a-f]{64}$`. -/
def digestPattern (t : Text) : Bool :=
  t.take 7 = "sha256:".toList && (t.drop 7).length = 64 &&
    (t.drop 7).all fun c => ('0' ≤ c && c ≤ '9') || ('a' ≤ c && c ≤ 'f')

/-- The part of the configuration that `Open` reads. -/
structure Config where
  bucket : Text
  keyPrefix : Text
deriving DecidableEq

section Reader

variable (hexDigest : List UInt8 → Text) {β : Type} (body : Body β)

/-- `"sha256:"+hex.EncodeToString(hash.Sum(nil))`. -/
def sumText (bytes : List UInt8) : Text := "sha256:".toList ++ hexDigest bytes

/-- The bytes have the size and the digest of the reference. -/
def Ref.Matches (ref : Ref) (bytes : List UInt8) : Prop :=
  (bytes.length : ℤ) = ref.sizeBytes ∧ sumText hexDigest bytes = ref.sha256

/-- A reader that has read nothing. -/
def Session.opened (ref : Ref) (b : β) : Session β where
  reader := ⟨[], ref, 0, false, false, none⟩
  body := b
  delivered := []
  released := []

/-- `Store.Open`, with the answer of `GetObject`: an error, or the declared length of the
object and its body. -/
def openRef (config : Config) (workspace : Text) (ref : Ref)
    (object : Except Error (ℤ × β)) : Except Error (Session β) :=
  if !safeSegment workspace || ref.workspaceID ≠ workspace || ref.bucket ≠ config.bucket ||
      !(config.keyPrefix ++ workspace ++ ['/']).isPrefixOf ref.key || ref.key.contains '\\' ||
      "/../".toList <:+: ref.key || "/./".toList <:+: ref.key then
    .error .scope
  else if !digestPattern ref.sha256 || ref.sizeBytes < 0 then .error .invalid
  else match object with
    | .error e => .error (.wrapped e)
    | .ok (contentLength, b) =>
      if contentLength ≠ ref.sizeBytes then
        .error ((join (some .integrity) (body.close b).1).getD .integrity)
      else .ok (.opened ref b)

/-- The second half of `Read`: what the reader makes of the error of the body, after it has
counted the chunk. -/
def VerifiedReader.judge (r : VerifiedReader) (err : Option Error) :
    Option Error × VerifiedReader :=
  if r.expected.sizeBytes < r.count then
    (some .integrity, { r with done := true, failure := some .integrity })
  else match err with
    | none => (none, r)
    | some e =>
      if e.isEOF then
        if r.count ≠ r.expected.sizeBytes ||
            sumText hexDigest r.hash ≠ r.expected.sha256 then
          (some .integrity, { r with done := true, failure := some .integrity })
        else (some e, { r with done := true })
      else (some e, { r with done := true, failure := some e })

/-- The first half of `Read`: the chunk is hashed and counted. -/
def VerifiedReader.feed (r : VerifiedReader) (bytes : List UInt8) : VerifiedReader :=
  { r with hash := r.hash ++ bytes, count := r.count + bytes.length }

/-- A chunk of the body goes through both halves. -/
def accept (s : Session β) (chunk : Chunk) (b : β) : Chunk × Session β :=
  ((chunk.1, ((s.reader.feed chunk.1).judge hexDigest chunk.2).1),
    { s with
      reader := ((s.reader.feed chunk.1).judge hexDigest chunk.2).2
      body := b
      delivered := s.delivered ++ [chunk] })

/-- `verifiedReader.Read` with a buffer of the given length. -/
def read (s : Session β) (length : ℕ) : Chunk × Session β :=
  if s.reader.closed then (([], some .readerClosed), s)
  else if s.reader.done then (([], some (s.reader.failure.getD .eof)), s)
  else
    let answer := body.read s.body length
    accept hexDigest s answer.1 answer.2

/-- `io.Copy(io.Discard, r)`: read until an error, and report all but `io.EOF` itself.  A
body that never ends never lets it return, so the number of reads is bounded here and
running out means that the call has not returned. -/
def drain : ℕ → Session β → Option (Option Error × Session β)
  | 0, _ => none
  | reads + 1, s =>
    match read hexDigest body s 8192 with
    | ((_, none), s') => drain reads s'
    | ((_, some e), s') => some (if e = .eof then none else some e, s')

/-- The first half of `Close`: the rest of the body is read, unless it has ended. -/
def finish (reads : ℕ) (s : Session β) : Option (Session β) :=
  if s.reader.done then some s
  else (drain hexDigest body reads s).map fun drained =>
    { drained.2 with
      reader := { drained.2.reader with failure := join drained.2.reader.failure drained.1 } }

/-- `verifiedReader.Close`. -/
def close (reads : ℕ) (s : Session β) : Option (Option Error × Session β) :=
  if s.reader.closed then some (s.reader.failure, s)
  else (finish hexDigest body reads s).map fun finished =>
    let released := body.close finished.body
    let failure := join finished.reader.failure released.1
    (failure,
      { finished with
        reader := { finished.reader with closed := true, failure := failure }
        body := released.2
        released := finished.released ++ [released.1] })

/-! ## Sequences of calls -/

inductive Call where
  | read (length : ℕ)
  | close (reads : ℕ)
deriving DecidableEq

/-- A call that returned, with its results. -/
inductive Event where
  | read (bytes : List UInt8) (err : Option Error)
  | close (err : Option Error)
deriving DecidableEq

/-- A reader and the calls made on it, the last one first. -/
structure World (β : Type) where
  session : Session β
  log : List Event

def step (w : World β) : Call → Option (World β)
  | .read length =>
    let answer := read hexDigest body w.session length
    some ⟨answer.2, .read answer.1.1 answer.1.2 :: w.log⟩
  | .close reads =>
    (close hexDigest body reads w.session).map fun answer =>
      ⟨answer.2, .close answer.1 :: w.log⟩

/-- The bytes that the calls returned to their caller. -/
def returned : List Event → List UInt8
  | [] => []
  | .read bytes _ :: older => returned older ++ bytes
  | .close _ :: older => returned older

/-- The call reported that all is well: the end of the bytes, or a clean `Close`. -/
def Event.Vouches : Event → Prop
  | .read _ err => err = some .eof
  | .close err => err = none

/-- A `Read` that returned an error which is not `io.EOF` and does not wrap it. -/
def Event.Fails : Event → Prop
  | .read _ err => ∃ e, err = some e ∧ e.isEOF = false
  | .close _ => False

/-! ## The invariant while the reader is open -/

/-- The body has ended: its last answer was `io.EOF`. -/
def Session.Ended (s : Session β) : Prop :=
  ∃ bytes e, s.delivered.getLast? = some (bytes, some e) ∧ e.isEOF = true

structure Session.Reading (ref : Ref) (s : Session β) : Prop where
  expected : s.reader.expected = ref
  opened : s.reader.closed = false
  unreleased : s.released = []
  hash : s.reader.hash = s.delivered.flatMap (·.1)
  count : s.reader.count = s.reader.hash.length
  going : s.reader.done = false → s.reader.failure = none
  ended : s.reader.done = true → s.reader.failure = none →
    ref.Matches hexDigest s.reader.hash ∧ s.Ended
  failed : ∀ e, s.reader.failure = some e → e.isEOF = false

theorem reading_opened (ref : Ref) (b : β) : (Session.opened ref b).Reading hexDigest ref where
  expected := rfl
  opened := rfl
  unreleased := rfl
  hash := rfl
  count := rfl
  going _ := rfl
  ended done := by cases done
  failed _ failure := by cases failure

variable {hexDigest body} {ref : Ref} {s s' : Session β}

/-- What the reader makes of an answer: it goes on, or is done with a failure, or is done
with everything in order. -/
theorem judge_cases (hexDigest : List UInt8 → Text) (r : VerifiedReader) (err : Option Error) :
    (err = none ∧ r.judge hexDigest err = (none, r)) ∨
      (∃ e, e.isEOF = false ∧
        r.judge hexDigest err = (some e, { r with done := true, failure := some e })) ∨
      ∃ e, err = some e ∧ e.isEOF = true ∧ r.count = r.expected.sizeBytes ∧
        sumText hexDigest r.hash = r.expected.sha256 ∧
        r.judge hexDigest err = (some e, { r with done := true }) := by
  unfold VerifiedReader.judge
  by_cases long : r.expected.sizeBytes < r.count
  · rw [if_pos long]
    exact .inr (.inl ⟨.integrity, rfl, rfl⟩)
  · rw [if_neg long]
    cases err with
    | none => exact .inl ⟨rfl, rfl⟩
    | some e =>
      cases ends : e.isEOF with
      | false => exact .inr (.inl ⟨e, ends, by simp [ends]⟩)
      | true =>
        by_cases same : r.count = r.expected.sizeBytes ∧
            sumText hexDigest r.hash = r.expected.sha256
        · exact .inr (.inr ⟨e, rfl, ends, same.1, same.2, by simp [ends, same.1, same.2]⟩)
        · refine .inr (.inl ⟨.integrity, rfl, ?_⟩)
          rw [not_and_or] at same
          simp [ends, same]

/-- What a `Read` of an open reader says about the state after it. -/
structure Answers (hexDigest : List UInt8 → Text) (ref : Ref) (s : Session β) (chunk : Chunk)
    (s' : Session β) : Prop where
  reading : s'.Reading hexDigest ref
  bytes : s'.reader.hash = s.reader.hash ++ chunk.1
  /-- An error ends the reading, and one that is not `io.EOF` is the failure. -/
  errs : ∀ e, chunk.2 = some e → s'.reader.done = true ∧
    (e.isEOF = false → s'.reader.failure = some e) ∧ (e.isEOF = true → s'.reader.failure = none)
  /-- A failure stays. -/
  sticks : ∀ e, s.reader.failure = some e → s'.reader.failure = some e

/-- A chunk that an open reader accepts before its end. -/
theorem accept_reading (reading : s.Reading hexDigest ref) (ongoing : s.reader.done = false)
    (chunk : Chunk) (b : β) :
    Answers hexDigest ref s (accept hexDigest s chunk b).1 (accept hexDigest s chunk b).2 := by
  obtain ⟨bytes, err⟩ := chunk
  have clean := reading.going ongoing
  have hash : s.reader.hash ++ bytes = (s.delivered ++ [(bytes, err)]).flatMap (·.1) := by
    simp [reading.hash]
  have count : s.reader.count + (bytes.length : ℤ) = (s.reader.hash ++ bytes).length := by
    rw [reading.count, List.length_append, Nat.cast_add]
  simp only [accept]
  rcases judge_cases hexDigest (s.reader.feed bytes) err with
    ⟨rfl, judged⟩ | ⟨e, fails, judged⟩ | ⟨e, rfl, ends, size, digest, judged⟩
  · rw [judged]
    exact ⟨⟨reading.expected, reading.opened, reading.unreleased, hash, count, fun _ => clean,
      fun done => absurd (ongoing.symm.trans done) Bool.false_ne_true, reading.failed⟩,
      rfl, nofun, fun _ failure => failure⟩
  · rw [judged]
    refine ⟨⟨reading.expected, reading.opened, reading.unreleased, hash, count, nofun, nofun, ?_⟩,
      rfl, ?_, fun e failure => absurd (clean.symm.trans failure) nofun⟩
    · rintro _ ⟨rfl⟩
      exact fails
    · rintro _ ⟨rfl⟩
      exact ⟨rfl, fun _ => rfl, fun ends => absurd (fails.symm.trans ends) Bool.false_ne_true⟩
  · rw [judged]
    have exact_ : ref.Matches hexDigest (s.reader.hash ++ bytes) := by
      rw [← reading.expected]
      exact ⟨count.symm.trans size, digest⟩
    refine ⟨⟨reading.expected, reading.opened, reading.unreleased, hash, count, nofun,
      fun _ _ => ⟨exact_, bytes, e, List.getLast?_concat, ends⟩, reading.failed⟩, rfl, ?_,
      fun _ failure => failure⟩
    rintro _ ⟨rfl⟩
    exact ⟨rfl, fun fails => absurd (fails.symm.trans ends) Bool.false_ne_true, fun _ => clean⟩

/-- **One `Read`.** -/
theorem read_reading (reading : s.Reading hexDigest ref) (length : ℕ) :
    Answers hexDigest ref s (read hexDigest body s length).1
      (read hexDigest body s length).2 := by
  unfold read
  rw [reading.opened, if_neg Bool.false_ne_true]
  cases ended : s.reader.done with
  | false =>
    rw [if_neg Bool.false_ne_true]
    exact accept_reading reading ended _ _
  | true =>
    rw [if_pos rfl]
    refine ⟨reading, (List.append_nil _).symm, ?_, fun _ failure => failure⟩
    rintro e ⟨rfl⟩
    refine ⟨ended, ?_, ?_⟩
    · cases failure : s.reader.failure with
      | none => exact fun ends => absurd ends (by decide)
      | some e => exact fun _ => rfl
    · cases failure : s.reader.failure with
      | none => exact fun _ => rfl
      | some e => exact fun ends => absurd ends (by simp [reading.failed e failure])

variable {reads : ℕ}

/-- **Draining** ends at an error, and reports none only if the reader is content. -/
theorem drain_reading {err : Option Error} (reading : s.Reading hexDigest ref)
    (drained : drain hexDigest body reads s = some (err, s')) :
    s'.Reading hexDigest ref ∧ s'.reader.done = true ∧
      (err = none → s'.reader.failure = none) := by
  induction reads generalizing s with
  | zero => cases drained
  | succ reads ih =>
    have answers : Answers hexDigest ref s (read hexDigest body s 8192).1
        (read hexDigest body s 8192).2 := read_reading reading 8192
    rw [drain] at drained
    generalize read hexDigest body s 8192 = answer at drained answers
    obtain ⟨⟨bytes, _ | e⟩, next⟩ := answer
    · exact ih answers.reading drained
    · obtain ⟨rfl, rfl⟩ := Prod.mk.inj (Option.some.inj drained)
      obtain ⟨done, -, content⟩ := answers.errs e rfl
      refine ⟨answers.reading, done, fun none_ => content ?_⟩
      split_ifs at none_ with end_
      rw [end_]
      rfl

/-! ## The invariant after `Close` -/

variable (hexDigest) in
structure Session.Released (ref : Ref) (s : Session β) : Prop where
  closed : s.reader.closed = true
  /-- A reader without a failure has seen the whole object, and closed it. -/
  content : s.reader.failure = none →
    ref.Matches hexDigest (s.delivered.flatMap (·.1)) ∧ s.Ended ∧ s.released = [none]

theorem finish_reading (reading : s.Reading hexDigest ref)
    (finished : finish hexDigest body reads s = some s') :
    s'.released = [] ∧ s'.reader.closed = false ∧
      (s'.reader.failure = none →
        ref.Matches hexDigest (s'.delivered.flatMap (·.1)) ∧ s'.Ended) ∧
      ∀ e, s.reader.failure = some e → s'.reader.failure ≠ none := by
  unfold finish at finished
  split_ifs at finished with done
  · obtain rfl := Option.some.inj finished
    refine ⟨reading.unreleased, reading.opened, fun clean => ?_, fun e failure => by simp [failure]⟩
    rw [← reading.hash]
    exact reading.ended done clean
  · obtain ⟨⟨err, drained⟩, drains, rfl⟩ := Option.map_eq_some_iff.mp finished
    obtain ⟨reading', done', -⟩ := drain_reading reading drains
    refine ⟨reading'.unreleased, reading'.opened, fun clean => ?_, fun e failure => ?_⟩
    · obtain ⟨clean, -⟩ := join_eq_none.mp clean
      have all := reading'.ended done' clean
      rw [reading'.hash] at all
      exact all
    · rw [reading.going (by simpa using done)] at failure
      cases failure

/-- **One `Close`** of an open reader. -/
theorem close_released {err : Option Error} (reading : s.Reading hexDigest ref)
    (closes : close hexDigest body reads s = some (err, s')) :
    s'.Released hexDigest ref ∧ s'.reader.failure = err ∧
      ∀ e, s.reader.failure = some e → err ≠ none := by
  unfold close at closes
  rw [reading.opened, if_neg Bool.false_ne_true] at closes
  obtain ⟨finished, finishes, same⟩ := Option.map_eq_some_iff.mp closes
  obtain ⟨rfl, rfl⟩ := Prod.mk.inj same
  obtain ⟨unreleased, -, content, sticks⟩ := finish_reading reading finishes
  refine ⟨⟨rfl, fun clean => ?_⟩, rfl, fun e failure clean => ?_⟩
  · obtain ⟨clean, released⟩ := join_eq_none.mp clean
    obtain ⟨exact_, ended⟩ := content clean
    refine ⟨exact_, ended, ?_⟩
    rw [unreleased, released]
    rfl
  · exact sticks e failure (join_eq_none.mp clean).1

/-! ## Whole sequences -/

/-- Each call that vouches comes after calls that did not fail, and a `Read` that reports
the end comes after exactly the bytes of the reference. -/
def Sound (hexDigest : List UInt8 → Text) (ref : Ref) : Event → List Event → Prop :=
  fun e older =>
    (e.Vouches → ∀ d ∈ older, ¬ d.Fails) ∧
      ∀ bytes, e = .read bytes (some .eof) → ref.Matches hexDigest (returned older ++ bytes)

/-- The reader and the log while only `Read` has been called. -/
structure World.Reading (hexDigest : List UInt8 → Text) (ref : Ref) (w : World β) : Prop where
  session : w.session.Reading hexDigest ref
  bytes : returned w.log = w.session.reader.hash
  broken : ∀ d ∈ w.log, d.Fails → ∃ e, w.session.reader.failure = some e
  sound : History.Everywhere (Sound hexDigest ref) w.log
  unclosed : ∀ err, .close err ∉ w.log

/-- The reader and the log once `Close` has been called. -/
structure World.Released (hexDigest : List UInt8 → Text) (ref : Ref) (w : World β) : Prop where
  session : w.session.Released hexDigest ref
  broken : ∀ d ∈ w.log, d.Fails → ∃ e, w.session.reader.failure = some e
  sound : History.Everywhere (Sound hexDigest ref) w.log
  content : .close none ∈ w.log → w.session.reader.failure = none

variable {w w' : World β}

theorem World.Reading.read (reading : w.Reading hexDigest ref) {length : ℕ}
    (taken : step hexDigest body w (.read length) = some w') : w'.Reading hexDigest ref := by
  obtain rfl := Option.some.inj taken
  have answers : Answers hexDigest ref w.session (EvidenceReader.read hexDigest body w.session length).1
      (EvidenceReader.read hexDigest body w.session length).2 := read_reading reading.session length
  generalize EvidenceReader.read hexDigest body w.session length = answer at answers
  obtain ⟨⟨bytes, err⟩, next⟩ := answer
  refine ⟨answers.reading, ?_, ?_, ?_, ?_⟩
  · rw [answers.bytes, ← reading.bytes]
    rfl
  · intro d mem fails
    rcases List.mem_cons.mp mem with rfl | old
    · obtain ⟨e, rfl, other⟩ := fails
      exact ⟨e, (answers.errs e rfl).2.1 other⟩
    · obtain ⟨e, failure⟩ := reading.broken d old fails
      exact ⟨e, answers.sticks e failure⟩
  · refine History.everywhere_cons.mpr ⟨⟨fun vouches d mem fails => ?_, ?_⟩, reading.sound⟩
    · obtain rfl : err = some .eof := vouches
      obtain ⟨e, failure⟩ := reading.broken d mem fails
      have clean := (answers.errs .eof rfl).2.2 rfl
      rw [answers.sticks e failure] at clean
      cases clean
    · rintro _ ⟨rfl, rfl⟩
      obtain ⟨done, -, clean⟩ := answers.errs .eof rfl
      rw [reading.bytes, ← answers.bytes]
      exact (answers.reading.ended done (clean rfl)).1
  · rintro err' (_ | ⟨_, old⟩)
    exact reading.unclosed err' old

theorem World.Reading.close (reading : w.Reading hexDigest ref)
    (taken : step hexDigest body w (.close reads) = some w') : w'.Released hexDigest ref := by
  obtain ⟨⟨err, next⟩, closes, rfl⟩ := Option.map_eq_some_iff.mp taken
  obtain ⟨released, same, sticks⟩ := close_released reading.session closes
  refine ⟨released, ?_, ?_, ?_⟩
  · intro d mem fails
    rcases List.mem_cons.mp mem with rfl | old
    · exact fails.elim
    · obtain ⟨e, failure⟩ := reading.broken d old fails
      rw [same]
      exact Option.ne_none_iff_exists'.mp (sticks e failure)
  · refine History.everywhere_cons.mpr ⟨⟨fun vouches d mem fails => ?_, nofun⟩, reading.sound⟩
    obtain ⟨e, failure⟩ := reading.broken d mem fails
    exact sticks e failure vouches
  · intro mem
    rcases List.mem_cons.mp mem with now | old
    · rw [same]
      exact (Event.close.inj now).symm
    · exact absurd old (reading.unclosed none)

theorem World.Released.close (released : w.Released hexDigest ref)
    (taken : step hexDigest body w (.close reads) = some w') : w'.Released hexDigest ref := by
  obtain ⟨⟨err, next⟩, closes, rfl⟩ := Option.map_eq_some_iff.mp taken
  unfold EvidenceReader.close at closes
  rw [released.session.closed, if_pos rfl] at closes
  obtain ⟨rfl, rfl⟩ := Prod.mk.inj (Option.some.inj closes)
  refine ⟨released.session, ?_, ?_, ?_⟩
  · intro d mem fails
    rcases List.mem_cons.mp mem with rfl | old
    · exact fails.elim
    · exact released.broken d old fails
  · refine History.everywhere_cons.mpr ⟨⟨fun vouches d mem fails => ?_, nofun⟩, released.sound⟩
    obtain ⟨e, failure⟩ := released.broken d mem fails
    exact absurd (failure.symm.trans vouches) nofun
  · intro mem
    rcases List.mem_cons.mp mem with now | old
    · exact (Event.close.inj now).symm
    · exact released.content old

theorem reading_run (lengths : List ℕ) (reading : w.Reading hexDigest ref)
    (runs : Machine.run (step hexDigest body) w (lengths.map .read) = some w') :
    w'.Reading hexDigest ref := by
  induction lengths generalizing w with
  | nil =>
    obtain rfl := Option.some.inj runs
    exact reading
  | cons length lengths ih =>
    obtain ⟨next, taken, rest⟩ := (Machine.run_cons_eq_some _).mp runs
    exact ih (reading.read taken) rest

theorem released_run (closes : List ℕ) (released : w.Released hexDigest ref)
    (runs : Machine.run (step hexDigest body) w (closes.map .close) = some w') :
    w'.Released hexDigest ref := by
  induction closes generalizing w with
  | nil =>
    obtain rfl := Option.some.inj runs
    exact released
  | cons reads closes ih =>
    obtain ⟨next, taken, rest⟩ := (Machine.run_cons_eq_some _).mp runs
    exact ih (released.close taken) rest

/-- **Evidence readers never report success for wrong bytes.**  Whatever the body does, after
any number of `Read` and then of `Close`: a `Read` that returned `io.EOF` had returned exactly
the bytes of the reference; after a `Read` with an error that is not `io.EOF`, nothing
vouched for the bytes; and a `Close` that returned `nil` had read the whole body, with the
size and digest of the reference, and closed it without an error. -/
theorem reader_never_vouches (lengths closes : List ℕ) (b : β) {w : World β}
    (runs : Machine.run (step hexDigest body) ⟨.opened ref b, []⟩
      (lengths.map .read ++ closes.map .close) = some w) :
    (∀ newer bytes older, w.log = newer ++ .read bytes (some .eof) :: older →
      ref.Matches hexDigest (returned older ++ bytes)) ∧
    (∀ newer e older, w.log = newer ++ e :: older → e.Fails → ∀ d ∈ newer, ¬ d.Vouches) ∧
    (.close none ∈ w.log → ref.Matches hexDigest (w.session.delivered.flatMap (·.1)) ∧
      w.session.Ended ∧ w.session.released = [none]) := by
  have start : World.Reading hexDigest ref (⟨.opened ref b, []⟩ : World β) :=
    ⟨reading_opened hexDigest ref b, rfl, nofun, History.everywhere_nil, nofun⟩
  rw [Machine.run_append] at runs
  obtain ⟨read, reads, rest⟩ := Option.bind_eq_some_iff.mp runs
  have reading := reading_run lengths start reads
  have sound : History.Everywhere (Sound hexDigest ref) w.log ∧ (.close none ∈ w.log →
      ref.Matches hexDigest (w.session.delivered.flatMap (·.1)) ∧
        w.session.Ended ∧ w.session.released = [none]) := by
    cases closes with
    | nil =>
      obtain rfl := Option.some.inj rest
      exact ⟨reading.sound, fun mem => absurd mem (reading.unclosed none)⟩
    | cons first closes =>
      obtain ⟨next, taken, rest⟩ := (Machine.run_cons_eq_some _).mp rest
      have released := released_run closes (reading.close taken) rest
      exact ⟨released.sound, fun mem => released.session.content (released.content mem)⟩
  refine ⟨fun newer bytes older split => (sound.1 newer _ older split).2 bytes rfl, ?_, sound.2⟩
  intro newer e older split fails d mem vouches
  obtain ⟨after, before, rfl⟩ := List.append_of_mem mem
  refine (sound.1 after d (before ++ e :: older) ?_).1 vouches e (by simp) fails
  rw [split, List.append_assoc, List.cons_append]

/-! ## A body that follows a script -/

/-- A body that gives the chunks of a list, each in one `Read` if the buffer is large
enough, and then `io.EOF`. -/
def scripted : Body (List Chunk) where
  read
    | [], _ => (([], some .eof), [])
    | chunk :: rest, length => ((chunk.1.take length, chunk.2), rest)
  close b := (none, b)
  fits b length := by
    cases b with
    | nil => exact Nat.zero_le length
    | cons chunk rest => exact List.length_take_le length chunk.1

/-- One letter for each byte, instead of a digest. -/
def letters (bytes : List UInt8) : Text := bytes.map fun byte => Char.ofNat (byte.toNat + 96)

/-- A caller that stops after the first of two chunks: `Close` reads the second one. -/
theorem reader_never_vouches_stopped :
    let ref : Ref := ⟨[], [], [], "sha256:ab".toList, 2⟩
    ∃ w : World (List Chunk),
      Machine.run (step letters scripted) ⟨.opened ref [([1], none), ([2], some .eof)], []⟩
        ([4].map .read ++ [5, 0].map .close) = some w ∧
      .close none ∈ w.log ∧ ref.Matches letters (w.session.delivered.flatMap (·.1)) ∧
      w.session.Ended ∧ w.session.released = [none] := by
  intro ref
  obtain ⟨w, runs, checked⟩ := Machine.exists_run_of_any (step letters scripted)
    (p := fun w => decide (Event.close none ∈ w.log))
    (s := ⟨.opened ref [([1], none), ([2], some .eof)], []⟩)
    (by decide +kernel : (Machine.run (step letters scripted) _
      ([4].map .read ++ [5, 0].map .close)).any _ = true)
  have vouched := of_decide_eq_true checked
  exact ⟨w, runs, vouched, (reader_never_vouches [4] [5, 0] _ runs).2.2 vouched⟩

end Reader

end Aspm.EvidenceReader
