import Aspm.Retention.Reliance

/-!
# What a turn does

One lemma for each action of `processRetentionItem`: a turn of a worker that can rely on what its
stage says does one of the deeds of `Retention.Reliance`, and the worker can rely on what its next
stage says.  The two turns of `deleteOrphanArchive` that are no deeds, the deletion of the object
and the end of the transaction, have cases of their own in `Turned`.
-/

namespace Aspm.Retention

open Reconcile (Time)

open Content Evidence

variable {ID Data Digest : Type} [DecidableEq ID] [DecidableEq Digest] [Content Data Digest]

/-- What has come of a turn. -/
inductive Turned (guarded bound : Prop) (party : Party ID) (task : Task ID Digest)
    (stage : Stage ID Data Digest) (e : Evidence ID Data Digest) :
    Evidence ID Data Digest → Stage ID Data Digest → Prop
  | deed {e' : Evidence ID Data Digest} {stage' : Stage ID Data Digest}
      (deed : Deed guarded party task.resource stage e e')
      (sound : ∀ erased, Sound bound erased e' party task stage') :
      Turned guarded bound party task stage e e' stage'
  /-- The object of an orphan is deleted, under the lock of the publication. -/
  | purge {key : Key ID Digest} {digest : Digest} {revision : ℕ} {p : Publication ID Digest}
      {outcome : String} (orphan : task = .deleteOrphan key digest revision)
      (here : stage = .condemned p) :
      Turned guarded bound party task stage e (e.setObject key none) (.deleted p outcome)
  /-- The publication is finished, and with it the transaction. -/
  | commit {key : Key ID Digest} {digest : Digest} {revision : ℕ} {p p' : Publication ID Digest}
      {outcome : Outcome} (orphan : task = .deleteOrphan key digest revision)
      (lock : e.Locked party key p) (newer : p.revision < p'.revision) :
      Turned guarded bound party task stage e ((e.setPublication key p').unlock party)
        (.done outcome)

namespace Work

variable {guarded bound : Prop} {erased : Key ID Digest → Prop} {e e' : Evidence ID Data Digest}
  {party : Party ID} {task : Task ID Digest} {r : Resource ID} {stage stage' : Stage ID Data Digest}
  {protection : List String} {leased : Bool} {wall : Time} {key : Key ID Digest} {publication : ℕ}
  {state : PublicationState}

omit [DecidableEq ID] [DecidableEq Digest] [Content Data Digest] in
theorem withLease_goes {body : Effect ID Data Digest}
    (goes : withLease leased body = .goes e' stage') : leased = true ∧ body = .goes e' stage' := by
  unfold withLease at goes
  split at goes
  case isTrue owner => exact ⟨owner, goes⟩
  case isFalse => cases goes

omit [Content Data Digest] in
theorem finishArchivePublication_some
    (finish : e.finishArchivePublication key publication state wall = some e') :
    ∃ p, e.publications key = some p ∧ p.revision = publication ∧
      e' = e.setPublication key
        { p with state, revision := publication + 1, updatedAt := wall } := by
  obtain ⟨p, stored, finish⟩ := Option.bind_eq_some_iff.mp finish
  obtain ⟨same, result⟩ := Option.ite_none_right_eq_some.mp finish
  exact ⟨p, stored, same, (Option.some.inj result).symm⟩

omit [Content Data Digest] in
theorem finishing_goes {next : Stage ID Data Digest}
    (goes : finishing e wall key publication state next = .goes e' stage') :
    stage' = next ∧ e.locks key = none ∧ ∃ p p', e.publications key = some p ∧
      p.revision = publication ∧ p'.revision = publication + 1 ∧
      e' = e.setPublication key p' := by
  unfold finishing at goes
  split at goes
  · cases goes
  case isFalse free =>
    split at goes
    case h_1 finish =>
      cases goes
      obtain ⟨p, stored, same, rfl⟩ := finishArchivePublication_some finish
      exact ⟨rfl, Option.not_isSome_iff_eq_none.mp free, p, _, stored, same, rfl, rfl⟩
    case h_2 => cases goes

variable {ref : Ref ID Digest}

omit [DecidableEq ID] in
theorem objects_of_read {data : Data} (found : e.read ref = .found data) :
    e.objects ref.key = some data := by
  unfold Evidence.read at found
  split at found
  · cases found
  case h_2 stored =>
    split at found <;> cases found
    exact stored

/-- A turn that only looks. -/
theorem turned_look (sound : ∀ erased, Sound bound erased e party task stage') :
    Turned guarded bound party task stage e e stage' :=
  .deed .none sound

/-- The transaction of an archiver ends, and the publication is all that has changed since `e₁`. -/
theorem turned_finishing {e₁ : Evidence ID Data Digest} {outcome : Outcome}
    (deed : e₁.locks key = none → (∃ p, e₁.publications key = some p ∧ p.revision = publication) →
      Deed guarded party task.resource stage e e₁)
    (kind : key.resource.kind ≠ .importRecord)
    (goes : finishing e₁ wall key publication state (.done outcome) = .goes e' stage') :
    Turned guarded bound party task stage e e' stage' := by
  obtain ⟨rfl, free, p, p', stored, same, revision, rfl⟩ := finishing_goes goes
  refine .deed (.publish (deed free ⟨p, stored, same⟩) kind free fun p₁ stored₁ => ?_)
    fun _ => trivial
  obtain rfl := Option.some.inj (stored.symm.trans stored₁)
  rw [revision, same]
  exact Nat.lt_succ_self publication

variable {revision : ℕ} {row : Row ID Data Digest}

/-- The object is where the archiver has put it, or has found it. -/
theorem backed_of_published {data : Data}
    (sound : Sound bound erased e party task (.published data revision publication))
    (locks : ∀ key, erased key → e.locks key ≠ none)
    (free : e.locks (task.resource.object data).key = none)
    (stored : ∃ p, e.publications (task.resource.object data).key = some p ∧
      p.revision = publication) (row_stored : e.rows task.resource = some row)
    (available : row.availability = .available)
    (same : task.resource.kind.isHistory = false → row.revision = revision) (owner : bound) :
    e.objects (task.resource.object data).key ≠ none := by
  obtain ⟨p, stored, current⟩ := stored
  obtain ⟨-, p', stored', -, backed⟩ := sound
  obtain rfl := Option.some.inj (stored.symm.trans stored')
  rcases backed current owner ⟨row, row_stored, available, same⟩ with there | gone
  · exact there
  · exact absurd free (locks _ gone)

theorem turned_reference {data : Data}
    (sound : Sound bound erased e party task (.published data revision publication))
    (locks : ∀ key, erased key → e.locks key ≠ none) (owner : guarded → bound)
    (goes : reference e task.resource protection wall data revision publication =
      .goes e' stage') :
    Turned guarded bound party task (.published data revision publication) e e' stage' := by
  unfold reference at goes
  dsimp only at goes
  split at goes
  · exact turned_finishing (fun _ _ => .none) sound.1.1 goes
  · split at goes
    case h_1 row stored =>
      split at goes
      case isTrue accepted =>
        obtain ⟨same, available⟩ := Bool.and_eq_true_iff.mp accepted
        have same := of_decide_eq_true same
        have available := of_decide_eq_true available
        refine turned_finishing (fun free published => ?_) sound.1.1 goes
        exact .archive sound.1.1 stored available free fun active =>
          backed_of_published sound locks free published stored available (fun _ => same)
            (owner active)
      case isFalse => cases goes
    case h_2 => cases goes

section Archive

variable [DecidableEq Data]

theorem turned_referenceHistory {data : Data} {revision : ℕ}
    (sound : Sound bound erased e party task (.published data revision publication))
    (locks : ∀ key, erased key → e.locks key ≠ none) (owner : guarded → bound)
    (goes : referenceHistory e task.resource protection wall data publication =
      .goes e' stage') (history : task.resource.kind.isHistory = true) :
    Turned guarded bound party task (.published data revision publication) e e' stage' := by
  unfold referenceHistory at goes
  dsimp only at goes
  split at goes
  · cases goes
    exact turned_look fun _ => trivial
  case h_2 row stored =>
    split at goes
    · exact turned_finishing (fun _ _ => .none) sound.1.1 goes
    case isFalse accepted =>
      split at goes
      · exact turned_finishing (fun _ _ => .none) sound.1.1 goes
      · have available : row.availability = .available := by
          by_contra changed
          exact accepted (by rw [decide_eq_true changed, Bool.true_or])
        refine turned_finishing (fun free published => ?_) sound.1.1 goes
        refine .archive sound.1.1 stored available free fun active =>
          backed_of_published sound locks free published stored available (fun other => ?_)
            (owner active)
        rw [history] at other
        cases other

theorem turned_archive (kind : task.resource.kind ≠ .importRecord)
    (sound : Sound bound erased e party task stage)
    (locks : ∀ key, erased key → e.locks key ≠ none)
    (owner : ∀ data revision publication, stage = .published data revision publication →
      leased = true → guarded → bound)
    (goes : archive e task.resource protection leased wall stage = .goes e' stage') :
    Turned guarded bound party task stage e e' stage' := by
  cases stage with
  | start =>
    dsimp only [archive] at goes
    split at goes
    · cases goes
      exact turned_look fun _ => trivial
    case h_2 row stored =>
      split at goes <;> cases goes
      case h_2 available _ =>
        exact turned_look fun _ => ⟨kind, row, stored, le_rfl, fun _ => available⟩
      all_goals exact turned_look fun _ => trivial
  | inspected data revision =>
    dsimp only [archive] at goes
    split at goes
    · cases goes
      exact turned_look fun _ => trivial
    · split at goes <;> cases goes <;> exact turned_look fun _ => sound
  | unprotected data revision =>
    dsimp only [archive] at goes
    split at goes
    case h_1 p stored =>
      split at goes <;> cases goes
      · exact turned_look fun _ => ⟨sound, p, stored, le_rfl, fun _ => trivial⟩
      · exact turned_look fun _ => sound
    case h_2 =>
      cases goes
      exact turned_look fun _ => sound
  | existing data revision publication =>
    dsimp only [archive] at goes
    split at goes
    case isTrue found =>
      cases goes
      have found := objects_of_read (of_decide_eq_true (Bool.and_eq_true_iff.mp found).2)
      refine turned_look fun _ => ⟨sound.1, sound.2.imp fun _ _ _ => .inl ?_⟩
      rw [found]
      exact Option.some_ne_none data
    case isFalse =>
      cases goes
      exact turned_look fun _ => sound.1
  | absent data revision =>
    obtain ⟨-, goes⟩ := withLease_goes goes
    unfold beginArchivePublication at goes
    dsimp only at goes
    split at goes
    · cases goes
    case isFalse free =>
      cases goes
      have free := Option.not_isSome_iff_eq_none.mp free
      refine .deed (.publish .none kind free fun p stored => ?_) fun _ => ⟨sound, ?_⟩
      · rw [stored]
        exact Nat.lt_succ_self p.revision
      · exact ⟨_, publications_setPublication_self, le_rfl, fun _ => trivial⟩
  | publishing data revision publication =>
    obtain ⟨-, goes⟩ := withLease_goes goes
    cases goes
    refine .deed (.grow ((Grows.refl e).setObject rfl)) fun _ => ?_
    refine ⟨sound.1, sound.2.imp fun _ _ _ => .inl ?_⟩
    rw [objects_setObject_self]
    exact Option.some_ne_none data
  | published data revision publication =>
    obtain ⟨leased, goes⟩ := withLease_goes goes
    split at goes
    case isTrue history =>
      exact turned_referenceHistory sound locks (owner _ _ _ rfl leased) goes history
    case isFalse => exact turned_reference sound locks (owner _ _ _ rfl leased) goes
  | _ => cases goes

end Archive

/-! ## Expiring and restoring -/

/-- A row is written at the revision that was read, and its object was not to go. -/
theorem turned_idle {row' : Row ID Data Digest} {outcome : Outcome}
    (seen : e.Snapshot task.resource revision idle) (stored : e.rows task.resource = some row)
    (same : row.revision = revision) (newer : row'.revision = row.revision + 1)
    (formed : row'.WellFormed task.resource) (refers : row'.stored = row.stored)
    (related : row'.related = row.related)
    (unavailable : row'.availability = .available → task.resource.kind.isHistory = false)
    (archived : row'.availability ≠ .archived)
    (marks : row'.expiring = true → row.expiring = true) :
    Turned guarded bound party task stage e (e.setRow task.resource row') (.done outcome) := by
  have newer : row.revision < row'.revision := newer ▸ Nat.lt_succ_self row.revision
  refine .deed (.row stored newer formed refers related unavailable (fun doomed => ?_)
    (fun other => absurd other archived) fun marked => .inl (marks marked)) fun _ => trivial
  obtain ⟨row₀, stored₀, -, holds⟩ := seen
  obtain rfl := Option.some.inj (stored.symm.trans stored₀)
  obtain ⟨unmarked, alive⟩ := holds same
  rcases doomed with expiring | expired
  · rw [unmarked] at expiring
    cases expiring
  · exact absurd expired alive

omit [DecidableEq ID] [DecidableEq Digest] [Content Data Digest] in
theorem idle_of_seen (r : Resource ID) (seen : e.Snapshot r revision idle)
    (stored : e.rows r = some row) (same : row.revision = revision) : row.expiring = false := by
  obtain ⟨row₀, stored₀, -, holds⟩ := seen
  obtain rfl := Option.some.inj (stored.symm.trans stored₀)
  exact (holds same).1

theorem turned_markAvailability {state : OutcomeState} (inv : e.Inv guarded)
    (seen : e.Snapshot task.resource revision idle)
    (goes : markAvailability e task.resource revision state = .goes e' stage') :
    Turned guarded bound party task stage e e' stage' := by
  have unchanged (goes : (if task.resource.kind = .importRecord then .givesUp
      else Effect.goes e (.done ⟨state, state.name, []⟩)) = .goes e' stage') :
      Turned guarded bound party task stage e e' stage' := by
    split at goes <;> cases goes
    exact turned_look fun _ => trivial
  unfold markAvailability at goes
  dsimp only at goes
  split at goes
  case h_1 row stored =>
    split at goes
    case isTrue same =>
      cases goes
      have formed := inv.rows _ row stored
      have lost : state.availability ≠ .archived ∧ state.availability ≠ .available := by
        cases state <;> exact ⟨nofun, nofun⟩
      exact turned_idle seen stored same rfl
        ⟨formed.own, fun other => absurd other lost.1, fun _ => nofun⟩ rfl rfl
        (fun other => absurd other lost.2) lost.1 nofun
    case isFalse => exact unchanged goes
  case h_2 => exact unchanged goes

theorem turned_markExpiring (expires : task.expires = true) (inv : e.Inv guarded)
    (history : task.resource.kind.isHistory = false) (own : task.resource.Owns Data ref)
    (goes : markExpiring e task.resource protection ref revision = .goes e' stage') :
    Turned guarded bound party task (.marking ref revision) e e' stage' := by
  unfold markExpiring at goes
  split at goes
  · cases goes
    exact turned_look fun _ => trivial
  · split at goes
    case h_1 row stored =>
      split at goes
      case isTrue accepted =>
        cases goes
        have formed := inv.rows _ row stored
        have live := of_decide_eq_true
          (Bool.and_eq_true_iff.mp (Bool.and_eq_true_iff.mp accepted).1).2
        refine .deed (.row stored (Nat.lt_succ_self _) ⟨formed.own, formed.archived, ?_⟩ rfl rfl
          (fun _ => history) (fun _ => .inl rfl) (fun _ => rfl) fun _ => .inr ⟨_, _, rfl⟩)
          fun _ => ⟨expires, own, ?_, fun _ => ?_⟩
        · intro kind _
          change row.availability = .archived
          rw [live]
          cases same : task.resource.kind with
          | importRecord => exact absurd same kind
          | observation | event _ => rfl
        · rw [rows_setRow_self]
          rfl
        · exact ⟨_, rows_setRow_self, .inl rfl⟩
      case isFalse => cases goes
    case h_2 => cases goes

theorem turned_clearTransition {reasons : List String} {outcome : String}
    (history : task.resource.kind.isHistory = false)
    (goes : clearTransition e task.resource reasons outcome = .goes e' stage') :
    Turned guarded bound party task (.clearing reasons outcome) e e' stage' := by
  unfold clearTransition at goes
  dsimp only at goes
  split at goes
  case h_1 row stored =>
    split at goes <;> cases goes
    · exact .deed (.clear rfl history stored) fun _ => trivial
    · exact turned_look fun _ => trivial
  case h_2 =>
    cases goes
    exact turned_look fun _ => trivial

theorem turned_markExpired (inv : e.Inv guarded)
    (goes : markExpired e task.resource wall ref revision = .goes e' stage') :
    Turned guarded bound party task stage e e' stage' := by
  unfold markExpired at goes
  split at goes
  case h_1 row stored =>
    split at goes
    case isTrue =>
      have formed := inv.rows _ row stored
      let expired : Row ID Data Digest :=
        { row with availability := .expired, revision := row.revision + 1, expiring := false }
      have deed : Deed guarded party task.resource stage e (e.setRow task.resource expired) :=
        .row stored (Nat.lt_succ_self _) ⟨formed.own, nofun, fun _ => nofun⟩ rfl rfl nofun
          (fun _ => .inr rfl) nofun nofun
      dsimp only at goes
      split at goes
      · cases goes
        exact .deed deed fun _ => trivial
      · split at goes
        · cases goes
        case isFalse free =>
          cases goes
          have free := Option.not_isSome_iff_eq_none.mp free
          unfold retirePublication
          split
          case h_1 p published =>
            split
            · exact .deed deed fun _ => trivial
            · have kind := inv.publications _ p published
              refine .deed (.publish deed kind free fun p₁ published₁ => ?_) fun _ => trivial
              obtain rfl := Option.some.inj (published.symm.trans published₁)
              exact Nat.lt_succ_self p.revision
          case h_2 => exact .deed deed fun _ => trivial
    case isFalse => cases goes
  case h_2 => cases goes

theorem turned_expire (expires : task.expires = true) (inv : e.Inv guarded)
    (sound : Sound bound erased e party task stage)
    (owner : ∀ ref revision, stage = .deleting ref revision → leased = true → guarded → bound)
    (goes : expire e task.resource protection leased wall stage = .goes e' stage') :
    Turned guarded bound party task stage e e' stage' := by
  have history : task.resource.kind.isHistory = false := by
    cases task <;> first | rfl | cases expires
  cases stage with
  | start =>
    dsimp only [expire] at goes
    split at goes
    · cases goes
      exact turned_look fun _ => trivial
    case h_2 row ref found =>
      obtain ⟨row', stored, refers⟩ := Option.bind_eq_some_iff.mp found
      obtain ⟨ref', refers, same⟩ := Option.map_eq_some_iff.mp refers
      cases same
      have own := (inv.rows _ row stored).own ref refers
      split at goes
      · cases goes
        exact turned_look fun _ => trivial
      case isFalse alive =>
        split at goes
        · cases goes
          exact turned_look fun _ => trivial
        · split at goes
          · cases goes
            exact turned_look fun _ => trivial
          · split at goes <;> cases goes
            · refine turned_look fun _ => ?_
              cases marked : row.expiring with
              | false => exact ⟨expires, own, row, stored, le_rfl, fun _ => ⟨marked, alive⟩⟩
              | true =>
                have known := Option.isSome_of_eq_some stored
                exact ⟨expires, own, known, fun _ => ⟨row, stored, .inl marked⟩⟩
            · exact turned_look fun _ => trivial
  | seen ref revision expiring =>
    dsimp only [expire] at goes
    cases expiring with
    | false =>
      rw [if_neg Bool.false_ne_true, if_neg Bool.false_ne_true] at goes
      split at goes <;> cases goes
      · exact turned_look fun _ => trivial
      · exact turned_look fun _ => sound
    | true =>
      rw [if_pos rfl, if_pos rfl] at goes
      split at goes <;> cases goes
      · exact turned_look fun _ => trivial
      · exact turned_look fun _ => sound
  | verifying ref revision =>
    obtain ⟨-, goes⟩ := withLease_goes goes
    split at goes <;> cases goes
    · exact turned_look fun _ => sound
    all_goals exact turned_look fun _ => sound.2.2
  | unreadable revision state =>
    obtain ⟨-, goes⟩ := withLease_goes goes
    exact turned_markAvailability inv sound goes
  | marking ref revision =>
    obtain ⟨-, goes⟩ := withLease_goes goes
    exact turned_markExpiring expires inv history sound.2.1 goes
  | rechecking ref revision =>
    dsimp only [expire] at goes
    split at goes <;> cases goes
    · exact turned_look fun _ => trivial
    · exact turned_look fun _ => sound
  | locating ref revision reasons outcome =>
    obtain ⟨-, goes⟩ := withLease_goes goes
    split at goes <;> cases goes
    · exact turned_look fun _ => trivial
    · exact turned_look fun _ => expires
  | clearing reasons outcome =>
    obtain ⟨-, goes⟩ := withLease_goes goes
    exact turned_clearTransition history goes
  | deleting ref revision =>
    obtain ⟨leased, goes⟩ := withLease_goes goes
    cases goes
    obtain ⟨-, own, -, doomed⟩ := sound
    refine .deed (.erase rfl own fun active => ?_) fun _ => trivial
    exact doomed (owner _ _ rfl leased active)
  | expiring ref revision =>
    obtain ⟨-, goes⟩ := withLease_goes goes
    exact turned_markExpired inv goes
  | _ => cases goes

/-- Nothing protects the evidence when the worker has taken its last look. -/
theorem expire_deleting
    (goes : expire e r protection leased wall stage = .goes e' (.deleting ref revision)) :
    protection = [] ∧ e' = e := by
  cases stage <;>
    dsimp only [expire, withLease, markAvailability, markExpiring, clearTransition, markExpired]
      at goes <;>
    repeat' split at goes
  case rechecking.isFalse unprotected =>
    cases goes
    exact ⟨not_not.mp unprotected, rfl⟩
  all_goals cases goes

theorem turned_restore (kind : task.resource.kind = .observation) (inv : e.Inv guarded)
    (sound : Sound bound erased e party task stage)
    (goes : restore e task.resource leased stage = .goes e' stage') :
    Turned guarded bound party task stage e e' stage' := by
  have history : task.resource.kind.isHistory = false := by
    rw [kind]
    rfl
  cases stage with
  | start =>
    dsimp only [restore] at goes
    split at goes
    · cases goes
      exact turned_look fun _ => trivial
    case h_2 row ref found =>
      obtain ⟨row', stored, refers⟩ := Option.bind_eq_some_iff.mp found
      obtain ⟨ref', refers, same⟩ := Option.map_eq_some_iff.mp refers
      cases same
      split at goes
      · cases goes
        exact turned_look fun _ => trivial
      · split at goes <;> cases goes
        · exact turned_look fun _ => trivial
        case isFalse.refl alive =>
          rw [Bool.or_eq_true, decide_eq_true_eq, not_or] at alive
          refine turned_look fun _ => ⟨row, stored, le_rfl, fun _ => ⟨?_, alive.1⟩⟩
          exact Bool.eq_false_of_not_eq_true alive.2
  | fetching ref revision =>
    obtain ⟨-, goes⟩ := withLease_goes goes
    split at goes <;> cases goes <;> exact turned_look fun _ => sound
  | forsaken revision state =>
    obtain ⟨-, goes⟩ := withLease_goes goes
    split at goes
    case h_1 row stored =>
      split at goes <;> cases goes
      case isTrue.refl same =>
        have formed := inv.rows _ row stored
        have unmarked := idle_of_seen _ sound stored same
        have lost : state.availability ≠ .archived ∧ state.availability ≠ .available := by
          cases state <;> exact ⟨nofun, nofun⟩
        refine turned_idle sound stored same rfl ⟨formed.own, fun other => absurd other lost.1,
          fun _ marked => ?_⟩ rfl rfl (fun other => absurd other lost.2) lost.1 id
        have marked : row.expiring = true := marked
        rw [unmarked] at marked
        cases marked
      case isFalse.refl => exact turned_look fun _ => trivial
    case h_2 =>
      cases goes
      exact turned_look fun _ => trivial
  | restoring data revision =>
    obtain ⟨-, goes⟩ := withLease_goes goes
    split at goes
    case h_1 row stored =>
      split at goes <;> cases goes
      case isTrue.refl accepted =>
        have formed := inv.rows _ row stored
        have same := of_decide_eq_true
          (Bool.and_eq_true_iff.mp (Bool.and_eq_true_iff.mp accepted).1).1
        exact turned_idle sound stored same rfl ⟨formed.own, nofun, fun _ => nofun⟩ rfl rfl
          (fun _ => history) nofun nofun
    case h_2 => cases goes
  | _ => cases goes

/-! ## Orphans -/

theorem turned_deleteOrphan {digest : Digest} (orphan : task = .deleteOrphan key digest revision)
    (sound : Sound bound erased e party task stage)
    (goes : deleteOrphan e leased wall party key digest revision stage = .goes e' stage') :
    Turned guarded bound party task stage e e' stage' := by
  have commit {p : Publication ID Digest} {state : PublicationState} {outcome : Outcome}
      {e₁ : Evidence ID Data Digest} (lock : e.Locked party key p)
      (finish : e.finishArchivePublication key p.revision state wall = some e₁) :
      Turned guarded bound party task stage e (e₁.unlock party) (.done outcome) := by
    obtain ⟨p', stored, -, rfl⟩ := finishArchivePublication_some finish
    obtain rfl := Option.some.inj (stored.symm.trans lock.2)
    exact .commit orphan lock (Nat.lt_succ_self _)
  cases stage with
  | start =>
    obtain ⟨-, goes⟩ := withLease_goes goes
    cases goes
    exact turned_look fun _ => trivial
  | locking =>
    dsimp only [deleteOrphan] at goes
    split at goes
    · cases goes
    case isFalse free =>
      split at goes
      · cases goes
        exact turned_look fun _ => trivial
      case h_2 p stored =>
        split at goes <;> cases goes
        · have free := Option.not_isSome_iff_eq_none.mp free
          exact .deed (.lock free) fun _ =>
            ⟨key, digest, revision, orphan, Function.update_self .., stored⟩
        · exact turned_look fun _ => trivial
  | locked p =>
    obtain ⟨key', digest', revision', same, lock⟩ := sound
    cases orphan.symm.trans same
    dsimp only [deleteOrphan] at goes
    split at goes
    case isTrue =>
      split at goes
      · cases goes
        exact commit lock ‹_›
      · cases goes
    case isFalse unreferenced =>
      cases goes
      exact turned_look fun _ =>
        ⟨key, digest, revision, orphan, lock, Bool.eq_false_of_not_eq_true unreferenced⟩
  | unreferenced p =>
    obtain ⟨-, goes⟩ := withLease_goes goes
    split at goes <;> cases goes <;> exact turned_look fun _ => sound
  | condemned p =>
    obtain ⟨-, goes⟩ := withLease_goes goes
    cases goes
    exact .purge orphan rfl
  | deleted p outcome =>
    obtain ⟨key', digest', revision', same, lock, -⟩ := sound
    cases orphan.symm.trans same
    dsimp only [deleteOrphan] at goes
    split at goes
    · cases goes
      exact commit lock ‹_›
    · cases goes
  | _ => cases goes

end Work

section Task

variable [DecidableEq Data] {guarded bound : Prop} {erased : Key ID Digest → Prop}
  {e e' : Evidence ID Data Digest} {party : Party ID} {task : Task ID Digest}
  {stage stage' : Stage ID Data Digest} {protection : List String} {leased : Bool} {wall : Time}
  {p : Publication ID Digest} {outcome : String}

/-- A turn does what its stage allows. -/
theorem Task.turned (inv : e.Inv guarded) (sound : Sound bound erased e party task stage)
    (locks : ∀ key, erased key → e.locks key ≠ none)
    (owner : task.guard stage ≠ .query → leased = true → guarded → bound)
    (goes : task.turn e party protection leased wall stage = .goes e' stage') :
    Turned guarded bound party task stage e e' stage' := by
  cases task with
  | archiveHistory id | archiveAudit kind id =>
    refine Work.turned_archive nofun sound locks (fun data revision publication here => ?_) goes
    exact owner (by rw [here]; nofun)
  | expireRawReport id | expireArchive id =>
    refine Work.turned_expire rfl inv sound (fun ref revision here => ?_) goes
    exact owner (by rw [here]; nofun)
  | restoreArchive id => exact Work.turned_restore rfl inv sound goes
  | deleteOrphan key digest revision => exact Work.turned_deleteOrphan rfl sound goes

/-- Once the object of an orphan is deleted, the next turn is the end of the transaction. -/
theorem Task.turn_deleted (protection : List String) (leased : Bool) (wall : Time)
    (sound : Sound bound erased e party task (.deleted p outcome)) :
    ∃ key digest revision p', task = .deleteOrphan key digest revision ∧ e.Locked party key p ∧
      p.revision < p'.revision ∧
      task.turn e party protection leased wall (.deleted p outcome) =
        .goes ((e.setPublication key p').unlock party) (.done ⟨.succeeded, outcome, []⟩) := by
  obtain ⟨key, digest, revision, rfl, lock, -⟩ := sound
  let p' := { p with state := .deleted, revision := p.revision + 1, updatedAt := wall }
  have finish : e.finishArchivePublication key p.revision .deleted wall =
      some (e.setPublication key p') := by
    rw [finishArchivePublication, lock.2, Option.bind_some, if_pos rfl]
  refine ⟨key, digest, revision, p', rfl, lock, Nat.lt_succ_self p.revision, ?_⟩
  change Work.deleteOrphan e leased wall party key digest revision (.deleted p outcome) = _
  rw [Work.deleteOrphan, finish]

end Task

end Aspm.Retention
