import StockAnalysis.Intents.Finalizer
import StockAnalysis.Foundation.History

/-!
# Leases and fences

The lease of an intent is determined by the transitions applied to it: an acquisition sets owner
and deadline and counts the generation up, a release clears them, anything else leaves them. Every
applied command was lawful under the lease that the earlier ones had left. From this the exclusion
of other owners and of older generations follows for every run, whatever the order of the writers
and the number of handovers.
-/

namespace StockAnalysis.Intents

/-! ## One transition -/

/-- The lease that an action leaves. -/
def LeaseAction.after (action : LeaseAction) (lease : Lease) : Lease :=
  match action with
  | .preserve => lease
  | .acquire owner until_ => ⟨some owner.value, some until_, lease.generation + 1⟩
  | .release _ => ⟨none, none, lease.generation⟩

def LeaseAction.acquires : LeaseAction → Bool
  | .acquire _ _ => true
  | .preserve | .release _ => false

/-- The fence shows the lease as it is, and the lease has not run out. -/
structure ExpectedLeaseFence.Holds (fence : ExpectedLeaseFence) (lease : Lease)
    (occurredAt : Nat) : Prop where
  owner : lease.owner = some fence.owner.value
  generation : lease.generation = fence.generation
  until_ : lease.until_ = some fence.until_
  live : occurredAt < fence.until_

variable {row : IntentSnapshot} {command : StoreTransitionCommand} {lease : Lease} {host : Host}
  {world : World} {earlier between : List Entry} {intentId : String} {owner : Text} {entry : Entry}

theorem ExpectedLeaseFence.holds_iff {fence : ExpectedLeaseFence} {occurredAt : Nat} :
    fence.holds row occurredAt = true ↔ fence.Holds row.lease occurredAt := by
  simp only [ExpectedLeaseFence.holds, Bool.and_eq_true, decide_eq_true_eq]
  constructor
  · rintro ⟨⟨⟨owner, generation⟩, until_⟩, live⟩
    exact ⟨owner, generation, until_, live⟩
  · intro holds
    exact ⟨⟨⟨holds.owner, holds.generation⟩, holds.until_⟩, holds.live⟩

/-- The command respects the lease: its fence holds, it takes no live lease of another owner, and
it gives back no lease but its own. -/
structure Lawful (lease : Lease) (command : StoreTransitionCommand) : Prop where
  fenced : ∀ fence, command.requiredFence = some fence → fence.Holds lease command.occurredAt
  acquires : ∀ owner until_, command.leaseAction = .acquire owner until_ →
    lease.owner = some owner.value ∨ lease.owner = none ∨
      ∀ deadline, lease.until_ = some deadline → deadline ≤ command.occurredAt
  releases : ∀ owner, command.leaseAction = .release owner → lease.owner = some owner.value

theorem applyLeaseAction_eq_ok (done : applyLeaseAction row command = .ok lease) :
    lease = command.leaseAction.after row.lease ∧
      (∀ owner until_, command.leaseAction = .acquire owner until_ →
        row.leaseOwner = some owner.value ∨ row.leaseOwner = none ∨
          ∀ deadline, row.leaseUntil = some deadline → deadline ≤ command.occurredAt) ∧
      ∀ owner, command.leaseAction = .release owner → row.leaseOwner = some owner.value := by
  unfold applyLeaseAction at done
  split at done
  · rename_i action
    cases done
    simp [action, LeaseAction.after]
  · rename_i owner until_ action
    simp only [bind_eq_ok, require_eq_ok, pure_eq_ok] at done
    obtain ⟨_, free, _, _, rfl⟩ := done
    refine ⟨by simp [action, LeaseAction.after, IntentSnapshot.lease], ?_, by simp [action]⟩
    intro other deadline isAction
    rw [action] at isAction
    obtain ⟨rfl, rfl⟩ := LeaseAction.acquire.inj isAction
    simpa [Option.all_eq_true] using free
  · rename_i owner action
    simp only [bind_eq_ok, require_eq_ok, pure_eq_ok] at done
    obtain ⟨_, owned, rfl⟩ := done
    refine ⟨by simp [action, LeaseAction.after, IntentSnapshot.lease], by simp [action], ?_⟩
    intro other isAction
    rw [action] at isAction
    obtain rfl := LeaseAction.release.inj isAction
    exact owned

variable {store next : Store} {later : List Entry} {acquire : Entry} {deadline : Nat}

theorem Applied.lawful (applied : Applied host store command row lease next) :
    Lawful row.lease command := by
  obtain ⟨_, acquires, releases⟩ := applyLeaseAction_eq_ok applied.leased
  exact ⟨fun fence required => ExpectedLeaseFence.holds_iff.mp
    ((stale_eq_false.mp applied.current).2.2 fence required), acquires, releases⟩

theorem Applied.lease_after (applied : Applied host store command row lease next) :
    (row.advanced command lease).lease = command.leaseAction.after row.lease :=
  (applyLeaseAction_eq_ok applied.leased).1

/-! ## The lease as a fold of the log -/

/-- The entry is a transition that was applied to the intent. -/
def Entry.appliesTo (entry : Entry) (intentId : String) : Bool :=
  entry.verdict = .applied && entry.command.intentId = intentId

def leaseStep (intentId : String) (lease : Lease) (entry : Entry) : Lease :=
  if entry.appliesTo intentId then entry.command.leaseAction.after lease else lease

/-- The lease that the entries leave on an intent. -/
def leaseAfter (intentId : String) (log : List Entry) : Lease :=
  log.foldl (leaseStep intentId) ⟨none, none, 0⟩

theorem leaseAfter_concat (intentId : String) (log : List Entry) (entry : Entry) :
    leaseAfter intentId (log ++ [entry]) = leaseStep intentId (leaseAfter intentId log) entry := by
  simp [leaseAfter]

/-- The number of acquisitions of an intent in the log. -/
def acquisitions (intentId : String) (log : List Entry) : Nat :=
  log.countP fun entry => entry.appliesTo intentId && entry.command.leaseAction.acquires

/-- The generation of a lease counts its acquisitions. -/
theorem leaseAfter_generation (intentId : String) (log : List Entry) :
    (leaseAfter intentId log).generation = acquisitions intentId log := by
  induction log using List.reverseRecOn with
  | nil => rfl
  | append_singleton log entry ih =>
    rw [leaseAfter_concat, acquisitions, List.countP_append, List.countP_singleton]
    unfold acquisitions at ih
    by_cases applies : entry.appliesTo intentId
    · cases action : entry.command.leaseAction <;>
        simp [leaseStep, applies, action, LeaseAction.after, LeaseAction.acquires, ih]
    · simp [leaseStep, applies, ih]

/-- The heads carry the leases of the log, and every applied command was lawful. -/
structure LeaseLog (world : World) : Prop where
  heads : ∀ row ∈ world.store.intents.rows, row.lease = leaseAfter row.intentId world.log
  unborn : ∀ intentId, (∀ row ∈ world.store.intents.rows, row.intentId ≠ intentId) →
    leaseAfter intentId world.log = ⟨none, none, 0⟩
  lawful : ∀ earlier entry later, world.log = earlier ++ entry :: later →
    entry.verdict = .applied → Lawful (leaseAfter entry.command.intentId earlier) entry.command

variable {next : World}

theorem Step.leaseLog (step : Step host world next) (leaseLog : LeaseLog world) :
    LeaseLog next := by
  cases step with
  | recorded store _ kept born same =>
    constructor
    · intro row listed
      rcases born row listed with old | ⟨_, untouched, absent⟩
      · exact leaseLog.heads row old
      · rw [untouched, leaseLog.unborn row.intentId absent]
    · intro intentId absent
      exact leaseLog.unborn intentId fun row member => absent row (kept row member)
    · exact leaseLog.lawful
  | applied command row lease store applied =>
    have before := leaseLog.heads row applied.member
    have advancedId : (row.advanced command lease).intentId = command.intentId :=
      applied.subject
    constructor
    · intro other listed
      rw [leaseAfter_concat]
      rcases (applied.intents other).mp listed with ⟨old, different⟩ | rfl
      · rw [leaseLog.heads other old, leaseStep, if_neg (by
          simp [Entry.appliesTo, Ne.symm different])]
      · rw [applied.lease_after, before, advancedId, applied.subject, leaseStep, if_pos (by
          simp [Entry.appliesTo, Entry.verdict])]
    · intro intentId absent
      have different : command.intentId ≠ intentId := by
        rw [← advancedId]
        exact absent _ ((applied.intents _).mpr (.inr rfl))
      rw [leaseAfter_concat, leaseStep, if_neg (by simp [Entry.appliesTo, different])]
      refine leaseLog.unborn intentId fun other member isOther => ?_
      exact absent other ((applied.intents _).mpr
        (.inl ⟨member, fun same => different (same.symm.trans isOther)⟩)) isOther
    · intro earlier entry later split was
      rcases History.concat_split split with ⟨rfl, rfl, rfl⟩ | ⟨rest, rfl, older⟩
      · rw [← applied.subject, ← before]
        exact applied.lawful
      · exact leaseLog.lawful earlier entry rest older was
  | answered timing command answer given unapplied =>
    have same : ∀ intentId, leaseAfter intentId (world.log ++ [⟨command, answer⟩]) =
        leaseAfter intentId world.log := by
      intro intentId
      rw [leaseAfter_concat, leaseStep, if_neg (by
        simp [Entry.appliesTo, verdict_ne_applied unapplied])]
    constructor
    · intro row listed
      rw [same]
      exact leaseLog.heads row listed
    · intro intentId absent
      rw [same]
      exact leaseLog.unborn intentId absent
    · intro earlier entry later split was
      rcases History.concat_split split with ⟨rfl, rfl, rfl⟩ | ⟨rest, rfl, older⟩
      · exact absurd was (verdict_ne_applied unapplied)
      · exact leaseLog.lawful earlier entry rest older was

theorem Reached.leaseLog (reached : Reached host world) :
    LeaseLog world := by
  refine reached.invariant ⟨?_, ?_, ?_⟩ fun _ _ _ step => step.leaseLog
  · simp [World.initial, Store.empty, Table.empty]
  · simp [World.initial, leaseAfter]
  · simp [World.initial]

/-! ## Exclusion -/

/-- The entry gives back the owner's lease, or takes the lease anew. -/
def Entry.endsTenure (entry : Entry) (intentId : String) (owner : Text) : Bool :=
  entry.appliesTo intentId &&
    (entry.command.leaseAction = .release owner || entry.command.leaseAction.acquires)

/-- Until the owner's release or the next acquisition the lease stays as it was taken. -/
theorem tenure (leaseLog : LeaseLog world) {rest : List Entry}
    (split : world.log = earlier ++ between ++ rest) (taken : leaseAfter intentId earlier = lease)
    (owned : lease.owner = some owner.value)
    (held : ∀ entry ∈ between, entry.endsTenure intentId owner = false) :
    leaseAfter intentId (earlier ++ between) = lease := by
  induction between using List.reverseRecOn generalizing rest with
  | nil => rw [List.append_nil, taken]
  | append_singleton between entry ih =>
    have before : leaseAfter intentId (earlier ++ between) = lease := by
      refine @ih (entry :: rest) (by simp [split]) fun other member =>
        held other (List.mem_append_left _ member)
    rw [← List.append_assoc, leaseAfter_concat, before, leaseStep]
    split
    · rename_i applies
      have holds := held entry (by simp)
      have subject : entry.command.intentId = intentId ∧ entry.verdict = .applied := by
        simp only [Entry.appliesTo, Bool.and_eq_true, decide_eq_true_eq] at applies
        exact applies.symm
      have lawful := leaseLog.lawful (earlier ++ between) entry rest (by simp [split]) subject.2
      rw [subject.1, before] at lawful
      cases action : entry.command.leaseAction with
      | preserve => rfl
      | acquire other until_ =>
        simp [Entry.endsTenure, applies, action, LeaseAction.acquires] at holds
      | release other =>
        -- only the owner can give the lease back
        have isOwner : other = owner := Text.ext
          (Option.some.inj ((lawful.releases other action).symm.trans owned))
        simp [Entry.endsTenure, applies, action, isOwner] at holds
    · rfl

/-- The times of the transitions applied to an intent. -/
structure TimedLog (world : World) : Prop where
  heads : ∀ row ∈ world.store.intents.rows, ∀ entry ∈ world.log,
    entry.appliesTo row.intentId = true → entry.command.occurredAt ≤ row.updatedAt
  owned : ∀ entry ∈ world.log, ∀ intentId, entry.appliesTo intentId = true →
    ∃ row ∈ world.store.intents.rows, row.intentId = intentId
  ascending : world.log.Pairwise fun first second => ∀ intentId,
    first.appliesTo intentId = true → second.appliesTo intentId = true →
    first.command.occurredAt ≤ second.command.occurredAt

theorem appliesTo_iff :
    entry.appliesTo intentId = true ↔
      entry.verdict = .applied ∧ entry.command.intentId = intentId := by
  simp [Entry.appliesTo]

theorem Step.timedLog (step : Step host world next) (timedLog : TimedLog world) :
    TimedLog next := by
  cases step with
  | recorded store _ kept born same =>
    constructor
    · intro row listed entry member applies
      rcases born row listed with old | ⟨_, _, absent⟩
      · exact timedLog.heads row old entry member applies
      · obtain ⟨other, present, isOther⟩ := timedLog.owned entry member row.intentId applies
        exact absurd isOther (absent other present)
    · intro entry member intentId applies
      obtain ⟨row, present, isRow⟩ := timedLog.owned entry member intentId applies
      exact ⟨row, kept row present, isRow⟩
    · exact timedLog.ascending
  | applied command row lease store applied =>
    have advanced : row.advanced command lease ∈ store.intents.rows :=
      (applied.intents _).mpr (.inr rfl)
    have earlier : ∀ entry ∈ world.log, entry.appliesTo command.intentId = true →
        entry.command.occurredAt ≤ command.occurredAt := fun entry member applies =>
      (timedLog.heads row applied.member entry member (applied.subject ▸ applies)).trans
        applied.timed
    constructor
    · intro other listed entry member applies
      rcases (applied.intents other).mp listed with ⟨old, different⟩ | rfl
      · rcases mem_concat.mp member with before | rfl
        · exact timedLog.heads other old entry before applies
        · exact absurd (appliesTo_iff.mp applies).2.symm different
      · rw [show (row.advanced command lease).intentId = command.intentId from
          applied.subject] at applies
        rcases mem_concat.mp member with before | rfl
        · exact earlier entry before applies
        · exact Nat.le_refl _
    · intro entry member intentId applies
      by_cases same : intentId = command.intentId
      · exact ⟨_, advanced, applied.subject.trans same.symm⟩
      · rcases mem_concat.mp member with before | rfl
        · obtain ⟨other, present, isOther⟩ := timedLog.owned entry before intentId applies
          exact ⟨other, (applied.intents _).mpr (.inl ⟨present, isOther ▸ same⟩), isOther⟩
        · exact absurd (appliesTo_iff.mp applies).2.symm same
    · refine List.pairwise_append.mpr ⟨timedLog.ascending, List.pairwise_singleton _ _, ?_⟩
      intro entry member new isNew intentId applies newApplies
      obtain rfl := List.mem_singleton.mp isNew
      obtain rfl := (appliesTo_iff.mp newApplies).2
      exact earlier entry member applies
  | answered timing command answer given unapplied =>
    have older : ∀ entry ∈ world.log ++ [⟨command, answer⟩], ∀ intentId,
        entry.appliesTo intentId = true → entry ∈ world.log := by
      intro entry member intentId applies
      rcases mem_concat.mp member with before | rfl
      · exact before
      · exact absurd (appliesTo_iff.mp applies).1 (verdict_ne_applied unapplied)
    constructor
    · intro row listed entry member applies
      exact timedLog.heads row listed entry (older entry member _ applies) applies
    · intro entry member intentId applies
      exact timedLog.owned entry (older entry member _ applies) intentId applies
    · refine List.pairwise_append.mpr ⟨timedLog.ascending, List.pairwise_singleton _ _, ?_⟩
      intro entry member new isNew intentId applies newApplies
      obtain rfl := List.mem_singleton.mp isNew
      exact absurd (appliesTo_iff.mp newApplies).1 (verdict_ne_applied unapplied)

theorem Reached.timedLog (reached : Reached host world) :
    TimedLog world := by
  refine reached.invariant ⟨?_, ?_, ?_⟩ fun _ _ _ step => step.timedLog
  · simp [World.initial]
  · simp [World.initial]
  · simp [World.initial]

/-- A command that carries a fence of its own or takes the lease, in the name of this owner. -/
def StoreTransitionCommand.actsFor (command : StoreTransitionCommand) (owner : Text) : Prop :=
  (∃ fence, command.requiredFence = some fence ∧ fence.owner = owner) ∨
    ∃ until_, command.leaseAction = .acquire owner until_

/-- While the lease stands as it was taken, other owners can neither act under a fence nor take
it before its deadline. -/
theorem exclusion (leaseLog : LeaseLog world)
    (split : world.log = earlier ++ acquire :: (between ++ entry :: later))
    (taken : acquire.appliesTo intentId = true)
    (action : acquire.command.leaseAction = .acquire owner deadline)
    (held : ∀ other ∈ between, other.endsTenure intentId owner = false)
    (applies : entry.appliesTo intentId = true) :
    (∀ fence, entry.command.requiredFence = some fence → fence.owner = owner) ∧
      ∀ other until_, entry.command.leaseAction = .acquire other until_ → other ≠ owner →
        deadline ≤ entry.command.occurredAt := by
  have start : leaseAfter intentId (earlier ++ [acquire]) =
      ⟨some owner.value, some deadline, (leaseAfter intentId earlier).generation + 1⟩ := by
    rw [leaseAfter_concat, leaseStep, if_pos taken, action, LeaseAction.after]
  have whole : world.log = earlier ++ [acquire] ++ between ++ (entry :: later) := by
    simp [split]
  have lease := tenure leaseLog whole start rfl held
  obtain ⟨was, subject⟩ := appliesTo_iff.mp applies
  have lawful := leaseLog.lawful (earlier ++ [acquire] ++ between) entry later
    (by simp [split]) was
  rw [subject, lease] at lawful
  constructor
  · intro fence required
    exact Text.ext (Option.some.inj (lawful.fenced fence required).owner).symm
  · intro other until_ takes different
    rcases lawful.acquires other until_ takes with same | free | expired
    · exact absurd (Text.ext (Option.some.inj same)).symm different
    · cases free
    · exact expired deadline rfl

/-- Before the deadline other owners stay excluded also across the handovers that follow it. -/
theorem exclusion_until (leaseLog : LeaseLog world) (timedLog : TimedLog world)
    (split : world.log = earlier ++ acquire :: (between ++ entry :: later))
    (taken : acquire.appliesTo intentId = true)
    (action : acquire.command.leaseAction = .acquire owner deadline)
    (held : ∀ other ∈ between, other.appliesTo intentId = true →
      other.command.leaseAction ≠ .release owner ∧
        ∀ until_, other.command.leaseAction ≠ .acquire owner until_)
    (applies : entry.appliesTo intentId = true) {other : Text} (different : other ≠ owner)
    (acts : entry.command.actsFor other) : deadline ≤ entry.command.occurredAt := by
  cases handover : between.find? (·.endsTenure intentId owner) with
  | none =>
    have standing : ∀ middle ∈ between, middle.endsTenure intentId owner = false := by
      simpa using List.find?_eq_none.mp handover
    obtain ⟨fenced, takes⟩ := exclusion leaseLog split taken action standing applies
    rcases acts with ⟨fence, required, isOther⟩ | ⟨until_, acquires⟩
    · exact absurd (isOther.symm.trans (fenced fence required)) different
    · exact takes other until_ acquires different
  | some first =>
    -- the first handover is an acquisition by another owner, and times do not go back
    obtain ⟨ends, before, after, between_eq, standing⟩ :=
      List.find?_eq_some_iff_append.mp handover
    have member : first ∈ between := by simp [between_eq]
    simp only [Entry.endsTenure, Bool.and_eq_true, Bool.or_eq_true, decide_eq_true_eq] at ends
    obtain ⟨releases, acquires⟩ := held first member ends.1
    have late : deadline ≤ first.command.occurredAt := by
      cases isAction : first.command.leaseAction with
      | preserve => simp [isAction, LeaseAction.acquires] at ends
      | release giver => simp [isAction, LeaseAction.acquires] at ends releases; tauto
      | acquire taker until_ =>
        have isOther : taker ≠ owner := fun same => acquires until_ (same ▸ isAction)
        have whole : world.log = earlier ++ acquire ::
            (before ++ first :: (after ++ entry :: later)) := by
          simp [split, between_eq]
        exact (exclusion leaseLog whole taken action (by simpa using standing) ends.1).2
          taker until_ isAction isOther
    have ordered := timedLog.ascending
    rw [split, between_eq] at ordered
    have pair := (List.pairwise_append.mp (List.pairwise_cons.mp
      (List.pairwise_append.mp ordered).2.1).2).2.2 first (by simp) entry (by simp)
    exact late.trans (pair intentId ends.1 applies)

/-- What the leases of the intents guarantee in a world. -/
structure LeaseFencing (host : Host) (world : World) : Prop where
  /-- The generation of a lease is the number of acquisitions so far. -/
  generation : ∀ row ∈ world.store.intents.rows,
    row.leaseGeneration = acquisitions row.intentId world.log
  /-- A fenced command is applied only under the lease that its fence shows. -/
  fenced : ∀ timing command fence receipt, command.requiredFence = some fence →
    (applyTransitionInner host world.store timing command).2 = .ok (.applied receipt) →
    ∃ row ∈ world.store.intents.rows, row.intentId = command.intentId ∧
      fence.Holds row.lease command.occurredAt
  /-- Until the owner's release or the next acquisition, no fenced command of another owner is
  applied, and no other owner takes the lease before the deadline. -/
  excluded : ∀ earlier acquire between entry later intentId owner deadline,
    world.log = earlier ++ acquire :: (between ++ entry :: later) →
    acquire.appliesTo intentId = true →
    acquire.command.leaseAction = .acquire owner deadline →
    (∀ other ∈ between, other.endsTenure intentId owner = false) →
    entry.appliesTo intentId = true →
    (∀ fence, entry.command.requiredFence = some fence → fence.owner = owner) ∧
      ∀ other until_, entry.command.leaseAction = .acquire other until_ → other ≠ owner →
        deadline ≤ entry.command.occurredAt
  /-- Until the owner's own release or acquisition, nothing that happened before the deadline was
  done for another owner. -/
  untilDeadline : ∀ earlier acquire between entry later intentId owner deadline,
    world.log = earlier ++ acquire :: (between ++ entry :: later) →
    acquire.appliesTo intentId = true →
    acquire.command.leaseAction = .acquire owner deadline →
    (∀ other ∈ between, other.appliesTo intentId = true →
      other.command.leaseAction ≠ .release owner ∧
        ∀ until_, other.command.leaseAction ≠ .acquire owner until_) →
    entry.appliesTo intentId = true → entry.command.occurredAt < deadline →
    ∀ other, entry.command.actsFor other → other = owner
  /-- After an acquisition no fenced command of an older generation is applied. -/
  outdated : ∀ earlier acquire between entry later intentId fence,
    world.log = earlier ++ acquire :: (between ++ entry :: later) →
    acquire.appliesTo intentId = true → acquire.command.leaseAction.acquires = true →
    entry.appliesTo intentId = true → entry.command.requiredFence = some fence →
    acquisitions intentId (earlier ++ [acquire]) ≤ fence.generation

/-- The calls that carry a fence demand it of the store. -/
theorem requiredFence_of_call {call : Call} (built : call.command host = .ok command) :
    command.requiredFence = call.fence? := by
  cases call <;>
    simp only [Call.command, IntentTransitionCommand.tryNew, claimRecoveryLease,
      recoveryObservation, authorityQualification, terminalRefInvalid, acceptedFinalization,
      notDeliveredFinalization, finalizerConflict, bind_eq_ok, require_eq_ok, pure_eq_ok,
      Except.ok.injEq] at built
  · obtain ⟨_, _, _, _, _, _, rfl⟩ := built
    rfl
  · obtain ⟨_, _, _, _, _, _, _, _, rfl⟩ := built
    rfl
  · obtain ⟨_, _, _, _, rfl⟩ := built
    rfl
  · obtain ⟨_, _, rfl⟩ := built
    rfl
  · obtain rfl := built
    rfl
  · obtain ⟨_, _, rfl⟩ := built
    rfl
  · obtain ⟨_, _, _, _, _, _, rfl⟩ := built
    rfl
  · obtain ⟨_, _, _, _, rfl⟩ := built
    rfl

/-- In every run the leases of the intents exclude other owners and older generations, and every
call of the reconciler and the finalizer that carries a fence is bound by it.

Proof: the heads carry the leases that the log leads to (`LeaseLog`), so a generation counts the
acquisitions before it, and a lawful entry with a fence names the generation of its moment. -/
theorem reached_lease_fencing {host : Host} {world : World} (reached : Reached host world) :
    LeaseFencing host world ∧ ∀ call command, Call.command host call = .ok command →
      command.requiredFence = call.fence? := by
  have leaseLog := reached.leaseLog
  refine ⟨⟨?_, ?_, ?_, ?_, ?_⟩, fun call command built => requiredFence_of_call built⟩
  · intro row listed
    rw [← leaseAfter_generation, ← leaseLog.heads row listed]
    rfl
  · intro timing command fence receipt required answered
    rcases applyTransitionInner_cases reached.sound timing command with
      ⟨⟨row, lease, applied⟩, _⟩ | ⟨_, unapplied⟩
    · exact ⟨row, applied.member, applied.subject, applied.lawful.fenced fence required⟩
    · exact absurd answered (unapplied receipt)
  · intro earlier acquire between entry later intentId owner deadline split taken action held
      applies
    exact exclusion leaseLog split taken action held applies
  · intro earlier acquire between entry later intentId owner deadline split taken action held
      applies before other acts
    by_contra different
    exact absurd (exclusion_until leaseLog reached.timedLog split taken action held applies
      different acts) (Nat.not_le.mpr before)
  · intro earlier acquire between entry later intentId fence split taken acquires applies required
    obtain ⟨was, subject⟩ := appliesTo_iff.mp applies
    have lawful := leaseLog.lawful (earlier ++ acquire :: between) entry later
      (by simp [split]) was
    rw [← (lawful.fenced fence required).generation, leaseAfter_generation, subject]
    exact List.Sublist.countP_le (by simp)

/-- A second dispatcher takes the lease over after it has run out. -/
def sampleHandover : StoreTransitionCommand :=
  { sampleClaim with
    fromState := .awaitingAuthority
    expectedVersion := 1
    actor := secondOwner
    occurredAt := 210
    leaseAction := .acquire secondOwner 300 }

/-- An observation under a fence, after the handover. -/
def sampleFenced (fence : ExpectedLeaseFence) : StoreTransitionCommand :=
  { sampleHandover with
    expectedVersion := 2
    actor := fence.owner
    reason := .transportRejected
    occurredAt := 220
    leaseAction := .preserve
    requiredFence := some fence }

/-- After the handover the fence of the first lease is refused, and that of the second one holds. -/
theorem reached_lease_fencing_sample :
    let world := sampleClaimed.run sampleHost [.submit .fresh sampleHandover,
      .submit .fresh (sampleFenced ⟨firstOwner, 1, 200⟩),
      .submit .fresh (sampleFenced ⟨secondOwner, 2, 300⟩)]
    world.log.map Entry.verdict = [.applied, .applied, .conflict, .applied] ∧
      world.store.intents.rows.map IntentSnapshot.leaseGeneration = [2] ∧
      acquisitions "intent-unit" world.log = 2 ∧ LeaseFencing sampleHost world := by
  have reached : Reached sampleHost sampleClaimed :=
    Reached.initial.run [.record sampleRequest, .submit .fresh sampleClaim]
  exact ⟨by decide +kernel, by decide +kernel, by decide +kernel,
    (reached_lease_fencing (reached.run _)).1⟩

end StockAnalysis.Intents
