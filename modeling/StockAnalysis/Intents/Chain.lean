import Mathlib.Data.List.Induction
import StockAnalysis.Intents.Store

/-!
# What the readers accept

A chain is linked when each of its events passes `verify_transition` on its own and continues the
events before it. `query_transition_chain` succeeds exactly on a linked chain whose last event made
the head. The events of a linked chain carry the versions from one on, so the order in which they
were inserted is the order of their versions, and the latest entry into `ResolutionRequired` that
the reader finds from the end is the one that the trigger finds by its greatest version.
-/

namespace StockAnalysis.Intents

/-- The events of an intent in the order of insertion. -/
def Store.chain (store : Store) (intentId : String) : List TransitionReceipt :=
  store.transitions.rows.filter fun row => row.intentId = intentId

variable {store : Store} {event : TransitionReceipt} {host : Host}
  {earlier events : List TransitionReceipt} {intentId : String}

theorem mem_chain :
    event ∈ store.chain intentId ↔ event ∈ store.transitions.rows ∧ event.intentId = intentId := by
  simp [Store.chain]

/-- The event passes the checks that read nothing but the event. -/
structure EventVerified (host : Host) (event : TransitionReceipt) : Prop where
  actor : validText event.actor = true
  verified : verifyTransition host event = .ok ()

/-- The events extend the earlier ones as `query_transition_chain` demands. -/
def Linked (host : Host) : List TransitionReceipt → List TransitionReceipt → Prop
  | _, [] => True
  | earlier, event :: rest =>
    EventVerified host event ∧ continues earlier event = true ∧
      historyAllows earlier event = true ∧ Linked host (earlier ++ [event]) rest

theorem linked_append {first second : List TransitionReceipt} :
    Linked host earlier (first ++ second) ↔
      Linked host earlier first ∧ Linked host (earlier ++ first) second := by
  induction first generalizing earlier with
  | nil => simp [Linked]
  | cons event rest ih =>
    simp only [List.cons_append, Linked, ih, List.append_assoc]
    tauto

variable {chain : List TransitionReceipt}

theorem continues_iff :
    continues chain event = true ↔
      event.resultVersion = chain.length + 1 ∧ event.expectedVersion + 1 = event.resultVersion ∧
      event.previousSha256 = chain.getLast?.map TransitionReceipt.canonicalSha256 ∧
      ∀ previous, chain.getLast? = some previous →
        previous.occurredAt ≤ event.occurredAt ∧ previous.toState = event.fromState := by
  simp only [continues, Bool.and_eq_true, decide_eq_true_eq, Bool.not_eq_true', and_assoc]
  cases chain.getLast? with
  | none => simp
  | some previous => simp

/-! ## Reading -/

theorem queryTransition_eq_some {eventId : String} :
    queryTransition host store eventId = .ok (some event) ↔
      store.transitions.get? eventId = some event ∧ EventVerified host event := by
  unfold queryTransition
  cases found : store.transitions.get? eventId with
  | none => simp
  | some row =>
    simp only [bind_eq_ok, require_eq_ok, pure_eq_ok, Option.some.injEq]
    constructor
    · rintro ⟨_, actor, _, verified, rfl⟩
      exact ⟨rfl, actor, verified⟩
    · rintro ⟨rfl, verified⟩
      exact ⟨⟨⟩, verified.actor, ⟨⟩, verified.verified, rfl⟩

theorem chainStep_eq_ok {next : List TransitionReceipt} (member : event ∈ store.transitions.rows) :
    chainStep host store chain event.eventId = .ok next ↔
      EventVerified host event ∧ continues chain event = true ∧
        historyAllows chain event = true ∧ next = chain ++ [event] := by
  have found : store.transitions.get? event.eventId = some event :=
    Table.get?_eq_some_iff.mpr ⟨member, rfl⟩
  simp only [chainStep, bind_eq_ok, okOr_eq_ok, require_eq_ok, pure_eq_ok]
  constructor
  · rintro ⟨_, read, other, rfl, _, continued, _, allowed, rfl⟩
    obtain ⟨same, verified⟩ := queryTransition_eq_some.mp read
    obtain rfl : event = other := Option.some.inj (found.symm.trans same)
    exact ⟨verified, continued, allowed, rfl⟩
  · rintro ⟨verified, continued, allowed, rfl⟩
    exact ⟨some event, queryTransition_eq_some.mpr ⟨found, verified⟩, event, rfl, ⟨⟩, continued,
      ⟨⟩, allowed, rfl⟩

/-- The reader's loop over listed events succeeds exactly when they are linked. -/
theorem each_chainStep {result : List TransitionReceipt}
    (members : ∀ event ∈ events, event ∈ store.transitions.rows) :
    each (chainStep host store) earlier (events.map (·.eventId)) = .ok result ↔
      Linked host earlier events ∧ result = earlier ++ events := by
  induction events generalizing earlier with
  | nil => simp [each, Linked, eq_comm]
  | cons event rest ih =>
    have present : event ∈ store.transitions.rows := members event List.mem_cons_self
    have others : ∀ other ∈ rest, other ∈ store.transitions.rows := fun other member =>
      members other (List.mem_cons_of_mem event member)
    rw [List.map_cons, each, bind_eq_ok]
    constructor
    · rintro ⟨next, stepped, rested⟩
      obtain ⟨verified, continued, allowed, rfl⟩ := (chainStep_eq_ok present).mp stepped
      obtain ⟨linked, rfl⟩ := (ih others).mp rested
      exact ⟨⟨verified, continued, allowed, linked⟩, by simp⟩
    · rintro ⟨⟨verified, continued, allowed, linked⟩, rfl⟩
      refine ⟨earlier ++ [event], (chainStep_eq_ok present).mpr
        ⟨verified, continued, allowed, rfl⟩, (ih others).mpr ⟨linked, by simp⟩⟩

/-- The events of a linked chain carry consecutive versions. -/
theorem Linked.versions (linked : Linked host earlier events) :
    events.map (·.resultVersion) = List.range' (earlier.length + 1) events.length := by
  induction events generalizing earlier with
  | nil => rfl
  | cons event rest ih =>
    obtain ⟨_, continued, _, linked⟩ := linked
    have rest_versions := ih linked
    rw [List.length_append, List.length_singleton] at rest_versions
    rw [List.map_cons, rest_versions, (continues_iff.mp continued).1, List.length_cons,
      List.range'_succ]

theorem Linked.ordered (linked : Linked host earlier events) :
    events.Pairwise fun first second => first.resultVersion < second.resultVersion := by
  have ascending : (List.range' (earlier.length + 1) events.length).Pairwise (· < ·) :=
    List.pairwise_lt_range'
  rw [← linked.versions] at ascending
  exact List.pairwise_map.mp ascending

theorem Linked.version_le (linked : Linked host [] events) (member : event ∈ events) :
    event.resultVersion ≤ events.length := by
  have listed : event.resultVersion ∈ events.map (·.resultVersion) :=
    List.mem_map_of_mem member
  rw [linked.versions, List.mem_range'] at listed
  obtain ⟨index, below, at_⟩ := listed
  simp only [List.length_nil] at at_
  omega

theorem Linked.last_version (linked : Linked host [] events) {last : TransitionReceipt}
    (isLast : events.getLast? = some last) : last.resultVersion = events.length := by
  obtain ⟨earlier, rfl⟩ := List.getLast?_eq_some_iff.mp isLast
  have continued := (linked_append.mp linked).2.2.1
  rw [List.nil_append] at continued
  rw [(continues_iff.mp continued).1, List.length_append, List.length_singleton]

theorem chainIds_of_linked (linked : Linked host [] (store.chain intentId)) :
    chainIds store intentId = (store.chain intentId).map (·.eventId) := by
  have sorted := linked.ordered.imp fun before => before.le
  rw [Store.chain] at sorted
  rw [chainIds, sorted.insertionSort_eq, Store.chain]

/-- The head is the one that the chain leads to. -/
structure HeadOf (current : IntentSnapshot) (chain : List TransitionReceipt) : Prop where
  length : chain.length = current.version
  start : ∀ first, chain.head? = some first →
    first.fromState = current.decisionKind.initialState
  last : ∀ event, chain.getLast? = some event →
    event.toState = current.state ∧ some event.fromState = current.previousState ∧
      event.reason = current.reason ∧ event.occurredAt = current.updatedAt
  untouched : chain = [] → current.previousState = none

variable {current : IntentSnapshot}

theorem boundTo_eq_ok :
    current.boundTo chain = .ok () ↔
      (∀ event, chain.getLast? = some event →
        event.toState = current.state ∧ some event.fromState = current.previousState ∧
          event.reason = current.reason ∧ event.occurredAt = current.updatedAt) ∧
      (chain = [] → current.previousState = none) := by
  unfold IntentSnapshot.boundTo
  cases last : chain.getLast? with
  | none =>
    have empty : chain = [] := List.getLast?_eq_none_iff.mp last
    simp [require_eq_ok, empty]
  | some event =>
    have nonempty : chain ≠ [] := by
      rintro rfl
      cases last
    simp [require_eq_ok, nonempty]

/-- On linked events the reader succeeds exactly when the head is the chain's. -/
theorem queryTransitionChain_eq_ok (linked : Linked host [] (store.chain current.intentId)) :
    queryTransitionChain host store current = .ok chain ↔
      chain = store.chain current.intentId ∧ HeadOf current chain := by
  have members : ∀ event ∈ store.chain current.intentId, event ∈ store.transitions.rows :=
    fun event member => (mem_chain.mp member).1
  simp only [queryTransitionChain, bind_eq_ok, require_eq_ok, pure_eq_ok,
    chainIds_of_linked linked, each_chainStep members, List.nil_append]
  constructor
  · rintro ⟨_, ⟨_, rfl⟩, _, counted, _, started, _, bound, rfl⟩
    obtain ⟨last, untouched⟩ := boundTo_eq_ok.mp bound
    exact ⟨rfl, counted, by simpa [Option.all_eq_true] using started, last, untouched⟩
  · rintro ⟨rfl, headOf⟩
    exact ⟨_, ⟨linked, rfl⟩, ⟨⟩, headOf.length, ⟨⟩,
      by simpa [Option.all_eq_true] using headOf.start, ⟨⟩,
      boundTo_eq_ok.mpr ⟨headOf.last, headOf.untouched⟩, rfl⟩

/-! ## The latest entry into resolution -/

theorem lastResolution_eq (chain : List TransitionReceipt) :
    lastResolution chain = (chain.filter TransitionReceipt.entersResolution).getLast? :=
  List.getLast?_filter.symm

/-- In ascending events the greatest version is the last one. -/
theorem max?_of_ordered
    (ordered : events.Pairwise fun first second => first.resultVersion < second.resultVersion) :
    (events.map (·.resultVersion)).max? = events.getLast?.map (·.resultVersion) := by
  induction events using List.reverseRecOn with
  | nil => rfl
  | append_singleton events last _ =>
    have below := (List.pairwise_append.mp ordered).2.2
    rw [List.getLast?_concat, Option.map_some, List.max?_eq_some_iff]
    constructor
    · simp
    · intro version member
      obtain ⟨event, listed, rfl⟩ := List.mem_map.mp member
      rcases mem_concat.mp listed with listed | listed
      · exact (below event listed last List.mem_cons_self).le
      · rw [listed]

/-- The trigger and the reader look at the same entry into resolution. -/
theorem uncertain_resolution_iff
    (ordered : events.Pairwise fun first second => first.resultVersion < second.resultVersion) :
    (events.any fun event => event.toState = .resolutionRequired && event.uncertain &&
        some event.resultVersion = lastResolutionVersion events) =
      (lastResolution events).any TransitionReceipt.uncertain := by
  have entries := ordered.filter TransitionReceipt.entersResolution
  rw [lastResolution_eq, lastResolutionVersion, max?_of_ordered entries, Bool.eq_iff_iff,
    List.any_eq_true, Option.any_eq_true]
  constructor
  · rintro ⟨event, listed, holds⟩
    simp only [Bool.and_eq_true, decide_eq_true_eq] at holds
    obtain ⟨⟨target, uncertain⟩, latest⟩ := holds
    obtain ⟨last, isLast, version⟩ := Option.map_eq_some_iff.mp latest.symm
    have source : event.fromState = .awaitingAuthority := by
      simp only [TransitionReceipt.uncertain, Bool.and_eq_true, decide_eq_true_eq] at uncertain
      exact uncertain.1
    have enters : event ∈ events.filter TransitionReceipt.entersResolution :=
      List.mem_filter.mpr ⟨listed, by simp [TransitionReceipt.entersResolution, target, source]⟩
    have distinct : ((events.filter TransitionReceipt.entersResolution).map
        (·.resultVersion)).Nodup :=
      List.pairwise_map.mpr (entries.imp fun before => before.ne)
    have same : event = last :=
      List.inj_on_of_nodup_map distinct enters (List.mem_of_getLast? isLast) version.symm
    exact ⟨last, isLast, same ▸ uncertain⟩
  · rintro ⟨last, isLast, uncertain⟩
    have listed := List.mem_filter.mp (List.mem_of_getLast? isLast)
    refine ⟨last, listed.1, ?_⟩
    have enters := listed.2
    simp only [TransitionReceipt.entersResolution, Bool.and_eq_true, decide_eq_true_eq] at enters
    simp [enters.1, uncertain, isLast]

end StockAnalysis.Intents
