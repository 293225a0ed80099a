import StockAnalysis.NewsFlash.DayReader
import Mathlib.Data.List.Pairwise
import Mathlib.Data.List.Sort

/-!
# The NewsFlash gate

The state machine `NewsFlashGate` of `bin/monitor/news_aggregator_init.rs`. It buffers the events of
a day and, in the first five minutes of each of the four aggregate windows, reserves one push of the
three strongest events. A reservation is identified by a hash over the window, the evidence of the
events and the rendered text, and it holds the window until it is settled.

Before every tick the gate takes the state of its windows, the unresolved reservations and the next
ordinals from the snapshot of the audit; it refuses to do so while a reservation is pending.

The digests, the calendar of the local time zone and the instant of a local time are functions of
the host. The critical pushes are not reserved by this gate, so only what `settle` does with one of
them is modelled.
-/

namespace StockAnalysis.NewsFlash

/-! ## Events -/

inductive EventType where
  | policy | techBreak | orderWin | capacity | priceUp | priceDown | mna | accident | overseas
  | earnings | marketAction | analystView | announcement | other
deriving DecidableEq

def EventType.label : EventType → String
  | .policy => "政策"
  | .techBreak => "技术突破"
  | .orderWin => "订单中标"
  | .capacity => "产能变化"
  | .priceUp => "涨价"
  | .priceDown => "跌价"
  | .mna => "并购重组"
  | .accident => "事故利空"
  | .overseas => "海外事件"
  | .earnings => "财报"
  | .marketAction => "实盘"
  | .analystView => "机构观点"
  | .announcement => "公告"
  | .other => "其他"

structure SourceRef where
  provider : String
  fetchedAt : Instant
deriving DecidableEq

/-- The members of a `MarketEvent` that the gate reads. -/
structure MarketEvent where
  eventId : String
  fullTitle : String
  eventType : EventType
  strength : Nat
  certainty : Nat
  occurredAt : Instant
  provenance : List SourceRef
  stale : Bool
deriving DecidableEq

structure NewsFlashProjectedEvent where
  event : MarketEvent
  source : NewsFlashAuditSource
deriving DecidableEq

/-! ## Reservations -/

structure NewsFlashReservationIdentityFields where
  pushKind : String
  businessDate : Day
  decisionKey : String
  eventId : Option String
  window : Option String
  evidenceSha256 : String
  renderSha256 : String

structure NewsFlashAttemptAuditInput where
  pushKind : String
  businessDate : Day
  decisionKey : String
  channel : String
  renderedLen : Nat
  reservationSha256 : String
  sources : List NewsFlashAuditSource
  evidenceSha256 : String
  renderSha256 : String
  attemptOrdinal : Nat
  observedAt : Instant
deriving DecidableEq

structure NewsFlashRemoteReceipt where
  channel : String
  provider : String
  messageId : String
  platformMessageId : String
  acceptedAt : Instant
  latencyMs : Nat

inductive NewsFlashTerminalDisposition where
  | accepted (remoteReceipt : NewsFlashRemoteReceipt)
  | definitivelyRejected (reasonCode transportEvidenceSha256 : String)
  | uncertain (reasonCode : String)

structure NewsFlashTerminalAuditInput where
  disposition : NewsFlashTerminalDisposition
  observedAt : Instant
  latencyMs : Nat

/-- The calendar and the digests of the host. -/
structure Host where
  localDate : Instant → Day
  /-- The instant at which the local clock shows the hour and minute, when there is just one. -/
  localTime : Day → Nat × Nat → Option Instant
  evidenceSha256 : List NewsFlashAuditSource → String
  renderSha256 : String → String
  reservationSha256 : NewsFlashReservationIdentityFields → String
  sinkAttemptIdentity : NewsFlashAttemptAuditInput → String
  sinkAttemptSha256 : NewsFlashAttemptAuditInput → String → String
  remoteReceiptIdentity : NewsFlashRemoteReceipt → String
  remoteReceiptSha256 : NewsFlashRemoteReceipt → String
  /-- The id of the envelope of an attempt, or of its terminal. -/
  transactionJoin : PushRecord → Option NewsFlashTerminalAuditInput → String

variable (host : Host)

inductive FlashDecision where
  | critical (eventId text : String)
  | aggregated (window text : String)
deriving DecidableEq

def FlashDecision.text : FlashDecision → String
  | .critical _ text => text
  | .aggregated _ text => text

def FlashDecision.pushKind : FlashDecision → String
  | .critical _ _ => criticalKind
  | .aggregated _ _ => aggregatedKind

structure FlashReservation where
  tokenId : Nat
  pushKind : String
  businessDate : Day
  decisionKey : String
  eventId : Option String
  window : Option String
  attemptOrdinal : Nat
  renderedLen : Nat
  reservationIdentitySha256 : String
  evidenceSha256 : String
  renderSha256 : String
  sources : List NewsFlashAuditSource
  selectedProjected : List NewsFlashProjectedEvent
  decision : FlashDecision
deriving DecidableEq

/-- `make_reservation`. -/
def makeReservation (tokenId : Nat) (day : Day) (decisionKey : String)
    (eventId window : Option String) (projected : List NewsFlashProjectedEvent)
    (decision : FlashDecision) : FlashReservation :=
  let sources := projected.map NewsFlashProjectedEvent.source
  let evidenceSha256 := host.evidenceSha256 sources
  let renderSha256 := host.renderSha256 decision.text
  { tokenId := tokenId
    pushKind := decision.pushKind
    businessDate := day
    decisionKey := decisionKey
    eventId := eventId
    window := window
    attemptOrdinal := 1
    renderedLen := decision.text.utf8ByteSize
    reservationIdentitySha256 := host.reservationSha256
      ⟨decision.pushKind, day, decisionKey, eventId, window, evidenceSha256, renderSha256⟩
    evidenceSha256 := evidenceSha256
    renderSha256 := renderSha256
    sources := sources
    selectedProjected := projected
    decision := decision }

/-! ## Windows of the gate -/

/-- `AGG_WINDOWS`. -/
def aggWindow : Fin 4 → Nat × Nat
  | 0 => (9, 30)
  | 1 => (11, 30)
  | 2 => (13, 0)
  | 3 => (15, 0)

/-- `AGG_WINDOW_TOLERANCE_SECS`. -/
def aggWindowToleranceSecs : Int := 300

def nanosPerSecond : Int := 1000000000

def twoDigits (number : Nat) : String :=
  if number < 10 then "0" ++ toString number else toString number

/-- The label of a window, as the gate formats it. -/
def aggLabel (index : Fin 4) : String :=
  twoDigits (aggWindow index).1 ++ ":" ++ twoDigits (aggWindow index).2

/-- The window that the readers know under the label. -/
def gateWindow : Fin 4 → NewsFlashWindow
  | 0 => .h0930
  | 1 => .h1130
  | 2 => .h1300
  | 3 => .h1500

theorem aggLabel_eq : ∀ index, aggLabel index = (gateWindow index).label := by
  decide +kernel

theorem gateWindow_injective : ∀ {first second}, gateWindow first = gateWindow second →
    first = second := by
  decide

/-- `AGG_WINDOWS.iter().position(..)`. -/
def windowIndex? (label : String) : Option (Fin 4) :=
  (List.finRange 4).find? fun index => label = aggLabel index

variable {index : Fin 4}

theorem windowIndex?_eq_some {label : String} (found : windowIndex? label = some index) :
    label = (gateWindow index).label := by
  have isLabel := List.find?_some found
  simpa [aggLabel_eq] using isLabel

inductive WindowState where
  | eligible | pending | committed
deriving DecidableEq

inductive PendingFlash where
  | critical (eventId reservationIdentitySha256 : String)
  | aggregate (index : Fin 4) (reservationIdentitySha256 : String)

structure NewsFlashGate where
  day : Day
  bufferedIds : OrdMap String Unit
  criticalCommitted : OrdMap String Unit
  criticalPending : OrdMap String Unit
  unresolvedReservations : OrdMap String Unit
  windowState : Fin 4 → WindowState
  buffer : List NewsFlashProjectedEvent
  pending : OrdMap Nat PendingFlash
  recoveredAttemptOrdinals : OrdMap String Nat
  nextTokenId : Nat
  criticalBlockedEvents : OrdMap String Unit

variable (gate : NewsFlashGate) (reservation : FlashReservation)

namespace NewsFlashGate

variable (snapshot : NewsFlashAuthoritySnapshot)

def new (today : Day) : NewsFlashGate :=
  { day := today
    bufferedIds := OrdMap.empty
    criticalCommitted := OrdMap.empty
    criticalPending := OrdMap.empty
    unresolvedReservations := OrdMap.empty
    windowState := fun _ => .eligible
    buffer := []
    pending := OrdMap.empty
    recoveredAttemptOrdinals := OrdMap.empty
    nextTokenId := 1
    criticalBlockedEvents := OrdMap.empty }

/-- Another day starts with an empty gate. -/
def rollover (today : Day) : NewsFlashGate :=
  if gate.day ≠ today then new today else gate

/-! ## Recovery -/

inductive NewsFlashRecoveryError where
  | pendingReservations
  | unknownAcceptedWindow (label : String)
  | businessDateMismatch (snapshot now : Day)

def recoverWindow (states : Fin 4 → WindowState) (label : String) :
    Except NewsFlashRecoveryError (Fin 4 → WindowState) := do
  let index ← okOr (windowIndex? label) (.unknownAcceptedWindow label)
  pure (Function.update states index .committed)

/-- The next ordinal of every reservation that has an attempt and was not accepted. -/
def recoverOrdinals : OrdMap String Nat :=
  (snapshot.unresolvedReservations.keys ++ snapshot.definitivelyRejectedReservations.keys).foldl
    (fun ordinals reservation =>
      ordinals.insert reservation (snapshot.nextAttemptOrdinal reservation))
    OrdMap.empty

def recover : Except NewsFlashRecoveryError NewsFlashGate := do
  require (gate.pending.entries = []) .pendingReservations
  let states ← each recoverWindow (fun _ => .eligible) snapshot.acceptedWindows.keys
  pure { gate.rollover snapshot.businessDate with
    criticalCommitted := snapshot.acceptedEventIds
    criticalBlockedEvents := snapshot.blockedCriticalEventIds
    criticalPending := OrdMap.empty
    windowState := states
    unresolvedReservations := snapshot.unresolvedReservations
    recoveredAttemptOrdinals := recoverOrdinals snapshot }

/-! ## Reserving -/

/-- Why an event is rejected before it is buffered. -/
def validationError (now : Instant) (event : MarketEvent) : Option String :=
  let provenance := event.provenance.head?
  if blank event.eventId then some "missing_event_id"
  else if blank event.fullTitle then some "missing_headline"
  else if provenance.all fun item => blank item.provider then some "missing_provenance"
  else if 100 < event.strength then some "strength_out_of_range"
  else if 100 < event.certainty then some "certainty_out_of_range"
  else if event.stale then some "stale"
  else if now < event.occurredAt then some "future_publication"
  else if host.localDate event.occurredAt ≠ host.localDate now then
    some "publication_date_not_current"
  else if provenance.any fun item =>
      now + 5 * nanosPerSecond < item.fetchedAt || item.fetchedAt < event.occurredAt then
    some "invalid_observation_time"
  else none

/-- One iteration of the intake. -/
def bufferEvent (now : Instant) (gate : NewsFlashGate) (projected : NewsFlashProjectedEvent) :
    NewsFlashGate :=
  match validationError host now projected.event with
  | some _ => gate
  | none =>
    if 200 ≤ gate.buffer.length then gate
    else if gate.bufferedIds.contains projected.event.eventId then gate
    else { gate with
      bufferedIds := (gate.bufferedIds.insert projected.event.eventId ())
      buffer := gate.buffer ++ [projected] }

/-- The three strongest events, in the order of the buffer where they are equally strong. -/
def topThree (buffer : List NewsFlashProjectedEvent) : List NewsFlashProjectedEvent :=
  (buffer.insertionSort fun a b => b.event.strength ≤ a.event.strength).take 3

def eventLine (projected : NewsFlashProjectedEvent) : String :=
  "[" ++ projected.event.eventType.label ++ "] " ++ projected.event.fullTitle ++ " (强度" ++
    toString projected.event.strength ++ " 确定性" ++ toString projected.event.certainty ++ ")"

/-- `assemble_news_flash_aggregated`. -/
def assembleNewsFlashAggregated (window : String) (lines : List String) : Except String String := do
  require (blank window = false ∧ lines ≠ [] ∧ lines.any blank = false)
    "BR-196 NewsFlash aggregate requires window and nonempty lines"
  pure ((lines.take 3).zipIdx.foldl
    (fun text line => text ++ (toString (line.2 + 1) ++ ". " ++ line.1 ++ "\n"))
    ("📰 新闻时段聚合 (" ++ window ++ ") Top3:\n"))

/-- The text of the window's card. The source expects the assembly of a nonempty buffer to
succeed. -/
def cardText (index : Fin 4) : String :=
  match assembleNewsFlashAggregated (aggLabel index) ((topThree gate.buffer).map eventLine) with
  | .ok text => text
  | .error _ => ""

/-- The reservation that the gate would issue for a window. -/
def windowReservation (index : Fin 4) : FlashReservation :=
  let label := aggLabel index
  let reservation := makeReservation host gate.nextTokenId gate.day ("window:" ++ label) none
    (some label) (topThree gate.buffer) (.aggregated label (gate.cardText index))
  { reservation with
    attemptOrdinal :=
      (gate.recoveredAttemptOrdinals.get? reservation.reservationIdentitySha256).getD 1 }

/-- The window is in its first five minutes, `[target, target + 300 s)` in whole seconds. -/
def inWindow (now : Instant) (index : Fin 4) : Bool :=
  match host.localTime (host.localDate now) (aggWindow index) with
  | none => false
  | some target =>
    let delta := Int.tdiv (now - target) nanosPerSecond
    0 ≤ delta && delta < aggWindowToleranceSecs

/-- The gate after it issued a reservation. -/
def issue (index : Fin 4) (reservation : FlashReservation) : NewsFlashGate :=
  { gate with
    nextTokenId := gate.nextTokenId + 1
    windowState := Function.update gate.windowState index .pending
    pending := (gate.pending.insert reservation.tokenId
      (.aggregate index reservation.reservationIdentitySha256)) }

/-- One iteration of the loop over the windows. -/
def reserveWindow (now : Instant) (loop : NewsFlashGate × List FlashReservation) (index : Fin 4) :
    NewsFlashGate × List FlashReservation :=
  let gate := loop.1
  if gate.windowState index = .eligible ∧ inWindow host now index = true ∧ gate.buffer ≠ [] then
    let reservation := windowReservation host gate index
    if gate.unresolvedReservations.contains reservation.reservationIdentitySha256 then loop
    else (gate.issue index reservation, loop.2 ++ [reservation])
  else loop

def reserve (events : List NewsFlashProjectedEvent) (now : Instant) :
    NewsFlashGate × List FlashReservation :=
  let gate := gate.rollover (host.localDate now)
  let gate := events.foldl (bufferEvent host now) gate
  (List.finRange 4).foldl (reserveWindow host now) (gate, [])

def reserveFromAuthority (events : List NewsFlashProjectedEvent) (now : Instant) :
    Except NewsFlashRecoveryError (NewsFlashGate × List FlashReservation) := do
  require (snapshot.businessDate = host.localDate now)
    (.businessDateMismatch snapshot.businessDate (host.localDate now))
  let recovered ← gate.recover snapshot
  pure (reserve host recovered events now)

end NewsFlashGate

/-! ## Settling -/

structure NewsFlashAttemptReceipt where
  envelopeId : String
  input : NewsFlashAttemptAuditInput
  sinkAttemptIdentity : String
  sinkAttemptSha256 : String

structure NewsFlashAcceptedReceipt where
  terminalEnvelopeId : String
  attempt : NewsFlashAttemptReceipt
  remoteReceipt : NewsFlashRemoteReceipt
  remoteReceiptIdentity : String
  remoteReceiptSha256 : String

structure NewsFlashClosedTerminalReceipt where
  terminalEnvelopeId : String
  attempt : NewsFlashAttemptReceipt
  reasonCode : String

inductive NewsFlashTerminalReceipt where
  | accepted (receipt : NewsFlashAcceptedReceipt)
  | definitivelyRejected (receipt : NewsFlashClosedTerminalReceipt)
  | uncertain (receipt : NewsFlashClosedTerminalReceipt)

inductive FlashSettlement where
  | terminal (receipt : NewsFlashTerminalReceipt)
  | rolledBack (reason : String)
  | uncertain (reason : String)

inductive FlashSettlementError where
  | unknownReservation | bindingMismatch

inductive FlashSettlementAction where
  | committed | rolledBack | uncertain

namespace FlashReservation

/-- The attempt that is recorded before a reservation is sent. -/
def attemptInput (channel : String) (observedAt : Instant) : NewsFlashAttemptAuditInput where
  pushKind := reservation.pushKind
  businessDate := reservation.businessDate
  decisionKey := reservation.decisionKey
  channel := channel
  renderedLen := reservation.renderedLen
  reservationSha256 := reservation.reservationIdentitySha256
  sources := reservation.sources
  evidenceSha256 := reservation.evidenceSha256
  renderSha256 := reservation.renderSha256
  attemptOrdinal := reservation.attemptOrdinal
  observedAt := observedAt

def matchesAttempt (attempt : NewsFlashAttemptReceipt) : Bool :=
  let expectedIdentity := host.sinkAttemptIdentity attempt.input
  attempt.input = reservation.attemptInput attempt.input.channel attempt.input.observedAt &&
    !blank attempt.envelopeId && attempt.sinkAttemptIdentity = expectedIdentity &&
    attempt.sinkAttemptSha256 = host.sinkAttemptSha256 attempt.input expectedIdentity

def matchesAcceptedReceipt (receipt : NewsFlashAcceptedReceipt) : Bool :=
  reservation.matchesAttempt host receipt.attempt &&
    receipt.remoteReceipt.channel = receipt.attempt.input.channel &&
    receipt.remoteReceiptIdentity = host.remoteReceiptIdentity receipt.remoteReceipt &&
    receipt.remoteReceiptSha256 = host.remoteReceiptSha256 receipt.remoteReceipt &&
    !blank receipt.terminalEnvelopeId

end FlashReservation

namespace NewsFlashGate

/-- The action of a settlement, once its receipt was compared with the reservation. -/
def settlementAction : FlashSettlement → Except FlashSettlementError FlashSettlementAction
  | .terminal (.accepted receipt) => do
      require (reservation.matchesAcceptedReceipt host receipt = true) .bindingMismatch
      require (reservation.matchesAttempt host receipt.attempt = true) .bindingMismatch
      pure .committed
  | .terminal (.definitivelyRejected receipt) => do
      require (reservation.matchesAttempt host receipt.attempt = true) .bindingMismatch
      pure .rolledBack
  | .terminal (.uncertain receipt) => do
      require (reservation.matchesAttempt host receipt.attempt = true) .bindingMismatch
      pure .uncertain
  | .rolledBack _ => .ok .rolledBack
  | .uncertain _ => .ok .uncertain

def markUnresolved (reservation : String) : NewsFlashGate :=
  { gate with unresolvedReservations := (gate.unresolvedReservations.insert reservation ()) }

/-- `restore_pending`: a reservation whose receipt does not fit is unresolved. -/
def restorePending : PendingFlash → NewsFlashGate
  | .critical _ reservation => markUnresolved
      { gate with criticalPending := (gate.criticalPending.erase reservation) } reservation
  | .aggregate index reservation => markUnresolved
      { gate with windowState := Function.update gate.windowState index .eligible } reservation

def settlePending (action : FlashSettlementAction) : PendingFlash → NewsFlashGate
  | .critical eventId reservation =>
    let gate := { gate with criticalPending := (gate.criticalPending.erase reservation) }
    match action with
    | .committed => { gate with
        criticalBlockedEvents := (gate.criticalBlockedEvents.insert eventId ())
        criticalCommitted := (gate.criticalCommitted.insert eventId ()) }
    | .uncertain => markUnresolved
        { gate with criticalBlockedEvents := (gate.criticalBlockedEvents.insert eventId ()) }
        reservation
    | .rolledBack => gate
  | .aggregate index reservation =>
    match action with
    | .committed => { gate with
        windowState := Function.update gate.windowState index .committed }
    | .rolledBack => { gate with
        windowState := Function.update gate.windowState index .eligible }
    | .uncertain => markUnresolved
        { gate with windowState := Function.update gate.windowState index .eligible } reservation

/-- `settle`; the reservation is used up whatever the answer is. -/
def settle (settlement : FlashSettlement) : NewsFlashGate × Except FlashSettlementError Unit :=
  match gate.pending.get? reservation.tokenId with
  | none => (gate, .error .unknownReservation)
  | some pending =>
    let gate := { gate with pending := (gate.pending.erase reservation.tokenId) }
    match settlementAction host reservation settlement with
    | .error reason => (gate.restorePending pending, .error reason)
    | .ok action => (gate.settlePending action pending, .ok ())

/-! ## What a tick issues -/

@[simp]
theorem windowReservation_decisionKey (index : Fin 4) :
    (windowReservation host gate index).decisionKey = (gateWindow index).decisionKey := by
  simp [windowReservation, makeReservation, aggLabel_eq, NewsFlashWindow.decisionKey]

/-- The identity of a window's reservation is taken of the top three and their rendering, and of
nothing else in the gate but its day. -/
theorem windowReservation_identity {host : Host} {first second : NewsFlashGate} {index : Fin 4}
    (day : first.day = second.day) (rendered : topThree first.buffer = topThree second.buffer) :
    (first.windowReservation host index).reservationIdentitySha256 =
      (second.windowReservation host index).reservationIdentitySha256 := by
  simp only [windowReservation, makeReservation, cardText, day, rendered]

/-- A reservation issued for a window by a loop over the windows that started with `start`. -/
structure IssuedFor (start : NewsFlashGate) (index : Fin 4) (reservation : FlashReservation) :
    Prop where
  eligible : start.windowState index = .eligible
  key : reservation.decisionKey = (gateWindow index).decisionKey
  kind : reservation.pushKind = aggregatedKind
  date : reservation.businessDate = start.day
  resolved : ¬ start.unresolvedReservations.contains reservation.reservationIdentitySha256 = true
  ordinal : reservation.attemptOrdinal =
    (start.recoveredAttemptOrdinals.get? reservation.reservationIdentitySha256).getD 1

/-- Two reservations with different tokens, for different windows. -/
structure Apart (first second : FlashReservation) : Prop where
  token : first.tokenId ≠ second.tokenId
  key : first.decisionKey ≠ second.decisionKey

instance : Std.Symm Apart :=
  ⟨fun _ _ apart => ⟨apart.token.symm, apart.key.symm⟩⟩

/-- The loop over the windows after the windows `walked`. -/
structure Issuing (start : NewsFlashGate) (walked : List (Fin 4))
    (loop : NewsFlashGate × List FlashReservation) : Prop where
  day : loop.1.day = start.day
  unresolved : loop.1.unresolvedReservations = start.unresolvedReservations
  ordinals : loop.1.recoveredAttemptOrdinals = start.recoveredAttemptOrdinals
  ahead : ∀ index, index ∉ walked → loop.1.windowState index = start.windowState index
  issued : ∀ reservation ∈ loop.2, ∃ index ∈ walked, IssuedFor start index reservation ∧
    loop.1.pending.get? reservation.tokenId =
      some (.aggregate index reservation.reservationIdentitySha256) ∧
    reservation.tokenId < loop.1.nextTokenId
  distinct : loop.2.Pairwise Apart

variable {host : Host} {now : Instant}

namespace Issuing

variable {start : NewsFlashGate} {walked : List (Fin 4)}
  {loop : NewsFlashGate × List FlashReservation}

theorem begin (start : NewsFlashGate) : Issuing start [] (start, []) where
  day := rfl
  unresolved := rfl
  ordinals := rfl
  ahead := fun _ _ => rfl
  issued := by simp
  distinct := List.Pairwise.nil

section

variable (issuing : Issuing start walked loop)

include issuing

theorem pass : Issuing start (walked ++ [index]) loop where
  day := issuing.day
  unresolved := issuing.unresolved
  ordinals := issuing.ordinals
  ahead := fun other outside => issuing.ahead other fun member =>
    outside (List.mem_append_left _ member)
  issued := fun reservation member =>
    have ⟨found, isWalked, rest⟩ := issuing.issued reservation member
    ⟨found, List.mem_append_left _ isWalked, rest⟩
  distinct := issuing.distinct

theorem issue (new : index ∉ walked)
    (eligible : loop.1.windowState index = .eligible)
    (resolved : ¬ loop.1.unresolvedReservations.contains
      (windowReservation host loop.1 index).reservationIdentitySha256 = true) :
    Issuing start (walked ++ [index])
      (loop.1.issue index (windowReservation host loop.1 index),
        loop.2 ++ [windowReservation host loop.1 index]) := by
  have isFor : IssuedFor start index (windowReservation host loop.1 index) := by
    constructor
    · rw [← issuing.ahead index new]
      exact eligible
    · exact windowReservation_decisionKey host loop.1 index
    · rfl
    · exact issuing.day
    · rw [← issuing.unresolved]
      exact resolved
    · rw [← issuing.ordinals]
      rfl
  constructor
  · exact issuing.day
  · exact issuing.unresolved
  · exact issuing.ordinals
  · intro other outside
    rw [List.mem_append, List.mem_singleton, not_or] at outside
    rw [← issuing.ahead other outside.1]
    exact Function.update_of_ne outside.2 _ _
  · intro reservation member
    rcases mem_concat.mp member with earlier | rfl
    · obtain ⟨found, isWalked, holds, pending, below⟩ := issuing.issued reservation earlier
      refine ⟨found, List.mem_append_left _ isWalked, holds, ?_, Nat.lt_succ_of_lt below⟩
      -- The new token is the next one, so it is not the token of an earlier reservation.
      have different : (windowReservation host loop.1 index).tokenId ≠ reservation.tokenId :=
        below.ne'
      exact (OrdMap.get?_insert _ _ _ _).trans ((if_neg different).trans pending)
    · refine ⟨index, by simp, isFor, ?_, Nat.lt_succ_self _⟩
      exact OrdMap.get?_insert_self _ _ _
  · rw [List.pairwise_append]
    refine ⟨issuing.distinct, List.pairwise_singleton _ _, fun first member second last => ?_⟩
    obtain rfl := List.mem_singleton.mp last
    obtain ⟨found, isWalked, holds, _, below⟩ := issuing.issued first member
    refine ⟨below.ne, fun sameKey => new ?_⟩
    rw [holds.key, windowReservation_decisionKey] at sameKey
    rw [← gateWindow_injective (NewsFlashWindow.decisionKey_injective sameKey)]
    exact isWalked

theorem step (new : index ∉ walked) :
    Issuing start (walked ++ [index]) (reserveWindow host now loop index) := by
  unfold reserveWindow
  dsimp only
  split
  · rename_i ready
    split
    · exact issuing.pass
    · rename_i resolved
      exact issuing.issue new ready.1 resolved
  · exact issuing.pass

end

theorem run (todo : List (Fin 4)) {walked : List (Fin 4)}
    {loop : NewsFlashGate × List FlashReservation} (nodup : (walked ++ todo).Nodup)
    (issuing : Issuing start walked loop) :
    Issuing start (walked ++ todo) (todo.foldl (reserveWindow host now) loop) := by
  induction todo generalizing walked loop with
  | nil => simpa using issuing
  | cons index todo ih =>
    have new : index ∉ walked := by
      intro isWalked
      exact (List.nodup_append.mp nodup).2.2 index isWalked index List.mem_cons_self rfl
    rw [List.append_cons] at nodup
    rw [List.foldl_cons, List.append_cons]
    exact ih nodup (issuing.step new)

end Issuing

/-- Buffering events changes only the buffer. -/
theorem foldl_bufferEvent (host : Host) (now : Instant) (events : List NewsFlashProjectedEvent)
    (gate : NewsFlashGate) :
    ∃ ids buffer, events.foldl (bufferEvent host now) gate =
      { gate with bufferedIds := ids, buffer := buffer } := by
  induction events generalizing gate with
  | nil => exact ⟨gate.bufferedIds, gate.buffer, rfl⟩
  | cons projected events ih =>
    have first : ∃ ids buffer, bufferEvent host now gate projected =
        { gate with bufferedIds := ids, buffer := buffer } := by
      unfold bufferEvent
      split
      · exact ⟨_, _, rfl⟩
      · split
        · exact ⟨_, _, rfl⟩
        · split
          · exact ⟨_, _, rfl⟩
          · exact ⟨_, _, rfl⟩
    obtain ⟨ids, buffer, isFirst⟩ := first
    obtain ⟨lastIds, lastBuffer, rest⟩ := ih { gate with bufferedIds := ids, buffer := buffer }
    exact ⟨lastIds, lastBuffer, by rw [List.foldl_cons, isFirst, rest]⟩

/-- What a tick issued, in terms of the snapshot it read. -/
structure Ticked (snapshot : NewsFlashAuthoritySnapshot) (gate next : NewsFlashGate)
    (issued : List FlashReservation) : Prop where
  idle : gate.pending.entries = []
  reservations : ∀ reservation ∈ issued, ∃ index,
    reservation.decisionKey = (gateWindow index).decisionKey ∧
    reservation.pushKind = aggregatedKind ∧
    reservation.businessDate = snapshot.businessDate ∧
    ¬ snapshot.acceptedWindows.contains (gateWindow index).label = true ∧
    ¬ snapshot.unresolvedReservations.contains reservation.reservationIdentitySha256 = true ∧
    reservation.attemptOrdinal =
      ((recoverOrdinals snapshot).get? reservation.reservationIdentitySha256).getD 1 ∧
    next.pending.get? reservation.tokenId =
      some (.aggregate index reservation.reservationIdentitySha256)
  distinct : issued.Pairwise Apart

/-- The windows that were accepted are committed after the recovery. -/
theorem each_recoverWindow {labels walked : List String} {states result : Fin 4 → WindowState}
    (covered : ∀ label ∈ walked, ∀ index, label = (gateWindow index).label →
      states index = .committed)
    (done : each recoverWindow states labels = .ok result) :
    ∀ label ∈ walked ++ labels, ∀ index, label = (gateWindow index).label →
      result index = .committed := by
  refine each_trace (fun walked states => ∀ label ∈ walked, ∀ index,
    label = (gateWindow index).label → states index = .committed) ?_ covered done
  intro walked states label next holds stepped other member index isLabel
  obtain ⟨found, isFound, stepped⟩ := bind_eq_ok.mp stepped
  rw [okOr_eq_ok] at isFound
  obtain rfl := pure_eq_ok.mp stepped
  by_cases same : index = found
  · rw [same, Function.update_self]
  · rw [Function.update_of_ne same]
    rcases mem_concat.mp member with earlier | last
    · exact holds other earlier index isLabel
    · rw [last, windowIndex?_eq_some isFound] at isLabel
      exact absurd (gateWindow_injective (NewsFlashWindow.label_injective isLabel)).symm same

variable {snapshot : NewsFlashAuthoritySnapshot}

theorem recover_eq_ok {gate recovered : NewsFlashGate}
    (done : gate.recover snapshot = .ok recovered) :
    gate.pending.entries = [] ∧ recovered.day = snapshot.businessDate ∧
    recovered.unresolvedReservations = snapshot.unresolvedReservations ∧
    recovered.recoveredAttemptOrdinals = recoverOrdinals snapshot ∧
    ∀ index, snapshot.acceptedWindows.contains (gateWindow index).label = true →
      recovered.windowState index = .committed := by
  simp only [recover, bind_eq_ok, require_eq_ok, pure_eq_ok] at done
  obtain ⟨_, idle, states, windows, rfl⟩ := done
  refine ⟨idle, ?_, rfl, rfl, fun index accepted => ?_⟩
  · unfold rollover
    split
    · rfl
    · rename_i same
      exact not_not.mp same
  · have listed : (gateWindow index).label ∈ [] ++ snapshot.acceptedWindows.keys := by
      rw [List.nil_append, OrdMap.mem_keys_iff]
      exact OrdMap.contains_iff.mp accepted
    exact each_recoverWindow (by simp) windows _ listed index rfl

theorem reserveFromAuthority_eq_ok {gate next : NewsFlashGate}
    {events : List NewsFlashProjectedEvent} {issued : List FlashReservation}
    (done : reserveFromAuthority host gate snapshot events now = .ok (next, issued)) :
    Ticked snapshot gate next issued := by
  simp only [reserveFromAuthority, bind_eq_ok, require_eq_ok, pure_eq_ok] at done
  obtain ⟨_, today, recovered, isRecovered, done⟩ := done
  obtain ⟨idle, isDay, unresolved, ordinals, committed⟩ := recover_eq_ok isRecovered
  have sameDay : recovered.rollover (host.localDate now) = recovered := by
    unfold rollover
    rw [if_neg]
    rw [not_not, isDay, today]
  obtain ⟨ids, buffer, buffered⟩ := foldl_bufferEvent host now events recovered
  simp only [reserve, sameDay, buffered] at done
  have issuing := @Issuing.run host now _ (List.finRange 4) [] _
    (by simpa using List.nodup_finRange 4)
    (Issuing.begin { recovered with bufferedIds := ids, buffer := buffer })
  rw [done] at issuing
  refine ⟨idle, fun reservation member => ?_, issuing.distinct⟩
  obtain ⟨index, _, holds, pending, _⟩ := issuing.issued reservation member
  refine ⟨index, holds.key, holds.kind, holds.date.trans isDay, fun accepted => ?_, ?_, ?_, pending⟩
  · have state := holds.eligible
    rw [committed index accepted] at state
    cases state
  · rw [← unresolved]
    exact holds.resolved
  · rw [← ordinals]
    exact holds.ordinal

/-- Settling a reservation takes its token away and keeps every other one. -/
theorem settle_pending (host : Host) (gate : NewsFlashGate) (reservation : FlashReservation)
    (settlement : FlashSettlement) {tokenId : Nat} (other : tokenId ≠ reservation.tokenId) :
    (gate.settle host reservation settlement).1.pending.get? tokenId =
      gate.pending.get? tokenId := by
  have erased : (gate.pending.erase reservation.tokenId).get? tokenId =
      gate.pending.get? tokenId := by
    rw [OrdMap.get?_erase, if_neg other]
  unfold settle
  split
  · rfl
  · rename_i pending _
    dsimp only
    split
    · cases pending <;> exact erased
    · rename_i action _
      cases pending <;> cases action <;> exact erased

end NewsFlashGate

end StockAnalysis.NewsFlash
