import Mathlib.Data.String.Basic
import StockAnalysis.Foundation.OrdMap

/-!
# Alert suppression

The monitor drops an alert that repeats one of the same stock and category within a cooldown, one
past the daily budget of its level, and every limit-down alert of a stock but the first of the
day. The machine writes its entries and its budgets to a table, and a new process reads the rows
of the day back. The marks of the limit-down alerts are not written, so such an alert is pushed
again after a restart; every other alert gets the verdict that it would have got without one.
-/

namespace StockAnalysis.Monitor

inductive AlertLevel where
  | emergency
  | important
  | info
deriving DecidableEq

inductive AlertCategory where
  | limitUp
  | limitDown
  | mainInflow
  | mainOutflow
  | volBurst
  | boardBreak
  | indexPlunge
  | flashNews
  | sectorResonance
  | technicalSignal
  | auctionGap
  | chainRisk
deriving DecidableEq

def AlertCategory.key : AlertCategory → String
  | .limitUp => "limit_up"
  | .limitDown => "limit_down"
  | .mainInflow => "main_inflow"
  | .mainOutflow => "main_outflow"
  | .volBurst => "vol_burst"
  | .boardBreak => "board_break"
  | .indexPlunge => "index_plunge"
  | .flashNews => "flash_news"
  | .sectorResonance => "sector_resonance"
  | .technicalSignal => "technical"
  | .auctionGap => "auction_gap"
  | .chainRisk => "chain_risk"

/-- What the machine reads of an alert. -/
structure AlertEvent where
  level : AlertLevel
  category : AlertCategory
  code : String
deriving DecidableEq

def makeKey (code : String) (cat : AlertCategory) : String :=
  code ++ ":" ++ cat.key

def AlertEvent.key (event : AlertEvent) : String :=
  makeKey event.code event.category

inductive SignalState where
  | idle
  | firing
  | cooldown
deriving DecidableEq

/-- The text of a state in the table. -/
def SignalState.asStr : SignalState → String
  | .idle => "idle"
  | .firing => "firing"
  | .cooldown => "cooldown"

def SignalState.ofStr (text : String) : SignalState :=
  if text = "firing" then .firing else if text = "cooldown" then .cooldown else .idle

@[simp]
theorem SignalState.ofStr_asStr (state : SignalState) : ofStr state.asStr = state := by
  cases state <;> decide

/-- Times are whole seconds. -/
structure SignalEntry where
  state : SignalState
  lastAlert : Int
  lastChange : Int

structure SignalStateMachine where
  entries : OrdMap String SignalEntry
  cooldownImportant : Int
  cooldownInfo : Int
  dailyImportantMax : Nat
  dailyInfoMax : Nat
  dailyImportantCount : Nat
  dailyInfoCount : Nat
  oncePerDay : OrdMap String Int

/-- The local time zone: the wall clock at a time, and the latest time that a wall clock shows. -/
structure Zone where
  wall : Int → Int
  latest : Int → Option Int

variable (machine : SignalStateMachine) (zone : Zone)

def Zone.today (now : Int) : Int :=
  zone.wall now / 86400

/-- The marks with that of a limit-down alert, unless the key was marked today. -/
def markOnce (marks : OrdMap String Int) (event : AlertEvent) (today : Int) :
    Option (OrdMap String Int) :=
  if event.category = .limitDown then
    if marks.get? event.key = some today then none else some (marks.insert event.key today)
  else some marks

/-- The entry of a key after a further alert. An emergency has a cooldown of its own. -/
def SignalEntry.fire (entry : SignalEntry) (level : AlertLevel) (cooldown now : Int) :
    Except String SignalEntry :=
  if level = .emergency then
    if now - entry.lastAlert < 60 then .error "紧急级60s冷却"
    else .ok { entry with lastAlert := now, state := .firing }
  else match entry.state with
    | .cooldown =>
      if now - entry.lastAlert < cooldown then .error "冷却中" else .ok ⟨.firing, now, now⟩
    | .firing =>
      if now - entry.lastAlert < cooldown then .error "冷却中"
      else .ok { entry with lastAlert := now }
    | .idle => .ok ⟨.firing, now, now⟩

namespace SignalStateMachine

def new (cooldownImportantSecs cooldownInfoSecs : Int) (dailyImportantMax dailyInfoMax : Nat) :
    SignalStateMachine :=
  ⟨.empty, cooldownImportantSecs, cooldownInfoSecs, dailyImportantMax, dailyInfoMax, 0, 0, .empty⟩

def budgetDenial : AlertLevel → Option String
  | .emergency => none
  | .important =>
    if machine.dailyImportantMax ≤ machine.dailyImportantCount then some "重要级当日预算耗尽"
    else none
  | .info =>
    if machine.dailyInfoMax ≤ machine.dailyInfoCount then some "参考级当日预算耗尽" else none

def chargeBudget : AlertLevel → SignalStateMachine
  | .emergency => machine
  | .important => { machine with dailyImportantCount := machine.dailyImportantCount + 1 }
  | .info => { machine with dailyInfoCount := machine.dailyInfoCount + 1 }

def cooldown : AlertLevel → Int
  | .emergency => 60
  | .important => machine.cooldownImportant
  | .info => machine.cooldownInfo

/-- The entry that an alert leaves under its key. -/
def fired (event : AlertEvent) (now : Int) : Except String SignalEntry :=
  match machine.entries.get? event.key with
  | some entry => entry.fire event.level (machine.cooldown event.level) now
  | none => .ok ⟨.firing, now, now⟩

/-- `process_traced` after the check of limit-down alerts. -/
def trace (event : AlertEvent) (now : Int) : Except String AlertEvent × SignalStateMachine :=
  match machine.budgetDenial event.level, machine.fired event now with
  | some reason, _ | none, .error reason => (.error reason, machine)
  | none, .ok entry =>
    (.ok event, { machine.chargeBudget event.level with
      entries := machine.entries.insert event.key entry })

/-- An error is the reason for which the alert is dropped. -/
def processTraced (event : AlertEvent) (now : Int) :
    Except String AlertEvent × SignalStateMachine :=
  match markOnce machine.oncePerDay event (zone.today now) with
  | none => (.error "跌停当日已推", machine)
  | some marks => { machine with oncePerDay := marks }.trace event now

def markResolved (code : String) (cat : AlertCategory) (now : Int) : SignalStateMachine :=
  match machine.entries.get? (makeKey code cat) with
  | some ⟨.firing, lastAlert, _⟩ =>
    { machine with entries := machine.entries.insert (makeKey code cat) ⟨.cooldown, lastAlert, now⟩ }
  | _ => machine

def budgetRemaining : Nat × Nat :=
  (machine.dailyImportantMax - machine.dailyImportantCount,
    machine.dailyInfoMax - machine.dailyInfoCount)

end SignalStateMachine

/-! ## The table -/

/-- A row of `signal_state`. Its times are those of the wall clock. -/
structure StateRow where
  state : String
  lastAlert : Option Int
  lastChange : Option Int
  dailyImportantCount : Nat
  dailyInfoCount : Nat

/-- A count as it is read: an integer of 32 bits, widened to an unsigned one of 64. -/
def readCount (stored : Nat) : Nat :=
  ((BitVec.ofNat 32 stored).signExtend 64).toNat

theorem readCount_eq {count : Nat} (small : count < 2 ^ 31) : readCount count = count := by
  have positive : (BitVec.ofNat 32 count).msb = false := by
    rw [BitVec.msb_eq_false_iff_two_mul_lt, BitVec.toNat_ofNat]
    omega
  rw [readCount, BitVec.signExtend_eq_setWidth_of_msb_false positive, BitVec.toNat_setWidth,
    BitVec.toNat_ofNat]
  omega

namespace SignalStateMachine

def row (entry : SignalEntry) : StateRow :=
  ⟨entry.state.asStr, some (zone.wall entry.lastAlert), some (zone.wall entry.lastChange),
    machine.dailyImportantCount, machine.dailyInfoCount⟩

def flushState (table : OrdMap String StateRow) : OrdMap String StateRow :=
  machine.entries.entries.foldl
    (fun rows entry => rows.insert entry.1 (machine.row zone entry.2)) table

def restoreRow (now : Int) (machine : SignalStateMachine) (row : String × StateRow) :
    SignalStateMachine :=
  match row.2.lastChange with
  | none => machine
  | some changed =>
    if changed / 86400 = zone.today now then
      { machine with
        entries := machine.entries.insert row.1
          ⟨.ofStr row.2.state, (row.2.lastAlert.bind zone.latest).getD now,
            (zone.latest changed).getD now⟩
        dailyImportantCount := max machine.dailyImportantCount
          (readCount row.2.dailyImportantCount)
        dailyInfoCount := max machine.dailyInfoCount (readCount row.2.dailyInfoCount) }
    else machine

/-- The rows of the day are restored. The removal of older rows does not touch the machine. -/
def restoreState (table : OrdMap String StateRow) (now : Int) : SignalStateMachine :=
  table.entries.foldl (restoreRow zone now) machine

/-- A new machine of the same limits, with what was flushed to an empty table. -/
def restarted (now : Int) : SignalStateMachine :=
  (new machine.cooldownImportant machine.cooldownInfo machine.dailyImportantMax
    machine.dailyInfoMax).restoreState zone (machine.flushState zone OrdMap.empty) now

end SignalStateMachine

/-! ## Runs -/

inductive Call where
  | process (now : Int) (event : AlertEvent)
  | markResolved (now : Int) (code : String) (cat : AlertCategory)

def Call.now : Call → Int
  | .process now _ => now
  | .markResolved now _ _ => now

/-- The call is a limit-down alert of a key that has a mark. -/
def Call.marked (marks : OrdMap String Int) : Call → Bool
  | .process _ event => event.category = .limitDown && marks.contains event.key
  | .markResolved _ _ _ => false

namespace SignalStateMachine

/-- The alert that a call pushes, and the machine after it. -/
def call : Call → Option AlertEvent × SignalStateMachine
  | .process now event =>
    ((machine.processTraced zone event now).1.toOption, (machine.processTraced zone event now).2)
  | .markResolved now code cat => (none, machine.markResolved code cat now)

def run (calls : List Call) : SignalStateMachine :=
  calls.foldl (fun machine call => (machine.call zone call).2) machine

def verdicts (machine : SignalStateMachine) (zone : Zone) : List Call → List (Option AlertEvent)
  | [] => []
  | call :: calls => (machine.call zone call).1 :: (machine.call zone call).2.verdicts zone calls

/-- The counts fit the integers of the table. -/
def Small : Prop :=
  machine.dailyImportantCount < 2 ^ 31 ∧ machine.dailyInfoCount < 2 ^ 31

instance (machine : SignalStateMachine) : Decidable machine.Small :=
  inferInstanceAs (Decidable (_ ∧ _))

end SignalStateMachine

/-- The time is of the day, and the last one that its wall clock shows. -/
def Zone.Shows (day now : Int) : Prop :=
  zone.today now = day ∧ zone.latest (zone.wall now) = some now

instance (zone : Zone) (day now : Int) : Decidable (zone.Shows day now) :=
  inferInstanceAs (Decidable (_ ∧ _))

def SignalEntry.Shown (day : Int) (entry : SignalEntry) : Prop :=
  zone.Shows day entry.lastAlert ∧ zone.Shows day entry.lastChange

variable {zone : Zone} {day now restart : Int} {machine other : SignalStateMachine}
  {marks held : OrdMap String Int} {entry : SignalEntry}

/-- What a machine that was created on the day holds. -/
structure OfDay (zone : Zone) (day : Int) (machine : SignalStateMachine) : Prop where
  shown : ∀ key entry, machine.entries.get? key = some entry → entry.Shown zone day
  /-- A push leaves an entry. -/
  counts : machine.entries = OrdMap.empty →
    machine.dailyImportantCount = 0 ∧ machine.dailyInfoCount = 0

variable {key : String}

theorem OfDay.insert (ofDay : OfDay zone day machine) (shown : entry.Shown zone day)
    (entries : other.entries = machine.entries.insert key entry) : OfDay zone day other where
  shown := by
    intro stored found isFound
    rw [entries] at isFound
    rcases OrdMap.get?_insert_eq_some.mp isFound with ⟨_, rfl⟩ | ⟨_, old⟩
    · exact shown
    · exact ofDay.shown stored found old
  counts := by
    intro none
    have held := OrdMap.get?_insert_self machine.entries key entry
    rw [← entries, none] at held
    cases held

theorem SignalEntry.fire_eq_ok {next : SignalEntry} {level : AlertLevel} {cooldown : Int}
    (done : entry.fire level cooldown now = .ok next) :
    next.lastAlert = now ∧ (next.lastChange = now ∨ next.lastChange = entry.lastChange) := by
  unfold fire at done
  split at done
  · split at done
    · cases done
    · cases done
      exact ⟨rfl, Or.inr rfl⟩
  · split at done <;> (try split at done) <;> cases done <;> simp

theorem OfDay.trace (ofDay : OfDay zone day machine) (shows : zone.Shows day now)
    (event : AlertEvent) : OfDay zone day (machine.trace event now).2 := by
  unfold SignalStateMachine.trace
  split
  · exact ofDay
  · exact ofDay
  · rename_i next _ fired
    refine ofDay.insert ?_ rfl
    unfold SignalStateMachine.fired at fired
    split at fired
    · rename_i old isOld
      obtain ⟨alert, change⟩ := SignalEntry.fire_eq_ok fired
      refine ⟨alert ▸ shows, ?_⟩
      rcases change with new | kept
      · exact new ▸ shows
      · exact kept ▸ (ofDay.shown _ old isOld).2
    · cases fired
      exact ⟨shows, shows⟩

theorem OfDay.call (ofDay : OfDay zone day machine) {call : Call} (shows : zone.Shows day call.now) :
    OfDay zone day (machine.call zone call).2 := by
  cases call with
  | process now event =>
    unfold SignalStateMachine.call SignalStateMachine.processTraced
    dsimp only
    split
    · exact ofDay
    · rename_i marks _
      have marked : OfDay zone day { machine with oncePerDay := marks } :=
        ⟨ofDay.shown, ofDay.counts⟩
      exact marked.trace shows event
  | markResolved now code cat =>
    unfold SignalStateMachine.call SignalStateMachine.markResolved
    dsimp only
    split
    · rename_i lastAlert lastChange firing
      have shown : SignalEntry.Shown zone day ⟨.cooldown, lastAlert, now⟩ :=
        ⟨(ofDay.shown _ _ firing).1, shows⟩
      exact ofDay.insert shown rfl
    · exact ofDay

variable {calls : List Call}

theorem OfDay.run (ofDay : OfDay zone day machine) (shows : ∀ call ∈ calls, zone.Shows day call.now) :
    OfDay zone day (machine.run zone calls) := by
  induction calls generalizing machine with
  | nil => exact ofDay
  | cons call calls ih =>
    rw [List.forall_mem_cons] at shows
    exact ih (ofDay.call shows.1) shows.2

/-! ## What a restart restores -/

theorem restoreRow_row (shown : entry.Shown zone day) (sameDay : zone.today restart = day)
    (small : machine.Small) :
    SignalStateMachine.restoreRow zone restart other (key, machine.row zone entry) =
      { other with
        entries := other.entries.insert key entry
        dailyImportantCount := max other.dailyImportantCount machine.dailyImportantCount
        dailyInfoCount := max other.dailyInfoCount machine.dailyInfoCount } := by
  have changed : zone.wall entry.lastChange / 86400 = zone.today restart :=
    shown.2.1.trans sameDay.symm
  simp [SignalStateMachine.restoreRow, SignalStateMachine.row, changed, shown.1.2, shown.2.2,
    readCount_eq small.1, readCount_eq small.2]

theorem foldl_max {α : Type*} (items : List α) (start bound : Nat) :
    items.foldl (fun count _ => max count bound) start =
      if items = [] then start else max start bound := by
  induction items generalizing start with
  | nil => rfl
  | cons item items ih => simp [ih]

theorem foldl_restoreRow {rows : List (String × SignalEntry)}
    (shown : ∀ row ∈ rows, row.2.Shown zone day) (sameDay : zone.today restart = day)
    (small : machine.Small) :
    (rows.map fun row => (row.1, machine.row zone row.2)).foldl
        (SignalStateMachine.restoreRow zone restart) other =
      { other with
        entries := rows.foldl (fun stored row => stored.insert row.1 row.2) other.entries
        dailyImportantCount := rows.foldl
          (fun count _ => max count machine.dailyImportantCount) other.dailyImportantCount
        dailyInfoCount := rows.foldl
          (fun count _ => max count machine.dailyInfoCount) other.dailyInfoCount } := by
  induction rows generalizing other with
  | nil => rfl
  | cons row rows ih =>
    rw [List.forall_mem_cons] at shown
    rw [List.map_cons, List.foldl_cons, restoreRow_row shown.1 sameDay small, ih shown.2]
    rfl

/-- A restart restores everything but the marks of the limit-down alerts. -/
theorem restarted_eq (ofDay : OfDay zone day machine) (sameDay : zone.today restart = day)
    (small : machine.Small) :
    machine.restarted zone restart = { machine with oncePerDay := OrdMap.empty } := by
  have sorted : (machine.entries.entries.map fun row =>
      (row.1, machine.row zone row.2)).Pairwise fun a b => a.1 < b.1 :=
    List.pairwise_map.mpr machine.entries.sorted
  have flushed : machine.flushState zone OrdMap.empty = ⟨_, sorted⟩ := by
    rw [← OrdMap.foldl_insert_empty, List.foldl_map]
    rfl
  have shown : ∀ row ∈ machine.entries.entries, row.2.Shown zone day :=
    fun row member => ofDay.shown row.1 row.2 (OrdMap.get?_eq_some_iff.mpr member)
  have counts : machine.entries.entries = [] →
      machine.dailyImportantCount = 0 ∧ machine.dailyInfoCount = 0 := by
    intro none
    refine ofDay.counts (OrdMap.ext fun key => ?_)
    rw [OrdMap.get?, none]
    rfl
  rw [SignalStateMachine.restarted, flushed, SignalStateMachine.restoreState,
    foldl_restoreRow shown sameDay small, foldl_max, foldl_max]
  simp only [SignalStateMachine.new, OrdMap.foldl_insert_empty machine.entries.sorted]
  split
  · rename_i none
    rw [(counts none).1, (counts none).2]
  · simp

/-! ## Machines that differ in their marks -/

/-- The other machine differs in its marks, under the keys of `held` only. -/
def Agrees (held : OrdMap String Int) (machine other : SignalStateMachine) : Prop :=
  ∃ marks, other = { machine with oncePerDay := marks } ∧
    ∀ key, held.contains key = false → marks.get? key = machine.oncePerDay.get? key

/-- The rest of `process_traced` neither reads nor changes the marks. -/
theorem trace_marks (machine : SignalStateMachine) (marks : OrdMap String Int) (event : AlertEvent)
    (now : Int) :
    ({ machine with oncePerDay := marks } : SignalStateMachine).trace event now =
      ((machine.trace event now).1, { (machine.trace event now).2 with oncePerDay := marks }) := by
  have denial : SignalStateMachine.budgetDenial { machine with oncePerDay := marks } event.level =
    machine.budgetDenial event.level := rfl
  have fired : SignalStateMachine.fired { machine with oncePerDay := marks } event now =
    machine.fired event now := rfl
  unfold SignalStateMachine.trace
  rw [denial, fired]
  split
  · rfl
  · rfl
  · cases event.level <;> rfl

theorem Agrees.trace (agrees : Agrees held machine other) (event : AlertEvent) (now : Int) :
    (other.trace event now).1 = (machine.trace event now).1 ∧
      Agrees held (machine.trace event now).2 (other.trace event now).2 := by
  obtain ⟨marks, rfl, same⟩ := agrees
  have kept : (machine.trace event now).2.oncePerDay = machine.oncePerDay :=
    congrArg (fun result => result.2.oncePerDay) (trace_marks machine machine.oncePerDay event now)
  rw [trace_marks]
  exact ⟨rfl, marks, rfl, kept ▸ same⟩

/-- A key without a mark of before the restart has the same mark in both machines. -/
theorem markOnce_agrees {event : AlertEvent}
    (unmarked : event.category = .limitDown → held.contains event.key = false)
    (same : ∀ key, held.contains key = false → marks.get? key = machine.oncePerDay.get? key)
    (today : Int) :
    markOnce marks event today = none ∧ markOnce machine.oncePerDay event today = none ∨
      ∃ new own, markOnce marks event today = some new ∧
        markOnce machine.oncePerDay event today = some own ∧
        ∀ key, held.contains key = false → new.get? key = own.get? key := by
  unfold markOnce
  split
  · rename_i down
    rw [same event.key (unmarked down)]
    split
    · exact Or.inl ⟨rfl, rfl⟩
    · refine Or.inr ⟨_, _, rfl, rfl, fun key outside => ?_⟩
      rw [OrdMap.get?_insert, OrdMap.get?_insert, same key outside]
  · exact Or.inr ⟨_, _, rfl, rfl, same⟩

theorem Agrees.call (agrees : Agrees held machine other) {call : Call}
    (unmarked : call.marked held = false) :
    (other.call zone call).1 = (machine.call zone call).1 ∧
      Agrees held (machine.call zone call).2 (other.call zone call).2 := by
  obtain ⟨marks, rfl, same⟩ := agrees
  cases call with
  | process now event =>
    simp only [SignalStateMachine.call, SignalStateMachine.processTraced]
    rcases markOnce_agrees (by simpa [Call.marked] using unmarked) same (zone.today now) with
      ⟨left, right⟩ | ⟨new, own, left, right, agree⟩
    · rw [left, right]
      exact ⟨rfl, marks, rfl, same⟩
    · rw [left, right]
      have marked : Agrees held { machine with oncePerDay := own }
        { machine with oncePerDay := new } := ⟨new, rfl, agree⟩
      obtain ⟨verdict, after⟩ := marked.trace event now
      exact ⟨congrArg Except.toOption verdict, after⟩
  | markResolved now code cat =>
    refine ⟨rfl, marks, ?_⟩
    simp only [SignalStateMachine.call, SignalStateMachine.markResolved]
    split <;> exact ⟨rfl, same⟩

theorem Agrees.verdicts (agrees : Agrees held machine other)
    (unmarked : ∀ call ∈ calls, call.marked held = false) :
    other.verdicts zone calls = machine.verdicts zone calls := by
  induction calls generalizing machine other with
  | nil => rfl
  | cons call calls ih =>
    rw [List.forall_mem_cons] at unmarked
    obtain ⟨verdict, after⟩ := agrees.call unmarked.1
    rw [SignalStateMachine.verdicts, SignalStateMachine.verdicts, verdict, ih after unmarked.2]

/-- When no later limit-down alert has a key that was marked before the restart, every call has the
verdict that it would have had without the restart, and the budgets are those of before.

Proof: a restart on the same day loses the marks and nothing else (`restarted_eq`); by induction on
the calls, machines that agree but for those marks give the same verdicts. -/
theorem restarted_verdicts (zone : Zone) (day restart important info : Int)
    (importantMax infoMax : Nat) (history later : List Call) (machine : SignalStateMachine)
    (ran : (SignalStateMachine.new important info importantMax infoMax).run zone history = machine)
    (shows : ∀ call ∈ history, zone.Shows day call.now) (sameDay : zone.today restart = day)
    (small : machine.Small) (unmarked : ∀ call ∈ later, call.marked machine.oncePerDay = false) :
    (machine.restarted zone restart).verdicts zone later = machine.verdicts zone later ∧
      (machine.restarted zone restart).budgetRemaining = machine.budgetRemaining := by
  have start : OfDay zone day (.new important info importantMax infoMax) :=
    ⟨fun _ _ found => (by cases found), fun _ => ⟨rfl, rfl⟩⟩
  have ofDay : OfDay zone day machine := ran ▸ start.run shows
  have agrees : Agrees machine.oncePerDay machine { machine with oncePerDay := OrdMap.empty } := by
    refine ⟨_, rfl, fun key absent => ?_⟩
    rw [OrdMap.get?_empty]
    exact (Option.isNone_iff_eq_none.mp (by simpa [OrdMap.contains] using absent)).symm
  rw [restarted_eq ofDay sameDay small]
  exact ⟨agrees.verdicts unmarked, rfl⟩

/-- Eight hours ahead of the universal time, all year round. -/
def sampleZone : Zone :=
  ⟨fun now => now + 28800, fun wall => some (wall - 28800)⟩

/-- An emergency of one stock. -/
def sampleAlert (now : Int) (category : AlertCategory) : Call :=
  .process now ⟨.emergency, category, "600519"⟩

/-- The new process pushes the limit-down alert that the old one drops. -/
theorem restart_repeats_limit_down :
    let machine := (SignalStateMachine.new 300 900 30 15).run sampleZone [sampleAlert 0 .limitDown]
    machine.verdicts sampleZone [sampleAlert 60 .limitDown] = [none] ∧
      (machine.restarted sampleZone 30).verdicts sampleZone [sampleAlert 60 .limitDown] =
        [some ⟨.emergency, .limitDown, "600519"⟩] := by
  decide +kernel

theorem restarted_verdicts_sample :
    let machine := (SignalStateMachine.new 300 900 30 15).run sampleZone [sampleAlert 0 .limitDown]
    (machine.restarted sampleZone 30).verdicts sampleZone [sampleAlert 60 .limitUp] =
        machine.verdicts sampleZone [sampleAlert 60 .limitUp] ∧
      (machine.restarted sampleZone 30).budgetRemaining = machine.budgetRemaining :=
  restarted_verdicts sampleZone 0 30 300 900 30 15 [sampleAlert 0 .limitDown]
    [sampleAlert 60 .limitUp] _ rfl (by decide) (by decide) (by decide +kernel) (by decide +kernel)

/-! ## The daily budgets -/

namespace SignalStateMachine

/-- The remaining budgets after a call: a push takes one from that of its level. -/
def Pays (machine next : SignalStateMachine) (push : Option AlertEvent) : Prop :=
  (if push.any (·.level = .important) then 1 else 0) + next.budgetRemaining.1 =
      machine.budgetRemaining.1 ∧
    (if push.any (·.level = .info) then 1 else 0) + next.budgetRemaining.2 =
      machine.budgetRemaining.2

variable (machine) (zone)

theorem trace_pays (event : AlertEvent) (now : Int) :
    machine.Pays (machine.trace event now).2 (machine.trace event now).1.toOption := by
  unfold trace
  split
  · simp [Pays, Except.toOption]
  · simp [Pays, Except.toOption]
  · rename_i allowed _
    cases level : event.level <;> simp [level, budgetDenial] at allowed <;>
      simp [Pays, Except.toOption, level, chargeBudget, budgetRemaining] <;> omega

theorem call_pays (call : Call) :
    machine.Pays (machine.call zone call).2 (machine.call zone call).1 := by
  cases call with
  | markResolved now code cat =>
    unfold SignalStateMachine.call markResolved
    dsimp only
    split <;> simp [Pays, budgetRemaining]
  | process now event =>
    unfold SignalStateMachine.call processTraced
    dsimp only
    split
    · simp [Pays, Except.toOption]
    · exact trace_pays _ event now

/-- In every run the budgets are used up by the alerts pushed, one for one, and never overdrawn.

Proof: by induction on the calls, each of which pays for its push. -/
theorem pushes_within_budget (calls : List Call) :
    (machine.verdicts zone calls).countP (·.any (·.level = .important)) +
        (machine.run zone calls).budgetRemaining.1 = machine.budgetRemaining.1 ∧
      (machine.verdicts zone calls).countP (·.any (·.level = .info)) +
        (machine.run zone calls).budgetRemaining.2 = machine.budgetRemaining.2 := by
  induction calls generalizing machine with
  | nil => simp [verdicts, run]
  | cons call calls ih =>
    obtain ⟨important, info⟩ := ih (machine.call zone call).2
    obtain ⟨paid, paidInfo⟩ := machine.call_pays zone call
    simp only [verdicts, run, List.foldl_cons, List.countP_cons] at important info ⊢
    omega

end SignalStateMachine

end StockAnalysis.Monitor
