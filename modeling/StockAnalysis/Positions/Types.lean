import Mathlib.Data.Prod.Lex
import StockAnalysis.Ledger.Types

/-!
# Stored fills

Positions are rebuilt from the stored fills of paper trades: rows of text, whole quantities and
doubles, ordered by their local time and identity. Double arithmetic, the text of times and the
rates of fees are a host's.
-/

namespace StockAnalysis.Positions

/-- `chrono::NaiveDateTime`: a date and a place in the day. -/
structure NaiveDateTime where
  date : Day
  time : Nat
deriving DecidableEq

/-- Fills are ordered by time, then identity. -/
abbrev FillOrder := Int ×ₗ Nat ×ₗ Int

def fillOrder (occurredAt : NaiveDateTime) (id : Int) : FillOrder :=
  toLex (occurredAt.date, toLex (occurredAt.time, id))

theorem date_le_of_fillOrder {first second : NaiveDateTime} {id other : Int}
    (before : fillOrder first id < fillOrder second other) : first.date ≤ second.date := by
  rcases Prod.Lex.lt_iff.mp before with earlier | ⟨same, _⟩
  · exact le_of_lt earlier
  · exact le_of_eq same

/-- What the source takes from the machine and its libraries. -/
structure Host where
  multiply : F64 → F64 → F64
  add : F64 → F64 → F64
  subtract : F64 → F64 → F64
  divide : F64 → F64 → F64
  ofQuantity : Nat → F64
  isFinite : F64 → Bool
  less : F64 → F64 → Bool
  /-- `f64::total_cmp`, as an order. -/
  totalOrder : F64 → F64 → Bool
  /-- `fill_adverse_cost(FillSide::Buy, notional)`. -/
  buyAdverseCost : F64 → F64
  /-- `NaiveDateTime::parse_from_str` with the format of stored times, or chrono's error. -/
  parseFromStr : String → Except String NaiveDateTime
  /-- A time without its fraction, in the format of stored times. -/
  wholeSeconds : NaiveDateTime → String
  dateText : Day → String
  timeText : NaiveDateTime → String
  floatText : F64 → String
  /-- The `{:?}` form of a text. -/
  quoted : String → String

/-- A price a fill may have. -/
def Host.validPrice (host : Host) (price : F64) : Bool :=
  host.isFinite price && host.less 0 price

def u32Limit : Nat := 2 ^ 32

def u64Limit : Nat := 2 ^ 64

/-- A positive quantity of whole board lots that fits the integer type. -/
def boardQuantity (limit : Nat) (quantity : Int) : Option Nat :=
  if 0 < quantity ∧ quantity < limit ∧ quantity % 100 = 0 then some quantity.toNat else none

theorem boardQuantity_eq_some {limit : Nat} {quantity : Int} {shares : Nat} :
    boardQuantity limit quantity = some shares ↔
      (0 < quantity ∧ quantity < limit ∧ quantity % 100 = 0) ∧ shares = quantity.toNat := by
  unfold boardQuantity
  split
  · rename_i holds
    rw [Option.some.injEq, eq_comm]
    exact (and_iff_right holds).symm
  · rename_i fails
    constructor
    · rintro ⟨⟩
    · rintro ⟨holds, _⟩
      exact absurd holds fails

/-- The refusals of `paper_lot_ledger`. -/
inductive PositionReason where
  | quantity
  | sellableQuantity
  | sellableCost
  | notional
  | fee
  | lockedQuantity
deriving DecidableEq

def PositionReason.text : PositionReason → String
  | .quantity => "quantity overflow"
  | .sellableQuantity => "sellable quantity overflow"
  | .sellableCost => "sellable cost invalid"
  | .notional => "original buy notional invalid"
  | .fee => "allocated buy fee invalid"
  | .lockedQuantity => "locked quantity overflow"

structure PaperFill where
  id : Int
  code : String
  name : String
  direction : String
  fillPrice : Option F64
  quantity : Int
  occurredAt : NaiveDateTime
deriving DecidableEq

inductive FifoText where
  | timestamp (fillId : Int) (error : String)
  | canonical (fillId : Int) (raw : String)
  | identity (fill : PaperFill)
  | duplicate (id : Int)
  | order (fill : PaperFill)
  | future (fill : PaperFill) (asOfDate : Day)
  | price (id : Int)
  | quantity (fill : PaperFill)
  | oversell (fill : PaperFill) (remaining : Nat)
  | tPlusOne (fill : PaperFill) (bought : Day)
  | direction (id : Int) (other : String)
  | position (code : String) (reason : PositionReason)
  | futureLot (code : String) (boughtDate asOfDate : Day)
  | average (code : String) (value : F64)
deriving DecidableEq

def FifoText.write (host : Host) : FifoText → String
  | .timestamp fillId error =>
    "paper fill id=" ++ toString fillId ++ " timestamp invalid: " ++ error
  | .canonical fillId raw =>
    "paper fill id=" ++ toString fillId ++
      " timestamp invalid: expected YYYY-MM-DD HH:MM:SS[.fraction], got " ++ host.quoted raw
  | .identity fill =>
    "paper fill identity invalid: id=" ++ toString fill.id ++ " code=" ++ host.quoted fill.code ++
      " name=" ++ host.quoted fill.name
  | .duplicate id => "paper fill duplicate identity: id=" ++ toString id
  | .order fill =>
    "paper fills out of order at id=" ++ toString fill.id ++ " occurred_at=" ++
      host.timeText fill.occurredAt
  | .future fill asOfDate =>
    "paper fill id=" ++ toString fill.id ++ " has future fill date " ++
      host.dateText fill.occurredAt.date ++ " after " ++ host.dateText asOfDate
  | .price id => "paper fill id=" ++ toString id ++ " fill_price missing/invalid"
  | .quantity fill =>
    "paper fill id=" ++ toString fill.id ++ " quantity invalid: " ++ toString fill.quantity
  | .oversell fill remaining =>
    "paper sell id=" ++ toString fill.id ++ " oversells " ++ fill.code ++ " by " ++
      toString remaining ++ " shares"
  | .tPlusOne fill bought =>
    "paper sell id=" ++ toString fill.id ++ " violates A-share T+1 for " ++ fill.code ++
      ": buy_date=" ++ host.dateText bought ++ " sell_date=" ++
      host.dateText fill.occurredAt.date
  | .direction id other =>
    "paper fill id=" ++ toString id ++ " direction invalid: " ++ host.quoted other
  | .position code reason => "paper position " ++ code ++ " " ++ reason.text
  | .futureLot code boughtDate asOfDate =>
    "paper position " ++ code ++ " contains future fill date " ++ host.dateText boughtDate ++
      " after " ++ host.dateText asOfDate
  | .average code value =>
    "paper position " ++ code ++ " sellable average price invalid: " ++ host.floatText value

/-- A fraction of up to nine digits. -/
def isFraction (digits : List Char) : Bool :=
  !digits.isEmpty && decide (digits.length ≤ 9) && digits.all fun c => '0' ≤ c && c ≤ '9'

/-- `parse_paper_fill_timestamp`: the time of a stored fill, in its one accepted spelling. -/
def parsePaperFillTimestamp (host : Host) (fillId : Int) (raw : String) :
    Except FifoText NaiveDateTime := do
  let parsed ← (host.parseFromStr raw).mapError (FifoText.timestamp fillId)
  let whole := host.wholeSeconds parsed
  let dotted := whole ++ "."
  require (raw = whole ∨ startsWith raw dotted = true ∧
    isFraction (raw.toList.drop dotted.length) = true) (.canonical fillId raw)
  pure parsed

/-! ## A concrete host -/

/-- Whole numbers for doubles, and one stroke per day for a time. -/
def sampleHost : Host where
  multiply := (· * ·)
  add := (· + ·)
  subtract := (· - ·)
  divide := (· / ·)
  ofQuantity := UInt64.ofNat
  isFinite := fun _ => true
  less := fun a b => decide (a < b)
  totalOrder := fun a b => decide (a ≤ b)
  buyAdverseCost := fun _ => 5
  parseFromStr := fun raw => .ok ⟨raw.length, 0⟩
  wholeSeconds := fun time => String.ofList (List.replicate time.date.toNat '|')
  dateText := fun date => toString date
  timeText := fun time => toString time.date
  floatText := fun value => toString value
  quoted := fun text => text

/-- A fill of 100 shares per lot at ten. -/
def sampleFill (id : Int) (direction : String) (lots : Int) (date : Day) : PaperFill :=
  ⟨id, "x", "X", direction, some 10, 100 * lots, ⟨date, 0⟩⟩

end StockAnalysis.Positions
