import VexCore.Common.Command
import VexCore.Framework.BinarySearch
import VexCore.Framework.SortedMap

/-!
# Price levels and the two sides of a book

Each side is a tree map over prices, iterated in matching priority: asks from the lowest
price up, bids from the highest price down.
-/

namespace VexCore

open Framework

structure PriceLevel where
  totalVolume : Nat
  orders : List Order
deriving DecidableEq, Repr

namespace PriceLevel

def new : PriceLevel := ⟨0, []⟩

def addOrder (level : PriceLevel) (order : Order) : PriceLevel :=
  { totalVolume := wrappingAdd 64 level.totalVolume order.size
    orders := level.orders ++ [order] }

/-- The order with the given id leaves the queue and its data is reported in the command. -/
def removeOrder (level : PriceLevel) (orderId : Nat) (cmd : OrderCommand) :
    PriceLevel × OrderCommand :=
  match binarySearchByKey level.orders orderId Order.orderId with
  | some pos =>
      match level.orders[pos]? with
      | some removed =>
          ({ totalVolume := wrappingSub 64 level.totalVolume removed.size
             orders := level.orders.eraseIdx pos },
            { cmd with
              price := removed.price
              size := removed.size
              userId := removed.userId
              side := removed.side
              status := .cancelled
              originalSize := removed.originalSize })
      | none => (level, { cmd with status := .rejected })
  | none => (level, { cmd with status := .rejected })

end PriceLevel

/-- Which of two prices a side serves first. -/
def Side.Better : Side → Nat → Nat → Prop
  | ask, p, q => p < q
  | bid, p, q => q < p

instance Side.Better.decidable : (s : Side) → DecidableRel s.Better
  | ask => fun p q => inferInstanceAs (Decidable (p < q))
  | bid => fun p q => inferInstanceAs (Decidable (q < p))

instance Side.Better.strictTotal (s : Side) : IsStrictTotalOrder Nat s.Better where
  trichotomous p q := by cases s <;> simp only [Side.Better] <;> omega
  irrefl p := by cases s <;> simp only [Side.Better] <;> omega
  trans p q r := by cases s <;> simp only [Side.Better] <;> omega

abbrev BookSide (s : Side) := SortedMap Nat PriceLevel s.Better

namespace BookSide

variable {s : Side}

def getLevel (side : BookSide s) (price : Nat) : Option PriceLevel := side.find? price

/-- Write back a level obtained through `get_level_mut`. -/
def setLevel (side : BookSide s) (price : Nat) (level : PriceLevel) : BookSide s :=
  side.modify price fun _ => level

/-- `get_or_create_level` with the mutation made through the reference it returns. -/
def getOrCreateLevel (side : BookSide s) (price : Nat) (mutate : PriceLevel → PriceLevel) :
    BookSide s :=
  side.upsert price .new mutate

def removeLevelIfEmpty (side : BookSide s) (price : Nat) : BookSide s :=
  side.eraseIf price fun level => level.orders.isEmpty

def bestPrice (side : BookSide s) : Nat :=
  match side.entries.head? with
  | some (price, _) => price
  | none =>
      match s with
      | .ask => u64Max
      | .bid => 0

/-- All orders resting on a side, best price first and in queue order within a price. -/
def resting (side : BookSide s) : List Order := side.entries.flatMap fun e => e.2.orders

end BookSide

end VexCore
