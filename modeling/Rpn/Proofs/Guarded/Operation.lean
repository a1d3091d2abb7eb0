/-!
# Operations that can go wrong

The library computes with numbers of any size and takes parts of lists whatever
their length.  A machine has words of a fixed size and stops when an index lies
outside a list.  The operations here are those of such a machine: each has a
guard, and a guard that fails ends the computation with a trap.

A guarded computation may also end with an error of its own, which is an answer
like any other.  A computation is free of traps if it is the image of one
without guards under `lift`.
-/

namespace Rpn
namespace Guarded

/-- What an operation can do wrong. -/
inductive Trap
  /-- The result of an addition or subtraction has no place in its word. -/
  | overflow
  /-- An index or a part lies outside its list. -/
  | outOfRange
  /-- A number is cut down to a word that does not hold it. -/
  | lossy
  /-- A subtraction that stops at zero has stopped there. -/
  | saturated
  /-- A loop does not move on. -/
  | stuck
  deriving DecidableEq

/-- How a guarded computation ends early. -/
inductive Halt (Error : Type)
  | trap (trap : Trap)
  | error (error : Error)

end Guarded

/-- A computation under guards. -/
abbrev Guarded (Error Value : Type) := Except (Guarded.Halt Error) Value

namespace Guarded

variable {Error Value : Type}

/-- A computation without guards.  It ends with a value or an error of its own
and never with a trap. -/
def lift (computation : Except Error Value) : Guarded Error Value :=
  computation.mapError Halt.error

/-- An error of the computation's own. -/
def fail (error : Error) : Guarded Error Value :=
  .error (.error error)

def trap (trap : Trap) : Guarded Error Value :=
  .error (.trap trap)

/-- The same computation with its own errors in other terms. -/
def rename {Other : Type} (name : Error -> Other) (computation : Guarded Error Value) :
    Guarded Other Value :=
  computation.mapError fun
    | .trap trap => .trap trap
    | .error error => .error (name error)

/-- Go on if the condition holds. -/
def guard (condition : Prop) [Decidable condition] (trap : Trap) : Guarded Error Unit :=
  if condition then .ok () else .error (.trap trap)

/-! ## Words -/

/-- One more than the greatest length or position, of 64 bits. -/
def sizeLimit : Nat := 18446744073709551616

/-- One more than the greatest signed number of 64 bits. -/
def longLimit : Int := 9223372036854775808

def addSize (first second : Nat) : Guarded Error Nat := do
  guard (first + second < sizeLimit) .overflow
  .ok (first + second)

def subSize (first second : Nat) : Guarded Error Nat := do
  guard (second ≤ first) .overflow
  .ok (first - second)

def addByte (first second : UInt8) : Guarded Error UInt8 := do
  guard (first.toNat + second.toNat < 256) .overflow
  .ok (first + second)

def subByte (first second : UInt8) : Guarded Error UInt8 := do
  guard (second ≤ first) .overflow
  .ok (first - second)

/-- The result of signed arithmetic of 64 bits. -/
def long (result : Int) : Guarded Error Int := do
  guard (-longLimit ≤ result ∧ result < longLimit) .overflow
  .ok result

/-- Cut a number down to a word that holds the numbers from `low` to `high`. -/
def narrow (low high value : Int) : Guarded Error Int := do
  guard (low ≤ value ∧ value ≤ high) .lossy
  .ok value

/-! ## Lists -/

variable {Item : Type}

/-- The item at an index. -/
def index (items : List Item) (place : Nat) : Guarded Error Item :=
  match items[place]? with
  | none => trap .outOfRange
  | some item => .ok item

/-- The part between two places. -/
def slice (items : List Item) (first last : Nat) : Guarded Error (List Item) := do
  guard (first ≤ last ∧ last ≤ items.length) .outOfRange
  .ok ((items.drop first).take (last - first))

/-- The part between two places, if there is one.  This operation has no
guard. -/
def slice? (items : List Item) (first last : Nat) : Option (List Item) :=
  if first ≤ last ∧ last ≤ items.length then some ((items.drop first).take (last - first))
  else none

/-- What lies in front of a place and what lies behind it. -/
def splitOff (items : List Item) (place : Nat) : Guarded Error (List Item × List Item) := do
  guard (place ≤ items.length) .outOfRange
  .ok (items.take place, items.drop place)

/-- The item at an index and the list without it. -/
def remove (items : List Item) (place : Nat) : Guarded Error (Item × List Item) :=
  match items[place]? with
  | none => trap .outOfRange
  | some item => .ok (item, items.eraseIdx place)

/-! ## Guards that hold -/

/-- What is done without guards meets no trap. -/
theorem lift_ne_trap (computation : Except Error Value) (reason : Trap) :
    lift computation ≠ trap reason := by
  cases computation with
  | error error => exact nofun
  | ok value => exact nofun

theorem lift_ok (value : Value) : lift (.ok value : Except Error Value) = .ok value :=
  rfl

theorem ok_bind {Other : Type} (value : Value) (rest : Value -> Guarded Error Other) :
    ((.ok value : Guarded Error Value) >>= rest) = rest value :=
  rfl

/-- A computation in two parts is free of traps if both parts are, the second
for the values that the first can have. -/
theorem bind_lift {Other : Type} {first : Except Error Value}
    {guarded : Value -> Guarded Error Other} {second : Value -> Except Error Other}
    (free : forall value, first = .ok value -> guarded value = lift (second value)) :
    (lift first >>= guarded) = lift (first >>= second) := by
  cases first with
  | error error => rfl
  | ok value => exact free value rfl

theorem rename_lift {Other : Type} (name : Error -> Other) (computation : Except Error Value) :
    rename name (lift computation) = lift (computation.mapError name) := by
  cases computation <;> rfl

variable {first second : Nat}

theorem addSize_eq (holds : first + second < sizeLimit) :
    (addSize first second : Guarded Error Nat) = .ok (first + second) := by
  rw [addSize, guard, if_pos holds]
  rfl

theorem subSize_eq (holds : second ≤ first) :
    (subSize first second : Guarded Error Nat) = .ok (first - second) := by
  rw [subSize, guard, if_pos holds]
  rfl

theorem long_eq {result : Int} (holds : -longLimit ≤ result ∧ result < longLimit) :
    (long result : Guarded Error Int) = .ok result := by
  rw [long, guard, if_pos holds]
  rfl

theorem addByte_eq {first second : UInt8} (holds : first.toNat + second.toNat < 256) :
    (addByte first second : Guarded Error UInt8) = .ok (first + second) := by
  rw [addByte, guard, if_pos holds]
  rfl

theorem subByte_eq {first second : UInt8} (holds : second ≤ first) :
    (subByte first second : Guarded Error UInt8) = .ok (first - second) := by
  rw [subByte, guard, if_pos holds]
  rfl

theorem narrow_eq {low high value : Int} (holds : low ≤ value ∧ value ≤ high) :
    (narrow low high value : Guarded Error Int) = .ok value := by
  rw [narrow, guard, if_pos holds]
  rfl

theorem slice_eq {items : List Item} (holds : first ≤ second ∧ second ≤ items.length) :
    (slice items first second : Guarded Error (List Item)) =
      .ok ((items.drop first).take (second - first)) := by
  rw [slice, guard, if_pos holds]
  rfl

/-- All that lies behind a place. -/
theorem slice_append (front behind : List Item) :
    (slice (front ++ behind) front.length (front ++ behind).length : Guarded Error (List Item)) =
      .ok behind := by
  have within : front.length ≤ (front ++ behind).length := by
    rw [List.length_append]
    exact Nat.le_add_right _ _
  rw [slice_eq ⟨within, Nat.le_refl _⟩, List.drop_left, List.length_append,
    Nat.add_sub_cancel_left, List.take_length]

theorem splitOff_append (front behind : List Item) :
    (splitOff (front ++ behind) front.length : Guarded Error (List Item × List Item)) =
      .ok (front, behind) := by
  have holds : front.length ≤ (front ++ behind).length := by
    rw [List.length_append]
    exact Nat.le_add_right _ _
  rw [splitOff, guard, if_pos holds, List.take_left, List.drop_left]
  rfl

end Guarded
end Rpn
