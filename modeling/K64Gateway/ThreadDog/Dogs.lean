import Mathlib

/-
  The watchdog of the threads, `threaddog/threaddog.c`: a table of dogs, each with the tick of its
  last feed and the seconds it may go without one.

  The counter of ticks has 32 bits and is read into signed words; the time of the model is the
  number of ticks since the counter was 0, without bound.
-/

namespace K64Gateway.ThreadDog

/-! ## Ticks -/

/-- A number as the signed word of 32 bits that holds it. -/
def toLong (n : Int) : Int := (n + 2147483648) % 4294967296 - 2147483648

/-- `THREAD_DOG_NUM` -/
abbrev threadDogNum : Nat := 50

/-- `threaddog_sec2tick`, with `RT_TICK_PER_SECOND` 1000. -/
def threaddogSec2tick (sec : Int) : Int := toLong (sec * 1000)

/-- `threaddog_tick` at a time. -/
def threaddogTick (now : Nat) : Int := toLong now

/-! ## Dogs -/

/-- `thddog_state_t` -/
inductive DogState where
  | running
  | suspend
  | die
  | exit
  deriving DecidableEq

/-- The part of `thddog_t` that the checks read; `data` is the thread, never `NULL`. -/
structure Dog where
  use : Bool
  isOver : Bool
  overSec : Fin 256
  tickFeed : Int
  state : DogState

abbrev Slot := Fin threadDogNum

/-- `thddogs_list` and the time, with the times of the last feeds, which the code does not keep. -/
structure Dogs where
  list : Slot → Dog
  now : Nat
  fed : Slot → Nat

/-- `threaddog_init` -/
def Dogs.init (now : Nat) : Dogs where
  list _ := ⟨false, false, 0, 0, .running⟩
  now := now
  fed _ := 0

/-- A slot gets a dog that is fed now. -/
def Dogs.feed (s : Dogs) (i : Slot) (dog : Dog) : Dogs where
  list := Function.update s.list i { dog with tickFeed := threaddogTick s.now }
  now := s.now
  fed := Function.update s.fed i s.now

/-- `threaddog_register` -/
def threaddogRegister (overSec : Int) (s : Dogs) : Dogs :=
  match (List.finRange threadDogNum).find? fun i => !(s.list i).use with
  | some i => s.feed i ⟨true, false, ⟨(overSec % 256).toNat, by omega⟩, 0, .running⟩
  | none => s

/-- `threaddog_unregister` -/
def threaddogUnregister (i : Slot) (s : Dogs) : Dogs :=
  if (s.list i).use then
    { s with list := Function.update s.list i { s.list i with use := false } }
  else s

/-- The macros over `threaddog_update`. -/
inductive Update where
  | feed
  | suspend
  | resume
  | exit

def Update.state : Update → DogState
  | .feed | .resume => .running
  | .suspend => .suspend
  | .exit => .exit

/-- `threaddog_update` -/
def threaddogUpdate (i : Slot) (state : DogState) (s : Dogs) : Dogs :=
  if (s.list i).use && !(s.list i).isOver then s.feed i { s.list i with state := state } else s

/-- A dog that `threaddog_check` looks at. -/
def Dog.Checked (dog : Dog) : Prop :=
  dog.use = true ∧ dog.isOver = false ∧ dog.state ≠ .suspend ∧ dog.state ≠ .exit

instance (dog : Dog) : Decidable dog.Checked := inferInstanceAs (Decidable (_ ∧ _ ∧ _ ∧ _))

def Dog.overTick (dog : Dog) : Int := threaddogSec2tick dog.overSec.val

/-- The feed as the check takes it: 0 after an apparent wrap of the counter. -/
def Dog.wrapFeed (tick : Int) (dog : Dog) : Dog :=
  { dog with tickFeed := if tick < dog.tickFeed then 0 else dog.tickFeed }

/-- The test for a dog that is over. -/
def Dog.Over (tick : Int) (dog : Dog) : Prop :=
  dog.overTick ≤ tick ∧ dog.overTick < toLong (tick - (dog.wrapFeed tick).tickFeed)

instance (tick : Int) (dog : Dog) : Decidable (dog.Over tick) :=
  inferInstanceAs (Decidable (_ ∧ _))

/-- The loop of `threaddog_check`. -/
def checkLoop (tick : Int) : List Slot → (Slot → Dog) → Option Slot × (Slot → Dog)
  | [], list => (none, list)
  | i :: rest, list =>
    if (list i).Checked then
      if (list i).Over tick then
        (some i, Function.update list i
          { (list i).wrapFeed tick with
            isOver := true
            state := .die })
      else checkLoop tick rest (Function.update list i ((list i).wrapFeed tick))
    else checkLoop tick rest list

/-- `threaddog_check` -/
def threaddogCheck (s : Dogs) : Option Slot × Dogs :=
  let (ret, list) := checkLoop (threaddogTick s.now) (List.finRange threadDogNum) s.list
  (ret, { s with list := list })

/-! ## Runs -/

inductive Event where
  | register (overSec : Int)
  | unregister (i : Slot)
  | update (i : Slot) (u : Update)
  | check
  | advance (ticks : Nat)

def step (s : Dogs) : Event → Dogs
  | .register overSec => threaddogRegister overSec s
  | .unregister i => threaddogUnregister i s
  | .update i u => threaddogUpdate i u.state s
  | .check => (threaddogCheck s).2
  | .advance ticks => { s with now := s.now + ticks }

/-- A property of the state before every check of a run. -/
def AtChecks (p : Dogs → Prop) : Dogs → List Event → Prop
  | _, [] => True
  | s, .check :: run => p s ∧ AtChecks p (step s .check) run
  | s, e :: run => AtChecks p (step s e) run

/-- There is a check at least once every `2 ^ 20` ticks; the last one was at `last`. -/
def Frequent : Nat → Dogs → List Event → Prop
  | _, _, [] => True
  | _, s, .check :: run => Frequent s.now (step s .check) run
  | last, s, .advance ticks :: run =>
    s.now + ticks ≤ last + 1048576 ∧ Frequent last (step s (.advance ticks)) run
  | last, s, e :: run => Frequent last (step s e) run

/-- A dog that is registered, running and not yet reported. -/
def Dog.Live (dog : Dog) : Prop := dog.use = true ∧ dog.isOver = false ∧ dog.state = .running

/-- A live dog that has not been fed for more than its seconds. -/
def Overdue (s : Dogs) (i : Slot) : Prop :=
  (s.list i).Live ∧ (s.fed i : Int) + (s.list i).overSec.val * 1000 < s.now

/-- What a check is for: `NULL` only if no dog is overdue, and a dog only if it is overdue. -/
structure CheckRight (s : Dogs) : Prop where
  null : (threaddogCheck s).1 = none → ∀ i, ¬ Overdue s i
  dog : ∀ i, (threaddogCheck s).1 = some i → Overdue s i

/-- If a dog is overdue, then one whose time fits into the counter's value, and which has been fed
    in the last `2 ^ 31` ticks. -/
def InRange (s : Dogs) : Prop :=
  (∃ i, Overdue s i) → ∃ i, Overdue s i ∧
    ((s.list i).overSec.val * 1000 : Int) ≤ threaddogTick s.now ∧ s.now < s.fed i + 2147483648

end K64Gateway.ThreadDog
