import Syndilights.ActionSystem
import Syndilights.V2.FrameSync

/-!
# The pace of the frames

`loop` of `VideoDisplay.ino` in time: when it shows a frame, and what it does to the variable
that counts from one frame sync to the next. Times are microseconds since power-up, and the
variable is checked in each of them.
-/

namespace Syndilights.V2.VideoDisplay

/-! ## The counter -/

/-- `micros()`. -/
def micros (time : ℕ) : UInt32 := UInt32.ofNat time

/-- `elapsedMicros`: where it counts from. -/
structure ElapsedMicros where
  us : UInt32
deriving DecidableEq

namespace ElapsedMicros

/-- `elapsed = 0`. -/
def zero (time : ℕ) : ElapsedMicros := ⟨micros time⟩

/-- What it reads. -/
def read (elapsed : ElapsedMicros) (time : ℕ) : UInt32 := micros time - elapsed.us

/-- `elapsed -= val`. -/
def sub (elapsed : ElapsedMicros) (val : UInt32) : ElapsedMicros := ⟨elapsed.us + val⟩

lemma read_succ {elapsed : ElapsedMicros} {usec : UInt32} {time : ℕ}
    (h : elapsed.read time < usec) :
    (elapsed.read (time + 1)).toNat = (elapsed.read time).toNat + 1 := by
  have hlt := usec.toNat_lt
  have hread : elapsed.read (time + 1) = elapsed.read time + 1 := by
    rw [read, read, micros, micros, UInt32.ofNat_add]
    show UInt32.ofNat time + 1 - elapsed.us = UInt32.ofNat time - elapsed.us + 1
    grind
  rw [UInt32.lt_iff_toNat_lt] at h
  rw [hread, UInt32.toNat_add, UInt32.toNat_one, Nat.mod_eq_of_lt (by omega)]

/-- `while (elapsed < usecUntilFrameSync) ;`: the time when it ends. -/
def wait (elapsed : ElapsedMicros) (usecUntilFrameSync : UInt32) (time : ℕ) : ℕ :=
  if elapsed.read time < usecUntilFrameSync then wait elapsed usecUntilFrameSync (time + 1)
  else time
termination_by usecUntilFrameSync.toNat - (elapsed.read time).toNat
decreasing_by
  rename_i h
  have hread := read_succ h
  rw [UInt32.lt_iff_toNat_lt] at h
  omega

end ElapsedMicros

/-! ## The board -/

/-- One iteration of `loop` as it happens: when it starts, what arrives in time, when all of it
is read, and when the sync of another board comes, if one comes in time. -/
structure Iteration where
  started : ℕ
  serial : List UInt8
  received : ℕ
  sync : Option ℕ

/-- The counter, the time, and the frames that were shown, with their times. -/
structure Board where
  elapsedUsecSinceLastFrameSync : ElapsedMicros
  now : ℕ
  shown : List (ℕ × List UInt8)
deriving DecidableEq

namespace Board

/-- After power-up. -/
def boot : Board := ⟨.zero 0, 0, []⟩

/-- `leds.show()`. -/
def showFrame (b : Board) (time : ℕ) (drawingMemory : List UInt8) : Board :=
  { b with now := time, shown := b.shown ++ [(time, drawingMemory)] }

/-- What is done with a command. -/
def perform (b : Board) (it : Iteration) : Command → Board
  | .master usecUntilFrameSync drawingMemory =>
    let taken := micros it.received - micros it.started
    let usec := UInt32.ofNat usecUntilFrameSync
    let usToWaitBeforeSyncOutput := if taken < usec then usec - taken else 100
    b.showFrame (it.received + usToWaitBeforeSyncOutput.toNat) drawingMemory
  | .paced usecUntilFrameSync drawingMemory =>
    let usec := UInt32.ofNat usecUntilFrameSync
    let time := b.elapsedUsecSinceLastFrameSync.wait usec it.received
    let b := b.showFrame time drawingMemory
    { b with
      elapsedUsecSinceLastFrameSync := b.elapsedUsecSinceLastFrameSync.sub usec }
  | .slave drawingMemory => it.sync.elim { b with now := it.received } (b.showFrame · drawingMemory)
  | .reset =>
    { b with now := it.received, elapsedUsecSinceLastFrameSync := .zero it.received }
  | .query => { b with now := it.received }
  | .nothing => { b with now := it.received }

/-- One iteration, with a drawing memory of so many bytes. It starts when the one before it has
ended, and a sync is waited for when the frame is there. -/
def step (sizeof : ℕ) (b : Board) (it : Iteration) : Option Board :=
  if b.now ≤ it.started ∧ it.started ≤ it.received ∧ it.received ≤ it.sync.getD it.received then
    some (b.perform it (loop sizeof it.serial).1)
  else none

end Board

end Syndilights.V2.VideoDisplay
