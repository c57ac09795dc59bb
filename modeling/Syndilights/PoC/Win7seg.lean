import Syndilights.PolledTimer

/-!
# The building on a matrix panel

`win7seg.ino`: the two machines of the demo, one for the 7 segment displays and one for the
windows, as far as they decide when to draw and what comes next. An `int` has 16 bits where the
clock is concerned.
-/

namespace Syndilights.PoC.Win7seg

/-- `myclock=millis()`: the lower half of the milliseconds since power-up. -/
def myclock (time : ℕ) : Int16 := (UInt32.ofNat time).toUInt16.toInt16

/-! ## The 7 segment displays -/

/-- The variables of the display machine. -/
structure Display where
  state7 : ℕ
  j : ℤ
  i : ℕ
  nextdclock : Int16

def scrolltext : String :=
  "    WELCOME ... . . .   S Y N 2 C A T   IN   COLLABORATION   WITH  G R A F F I T I  " ++
  "R E S E A R C H   L A B   L U X E M B O U R G    PRESENTS     S Y N 2 L I G H T S        "

def pats : List ℤ :=
  [0, 5, 0, 1, 1, 5, 1, 1, 2, 5, 2, 1, 3, 5, 3, 1,
   3, 2, 3, 4, 2, 2, 2, 4, 1, 2, 1, 4, 0, 2, 0, 4,
   -1, -1]

/-- `if(myclock > nextdclock)`: the machine, and the period of its new deadline if it fires. -/
def whenDue (clock : Int16) (period : ℕ) (body : Display → Display) (s : Display) :
    Display × Option ℕ :=
  if clock > s.nextdclock then
    (body { s with nextdclock := clock + Int16.ofNat period }, some period)
  else (s, none)

def countDown (s : Display) : Display :=
  let s := { s with j := s.j - 1 }
  if s.j < 0 then { s with state7 := s.state7 + 1 } else s

def scroll (s : Display) : Display :=
  let s' := if scrolltext.toList[s.i + 5]? = none then { s with state7 := s.state7 + 1 } else s
  { s' with i := s'.i + 1 }

def playPattern (s : Display) : Display :=
  let s := { s with i := s.i + 2 }
  if pats[s.i]? = some (-1) then { s with state7 := s.state7 + 1 } else s

/-- `switch(state7)`. -/
def displays (clock : Int16) (s : Display) : Display × Option ℕ :=
  match s.state7 with
  | 0 => whenDue clock 5 countDown { s with j := 2560, state7 := s.state7 + 1 }
  | 1 => whenDue clock 5 countDown s
  | 2 => whenDue clock 200 scroll { s with state7 := s.state7 + 1, i := 0 }
  | 3 => whenDue clock 200 scroll s
  | 4 => whenDue clock 200 playPattern { s with i := 0, state7 := s.state7 + 1 }
  | 5 => whenDue clock 200 playPattern s
  | _ => ({ s with state7 := 0 }, none)

/-! ## The windows -/

/-- The variables of the windows machine. -/
structure Windows where
  patternSwitcher : ℕ
  x : ℤ
  y : ℤ
  pos : ℕ
  nextwclock : Int16

def path : List ℤ :=
  [2, 7, 12, 17, 18, 19, 20, 15, 10, 5, 4, 3, 8, 13, 14, 9, 8, 13, 14, 15, 10, 5, 4, 3, 0]

/-- Line by line, from top to bottom. -/
def scan (s : Windows) : Windows :=
  if s.x > 2 then
    if s.y > 3 then { s with x := 0, y := 1, patternSwitcher := s.patternSwitcher + 1 }
    else { s with x := 0, y := s.y + 1 }
  else { s with x := s.x + 1 }

/-- A pixel around a path. -/
def walk (s : Windows) : Windows :=
  let s := { s with pos := s.pos + 1 }
  if path[s.pos]? = some 0 then { s with pos := 0, patternSwitcher := s.patternSwitcher + 1 }
  else s

/-- A line from top to bottom. -/
def wipe (s : Windows) : Windows :=
  if s.y > 3 then { s with y := 1, patternSwitcher := s.patternSwitcher + 1 }
  else { s with y := s.y + 1 }

/-- `switch(patternSwitcher)`. -/
def pattern (s : Windows) : Windows :=
  match s.patternSwitcher with
  | 0 | 1 | 2 => scan s
  | 3 | 4 => walk s
  | 5 => wipe { s with x := 0, y := 1, patternSwitcher := s.patternSwitcher + 1 }
  | 6 | 7 | 8 => wipe s
  | 9 => { s with x := 0, y := 1, patternSwitcher := 0 }
  | _ => { s with patternSwitcher := 0 }

/-- `if(myclock>nextwclock)`. -/
def windows (clock : Int16) (s : Windows) : Windows × Option ℕ :=
  if clock > s.nextwclock then
    (pattern { s with nextwclock := clock + Int16.ofNat 120 }, some 120)
  else (s, none)

/-! ## The loop -/

structure State where
  display : Display
  windows : Windows

/-- The variables before the first `loop`. -/
def boot : State := ⟨⟨0, 0, 0, 0⟩, ⟨0, 0, 1, 0, 0⟩⟩

/-- `loop`. -/
def loop (time : ℕ) (s : State) : State :=
  ⟨(displays (myclock time) s.display).1, (windows (myclock time) s.windows).1⟩

/-! ## Runs -/

section
variable (time : ℕ → ℕ)

/-- The state at the `k`-th call of `loop`, which reads the clock at `time k`. -/
def stateAt : ℕ → State
  | 0 => boot
  | k + 1 => loop (time k) (stateAt k)

/-- The period that the display machine schedules in the `k`-th call, if it fires. -/
def displayFires (k : ℕ) : Option ℕ := (displays (myclock (time k)) (stateAt time k).display).2

/-- The period that the windows machine schedules in the `k`-th call, if it fires. -/
def windowsFires (k : ℕ) : Option ℕ := (windows (myclock (time k)) (stateAt time k).windows).2

end

end Syndilights.PoC.Win7seg
