import Syndilights.ActionSystem
import Syndilights.Frameserver.Server

/-!
# The console of the frameserver

`Server::input`: the keys select a client by its index in `buffers`. `get_size` holds the
lock while it reads the size only, so the comparison with it and the increment that the
comparison guards are two steps.
-/

namespace Syndilights.Frameserver

/-- `modes`. -/
inductive Modes
  | FRAME
  | FRAME_VALUES
  | CLIENTS
deriving DecidableEq

/-- What `getch` returns, as far as `Server::input` tells it apart. -/
inductive Key
  | KEY_F2
  | KEY_F3
  | KEY_F4
  | KEY_DOWN
  | KEY_UP
  | other (c : ℤ)

/-- `Server::get_size`. -/
def Server.get_size (s : Server) : ℕ := s.buffers.length

/-- The server with the members of its console. `counted` says that the input thread has
compared the selection with the size and increments it next. -/
structure Console where
  server : Server
  selected_buffer : ℕ
  mode : Modes
  console_input : ℤ
  counted : Bool

namespace Console

/-- The constructor; `console_input` is not initialised. -/
def init (raw : Uninit) (console_input : ℤ) : Console where
  server := Server.init raw
  selected_buffer := 0
  mode := .FRAME
  console_input := console_input
  counted := false

/-- One key in `Server::input`, up to the increment. -/
def input (c : Console) : Key → Console
  | .KEY_F2 => { c with mode := .FRAME }
  | .KEY_F3 => { c with mode := .FRAME_VALUES }
  | .KEY_F4 => { c with mode := .CLIENTS }
  | .KEY_DOWN =>
    if c.mode = .CLIENTS ∧ c.selected_buffer + 1 < c.server.get_size then
      { c with counted := true }
    else c
  | .KEY_UP =>
    if c.mode = .CLIENTS ∧ (c.selected_buffer : ℤ) - 1 ≥ 0 then
      { c with selected_buffer := c.selected_buffer - 1 }
    else c
  | .other k => { c with console_input := k }

/-- A step of the input thread, or one iteration of `listen` or `expire`. -/
inductive Action
  | key (k : Key)
  | increment
  | listen (stale : Server.Stale) (recv : Server.Recv) (now : ℤ)
  | expire (now : ℤ)

/-- The state after one step. The input thread waits for a key, unless it increments next. -/
def step (c : Console) : Action → Option Console
  | .key k => if c.counted then none else some (c.input k)
  | .increment =>
    if c.counted then
      some { c with selected_buffer := c.selected_buffer + 1, counted := false }
    else none
  | .listen stale recv now => some { c with server := (Server.listen stale recv now c.server).1 }
  | .expire now => some { c with server := Server.expire now c.server }

end Console

end Syndilights.Frameserver
