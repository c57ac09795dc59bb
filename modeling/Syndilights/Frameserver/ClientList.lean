import Syndilights.Frameserver.Console

/-!
# The list of clients

`Server::console_printclients`: what is printed on the terminal, and where. A remainder by zero
ends the server.
-/

namespace Syndilights.Frameserver.Console

/-- `a%b`; by zero there is none. -/
def remainder (a b : ℤ) : Option ℤ := if b = 0 then none else some (a.tmod b)

/-- `%3d`. -/
def width3 (n : ℕ) : String := "".pushn ' ' (3 - (toString n).length) ++ toString n

/-- What one `mvprintw` is to print; `inverse` is the colour pair of the selected client. -/
structure Entry where
  row : ℤ
  col : ℤ
  text : String
  inverse : Bool

section
variable (rows cols : ℤ)

/-- `if(i > 0 && i%(rows-2)==0) offset += 32`. -/
def advance (i : ℕ) (offset : ℤ) : Option ℤ :=
  if i > 0 then
    (remainder i (rows - 2)).map fun r => if r = 0 then offset + 32 else offset
  else some offset

/-- `if( offset + 32 < cols )`: the client is printed. -/
def print (selected_buffer i : ℕ) (offset : ℤ) (buffer : Buffer) : Option (List Entry) :=
  if offset + 32 < cols then
    (remainder i (rows - 2)).map fun r =>
      [{ row := r + 2
         col := offset
         text :=
          "(" ++ width3 i ++ ")[" ++ width3 buffer.get.z.toNat ++ "] " ++ buffer.id ++ "\n"
         inverse := i = selected_buffer }]
  else some []

/-- The loop over the buffers, from the `i`-th on. -/
def printFrom (selected_buffer : ℕ) : ℕ → ℤ → List Buffer → Option (List Entry)
  | _, _, [] => some []
  | i, offset, buffer :: buffers =>
    (advance rows i offset).bind fun offset =>
      (print rows cols selected_buffer i offset buffer).bind fun entries =>
        (printFrom selected_buffer (i + 1) offset buffers).map (entries ++ ·)

/-- `Server::console_printclients` on a terminal of `rows` and `cols`. -/
def console_printclients (c : Console) : Option (List Entry) :=
  printFrom rows cols c.selected_buffer 0 0 c.server.buffers

end

end Syndilights.Frameserver.Console
