import Syndilights.CellBlock

/-!
# Strings in the EEPROM

`serial2eeprom.ino`: the functions that write and read a string, with integers for `int`. The
reader's buffer is a block of cells, too; the addresses it reads and the indexes it writes are
kept in order.
-/

namespace Syndilights.Displayclient.Serial2eeprom

/-- A C string: its characters in front of the terminator. -/
structure CString where
  chars : List UInt8
  not_nul : 0 ∉ chars

/-- The bytes of the string in memory. -/
def CString.bytes (string : CString) : List UInt8 := string.chars ++ [0]

/-- `strlen`. -/
def CString.strlen (string : CString) : ℕ := string.chars.length

/-- The content of the EEPROM. -/
abbrev Cells := ℤ → UInt8

def EEPROM_MIN_ADDR : ℤ := 0
def EEPROM_MAX_ADDR : ℤ := 511

/-- `eeprom_is_addr_ok`. -/
def eeprom_is_addr_ok (addr : ℤ) : Bool := EEPROM_MIN_ADDR ≤ addr ∧ addr ≤ EEPROM_MAX_ADDR

/-! ## Writing -/

/-- `eeprom_write_bytes` of a whole array: what it returns, and the EEPROM. -/
def eeprom_write_bytes (startAddr : ℤ) (array : List UInt8) (cells : Cells) : Bool × Cells :=
  let numBytes : ℤ := array.length
  if !eeprom_is_addr_ok startAddr || !eeprom_is_addr_ok (startAddr + numBytes) then
    (false, cells)
  else (true, CellBlock.write cells startAddr array)

/-- `eeprom_write_string`. -/
def eeprom_write_string (addr : ℤ) (string : CString) (cells : Cells) : Bool × Cells :=
  eeprom_write_bytes addr string.bytes cells

/-! ## Reading -/

/-- The buffer, the addresses that were read, and the indexes that were written. -/
structure Reading where
  buffer : ℤ → UInt8
  reads : List ℤ
  writes : List ℤ

namespace Reading

/-- `buffer[i] = ch`. -/
def put (r : Reading) (i : ℤ) (ch : UInt8) : Reading :=
  { r with
    buffer := Function.update r.buffer i ch
    writes := r.writes ++ [i] }

/-- `ch = EEPROM.read(addr + i)` and `buffer[i] = ch`. -/
def copy (r : Reading) (cells : Cells) (addr i : ℤ) : Reading :=
  { r with reads := r.reads ++ [addr + i] }.put i (cells (addr + i))

end Reading

/-- The loop of `eeprom_read_string`: `ch`, `bytesRead` and the reading behind it. -/
def readLoop (cells : Cells) (addr bufSize : ℤ) (ch : UInt8) (bytesRead : ℤ) (r : Reading) :
    UInt8 × ℤ × Reading :=
  if ch ≠ 0 ∧ bytesRead < bufSize ∧ addr + bytesRead ≤ EEPROM_MAX_ADDR then
    readLoop cells addr bufSize (cells (addr + bytesRead)) (bytesRead + 1)
      (r.copy cells addr bytesRead)
  else (ch, bytesRead, r)
termination_by (bufSize - bytesRead).toNat
decreasing_by omega

/-- `eeprom_read_string`: what it returns, and the reading. -/
def eeprom_read_string (addr bufSize : ℤ) (cells : Cells) (buffer : ℤ → UInt8) :
    Bool × Reading :=
  let r : Reading := ⟨buffer, [], []⟩
  if !eeprom_is_addr_ok addr then (false, r)
  else if bufSize = 0 then (false, r)
  -- is there is room for the string terminator only
  else if bufSize = 1 then (true, r.put 0 0)
  else
    let (ch, bytesRead, r) := readLoop cells addr bufSize (cells (addr + 0)) 1 (r.copy cells addr 0)
    -- the string terminator may replace the last character
    if ch ≠ 0 ∧ bytesRead ≥ 1 then (true, r.put (bytesRead - 1) 0) else (true, r)

/-- `eeprom_read_bytes`: what it returns, and the array. -/
def eeprom_read_bytes (startAddr : ℤ) (array : ℤ → UInt8) (numBytes : ℤ) (cells : Cells) :
    Bool × (ℤ → UInt8) :=
  if !eeprom_is_addr_ok startAddr || !eeprom_is_addr_ok (startAddr + numBytes) then
    (false, array)
  else
    (true, (List.range numBytes.toNat).foldl
      (fun array (i : ℕ) => Function.update array (i : ℤ) (cells (startAddr + i))) array)

/-! ## The sketch -/

/-- `strncmp`. -/
def strncmp (s t : ℕ → UInt8) : ℕ → ℤ
  | 0 => 0
  | n + 1 =>
    if s 0 ≠ t 0 then (s 0).toNat - (t 0).toNat
    else if s 0 = 0 then 0
    else strncmp (fun i => s (i + 1)) (fun i => t (i + 1)) n

/-- `setup` after a reset: `buf`, and the EEPROM. -/
def setup (sID : CString) (cells : Cells) : (ℤ → UInt8) × Cells :=
  let buf := (eeprom_read_string 0 7 cells fun _ => 0).2.buffer
  -- only write if not yet written
  if strncmp (fun i => buf i) (fun i => sID.bytes.getD i 0) 6 ≠ 0 then
    (buf, (eeprom_write_string 0 sID cells).2)
  else (buf, cells)

end Syndilights.Displayclient.Serial2eeprom
