/-
Terminal input, after `devices/tty`: the line discipline, which turns bytes into
keys and edits a line with a cursor, and the buffer from which `dev_read` hands
out completed lines.
-/
import Mathlib.Logic.Basic
import Mathlib.Data.List.Basic

namespace Redwing.Tty

/-! ### Keys -/

inductive Key
  | eof
  | down
  | up
  | left
  | right
  | backspace
  | ctrlU
  | ctrlD
  | home
  | toEnd
  | ignored
  | normal (ch : UInt8)
deriving DecidableEq

/-- `Key::from_escape`: `[D`, `[C`, `[A`, `[B`, `[H` and `[F`. -/
def Key.fromEscape (first second : UInt8) : Key :=
  if first = 91 then
    if second = 68 then .left
    else if second = 67 then .right
    else if second = 65 then .up
    else if second = 66 then .down
    else if second = 72 then .home
    else if second = 70 then .toEnd
    else .ignored
  else .ignored

/-- The key of a byte outside an escape sequence; `ESC` is none. -/
def Key.ofByte (ch : UInt8) : Key :=
  if ch = 0 then .eof
  else if ch = 0x1B then .ignored
  else if ch = 0x8 ∨ ch = 0x7F then .backspace
  else if ch = 0x15 then .ctrlU
  else if ch = 0x04 then .ctrlD
  else .normal ch

/-- What the line discipline tells the screen to do. -/
inductive ScreenOp
  | write (byte : UInt8)
  | moveCursorLeft (count : Nat)
  | moveCursorRight (count : Nat)
  | insertWhitespaceAtCursor
  | deleteCharBeforeCursor
  | clearToEndOfLine
deriving DecidableEq

def isAsciiWhitespace (ch : UInt8) : Bool := ch == 32 || ch == 9 || ch == 10 || ch == 12 || ch == 13

/-! ### The line discipline -/

/-- `screen` holds what was sent to the text screen. -/
structure LineDiscipline where
  completedLines : List (List UInt8)
  lineBuffer : List UInt8
  edit : Nat
  readEscapeIdx : Option Nat
  escapeChars : List UInt8
  echo : Bool
  screen : List ScreenOp
deriving DecidableEq

namespace LineDiscipline

def new : LineDiscipline where
  completedLines := []
  lineBuffer := []
  edit := 0
  readEscapeIdx := none
  escapeChars := [0, 0]
  echo := true
  screen := []

variable (d : LineDiscipline)

def echoOp (op : ScreenOp) : LineDiscipline :=
  if d.echo then { d with screen := d.screen ++ [op] } else d

def completedLine : Option (List UInt8) × LineDiscipline :=
  match d.completedLines with
  | [] => (none, d)
  | line :: rest => (some line, { d with completedLines := rest })

def readKey (ch : UInt8) : Option (Key × LineDiscipline) :=
  match d.readEscapeIdx with
  | some idx =>
    if idx < d.escapeChars.length then
      let chars := d.escapeChars.set idx ch
      if idx + 1 = 2 then
        some (Key.fromEscape (chars.getD 0 0) (chars.getD 1 0),
          { d with escapeChars := chars, readEscapeIdx := none })
      else
        some (.ignored,
          { d with escapeChars := chars, readEscapeIdx := some (idx + 1) })
    else none
  | none =>
    if ch = 0x1B then some (.ignored, { d with readEscapeIdx := some 0 })
    else some (Key.ofByte ch, d)

/-- `insert_char_to_buffer`.  Inserting behind the end of the line panics. -/
def insertCharToBuffer (ch : UInt8) : Option LineDiscipline :=
  if ch = 10 ∨ ch = 0 then
    some ({ d with
      edit := 0
      lineBuffer := []
      completedLines := d.completedLines ++ [d.lineBuffer ++ [ch]] }.echoOp (.write ch))
  else if d.lineBuffer.length < d.edit then none
  else
    let d := { d with
      lineBuffer := d.lineBuffer.insertIdx d.edit ch
      edit := d.edit + 1 }
    let d :=
      if d.edit ≠ d.lineBuffer.length then d.echoOp .insertWhitespaceAtCursor
      else d
    some (d.echoOp (.write ch))

def deleteChar : LineDiscipline :=
  if d.edit = 0 then d
  else
    let d := d.echoOp .deleteCharBeforeCursor
    { d with lineBuffer := d.lineBuffer.eraseIdx (d.edit - 1), edit := d.edit - 1 }

def clearLine : LineDiscipline :=
  let d := (d.echoOp (.moveCursorLeft d.edit)).echoOp .clearToEndOfLine
  { d with lineBuffer := [], edit := 0 }

/-- What `input_byte` does with a key.  The subtraction for `End` panics if the
cursor is behind the end of the line. -/
def inputKey : Key → Option LineDiscipline
  | .ignored | .down | .up => some d
  | .backspace => some d.deleteChar
  | .ctrlU => some d.clearLine
  | .ctrlD => if d.lineBuffer = [] then d.insertCharToBuffer 0 else some d
  | .eof => d.insertCharToBuffer 0
  | .home =>
    let d := d.echoOp (.moveCursorLeft d.edit)
    some { d with edit := 0 }
  | .toEnd =>
    if d.echo ∧ d.lineBuffer.length < d.edit then none
    else
      let d := d.echoOp (.moveCursorRight (d.lineBuffer.length - d.edit))
      some { d with edit := d.lineBuffer.length }
  | .left =>
    if d.edit ≠ 0 then some ({ d with edit := d.edit - 1 }.echoOp (.moveCursorLeft 1))
    else some d
  | .right =>
    if d.edit < d.lineBuffer.length then
      some ({ d with edit := d.edit + 1 }.echoOp (.moveCursorRight 1))
    else some d
  | .normal ch =>
    if ch = 9 then
      if d.lineBuffer.all isAsciiWhitespace then d.insertCharToBuffer 32
      else some d
    else d.insertCharToBuffer (if ch = 13 then 10 else ch)

def inputByte (byte : UInt8) : Option (Bool × LineDiscipline) :=
  match d.readKey byte with
  | none => none
  | some (key, d') =>
    match d'.inputKey key with
    | none => none
    | some d'' => some (decide (d'.completedLines.length ≠ d''.completedLines.length), d'')

end LineDiscipline

/-! ### The device -/

structure TtyDevice where
  currentTgid : Nat
  lineDiscipline : LineDiscipline
  currentReadBuf : List UInt8
deriving DecidableEq

/-- How a round of the loop of `dev_read` ends.  A task that is not in the
foreground is stopped by a signal and gets `Interrupted`; with nothing to read
the task waits on the queue of the terminal. -/
inductive ReadOutcome
  | ok (bytes : List UInt8)
  | notForeground
  | wait
deriving DecidableEq

namespace TtyDevice

def new (tgid : Nat) : TtyDevice := ⟨tgid, .new, []⟩

def isSignalKey (byte : UInt8) : Bool := byte == 0x03 || byte == 0x1C

/-- `try_send_signal`; `found` tells whether there is a foreground task. -/
def trySendSignal (found : Bool) (byte : UInt8) : Bool := found && isSignalKey byte

def receiveLoop (found : Bool) (d : LineDiscipline) (newLine : Bool) :
    List UInt8 → Option (Bool × LineDiscipline)
  | [] => some (newLine, d)
  | byte :: rest =>
    if trySendSignal found byte then receiveLoop found d newLine rest
    else
      match d.inputByte byte with
      | none => none
      | some (completed, d') => receiveLoop found d' (newLine || completed) rest

/-- `receive_input` up to its `signal_all`, which is made if the result holds
`true`. -/
def receiveInput (s : TtyDevice) (found : Bool) (buf : List UInt8) : Option (Bool × TtyDevice) :=
  (receiveLoop found s.lineDiscipline false buf).map fun r =>
    (r.1, { s with lineDiscipline := r.2 })

/-- The second half of a round: hand out bytes of the buffer. -/
def takeBytes (s : TtyDevice) (len : Nat) : ReadOutcome × TtyDevice :=
  if s.currentReadBuf = [] then (.wait, s)
  else
    let bytesRead := min s.currentReadBuf.length len
    (.ok (s.currentReadBuf.take bytesRead),
      { s with currentReadBuf := s.currentReadBuf.drop bytesRead })

/-- One round of the loop of `dev_read` by task `tid` into a buffer of `len`
bytes.  A line of a single NUL is the end of the file. -/
def devRead (s : TtyDevice) (tid len : Nat) : ReadOutcome × TtyDevice :=
  if tid ≠ s.currentTgid then (.notForeground, s)
  else if s.currentReadBuf = [] then
    match s.lineDiscipline.completedLine with
    | (none, _) => s.takeBytes len
    | (some line, d) =>
      if line = [0] then (.ok [], { s with lineDiscipline := d })
      else
        { s with
          lineDiscipline := d
          currentReadBuf := s.currentReadBuf ++ line }.takeBytes len
  else s.takeBytes len

end TtyDevice
end Redwing.Tty
