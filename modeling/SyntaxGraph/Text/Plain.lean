/-!
# Plain text

A text may hold sequences that steer a terminal and other control characters.  Plain
text is what is left without them: the printed characters and the white space.

A sequence begins with the escape character, and the characters behind that tell how
far it goes.  White space inside a sequence is kept, and what follows it runs on as
text up to the next control character, although the sequence has not ended.
-/

set_option autoImplicit false

namespace SyntaxGraph.Text

/-- How far a sequence for a terminal has been read. -/
inductive Sequence
  | outside
  /-- Behind the escape character. -/
  | begun
  /-- Behind the escape character and a mark that announces one more character. -/
  | marked
  /-- In the numbers of a control sequence, which a letter ends. -/
  | control
  /-- In a command to the system, which the bell ends. -/
  | command
  /-- Behind the opening of a text for the device, in front of which numbers and marks
  may stand. -/
  | device
  /-- In the numbers in front of a text for the device. -/
  | deviceNumbers
  /-- In the marks in front of a text for the device. -/
  | deviceMarks
  /-- In a text that is not for the screen. -/
  | passed
deriving DecidableEq

def isBetween (first last c : Char) : Bool := first ≤ c && c ≤ last

/-- Whether a byte behind the first one of the character's UTF-8 form is the one that
ends a text for the device. -/
def holdsTerminator (c : Char) : Bool :=
  let n := c.toNat
  (0x80 ≤ n && n % 64 = 0x1c)
    || (0x800 ≤ n && n / 64 % 64 = 0x1c)
    || (0x10000 ≤ n && n / 4096 % 64 = 0x1c)

/-- White space that moves to another place on the screen. -/
def isLayout (c : Char) : Bool := c = '\t' || c = '\n' || c = '\x0c' || c = '\r'

namespace Sequence

/-- Read one more character. -/
def next (sequence : Sequence) (c : Char) : Sequence :=
  if c = '\x1b' then .begun
  else if c = '\x18' || c = '\x1a' then .outside
  else match sequence with
    | .outside => .outside
    | .begun =>
      if isBetween ' ' '/' c then .marked
      else if c = '[' then .control
      else if c = ']' then .command
      else if c = 'P' then .device
      else if c = 'X' || c = '^' || c = '_' then .passed
      else if isBetween '0' '~' c then .outside
      else .begun
    | .marked => if isBetween '0' '~' c then .outside else .marked
    | .control => if isBetween '@' '~' c then .outside else .control
    | .command => if c = '\x07' then .outside else .command
    | .device =>
      if isBetween ' ' '/' c then .deviceMarks
      else if isBetween '0' '?' c then .deviceNumbers
      else if isBetween '@' '~' c then .passed
      else .device
    | .deviceNumbers =>
      if isBetween ' ' '/' c then .deviceMarks
      else if isBetween '<' '~' c then .passed
      else .deviceNumbers
    | .deviceMarks => if isBetween '0' '~' c then .passed else .deviceMarks
    | .passed => if holdsTerminator c then .outside else .passed

/-- Whether a character is kept at this point. -/
def shows (sequence : Sequence) (c : Char) : Bool :=
  match sequence with
  | .outside => (' ' ≤ c && c ≠ '\x7f') || isLayout c
  | .begun | .marked | .control => isLayout c
  | .command | .device | .deviceNumbers | .deviceMarks | .passed => false

end Sequence

/-- A reading of a text for what is plain in it. -/
structure PlainReading where
  sequence : Sequence := .outside
  /-- Whether the character before was kept, so that text runs on. -/
  printing : Bool := true
deriving DecidableEq

/-- Read one more character, and say whether it is kept. -/
def PlainReading.step (reading : PlainReading) (c : Char) : PlainReading × Bool :=
  if reading.printing && Sequence.outside.shows c then
    let sequence := if c.toNat < 128 then reading.sequence else .outside
    (⟨sequence, true⟩, true)
  else
    let kept := !reading.printing && reading.sequence.shows c
    (⟨reading.sequence.next c, kept⟩, kept)

/-- The characters that are kept from here on. -/
def plainFrom (reading : PlainReading) : List Char → List Char
  | [] => []
  | c :: rest =>
    let (reading, kept) := reading.step c
    if kept then c :: plainFrom reading rest else plainFrom reading rest

/-- What is plain in a text. -/
def plain (text : String) : String := String.ofList (plainFrom {} text.toList)

end SyntaxGraph.Text
