import BandwidthLimiter.Foundation.CString
import BandwidthLimiter.Port.RegisterEnv

namespace BandwidthLimiter
open Foundation

variable [OverlappingCopy]

/-- The size of the line, name and value buffers. -/
def maxLen : Nat := 1024

/-- The number of the fields of a port. -/
def fieldSize : Nat := 4

/-- A text field of the configuration: without an assignment, a NULL pointer, or a position in the
value buffer of the parser. -/
inductive TextPointer where
  | unset
  | null
  | value (position : Nat)
  deriving DecidableEq, Repr

structure ConfigStruct where
  noPort : Option UInt64
  libcPath : TextPointer
  serverIp : TextPointer
  portListHead : List PortStr

/-- The parser initializes the list alone. -/
def ConfigStruct.initial : ConfigStruct where
  noPort := none
  libcPath := .unset
  serverIp := .unset
  portListHead := []

/-- The rest of the file, the parameters, and the value buffer. -/
structure ParserState where
  stream : List Char
  params : ConfigStruct
  value : List Char

/-- The text that a pointer leads to while the value buffer lives. -/
def ParserState.text (state : ParserState) : TextPointer → Option (List Char)
  | .value position => some (cString (state.value.drop position))
  | _ => none

/-- The trailing space is cut first, and the rest moves to the start of the buffer. Behind leading
space this copy can overlap itself. -/
def trim (s : List Char) : List Char :=
  let kept := (cString s).rdropWhile isspace
  strcpyDown (s.set kept.length '\x00') (kept.takeWhile isspace).length

/-- Empty lines and comments. -/
def isSkipped (line : List Char) : Bool :=
  line.head? = some '\n' || line.head? = some '#'

/-- The name and the trimmed value of a line; `none` when one of them is missing. -/
def nameValue (line : List Char) : Option (List Char × List Char) :=
  let first := strtok ['='] (line ++ ['\x00']) 0
  match first.token with
  | none => none
  | some s =>
      let name := strncpy (first.buffer.drop s) maxLen
      let second := strtok ['='] first.buffer first.saved
      match second.token with
      | none => none
      | some s => some (cString name, trim (strncpy (second.buffer.drop s) maxLen))

/-- The fields of a port that are read so far. -/
structure FieldScan where
  pData : PortStr
  buffer : List Char
  temp1 : Option Nat

/-- The allocation fills a new port with zeros. -/
def PortStr.zero : PortStr := ⟨0, 0, 0, 0⟩

def PortStr.assign (pData : PortStr) (loop2 : Nat) (number : Int) : PortStr :=
  match loop2 with
  | 1 => { pData with portNo := UInt32.ofInt number }
  | 2 => { pData with upLimit := number }
  | 3 => { pData with downLimit := number }
  | 4 => { pData with latency := UInt32.ofInt number }
  | _ => pData

/-- One field; the last one ends at the bracket. -/
def FieldScan.next (scan : FieldScan) (loop2 : Nat) : FieldScan :=
  match scan.temp1 with
  | none => scan
  | some temp1 =>
      let field := strtok (if loop2 ≠ fieldSize then [','] else [']']) scan.buffer temp1
      let rest := strtok [']'] field.buffer field.saved
      { pData := match field.token with
          | none => scan.pData
          | some temp2 => scan.pData.assign loop2 (atoi (cString (field.buffer.drop temp2)))
        buffer := rest.buffer
        temp1 := rest.token }

/-- The port of a value buffer, and the buffer after its calls of `strtok`. -/
def portEntry (value : List Char) : PortStr × List Char :=
  let first := strtok ['['] value 0
  let scan := (List.range' 1 fieldSize).foldl FieldScan.next ⟨.zero, first.buffer, first.token⟩
  (scan.pData, scan.buffer)

/-- The body of the port loop, with the counter of the next round. The counter wraps at 64 bits, and
it also advances after the end of the file. -/
def portBody (loop : UInt64) (state : ParserState) : UInt64 × ParserState :=
  match fgets maxLen state.stream with
  | none => (loop + 1, state)
  | some (line, stream) =>
      if isSkipped line then (loop - 1 + 1, { state with stream })
      else
        match nameValue line with
        | none => (loop + 1, { state with stream })
        | some (_, value) =>
            let (pData, value) := portEntry value
            let portListHead := state.params.portListHead ++ [pData]
            (loop + 1, { stream, value, params := { state.params with portListHead } })

/-- `none` means that the fuel runs out. -/
def portLoop (noPort : UInt64) : Nat → UInt64 → ParserState → Option ParserState
  | 0, _, _ => none
  | fuel + 1, loop, state =>
      if loop ≤ noPort then
        portLoop noPort fuel (portBody loop state).1 (portBody loop state).2
      else some state

/-- The text between brackets; a NULL result of the first call continues the saved text. -/
def bracketText (value : List Char) : TextPointer × List Char :=
  let first := strtok ['['] value 0
  let second := strtok [']'] first.buffer (first.token.getD first.saved)
  (match second.token with
    | none => .null
    | some temp2 => .value temp2, second.buffer)

/-- The names other than the port count; a server port is only printed. -/
def assignText (params : ConfigStruct) (name value : List Char) : ConfigStruct × List Char :=
  let (text, value') := bracketText value
  if name = "LIBC_PATH".toList then ({ params with libcPath := text }, value')
  else if name = "SERVER_IP".toList then ({ params with serverIp := text }, value')
  else if name = "SERVER_PORT".toList then (params, value')
  else (params, value)

/-- The port count of a value; the number is cast to 64 bits without a sign. -/
def portCount (value : List Char) : UInt64 := UInt64.ofInt (atoi (cString value))

/-- The body of the outer loop for a line. -/
def parseLine (fuel : Nat) (line : List Char) (state : ParserState) : Option ParserState :=
  if isSkipped line then some state
  else
    match nameValue line with
    | none => some state
    | some (name, value) =>
        if name = "NO_PORT".toList then
          let params := { state.params with noPort := some (portCount value) }
          portLoop (portCount value) fuel 1 { state with params, value }
        else
          let (params, value) := assignText state.params name value
          some { state with params, value }

def parseLoop : Nat → ParserState → Option ParserState
  | 0, _ => none
  | fuel + 1, state =>
      match fgets maxLen state.stream with
      | none => some state
      | some (line, stream) => (parseLine fuel line { state with stream }).bind (parseLoop fuel)

/-- The status of the parser and its last state; a missing file has no content. -/
def parseConfig (fuel : Nat) (file : Option (List Char)) : Option (Int × ParserState) :=
  match file with
  | none => some (-1, ⟨[], .initial, []⟩)
  | some content => (parseLoop fuel ⟨content, .initial, []⟩).map fun state => (1, state)

end BandwidthLimiter
