import SimpleCdn.Edge.LogQueue
import SimpleCdn.Uploading.System

/-!
# The log of security events

`collect` reads lines of the security log from the stored offset on and returns their events, and
the offset behind them, which `collectAndFlush` stores.  It scans with `bufio.ScanLines`, which
strips a carriage return from a line and returns what stands behind the last newline, too.  The log
is read as it is when `collect` opens it; the files of the manager do not fail here.

`read` lists the lines that have been read, each with its event.
-/

namespace SimpleCdn.SecurityLog

open AccessLog Uploading SecurityStore Transition

def securityLogBatchLimit : ℕ := 1000

def securityLogLineLimit : ℕ := 16 * 2 ^ 10

/-- A line that has been read, and its event. -/
abbrev Entry := Bytes × Option SecurityEvent

def dropCR (line : Bytes) : Bytes := LogQueue.trimByte 0x0D line

/-- What `bufio.Scanner` makes of a text with `bufio.ScanLines`: the lines up to the first that does
not fit its buffer, and whether it then reports one. -/
def scanLines (text : Bytes) : List Bytes × Bool :=
  let lines := Lines.complete newline text
  let rest := Lines.rest newline text
  let fitting := lines.takeWhile fun line => line.length + 1 ≤ securityLogLineLimit
  if fitting.length < lines.length ∨ securityLogLineLimit ≤ rest.length then
    (fitting.map dropCR, true)
  else ((fitting ++ if rest = [] then [] else [rest]).map dropCR, false)

section

variable (packages : Packages) (decodeJSON : Bytes → Option SecurityLogEvent)

/-- `decodeSecurityLog`, with the identifier it makes. -/
def decode (id : String) (line : Bytes) : Option SecurityEvent := do
  decodeSecurityLog packages (← decodeJSON line) id

/-- The loop of `collect` over the lines that the scanner returns.  `fresh` are the identifiers that
`uuid.NewString` makes. -/
def collectLines (fresh : ℕ → String) (tooLong : Bool) :
    List Bytes → ℕ → ℕ → List Entry → Option (List Entry × ℕ)
  | [], _, position, read => if tooLong then none else some (read, position)
  | line :: others, lines, position, read =>
    let position := position + (line.length + 1)
    let read := read ++ [(line, decode packages decodeJSON (fresh lines) line)]
    let lines := lines + 1
    if securityLogBatchLimit ≤ lines then some (read, position)
    else collectLines fresh tooLong others lines position read

/-- Where `collect` begins to read. -/
def readFrom (contents : Bytes) (stored : ℕ) : ℕ :=
  if contents.length < stored then 0 else stored

/-- `collect`, of a log that exists: the lines with their events, and the position behind them. -/
def collect (fresh : ℕ → String) (contents : Bytes) (stored : ℕ) : Option (List Entry × ℕ) :=
  let offset := readFrom contents stored
  let (lines, tooLong) := scanLines (contents.drop offset)
  collectLines packages decodeJSON fresh tooLong lines 0 offset []

structure State where
  log : Option Bytes
  offset : Option ℕ
  read : List Entry

def initial : State := ⟨none, none, []⟩

/-- `collectAndFlush`, up to the offset. -/
def State.collectAndFlush (s : State) (fresh : ℕ → String) : State :=
  match s.log with
  | none => s
  | some contents =>
    match collect packages decodeJSON fresh contents (s.offset.getD 0) with
    | none => s
    | some (read, position) => { s with offset := some position, read := s.read ++ read }

inductive Action
  /-- The log grows. -/
  | append (bytes : Bytes)
  | collect (fresh : ℕ → String)

def step (s : State) : Action → State
  | .append bytes => { s with log := some (s.log.getD [] ++ bytes) }
  | .collect fresh => s.collectAndFlush packages decodeJSON fresh

end

end SimpleCdn.SecurityLog
