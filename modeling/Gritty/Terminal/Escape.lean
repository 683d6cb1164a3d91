import Mathlib.Data.List.Basic
import Mathlib.Tactic.Common

/-!
# Escape sequences

The client looks for `~.`, `~^Z`, `~?` and `~~` at the beginning of a line in what the user types.
`EscapeState` is what the processor remembers between two reads, and `process` turns the bytes of
one read into actions.

What is collected on the way is flushed before each command, and a `~.` ends the processing of the
read.  A tilde that may begin an escape sequence is held back, also over the end of a read.

## Main definitions

* `EscapeState`, `EscapeAction` : what the processor remembers, and what it asks for.
* `processFrom` : the loop over the bytes of a read, with the bytes that it has collected.
* `process` : one read.
-/

namespace Gritty

namespace Terminal

/-- What the processor remembers between two bytes. -/
inductive EscapeState where
  | normal
  | afterNewline
  /-- a tilde is held back -/
  | afterTilde
  deriving DecidableEq

/-- What `relay` is told to do. -/
inductive EscapeAction where
  | data (bytes : List UInt8)
  | detach
  | suspend
  | help
  deriving DecidableEq

/-- A line feed. -/
def lf : UInt8 := 0x0a
/-- A carriage return. -/
def cr : UInt8 := 0x0d
/-- The byte that asks for a suspension. -/
def ctrlZ : UInt8 := 0x1a
/-- The byte that asks for a detach. -/
def dot : UInt8 := 0x2e
/-- The byte that asks for help. -/
def question : UInt8 := 0x3f
/-- The byte that begins an escape sequence. -/
def tilde : UInt8 := 0x7e

namespace EscapeState

/-- The state of a new `EscapeProcessor`. -/
def new : EscapeState := .afterNewline

/-- Push the collected bytes as one action, when there are any. -/
def flush (actions : List EscapeAction) (dataBuf : List UInt8) : List EscapeAction :=
  if dataBuf.isEmpty then actions else actions ++ [.data dataBuf]

/-- The loop of `process`, from the actions and the data collected so far. -/
def processFrom (state : EscapeState) (actions : List EscapeAction) (dataBuf : List UInt8) :
    List UInt8 → List EscapeAction × EscapeState
  | [] => (flush actions dataBuf, state)
  | b :: input =>
    match state with
    | .normal =>
      if b = lf ∨ b = cr then processFrom .afterNewline actions (dataBuf ++ [b]) input
      else processFrom .normal actions (dataBuf ++ [b]) input
    | .afterNewline =>
      if b = tilde then processFrom .afterTilde (flush actions dataBuf) [] input
      else if b = lf ∨ b = cr then processFrom .afterNewline actions (dataBuf ++ [b]) input
      else processFrom .normal actions (dataBuf ++ [b]) input
    | .afterTilde =>
      -- the rest of the input is not looked at
      if b = dot then (flush actions dataBuf ++ [.detach], .afterTilde)
      else if b = ctrlZ then processFrom .normal (flush actions dataBuf ++ [.suspend]) [] input
      else if b = question then processFrom .normal (flush actions dataBuf ++ [.help]) [] input
      else if b = tilde then processFrom .normal actions (dataBuf ++ [tilde]) input
      else if b = lf ∨ b = cr then
        processFrom .afterNewline actions (dataBuf ++ [tilde, b]) input
      else processFrom .normal actions (dataBuf ++ [tilde, b]) input

/-- `EscapeProcessor::process` -/
def process (state : EscapeState) (input : List UInt8) : List EscapeAction × EscapeState :=
  processFrom state [] [] input

example : process .normal [lf, tilde, question, lf, tilde, dot, 0x78] =
    ([.data [lf], .help, .data [lf], .detach], .afterTilde) := by decide

end EscapeState

end Terminal

end Gritty
