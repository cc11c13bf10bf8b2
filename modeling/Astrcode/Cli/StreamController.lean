import Astrcode.Core.Primitives

/-!
# Streaming in the terminal

`astrcode-cli/src/tui/streaming`: deltas of an answer are collected, complete lines are wrapped
and queued, and the queue is drained a few lines at a time. The wrapping is that of
`render/render_spec.rs`, without the cursor. A line is the list of its characters.
-/
namespace Astrcode

/-- `UnicodeWidthChar::width`; a control character has none. -/
abbrev CharWidth := Char → Option Nat

section Layout

variable (charWidth : CharWidth) (width : Nat)

/-- The loop of `layout_visual_text`, inside a line. -/
def layoutFrom (currentLine : List Char) (currentWidth : Nat) : List Char → List (List Char)
  | [] => [currentLine]
  | ch :: rest =>
    if ch = '\n' then currentLine :: layoutFrom [] 0 rest
    else
      let chWidth := max ((charWidth ch).getD 0) 1
      if width < currentWidth + chWidth ∧ currentLine ≠ [] then
        currentLine :: layoutFrom [ch] chWidth rest
      else layoutFrom (currentLine ++ [ch]) (currentWidth + chWidth) rest

def visualLines (text : List Char) : List (List Char) :=
  if width = 0 then [] else layoutFrom charWidth width [] 0 text

end Layout

structure StreamState where
  queuedLines : List (List Char) := []
  hasSeenDelta : Bool := false

def StreamState.enqueue (state : StreamState) (lines : List (List Char)) : StreamState :=
  { state with queuedLines := state.queuedLines ++ lines }

def StreamState.drainN (state : StreamState) (maxLines : Nat) : List (List Char) × StreamState :=
  (state.queuedLines.take maxLines,
    { state with queuedLines := state.queuedLines.drop maxLines })

structure StreamController where
  state : StreamState := {}
  /-- Text that waits for the end of its line. -/
  pending : List Char := []
  width : Option Nat

namespace StreamController

variable (charWidth : CharWidth) (controller : StreamController)

def renderText (text : List Char) : List (List Char) :=
  visualLines charWidth (controller.width.getD 120) text

def commitCompleteLines : Bool × StreamController :=
  let parts := controller.pending.splitOn '\n'
  let complete := ['\n'].intercalate parts.dropLast
  let controller := { controller with pending := parts.getLastD [] }
  if complete = [] then (false, controller)
  else
    let lines := controller.renderText charWidth complete
    if lines = [] then (false, controller)
    else (true, { controller with state := controller.state.enqueue lines })

def pushDelta (delta : List Char) : Bool × StreamController :=
  if delta = [] then (false, controller)
  else
    let controller := { controller with
      state := { controller.state with hasSeenDelta := true }
      pending := controller.pending ++ delta }
    if '\n' ∈ delta then controller.commitCompleteLines charWidth else (false, controller)

/-- The lines that are left; the stream is over. -/
def finalize (completedText : List Char) : List (List Char) :=
  let pending := if controller.state.hasSeenDelta then controller.pending
    else controller.pending ++ completedText
  let state := if trimChars pending = [] then controller.state
    else controller.state.enqueue (controller.renderText charWidth pending)
  state.queuedLines

/-- A whole stream: after each delta some lines are drained. -/
def streamed (controller : StreamController) (completedText : List Char) :
    List (List Char × Nat) → List (List Char)
  | [] => controller.finalize charWidth completedText
  | (delta, maxLines) :: later =>
    let (_, controller) := controller.pushDelta charWidth delta
    let (lines, state) := controller.state.drainN maxLines
    lines ++ streamed { controller with state := state } completedText later

end StreamController

end Astrcode
