import OpenExpr.Statement.Terminator
import OpenExpr.Text.Cut

namespace OpenExpr

/-- Whether the next line starts a statement or goes on with one. -/
inductive ReadyState where
  | start
  | continuing
deriving DecidableEq, Repr

namespace ReadyState

/-- The state after a piece of input. -/
def next (state : ReadyState) (isPartial isBlank : Bool) : ReadyState :=
  match state with
  | start => if isPartial && !isBlank then continuing else start
  | continuing => if isPartial then continuing else start

/-- What is shown in front of a line that is to be typed in. -/
def prompt : ReadyState → String
  | start => "Ready>"
  | continuing => ">"

end ReadyState

/-- A piece of input: a whole statement, or the end of a line that leaves its
statement unfinished. -/
structure Fragment where
  text : String
  isPartial : Bool
deriving DecidableEq, Repr

def Fragment.isBlank (f : Fragment) : Bool :=
  Text.isBlankText f.text

/-- Cuts lines into statements and keeps the text of a statement until its end
arrives. -/
structure Framer where
  terminator : Terminator := .semicolon
  pending : String := ""
  state : ReadyState := .start

namespace Framer

/-- The statements that end on a line. The first of them began with what is
pending. -/
def complete (f : Framer) : List (List Char) → List Fragment
  | [] => []
  | piece :: pieces =>
    { text := f.pending ++ String.ofList piece, isPartial := false } ::
      pieces.map fun piece => { text := String.ofList piece, isPartial := false }

/-- What the end of a line leaves for the lines after it. Blanks are not kept. -/
def carried (rest : List Char) : String :=
  if rest.all Text.isBlank then "" else String.ofList (rest ++ ['\n'])

/-- Takes in a line. What follows its last terminator is a fragment of its own,
and so is a line without terminators even if it is empty. -/
def pushLine (f : Framer) (line : String) : List Fragment × Framer :=
  let (pieces, rest) := Text.cutAfter (· == f.terminator.symbol) line.toList
  let unfinished : List Fragment :=
    if pieces.isEmpty || !rest.isEmpty then [{ text := String.ofList rest, isPartial := true }]
    else []
  let fragments := f.complete pieces ++ unfinished
  let pending := (if pieces.isEmpty then f.pending else "") ++ carried rest
  let state := fragments.foldl (fun s x => s.next x.isPartial x.isBlank) f.state
  (fragments, { f with pending, state })

/-- Ends the input. What is unfinished is forgotten. -/
def finish (f : Framer) : Framer :=
  { f with pending := "", state := .start }

end Framer

end OpenExpr
