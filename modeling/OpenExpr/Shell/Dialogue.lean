import OpenExpr.Report
import OpenExpr.Session
import OpenExpr.Statement.Framer

namespace OpenExpr

/-- How many statements were accepted and how many were not. -/
structure Summary where
  parsed : Nat := 0
  failed : Nat := 0
deriving DecidableEq, Repr

/-- What the shell says about a statement. -/
inductive Reply where
  | parsed (u : Program)
  | rejected (sourceName text : String) (diagnostics : List Diagnostic)

/-- A line that shows a unit that was accepted. -/
def Program.announcement (u : Program) : String :=
  "PARSED: " ++ u.display ++ "\n"

def Reply.text (report : Report) : Reply → String
  | parsed u => u.announcement
  | rejected sourceName text diagnostics =>
    String.join (diagnostics.map fun d => report.diagnostic sourceName text d)

/-- A run of the shell: its session, the input of which no statement has been made
yet, and the statement that has its terminator but not its end, for instance
because the terminator stands in a comment. -/
structure Dialogue where
  session : Session
  framer : Framer
  heldBack : String := ""
  summary : Summary := {}

namespace Dialogue

/-- Whether the next line starts a statement. What is held back goes on. -/
def state (d : Dialogue) : ReadyState :=
  if d.heldBack.isEmpty then d.framer.state else .continuing

/-- Reads a statement together with what was held back before it. A statement that
is still incomplete is held back, and so is nothing else. -/
def handle (d : Dialogue) (f : Fragment) : Option Reply × Dialogue :=
  if f.isPartial then (none, d)
  else
    let text := d.heldBack ++ d.framer.terminator.withSemicolon f.text
    match d.session.parseStatement text with
    | (.complete u, session) =>
      let summary := { d.summary with parsed := d.summary.parsed + 1 }
      (some (.parsed u), { d with session, heldBack := "", summary })
    | (.failed diagnostics, session) =>
      let summary := { d.summary with failed := d.summary.failed + 1 }
      (some (.rejected session.sourceName text diagnostics),
        { d with session, heldBack := "", summary })
    | (.needMoreInput, session) => (none, { d with session, heldBack := text ++ "\n" })

end Dialogue

end OpenExpr
