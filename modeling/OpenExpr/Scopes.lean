import Std.Data.ExtTreeMap

namespace OpenExpr

/-- Nested scopes of names: the innermost scope and those around it, from the
inside out. The outermost scope is there from the start and stays. -/
structure Scopes (α : Type) where
  innermost : Std.ExtTreeMap String α := ∅
  enclosing : List (Std.ExtTreeMap String α) := []

namespace Scopes

variable {α : Type}

/-- Opens a scope inside the innermost one. -/
def push (s : Scopes α) : Scopes α :=
  { innermost := ∅, enclosing := s.innermost :: s.enclosing }

/-- Closes the innermost scope and forgets its names, unless it is the outermost. -/
def pop (s : Scopes α) : Scopes α :=
  match s.enclosing with
  | [] => s
  | scope :: enclosing => { innermost := scope, enclosing }

/-- Binds a name in the innermost scope. It hides the same name in the scopes
around and replaces it in this one. -/
def insert (s : Scopes α) (name : String) (a : α) : Scopes α :=
  { s with innermost := s.innermost.insert name a }

/-- What a name is bound to in the innermost scope that binds it. -/
def find? (s : Scopes α) (name : String) : Option α :=
  (s.innermost :: s.enclosing).findSome? fun scope => scope[name]?

def contains (s : Scopes α) (name : String) : Bool :=
  (s.find? name).isSome

def depth (s : Scopes α) : Nat :=
  s.enclosing.length + 1

theorem pop_push (s : Scopes α) : s.push.pop = s := rfl

theorem depth_push (s : Scopes α) : s.push.depth = s.depth + 1 := rfl

theorem depth_insert (s : Scopes α) (name : String) (a : α) :
    (s.insert name a).depth = s.depth := rfl

theorem find?_push (s : Scopes α) (name : String) : s.push.find? name = s.find? name := by
  simp [find?, push, List.findSome?_cons]

theorem find?_insert (s : Scopes α) (name key : String) (a : α) :
    (s.insert name a).find? key = if name = key then some a else s.find? key := by
  by_cases h : name = key
  · simp [find?, insert, h]
  · simp [find?, insert, List.findSome?_cons, Std.ExtTreeMap.getElem?_insert, h]

end Scopes

end OpenExpr
