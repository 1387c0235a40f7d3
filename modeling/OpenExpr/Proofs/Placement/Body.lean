import Mathlib.Data.List.Forall2
import OpenExpr.Proofs.Placement.Parse
import OpenExpr.Proofs.Placement.Program
import OpenExpr.Resolution.Expression

namespace OpenExpr

/-- The scope binds every name that can be written to the same, wherever it stands. -/
def ScopeAlike (m m' : Std.ExtTreeMap String Binding) : Prop :=
  ∀ name, IsPlain name → m[name]?.map Binding.unplaced = m'[name]?.map Binding.unplaced

structure Scopes.Alike (s s' : Scopes Binding) : Prop where
  innermost : ScopeAlike s.innermost s'.innermost
  enclosing : List.Forall₂ ScopeAlike s.enclosing s'.enclosing

theorem scopeAlike_empty : ScopeAlike ∅ ∅ :=
  fun _ _ => rfl

theorem ScopeAlike.insert {m m' : Std.ExtTreeMap String Binding} (alike : ScopeAlike m m')
    (name : String) {b b' : Binding} (same : b.unplaced = b'.unplaced) :
    ScopeAlike (m.insert name b) (m'.insert name b') := by
  intro key plain
  by_cases here : name = key
  · simp [here, same]
  · simpa [Std.ExtTreeMap.getElem?_insert, here] using alike key plain

namespace Scopes.Alike

variable {s s' : Scopes Binding}

theorem push (alike : s.Alike s') : s.push.Alike s'.push where
  innermost := scopeAlike_empty
  enclosing := .cons alike.innermost alike.enclosing

theorem pop (alike : s.Alike s') : s.pop.Alike s'.pop := by
  have enclosing := alike.enclosing
  unfold Scopes.pop
  cases left : s.enclosing <;> cases right : s'.enclosing <;> rw [left, right] at enclosing <;>
    cases enclosing
  · exact alike
  · exact ⟨‹_›, ‹_›⟩

theorem insert (alike : s.Alike s') (name : String) {b b' : Binding}
    (same : b.unplaced = b'.unplaced) : (s.insert name b).Alike (s'.insert name b') where
  innermost := alike.innermost.insert name same
  enclosing := alike.enclosing

theorem find? (alike : s.Alike s') {name : String} (plain : IsPlain name) :
    (s.find? name).map Binding.unplaced = (s'.find? name).map Binding.unplaced := by
  have scopes : List.Forall₂ ScopeAlike (s.innermost :: s.enclosing) (s'.innermost :: s'.enclosing) :=
    .cons alike.innermost alike.enclosing
  unfold Scopes.find?
  generalize s.innermost :: s.enclosing = left at scopes
  generalize s'.innermost :: s'.enclosing = right at scopes
  induction scopes with
  | nil => rfl
  | @cons m m' _ _ first _ ih =>
    have same := first name plain
    rw [List.findSome?_cons, List.findSome?_cons]
    cases left : m[name]? <;> cases right : m'[name]? <;> simp [left, right] at same
    · exact ih
    · simp [same]

end Scopes.Alike

/-- No name that can be written is bound in the outermost scope. -/
def Scopes.IsHidden (s : Scopes Binding) : Prop :=
  ∀ name, IsPlain name → ((s.innermost :: s.enclosing).getLast (by simp))[name]? = none

namespace Scopes.IsHidden

variable {s : Scopes Binding}

theorem push (hidden : s.IsHidden) : s.push.IsHidden := by
  intro name plain
  simpa [Scopes.push] using hidden name plain

theorem pop (hidden : s.IsHidden) : s.pop.IsHidden := by
  intro name plain
  have outermost := hidden name plain
  unfold Scopes.pop
  cases left : s.enclosing with
  | nil => simpa [left] using outermost
  | cons scope enclosing => simpa [left] using outermost

/-- Names may be bound as long as it is not in the outermost scope. -/
theorem insert (hidden : s.IsHidden) (deep : s.enclosing ≠ []) (name : String) (b : Binding) :
    (s.insert name b).IsHidden := by
  intro key plain
  have outermost := hidden key plain
  simpa [Scopes.insert, List.getLast_cons deep] using outermost

theorem insert_hidden (hidden : s.IsHidden) {name : String} (reserved : ¬ IsPlain name)
    (b : Binding) : (s.insert name b).IsHidden := by
  intro key plain
  have outermost := hidden key plain
  have other : name ≠ key := fun same => reserved (same ▸ plain)
  cases left : s.enclosing with
  | nil => simpa [Scopes.insert, left, Std.ExtTreeMap.getElem?_insert, other] using outermost
  | cons _ _ => simpa [Scopes.insert, left] using outermost

/-- With no scope around, nothing that can be written is bound. -/
theorem alike (hidden : s.IsHidden) (alone : s.enclosing = []) : s.Alike {} where
  innermost name plain := by
    have outermost := hidden name plain
    simp only [alone, List.getLast_singleton] at outermost
    rw [outermost]
    rfl
  enclosing := by
    rw [alone]
    exact .nil

end Scopes.IsHidden

/-- The bodies are resolved alike as far as they are, within `depth` scopes, of which
the outermost binds no name that can be written. -/
structure Body.Alike (depth : Nat) (b b' : Body) : Prop where
  scopes : b.scopes.Alike b'.scopes
  locals : Local.unplacedAll b.locals = Local.unplacedAll b'.locals
  results : b.results = b'.results
  depth_eq : b.scopes.depth = depth
  hidden : b.scopes.IsHidden

namespace Body.Alike

variable {depth : Nat} {b b' : Body}

theorem deep (alike : b.Alike (depth + 2) b') : b.scopes.enclosing ≠ [] := by
  have size := alike.depth_eq
  unfold Scopes.depth at size
  intro none
  simp [none] at size

theorem push (alike : b.Alike depth b') :
    Body.Alike (depth + 1) { b with scopes := b.scopes.push } { b' with scopes := b'.scopes.push } where
  scopes := alike.scopes.push
  locals := alike.locals
  results := alike.results
  depth_eq := by rw [Scopes.depth_push, alike.depth_eq]
  hidden := alike.hidden.push

theorem pop (alike : b.Alike (depth + 2) b') :
    Body.Alike (depth + 1) { b with scopes := b.scopes.pop } { b' with scopes := b'.scopes.pop } where
  scopes := alike.scopes.pop
  locals := alike.locals
  results := alike.results
  depth_eq := by
    have size := alike.depth_eq
    have deep := alike.deep
    unfold Scopes.depth Scopes.pop at *
    cases left : b.scopes.enclosing with
    | nil => exact absurd left deep
    | cons scope enclosing => simpa [left] using size
  hidden := alike.hidden.pop

end Body.Alike

/-- Between two statements only the scopes count. -/
structure Body.Idle (b b' : Body) : Prop where
  scopes : b.scopes.Alike b'.scopes
  depth_eq : b.scopes.depth = 1
  hidden : b.scopes.IsHidden

namespace Body

variable {b b' : Body}

theorem Alike.idle (alike : b.Alike 1 b') : b.Idle b' :=
  ⟨alike.scopes, alike.depth_eq, alike.hidden⟩

/-- A new function starts with no local variables. -/
theorem Idle.begin (idle : b.Idle b') :
    Body.Alike 1 { b with locals := [], results := 0 } { b' with locals := [], results := 0 } where
  scopes := idle.scopes
  locals := rfl
  results := rfl
  depth_eq := idle.depth_eq
  hidden := idle.hidden

/-- Nothing is lost if the second body is thrown away between two statements. -/
theorem Idle.renew (idle : b.Idle b') : b.Idle {} := by
  have alone : b.scopes.enclosing = [] := by
    have size := idle.depth_eq
    unfold Scopes.depth at size
    exact List.eq_nil_of_length_eq_zero (by omega)
  exact ⟨idle.hidden.alike alone, idle.depth_eq, idle.hidden⟩

end Body

theorem Body.idle_empty : Body.Idle {} {} where
  scopes := ⟨scopeAlike_empty, .nil⟩
  depth_eq := rfl
  hidden _ _ := rfl

end OpenExpr
