import Mathlib.Data.List.Forall2

namespace OpenExpr

variable {α β : Type} {R : α → β → Prop} {as : List α} {bs : List β}

/-- In lists that are related one by one, each of the second list has its own of the first. -/
theorem exists_of_forall₂ (each : List.Forall₂ R as bs) {b : β} (member : b ∈ bs) :
    ∃ a ∈ as, R a b := by
  induction each with
  | nil => cases member
  | cons first _ ih =>
    rcases List.mem_cons.mp member with rfl | later
    · exact ⟨_, List.mem_cons_self, first⟩
    · obtain ⟨a, among, related⟩ := ih later
      exact ⟨a, List.mem_cons_of_mem _ among, related⟩

/-- What follows from being related holds of all in the second list. -/
theorem forall_of_forall₂ {Q : β → Prop} (each : List.Forall₂ R as bs) (follows : ∀ a b, R a b → Q b) :
    ∀ b ∈ bs, Q b := by
  intro b member
  obtain ⟨a, _, related⟩ := exists_of_forall₂ each member
  exact follows a b related

end OpenExpr
