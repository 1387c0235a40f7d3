namespace OpenExpr

universe u

variable {ε ε' σ σ' : Type u} {α α' β β' : Type u}

/-- Both runs succeed with values related by `R` or fail with faults related by `E`,
and leave states related by `S`. -/
def Agree (S : σ → σ' → Prop) (E : ε → ε' → Prop) (R : α → α' → Prop) :
    EStateM.Result ε σ α → EStateM.Result ε' σ' α' → Prop
  | .ok a s, .ok a' s' => R a a' ∧ S s s'
  | .error e s, .error e' s' => E e e' ∧ S s s'
  | _, _ => False

/-- From related states the two actions have runs that agree. -/
def Related (S : σ → σ' → Prop) (E : ε → ε' → Prop) (R : α → α' → Prop)
    (p : EStateM ε σ α) (q : EStateM ε' σ' α') : Prop :=
  ∀ s s', S s s' → Agree S E R (p s) (q s')

variable {S : σ → σ' → Prop} {E : ε → ε' → Prop} {R : α → α' → Prop} {R' : β → β' → Prop}

theorem Agree.bind {p : EStateM ε σ α} {q : EStateM ε' σ' α'} {f : α → EStateM ε σ β}
    {g : α' → EStateM ε' σ' β'} {s : σ} {s' : σ'} (first : Agree S E R (p s) (q s'))
    (next : ∀ a a', R a a' → Related S E R' (f a) (g a')) :
    Agree S E R' ((p >>= f) s) ((q >>= g) s') := by
  change Agree S E R' (EStateM.bind p f s) (EStateM.bind q g s')
  unfold EStateM.bind
  cases run : p s <;> cases run' : q s' <;> rw [run, run'] at first
  · exact next _ _ first.1 _ _ first.2
  · exact first.elim
  · exact first.elim
  · exact first

theorem Related.bind {p : EStateM ε σ α} {q : EStateM ε' σ' α'} {f : α → EStateM ε σ β}
    {g : α' → EStateM ε' σ' β'} (h : Related S E R p q)
    (next : ∀ a a', R a a' → Related S E R' (f a) (g a')) :
    Related S E R' (p >>= f) (q >>= g) :=
  fun s s' same => (h s s' same).bind next

theorem related_pure {a : α} {a' : α'} (values : R a a') : Related S E R (pure a) (pure a') :=
  fun _ _ same => ⟨values, same⟩

theorem related_throw {e : ε} {e' : ε'} (faults : E e e') :
    Related S E R (throw e : EStateM ε σ α) (throw e' : EStateM ε' σ' α') :=
  fun _ _ same => ⟨faults, same⟩

theorem related_ite {p q : EStateM ε σ α} {p' q' : EStateM ε' σ' α'} {c c' : Prop} [Decidable c]
    [Decidable c'] (same : c ↔ c') (yes : Related S E R p p') (no : Related S E R q q') :
    Related S E R (if c then p else q) (if c' then p' else q') := by
  by_cases h : c
  · rw [if_pos h, if_pos (same.mp h)]
    exact yes
  · rw [if_neg h, if_neg (mt same.mpr h)]
    exact no

theorem related_get {f : σ → EStateM ε σ α} {g : σ' → EStateM ε' σ' α'}
    (next : ∀ s s', S s s' → Agree S E R (f s s) (g s' s')) :
    Related S E R (get >>= f) (get >>= g) :=
  next

theorem Agree.weaken {T : σ → σ' → Prop} {a : EStateM.Result ε σ α} {a' : EStateM.Result ε' σ' α'}
    (agree : Agree S E R a a') (weaker : ∀ s s', S s s' → T s s') : Agree T E R a a' := by
  cases a <;> cases a'
  · exact ⟨agree.1, weaker _ _ agree.2⟩
  · exact agree.elim
  · exact agree.elim
  · exact ⟨agree.1, weaker _ _ agree.2⟩

end OpenExpr
