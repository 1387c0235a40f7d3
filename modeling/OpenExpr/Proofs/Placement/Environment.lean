import OpenExpr.Proofs.Placement.Resolution

namespace OpenExpr

theorem binaryFunctionName_injective : Function.Injective binaryFunctionName := by
  intro text text' same
  have letters := congrArg String.toList same
  simp only [binaryFunctionName, String.toList_append, List.append_cancel_left_eq] at letters
  exact String.toList_inj.mp letters

theorem unaryFunctionName_injective : Function.Injective unaryFunctionName := by
  intro text text' same
  have letters := congrArg String.toList same
  simp only [unaryFunctionName, String.toList_append, List.append_cancel_left_eq] at letters
  exact String.toList_inj.mp letters

theorem binaryFunctionName_ne_unary (text text' : String) :
    binaryFunctionName text ≠ unaryFunctionName text' := by
  intro same
  have letters := congrArg String.toList same
  simp [binaryFunctionName, unaryFunctionName, String.toList_append] at letters

theorem isPlain_ne_binary {name text : String} (plain : IsPlain name) :
    name ≠ binaryFunctionName text := by
  rintro rfl
  exact plain (by simp [binaryFunctionName, String.toList_append])

theorem isPlain_ne_unary {name text : String} (plain : IsPlain name) :
    name ≠ unaryFunctionName text := by
  rintro rfl
  exact plain (by simp [unaryFunctionName, String.toList_append])

namespace OperatorTable

variable {t : OperatorTable}

/-- A name that can be written is never that of the function behind an operator. -/
theorem admits_plain {name : String} (plain : IsPlain name) : t.Admits name :=
  fun _ _ _ _ =>
    ⟨fun same => absurd same (isPlain_ne_binary plain), fun same => absurd same (isPlain_ne_unary plain)⟩

theorem admits_binary {text : String}
    (known : ∀ c, text.toList = [c] → (t.infixOp? c).isSome = true) :
    t.Admits (binaryFunctionName text) := by
  intro other c sign _
  refine ⟨fun same => ?_, fun same => absurd same (binaryFunctionName_ne_unary text other)⟩
  obtain rfl := binaryFunctionName_injective same
  exact known c sign

theorem admits_unary {text : String}
    (known : ∀ c, text.toList = [c] → (t.prefixOp? c).isSome = true) :
    t.Admits (unaryFunctionName text) := by
  intro other c sign _
  refine ⟨fun same => absurd same.symm (binaryFunctionName_ne_unary other text), fun same => ?_⟩
  obtain rfl := unaryFunctionName_injective same
  exact known c sign

end OperatorTable

theorem Environment.getLast?_nextAnonymousName (env : Environment) :
    ∃ c, env.nextAnonymousName.toList.getLast? = some c ∧ c.isDigit = true := by
  have digits : (toString env.anonymousCount.toNat).toList = Nat.toDigits 10 env.anonymousCount.toNat :=
    Nat.toList_repr
  obtain ⟨c, last⟩ : ∃ c, (Nat.toDigits 10 env.anonymousCount.toNat).getLast? = some c :=
    ⟨_, List.getLast?_eq_some_getLast Nat.toDigits_ne_nil⟩
  refine ⟨c, ?_, Nat.isDigit_of_mem_toDigits (by decide) (by decide) (List.mem_of_getLast? last)⟩
  rw [Environment.nextAnonymousName, String.toList_append, digits, List.getLast?_append, last]
  rfl

/-- The name of a bare expression ends with a digit, that of a function behind an
operator does not. -/
theorem Environment.append_ne_nextAnonymousName (env : Environment) {front text : String} {c : Char}
    (sign : text.toList = [c]) (noDigit : c.isDigit = false) : front ++ text ≠ env.nextAnonymousName := by
  intro same
  obtain ⟨d, last, digit⟩ := env.getLast?_nextAnonymousName
  rw [← same, String.toList_append, sign, List.getLast?_concat] at last
  cases last
  rw [digit] at noDigit
  cases noDigit

theorem OperatorTable.admits_anonymous (t : OperatorTable) (env : Environment) :
    t.Admits env.nextAnonymousName :=
  fun _ _ sign noDigit =>
    ⟨fun same => absurd same.symm (env.append_ne_nextAnonymousName sign noDigit),
      fun same => absurd same.symm (env.append_ne_nextAnonymousName sign noDigit)⟩

/-- Every operator of the first table is in the second. -/
structure OperatorTable.Within (t t' : OperatorTable) : Prop where
  infixOp? : ∀ c, (t.infixOp? c).isSome = true → (t'.infixOp? c).isSome = true
  prefixOp? : ∀ c, (t.prefixOp? c).isSome = true → (t'.prefixOp? c).isSome = true

namespace OperatorTable

variable {t t' t'' : OperatorTable}

theorem Within.refl (t : OperatorTable) : t.Within t :=
  ⟨fun _ => id, fun _ => id⟩

theorem Within.trans (first : t.Within t') (second : t'.Within t'') : t.Within t'' where
  infixOp? c known := second.infixOp? c (first.infixOp? c known)
  prefixOp? c known := second.prefixOp? c (first.prefixOp? c known)

theorem Admits.mono {name : String} (admits : t.Admits name) (within : t.Within t') :
    t'.Admits name := by
  intro text c sign noDigit
  obtain ⟨binary, unary⟩ := admits text c sign noDigit
  exact ⟨fun same => within.infixOp? c (binary same), fun same => within.prefixOp? c (unary same)⟩

end OperatorTable

namespace Environment.Alike

variable {env env' : Environment} (alike : env.Alike env')

include alike

theorem countAnonymous : env.countAnonymous.Alike env'.countAnonymous where
  options := alike.options
  anonymousCount := congrArg (· + 1) alike.anonymousCount
  declarations := alike.declarations
  definitions := alike.definitions
  admitted := alike.admitted

theorem nextAnonymousName : env.nextAnonymousName = env'.nextAnonymousName := by
  unfold Environment.nextAnonymousName
  rw [alike.options, alike.anonymousCount]

/-- What is declared under one name may change if both tables admit the name. -/
theorem withDeclarations {name : String} {m m' : Std.ExtTreeMap String Prototype}
    (admits : env.operators.Admits name ∧ env'.operators.Admits name)
    (other : ∀ key, name ≠ key → m[key]? = env.declarations[key]?)
    (same : ∀ key : String, m[key]?.map Prototype.unplaced = m'[key]?.map Prototype.unplaced) :
    Environment.Alike { env with declarations := m } { env' with declarations := m' } where
  options := alike.options
  anonymousCount := alike.anonymousCount
  declarations := same
  definitions := alike.definitions
  admitted key known := by
    by_cases here : name = key
    · exact here ▸ admits
    · refine alike.admitted key ?_
      unfold callee? at known ⊢
      rwa [other key here] at known

theorem declare {p p' : Prototype} (same : p.unplaced = p'.unplaced)
    (admits : env.operators.Admits p.name ∧ env'.operators.Admits p.name) :
    (env.declare p).Alike (env'.declare p') := by
  have name := Prototype.name_eq same
  refine alike.withDeclarations admits (fun key other => ?_) fun key => ?_
  · simp [Std.ExtTreeMap.getElem?_insert, other]
  · rw [← name, Std.ExtTreeMap.getElem?_insert, Std.ExtTreeMap.getElem?_insert]
    split
    · exact congrArg some same
    · exact alike.declarations key

theorem restoreDeclaration {name : String} {previous previous' : Option Prototype}
    (same : previous.map Prototype.unplaced = previous'.map Prototype.unplaced)
    (admits : env.operators.Admits name ∧ env'.operators.Admits name) :
    (env.restoreDeclaration name previous).Alike (env'.restoreDeclaration name previous') := by
  unfold Environment.restoreDeclaration
  cases previous with
  | none =>
    obtain rfl : previous' = none := Option.map_eq_none_iff.mp same.symm
    refine alike.withDeclarations admits (fun key other => ?_) fun key => ?_
    · simp [Std.ExtTreeMap.getElem?_erase, other]
    · rw [Std.ExtTreeMap.getElem?_erase, Std.ExtTreeMap.getElem?_erase]
      split
      · rfl
      · exact alike.declarations key
  | some p =>
    obtain ⟨p', rfl, equal⟩ := Option.map_eq_some_iff.mp same.symm
    refine alike.withDeclarations admits (fun key other => ?_) fun key => ?_
    · simp [Std.ExtTreeMap.getElem?_insert, other]
    · rw [Std.ExtTreeMap.getElem?_insert, Std.ExtTreeMap.getElem?_insert]
      split
      · exact congrArg some equal.symm
      · exact alike.declarations key

theorem define {d d' : FunctionDefinition} (same : d.unplaced = d'.unplaced)
    (admits : env.operators.Admits d.name ∧ env'.operators.Admits d.name) :
    (env.define d).Alike (env'.define d') where
  options := alike.options
  anonymousCount := alike.anonymousCount
  declarations := alike.declarations
  definitions key := by
    have name : d.name = d'.name := Prototype.name_eq (congrArg FunctionDefinition.signature same)
    unfold Environment.define
    rw [← name, Std.ExtTreeMap.getElem?_insert, Std.ExtTreeMap.getElem?_insert]
    split
    · exact congrArg some same
    · exact alike.definitions key
  admitted key known := by
    by_cases here : d.name = key
    · exact here ▸ admits
    · refine alike.admitted key ?_
      simpa [callee?, Environment.define, Std.ExtTreeMap.getElem?_insert, here] using known

end Environment.Alike

end OpenExpr
