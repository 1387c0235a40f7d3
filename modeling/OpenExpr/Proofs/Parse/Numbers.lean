import OpenExpr.SyntaxTree.TokenStream

namespace OpenExpr

theorem Text.getLast?_quote (s : String) : (quote s).toList.getLast? = some '"' := by
  rw [quote, String.toList_ofList, List.getLast?_concat]

namespace InputError

/-- The fault does not read as that of a number that cannot be read. -/
def IsNoNumber (e : InputError) : Prop :=
  ∀ text, e.message ≠ (Cause.numberParseError text).message

theorem Cause.message_ne_number {c : Cause} (number : ∀ text, c ≠ .numberParseError text)
    (text : String) : c.message ≠ (numberParseError text).message := by
  intro same
  unfold message at same
  have letters := congrArg String.toList same
  cases c with
  | numberParseError text => exact number text rfl
  | featureNotEnabled feature required =>
    -- the message begins with whatever the feature is called, but ends in no quote
    have last := congrArg List.getLast? letters
    simp only [String.toList_append, List.getLast?_append, Text.getLast?_quote] at last
    cases required <;> simp [Level.name] at last
  | _ => simp [Text.quoteChar] at letters

theorem isNoNumber_of_cause {e : InputError} (number : ∀ text, e.cause ≠ .numberParseError text) :
    e.IsNoNumber :=
  Cause.message_ne_number number

end InputError

open InputError

theorem TokenStream.isNoNumber_unexpected (s : TokenStream) : s.unexpected.IsNoNumber := by
  unfold unexpected
  split <;> exact isNoNumber_of_cause (by simp)

theorem TokenStream.isNoNumber_unexpectedDetailed (s : TokenStream) (expected : String) :
    (s.unexpectedDetailed expected).IsNoNumber := by
  unfold unexpectedDetailed
  split
  · exact s.isNoNumber_unexpected
  · exact isNoNumber_of_cause (by simp)

end OpenExpr
