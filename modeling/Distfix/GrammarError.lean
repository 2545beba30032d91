namespace Distfix

abbrev OperatorId := String

inductive GrammarError where
  | noSeparators
  | emptyTokenSet
  | emptyToken
  | zeroMaximum
  | invertedRepeats (min max : Nat)
  | leadingNotOnce
  | leadingScoped
  | inOperator (op : OperatorId) (cause : GrammarError)
  | duplicatedOperator (scope : String) (op : OperatorId)
  | duplicatedScope (name : String)
  | undefinedScope (name : String)
  | malformedTable (detail : String)
deriving DecidableEq

namespace GrammarError

def message : GrammarError → String
  | noSeparators => "operator has no separators"
  | emptyTokenSet => "separator accepts no tokens"
  | emptyToken => "separator token must not be empty"
  | zeroMaximum => "separator can never repeat"
  | invertedRepeats min max => s!"repetition minimum {min} exceeds maximum {max}"
  | leadingNotOnce => "leading separator must match exactly once"
  | leadingScoped => "leading separator cannot carry a scope"
  | inOperator op cause => "in operator `" ++ op ++ "`: " ++ cause.message
  | duplicatedOperator scope op => s!"operator `{op}` defined twice in scope `{scope}`"
  | duplicatedScope name => s!"scope `{name}` defined twice"
  | undefinedScope name => s!"undefined scope `{name}`"
  | malformedTable detail => s!"malformed grammar table: {detail}"

end GrammarError

end Distfix
