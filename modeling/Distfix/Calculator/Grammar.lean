import Distfix.Catalog

namespace Distfix.Calculator

def keyword (text : String) (repeats : Repeats) (h : text ≠ "" := by decide) : Separator :=
  ⟨.one text h, repeats, none⟩

def operator (text : String) (rest : List Separator) (fixity : Fixity)
    (h : text ≠ "" := by decide) : Definition :=
  { leading := .one text h, rest, fixity }

def group : OperatorId × Definition :=
  ("group", operator "(" [keyword "," .many, keyword ")" .once] .closed)

def plus : OperatorId × Definition := ("plus", operator "+" [] (.between 10 11))

def times : OperatorId × Definition := ("times", operator "*" [] (.between 20 21))

/-- A small language of natural numbers. Groups, blocks and conditionals have operands between
their keywords, and a definition ends with its line. -/
def operators : List (OperatorId × Definition) := [
  group,
  ("block", operator "do" [keyword ";" .atLeastOnce, keyword "end" .once] .closed),
  ("if", operator "if" [keyword "then" .once, keyword "else" .optional] (.before 1)),
  ("let", (operator "=" [] (.between 2 1)).keepNewline),
  plus,
  ("minus", operator "-" [] (.between 10 11)),
  times,
  ("neg", operator "~" [] (.before 30)),
  ("fact", operator "!" [] (.after 40))]

def scope : Scope := (Catalog.empty.scope operators).1

def catalog : Catalog := (Catalog.empty.scope operators).2

end Distfix.Calculator
